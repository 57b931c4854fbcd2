import TransactionalRegistry.Text.CaseTable

/-!
# Folding names

Names of keys and values keep the letter case they were given and are looked up without regard to
it: two names are the same name when they have the same lower-case form. The lower-case form is the
full one of the Unicode standard. It differs from a letter-by-letter mapping in two places: `U+0130`
becomes two characters, and a capital sigma becomes a final sigma where it ends a word.

A sigma ends a word when, case-ignorable characters skipped, a cased character stands before it and
none stands after it. So the image of one character depends on all the others, and folding two names
piece by piece is not folding what they make up together.

## Main definitions

* `lower`: The lower-case form of a single character, out of context.
* `startsCased`: Whether the first character that is not case-ignorable is cased.
* `endsWord`: Whether a sigma between two texts ends a word.
* `foldChars`: The lower-case form of a list of characters.
* `fold`: The lower-case form of a name.
-/

namespace TransactionalRegistry

namespace Text

/-- The lower-case form of a character out of context. -/
def lower (c : Char) : List Char :=
  if c.toNat < 128 then [c.toLower]
  else if c.toNat = 0x130 then ['i', Char.ofNat 0x307]
  else
    match lowerRuns.findSome? (·.image? c.toNat) with
    | some n => [Char.ofNat n]
    | none => [c]

/-- Whether a character is a cased letter. -/
def isCased (c : Char) : Bool :=
  inRanges casedRanges c.toNat

/-- Whether a character is passed over when a cased letter is looked for. -/
def isCaseIgnorable (c : Char) : Bool :=
  inRanges caseIgnorableRanges c.toNat

/-- Whether the first character that is not case-ignorable is a cased letter. -/
def startsCased (cs : List Char) : Bool :=
  match cs.dropWhile isCaseIgnorable with
  | [] => false
  | c :: _ => isCased c

/-- Whether a sigma ends a word, given what stands before it, nearest character first, and what
    stands after it. -/
def endsWord (before after : List Char) : Bool :=
  startsCased before && !startsCased after

/-- The capital sigma. -/
def capitalSigma : Char := Char.ofNat 0x3A3

/-- The small sigma inside a word. -/
def smallSigma : Char := Char.ofNat 0x3C3

/-- The small sigma at the end of a word. -/
def finalSigma : Char := Char.ofNat 0x3C2

/-- The lower-case form of a character that stands between `before`, nearest character first, and
    `after`. -/
def lowerBetween (before : List Char) (c : Char) (after : List Char) : List Char :=
  if c = capitalSigma then [if endsWord before after then finalSigma else smallSigma] else lower c

/-- The lower-case form of the characters that follow `before`, nearest character first. -/
def foldAfter (before : List Char) : List Char → List Char
  | [] => []
  | c :: rest => lowerBetween before c rest ++ foldAfter (c :: before) rest

/-- The lower-case form of a list of characters. -/
def foldChars (cs : List Char) : List Char :=
  foldAfter [] cs

/-- The lower-case form of a name, under which it is looked up. -/
def fold (name : String) : String :=
  String.ofList (foldChars name.toList)

end Text

end TransactionalRegistry
