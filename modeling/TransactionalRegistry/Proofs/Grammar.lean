import Mathlib.Data.List.TakeWhile
import Mathlib.Data.Nat.Digits.Lemmas
import TransactionalRegistry.Proofs.Codec

/-!
# What the reader accepts

Which bytes are read as which value, told without the reader. A number is what its digits spell. A
string is what stands before the first zero unit. A list of strings is its strings with single zero
units between them, and it ends in one of three ways: with the last string, with one more zero unit,
or with two of them and whatever comes after. Bytes that none of this fits are refused, and the
refusal says which part did not fit.

`Value.Reads` is this grammar, and `Value.reads_iff` says that the reader decides it. The writer
uses one ending only, so the grammar covers much more than what is ever written; reading undoes
writing by `Value.decode_of_encode`, but nothing there speaks about the other endings.

## Main definitions

* `Value.HoldsString`, `Value.HoldsStrings`: Code units that hold a string, or a list of them.
* `Value.ListEnd`: What may follow the last string of a list.
* `Value.Reads`: What bytes are read as under a type code.

## Theorems

* `Bytes.toUnits?_eq_some`, `Bytes.toUnits?_eq_none`: Which bytes hold which code units.
* `Utf16.decode_eq_some`: The code units that are read as a text are those of the text.
* `Value.textOf_eq_ok`, `Value.entries_eq`: Strings, and lists of them, up to where they end.
* `Value.reads_iff`: The reader gives what the grammar gives, and nothing after the end matters.
-/

namespace TransactionalRegistry

/-! ## Bytes -/

namespace Bytes

/-- The number of some bytes, lowest first, is that of their digits to the base 256. -/
theorem ofLittleEndian_eq_ofDigits (bytes : List UInt8) :
    ofLittleEndian bytes = Nat.ofDigits 256 (bytes.map UInt8.toNat) := by
  induction bytes with
  | nil => rfl
  | cons b rest ih => rw [ofLittleEndian, List.map_cons, Nat.ofDigits_cons, ih]

/-- So many bytes hold no number that is larger than so many digits can. -/
theorem ofLittleEndian_lt (bytes : List UInt8) : ofLittleEndian bytes < 256 ^ bytes.length := by
  rw [ofLittleEndian_eq_ofDigits, ← List.length_map UInt8.toNat]
  apply Nat.ofDigits_lt_base_pow_length (by decide)
  intro digit hdigit
  rcases List.mem_map.mp hdigit with ⟨b, -, rfl⟩
  exact b.toNat_lt

theorem ofBigEndian_lt (bytes : List UInt8) : ofBigEndian bytes < 256 ^ bytes.length := by
  rw [ofBigEndian, ← List.length_reverse]
  exact ofLittleEndian_lt bytes.reverse

/-- Written with as many bytes as it was read from, a number gives these bytes back. -/
theorem littleEndian_ofLittleEndian (bytes : List UInt8) :
    littleEndian bytes.length (ofLittleEndian bytes) = bytes := by
  induction bytes with
  | nil => rfl
  | cons b rest ih =>
    -- The two steps of the writer take the low byte off and leave the number of the rest.
    have hlow : UInt8.ofNat (b.toNat + 256 * ofLittleEndian rest) = b := by
      apply UInt8.toNat_inj.mp
      rw [UInt8.toNat_ofNat']
      have hb := b.toNat_lt
      omega
    have hhigh : (b.toNat + 256 * ofLittleEndian rest) / 256 = ofLittleEndian rest := by
      have hb := b.toNat_lt
      omega
    rw [List.length_cons, ofLittleEndian, littleEndian, hlow, hhigh, ih]

/-- Bytes are those of some code units exactly if the reader of units finds these units in them. -/
theorem toUnits?_eq_some {bytes : List UInt8} {us : List UInt16} :
    toUnits? bytes = some us ↔ bytes = ofUnits us := by
  refine ⟨fun h => ?_, fun h => by rw [h, toUnits?_ofUnits]⟩
  induction bytes using toUnits?.induct generalizing us with
  | case1 => rw [← Option.some.inj h]; rfl
  | case2 => cases h
  | case3 a b rest ih =>
    rw [toUnits?, Option.map_eq_some_iff] at h
    rcases h with ⟨more, hmore, rfl⟩
    -- Two bytes fit into one unit, so that nothing is cut off when the unit is made.
    have hunit : (UInt16.ofNat (ofLittleEndian [a, b])).toNat = ofLittleEndian [a, b] :=
      UInt16.toNat_ofNat_of_lt' (by simpa using ofLittleEndian_lt [a, b])
    change a :: b :: rest = littleEndian 2 (UInt16.ofNat (ofLittleEndian [a, b])).toNat ++
      ofUnits more
    rw [hunit, ← ih hmore]
    exact congrArg (· ++ rest) (littleEndian_ofLittleEndian [a, b]).symm

/-- Only one byte too many keeps bytes from being code units. -/
theorem toUnits?_eq_none {bytes : List UInt8} :
    toUnits? bytes = none ↔ bytes.length % 2 = 1 := by
  induction bytes using toUnits?.induct with
  | case1 => simp [toUnits?]
  | case2 b => simp [toUnits?]
  | case3 a b rest ih =>
    rw [toUnits?, Option.map_eq_none_iff, ih, List.length_cons, List.length_cons]
    omega

end Bytes

/-! ## Code units -/

namespace Utf16

/-- A number in the range of characters is that of its character. -/
theorem toNat_ofNat {n : Nat} (h : n.isValidChar) : (Char.ofNat n).toNat = n := by
  rw [Char.ofNat, dif_pos h]
  rfl

/-- A unit that is no surrogate is the unit of its own character. -/
theorem unitsOf_basic {u : UInt16} (hhigh : ¬ isHigh u = true) (hlow : ¬ isLow u = true) :
    unitsOf (Char.ofNat u.toNat) = [u] := by
  rw [isHigh_iff] at hhigh
  rw [isLow_iff] at hlow
  have hbound : u.toNat < 65536 := u.toNat_lt
  have hvalid : u.toNat.isValidChar := by
    rw [Nat.isValidChar]
    omega
  rw [unitsOf, toNat_ofNat hvalid, if_pos hbound, UInt16.ofNat_toNat]

/-- A pair of surrogates is the pair of its own character. -/
theorem unitsOf_pairChar {u v : UInt16} (hhigh : isHigh u = true) (hlow : isLow v = true) :
    unitsOf (pairChar u v) = [u, v] := by
  rw [isHigh_iff] at hhigh
  rw [isLow_iff] at hlow
  -- The two halves count up from 0x10000 and stay within the range of characters.
  have hvalid :
      (0x10000 + (u.toNat - 0xD800) * 0x400 + (v.toNat - 0xDC00)).isValidChar := by
    rw [Nat.isValidChar]
    omega
  have hfirst : UInt16.ofNat (0xD800 + (0x10000 + (u.toNat - 0xD800) * 0x400 +
      (v.toNat - 0xDC00) - 0x10000) / 0x400) = u := by
    rw [show 0xD800 + (0x10000 + (u.toNat - 0xD800) * 0x400 + (v.toNat - 0xDC00) - 0x10000) / 0x400
      = u.toNat by omega, UInt16.ofNat_toNat]
  have hsecond : UInt16.ofNat (0xDC00 + (0x10000 + (u.toNat - 0xD800) * 0x400 +
      (v.toNat - 0xDC00) - 0x10000) % 0x400) = v := by
    rw [show 0xDC00 + (0x10000 + (u.toNat - 0xD800) * 0x400 + (v.toNat - 0xDC00) - 0x10000) % 0x400
      = v.toNat by omega, UInt16.ofNat_toNat]
  rw [unitsOf, pairChar, toNat_ofNat hvalid, if_neg (by omega), hfirst, hsecond]

/-- What was decoded encodes to the units that it was decoded from. -/
theorem encodeChars_of_decodeChars {us : List UInt16} {cs : List Char}
    (h : decodeChars us = some cs) : encodeChars cs = us := by
  induction us using decodeChars.induct generalizing cs with
  | case1 => rw [← Option.some.inj h]; rfl
  -- A high surrogate at the end is not decoded.
  | case2 u hhigh => simp [decodeChars, hhigh] at h
  | case3 u hhigh v rest hlow ih =>
    rw [decodeChars_pair hhigh hlow, Option.map_eq_some_iff] at h
    rcases h with ⟨more, hmore, rfl⟩
    rw [encodeChars, List.flatMap_cons, unitsOf_pairChar hhigh hlow, ← encodeChars, ih hmore]
    rfl
  -- Nor is one with anything but a low surrogate after it, and nor is a low one by itself.
  | case4 u hhigh v rest hlow => simp [decodeChars, hhigh, hlow] at h
  | case5 u rest hhigh hlow => simp [decodeChars.eq_def, hhigh, hlow] at h
  | case6 u rest hhigh hlow ih =>
    rw [decodeChars_basic hhigh hlow, Option.map_eq_some_iff] at h
    rcases h with ⟨more, hmore, rfl⟩
    rw [encodeChars, List.flatMap_cons, unitsOf_basic hhigh hlow, ← encodeChars, ih hmore]
    rfl

/-- Units are decoded to a text exactly if they are its encoding. -/
theorem decode_eq_some {us : List UInt16} {text : String} :
    decode us = some text ↔ us = encode text := by
  refine ⟨fun h => ?_, fun h => by rw [h, decode_encode]⟩
  rw [decode, Option.map_eq_some_iff] at h
  rcases h with ⟨cs, hcs, rfl⟩
  rw [encode, String.toList_ofList, encodeChars_of_decodeChars hcs]

/-- Only the zero character has a zero unit. -/
theorem zero_mem_unitsOf {c : Char} : 0 ∈ unitsOf c ↔ c = Char.ofNat 0 := by
  constructor
  · intro h
    have hvalid := toNat_valid c
    rw [unitsOf] at h
    split_ifs at h with hbasic
    · have hunit : (UInt16.ofNat c.toNat).toNat = c.toNat := UInt16.toNat_ofNat_of_lt' hbasic
      rw [← List.mem_singleton.mp h] at hunit
      rw [← Char.ofNat_toNat c, ← hunit]
      rfl
    · -- Neither half of a pair is zero: both lie in the range of the surrogates.
      rcases pairChar_halves (n := c.toNat) (by omega) (by omega) with ⟨hhigh, hlow, -⟩
      rw [isHigh_iff] at hhigh
      rw [isLow_iff] at hlow
      rcases List.mem_pair.mp h with h | h
      · rw [← h] at hhigh
        exact absurd hhigh.1 (by decide)
      · rw [← h] at hlow
        exact absurd hlow.1 (by decide)
  · rintro rfl
    decide

/-- A text has a zero unit just where it has a zero character. -/
theorem zero_mem_encode {text : String} : 0 ∈ encode text ↔ Char.ofNat 0 ∈ text.toList := by
  rw [encode, encodeChars, List.mem_flatMap]
  constructor
  · rintro ⟨c, hc, hzero⟩
    rwa [← zero_mem_unitsOf.mp hzero]
  · exact fun h => ⟨Char.ofNat 0, h, zero_mem_unitsOf.mpr rfl⟩

end Utf16

/-! ## Strings and lists of strings -/

namespace Value

variable {bytes : List UInt8} {us rest : List UInt16} {text : String} {texts : List String}

/-- There is no zero character in the text. -/
def NulFree (text : String) : Prop :=
  Char.ofNat 0 ∉ text.toList

/-- The same said of the code units, which is what the readers go by. -/
theorem nulFree_iff : NulFree text ↔ 0 ∉ Utf16.encode text := by
  rw [NulFree, Utf16.zero_mem_encode]

/-- The code units hold the text: they are its own up to the first zero unit, or up to their end if
    there is no zero unit. -/
def HoldsString (us : List UInt16) (text : String) : Prop :=
  NulFree text ∧ (us = Utf16.encode text ∨ ∃ more, us = Utf16.encode text ++ 0 :: more)

/-- What may come after the last string of a list: nothing, one zero unit, or two of them and
    anything. A list without strings needs only one zero unit for the same. -/
inductive ListEnd : List String → List UInt16 → Prop where
  | bare (texts : List String) : ListEnd texts []
  | closed {texts : List String} (h : texts ≠ []) : ListEnd texts [0]
  | closedTwice {texts : List String} (h : texts ≠ []) (more : List UInt16) :
    ListEnd texts (0 :: 0 :: more)
  | none (more : List UInt16) : ListEnd [] (0 :: more)

/-- The code units hold the list: its strings, none of them empty or with a zero in it, with single
    zero units between them, and then an end. -/
def HoldsStrings (us : List UInt16) (texts : List String) : Prop :=
  (∀ text ∈ texts, text ≠ "" ∧ NulFree text) ∧
    ∃ rest, us = [0].intercalate (texts.map Utf16.encode) ++ rest ∧ ListEnd texts rest

/-- Units spell a text exactly if they are its encoding. -/
theorem textOf_eq_ok : textOf us = .ok text ↔ us = Utf16.encode text := by
  rw [textOf, ← Utf16.decode_eq_some]
  cases Utf16.decode us with
  | none => simp
  | some found => simp

/-- A sequence of code units is what stands before its first zero unit, and then it ends or goes on
    with that zero unit. -/
theorem takeWhile_eq_iff {front : List UInt16} :
    us.takeWhile (· ≠ 0) = front ↔
      0 ∉ front ∧ (us = front ∨ ∃ more, us = front ++ 0 :: more) := by
  constructor
  · rintro rfl
    refine ⟨fun hzero => by simpa using List.mem_takeWhile_imp hzero, ?_⟩
    have hwhole := List.takeWhile_append_dropWhile (p := fun u : UInt16 => decide (u ≠ 0)) (l := us)
    have hnext := List.head?_dropWhile_not (fun u : UInt16 => decide (u ≠ 0)) us
    -- Either every unit was taken, or the first one that was not is a zero.
    cases hdrop : us.dropWhile (· ≠ 0) with
    | nil => exact .inl (by rw [hdrop, List.append_nil] at hwhole; exact hwhole.symm)
    | cons u more =>
      rw [hdrop] at hnext
      obtain rfl : u = 0 := by simpa using hnext
      exact .inr ⟨more, by rw [hdrop] at hwhole; exact hwhole.symm⟩
  · rintro ⟨hzero, rfl | ⟨more, rfl⟩⟩
    · rw [List.takeWhile_eq_self_iff]
      exact fun u hu => decide_eq_true (fun h => hzero (h ▸ hu))
    · exact takeWhile_terminated hzero more

/-- What stands before the first zero unit is the text that the units hold. -/
theorem textOf_takeWhile : textOf (us.takeWhile (· ≠ 0)) = .ok text ↔ HoldsString us text := by
  rw [textOf_eq_ok, takeWhile_eq_iff, HoldsString, nulFree_iff]

/-- The splitter is the library's own, cut at zero units. -/
theorem splitAtZero_eq_splitOn (us : List UInt16) : splitAtZero us = us.splitOn 0 := by
  induction us with
  | nil => rfl
  | cons u rest ih =>
    rw [splitAtZero, List.splitOn_cons_eq_if_modifyHead, ih]
    by_cases hzero : u = 0
    · simp [hzero]
    · cases hrest : rest.splitOn 0 with
      -- The rest has at least one entry, and the unit goes in front of it.
      | nil => exact absurd hrest (List.splitOn_ne_nil 0 rest)
      | cons entry entries => simp [hzero]

/-- There is no zero unit in an entry. -/
theorem zero_notMem_entry {entry : List UInt16} (h : entry ∈ splitAtZero us) : 0 ∉ entry := by
  induction us generalizing entry with
  | nil =>
    obtain rfl := List.mem_singleton.mp h
    exact List.not_mem_nil
  | cons u rest ih =>
    rw [splitAtZero] at h
    by_cases hzero : u = 0
    · rw [if_pos hzero] at h
      rcases List.mem_cons.mp h with rfl | h
      · exact List.not_mem_nil
      · exact ih h
    · -- Any other unit goes in front of the first entry of the rest, which has no zero in it
      -- either.
      rw [if_neg hzero] at h
      cases hrest : splitAtZero rest with
      | nil =>
        rw [hrest, List.mem_singleton] at h
        rw [h, List.mem_singleton]
        exact Ne.symm hzero
      | cons first entries =>
        rw [hrest, List.mem_cons] at h
        rw [hrest] at ih
        rcases h with rfl | h
        · rw [List.mem_cons, not_or]
          exact ⟨Ne.symm hzero, ih List.mem_cons_self⟩
        · exact ih (List.mem_cons_of_mem first h)

/-- Two parts of a list are joined by one zero unit, as the entries within them are. -/
theorem intercalate_append {xs ys : List (List UInt16)} (hxs : xs ≠ []) (hys : ys ≠ []) :
    [0].intercalate (xs ++ ys) = [0].intercalate xs ++ 0 :: [0].intercalate ys := by
  induction xs with
  | nil => exact absurd rfl hxs
  | cons x xs ih =>
    cases xs with
    | nil =>
      rw [List.singleton_append, List.intercalate_cons_of_ne_nil hys, List.intercalate_singleton,
        List.append_assoc]
      rfl
    | cons x' xs =>
      rw [List.cons_append, List.intercalate_cons_of_ne_nil (by simp),
        ih (List.cons_ne_nil x' xs), List.intercalate_cons_cons, List.append_assoc,
        List.append_assoc, List.append_assoc]

/-- A zero unit cuts the entries into those before it and those after it. -/
theorem splitAtZero_append_zero (us rest : List UInt16) :
    splitAtZero (us ++ 0 :: rest) = splitAtZero us ++ splitAtZero rest := by
  rw [splitAtZero_eq_splitOn, splitAtZero_eq_splitOn, splitAtZero_eq_splitOn,
    List.splitOn_append_cons_self]

/-- The entries before the first empty one. -/
def entries (us : List UInt16) : List (List UInt16) :=
  (splitAtZero us).takeWhile (· ≠ [])

/-- One more zero unit, and what comes after two of them, leaves the entries as they are. -/
theorem entries_append_zero (us : List UInt16) (hrest : rest = [] ∨ ∃ more, rest = 0 :: more) :
    entries (us ++ 0 :: rest) = entries us := by
  -- Either way the split goes on with an empty entry, and that ends the list.
  have hempty : ∃ later, splitAtZero rest = [] :: later := by
    rcases hrest with rfl | ⟨more, rfl⟩
    · exact ⟨[], rfl⟩
    · exact ⟨splitAtZero more, by rw [splitAtZero, if_pos rfl]⟩
  rcases hempty with ⟨later, hlater⟩
  rw [entries, entries, splitAtZero_append_zero, hlater, List.takeWhile_append]
  -- If all of the first part is kept, then nothing is taken from behind the empty entry; otherwise
  -- the list ends within the first part.
  split_ifs with hall
  · rw [List.takeWhile_cons_of_neg (by simp), List.append_nil]
    exact ((List.takeWhile_prefix _).eq_of_length hall).symm
  · rfl

/-- Entries are read as texts exactly if they are the encodings of these. -/
theorem mapM_textOf_eq_ok {found : List (List UInt16)} :
    found.mapM textOf = .ok texts ↔ found = texts.map Utf16.encode := by
  refine ⟨fun h => ?_, fun h => by rw [h, mapM_textOf]⟩
  induction found generalizing texts with
  | nil =>
    obtain rfl := Except.ok.inj h
    rfl
  | cons entry found ih =>
    rw [List.mapM_cons] at h
    rcases exists_of_bind h with ⟨text, htext, h⟩
    rcases exists_of_bind h with ⟨more, hmore, h⟩
    obtain rfl := Except.ok.inj h
    rw [List.map_cons, ih hmore, textOf_eq_ok.mp htext]

/-- The entries of texts that are joined by zero units are the encodings of these texts. -/
theorem entries_intercalate (hfilled : ∀ text ∈ texts, text ≠ "" ∧ NulFree text) :
    entries ([0].intercalate (texts.map Utf16.encode)) = texts.map Utf16.encode := by
  -- No entry has a zero in it, so that the split finds the joins and nothing else.
  have hclean : ∀ entry ∈ texts.map Utf16.encode, 0 ∉ entry := by
    intro entry hentry
    rcases List.mem_map.mp hentry with ⟨text, htext, rfl⟩
    exact nulFree_iff.mp (hfilled text htext).2
  rw [entries, splitAtZero_eq_splitOn]
  by_cases hnone : texts = []
  · rw [hnone]
    rfl
  · rw [List.splitOn_intercalate 0 hclean (by simpa using hnone), List.takeWhile_eq_self_iff]
    -- And none is empty, so that the list does not end before its last entry.
    intro entry hentry
    rcases List.mem_map.mp hentry with ⟨text, htext, rfl⟩
    exact decide_eq_true (encode_ne_nil (hfilled text htext).1)

/-- An empty entry ends the list, with whatever entries come after it. -/
theorem listEnd_of_entry (texts : List String) (later : List (List UInt16)) :
    ∃ rest, [0].intercalate (texts.map Utf16.encode ++ [] :: later) =
      [0].intercalate (texts.map Utf16.encode) ++ rest ∧ ListEnd texts rest := by
  -- The zero in front of the entries that come after the empty one is where they begin, if there
  -- are any.
  have htail : [0].intercalate ([] :: later) = [] ∨
      ∃ more : List UInt16, [0].intercalate ([] :: later) = 0 :: more := by
    cases later with
    | nil => exact .inl List.intercalate_singleton
    | cons entry later => exact .inr ⟨_, List.intercalate_cons_cons⟩
  by_cases hnone : texts = []
  · subst hnone
    refine ⟨[0].intercalate ([] :: later), rfl, ?_⟩
    rcases htail with htail | ⟨more, htail⟩
    · rw [htail]
      exact .bare []
    · rw [htail]
      exact .none more
  · -- Between the last text and the empty entry there is a zero unit of its own.
    refine ⟨0 :: [0].intercalate ([] :: later), ?_, ?_⟩
    · exact intercalate_append (by simpa using hnone) (List.cons_ne_nil [] later)
    · rcases htail with htail | ⟨more, htail⟩
      · rw [htail]
        exact .closed hnone
      · rw [htail]
        exact .closedTwice hnone more

/-- The entries are those of a list exactly if the code units hold the list. -/
theorem entries_eq : entries us = texts.map Utf16.encode ↔ HoldsStrings us texts := by
  constructor
  · intro h
    -- An entry has no zero unit in it, and the ones that are kept are not empty.
    have hfilled : ∀ text ∈ texts, text ≠ "" ∧ NulFree text := by
      intro text htext
      have hentry : Utf16.encode text ∈ entries us := h ▸ List.mem_map_of_mem htext
      refine ⟨?_, nulFree_iff.mpr (zero_notMem_entry (List.takeWhile_subset _ hentry))⟩
      rintro rfl
      have himp := List.mem_takeWhile_imp hentry
      exact of_decide_eq_true himp rfl
    refine ⟨hfilled, ?_⟩
    -- All units are the entries with zeros between them; the first empty entry, if there is one,
    -- says how the list ends.
    have hwhole : [0].intercalate (splitAtZero us) = us := by
      rw [splitAtZero_eq_splitOn, List.intercalate_splitOn]
    have hsplit := List.takeWhile_append_dropWhile (p := fun e : List UInt16 => decide (e ≠ []))
      (l := splitAtZero us)
    have hnext := List.head?_dropWhile_not (fun e : List UInt16 => decide (e ≠ []))
      (splitAtZero us)
    rw [← entries, h] at hsplit
    cases hdrop : (splitAtZero us).dropWhile (· ≠ []) with
    | nil =>
      rw [hdrop, List.append_nil] at hsplit
      exact ⟨[], by rw [List.append_nil, hsplit, hwhole], .bare texts⟩
    | cons entry later =>
      rw [hdrop] at hnext
      obtain rfl : entry = [] := by simpa using hnext
      rw [hdrop] at hsplit
      rw [← hwhole, ← hsplit]
      exact listEnd_of_entry texts later
  · rintro ⟨hfilled, rest, rfl, hend⟩
    cases hend with
    | bare => rw [List.append_nil, entries_intercalate hfilled]
    | closed => rw [entries_append_zero _ (.inl rfl), entries_intercalate hfilled]
    | closedTwice _ more =>
      rw [entries_append_zero _ (.inr ⟨more, rfl⟩), entries_intercalate hfilled]
    | none more =>
      rw [entries, List.map_nil, List.intercalate_nil, List.nil_append, splitAtZero, if_pos rfl]
      rfl

/-! ## The grammar -/

/-- What the bytes of a stored value are read as under a type code. -/
inductive Reads (bytes : List UInt8) : UInt32 → Except ValueError Value → Prop where
  | none : Reads bytes 0 (.ok .none)
  | string {us : List UInt16} {text : String} (hbytes : bytes = Bytes.ofUnits us)
    (htext : HoldsString us text) : Reads bytes 1 (.ok (.string text))
  | expandString {us : List UInt16} {text : String} (hbytes : bytes = Bytes.ofUnits us)
    (htext : HoldsString us text) : Reads bytes 2 (.ok (.expandString text))
  | binary : Reads bytes 3 (.ok (.binary bytes))
  | dword {n : UInt32} (hlength : bytes.length = 4)
    (hdigits : n.toNat = Nat.ofDigits 256 (bytes.map UInt8.toNat)) : Reads bytes 4 (.ok (.dword n))
  | dwordBigEndian {n : UInt32} (hlength : bytes.length = 4)
    (hdigits : n.toNat = Nat.ofDigits 256 (bytes.reverse.map UInt8.toNat)) :
    Reads bytes 5 (.ok (.dwordBigEndian n))
  | multiString {us : List UInt16} {texts : List String} (hbytes : bytes = Bytes.ofUnits us)
    (htexts : HoldsStrings us texts) : Reads bytes 7 (.ok (.multiString texts))
  | qword {n : UInt64} (hlength : bytes.length = 8)
    (hdigits : n.toNat = Nat.ofDigits 256 (bytes.map UInt8.toNat)) : Reads bytes 11 (.ok (.qword n))
  | oddLength {code : UInt32} (hcode : code ∈ [1, 2, 7]) (hodd : bytes.length % 2 = 1) :
    Reads bytes code (.error (.oddLength bytes.length))
  | noString {code : UInt32} {us : List UInt16} (hcode : code ∈ [1, 2])
    (hbytes : bytes = Bytes.ofUnits us) (hnone : ∀ text, ¬ HoldsString us text) :
    Reads bytes code (.error .invalidUtf16)
  | noStrings {us : List UInt16} (hbytes : bytes = Bytes.ofUnits us)
    (hnone : ∀ texts, ¬ HoldsStrings us texts) : Reads bytes 7 (.error .invalidUtf16)
  | wrongLength {code : UInt32} {kind : ValueKind} {width : Nat}
    (hcode : (code, kind, width) ∈ [(4, .dword, 4), (5, .dwordBigEndian, 4), (11, .qword, 8)])
    (hlength : bytes.length ≠ width) :
    Reads bytes code (.error (.wrongLength kind width bytes.length))
  | unsupported {code : UInt32} (hcode : code ∉ [0, 1, 2, 3, 4, 5, 7, 11]) :
    Reads bytes code (.error (.unsupportedType code))

/-- Bytes are left over, or they are those of code units. -/
theorem odd_or_ofUnits (bytes : List UInt8) :
    bytes.length % 2 = 1 ∨ ∃ us, bytes = Bytes.ofUnits us := by
  cases hunits : Bytes.toUnits? bytes with
  | none => exact .inl (Bytes.toUnits?_eq_none.mp hunits)
  | some us => exact .inr ⟨us, Bytes.toUnits?_eq_some.mp hunits⟩

/-- One byte too many is told with the number of all bytes. -/
theorem units_of_odd (h : bytes.length % 2 = 1) :
    units bytes = .error (.oddLength bytes.length) := by
  rw [units, Bytes.toUnits?_eq_none.mpr h]

/-- There is one way only in which code units spell no text. -/
theorem textOf_error {e : ValueError} (h : textOf us = .error e) : e = .invalidUtf16 := by
  rw [textOf] at h
  cases hdecode : Utf16.decode us with
  | none =>
    rw [hdecode] at h
    exact (Except.error.inj h).symm
  | some text =>
    rw [hdecode] at h
    cases h

/-- Nor is there another way for a list of texts. -/
theorem mapM_textOf_error {found : List (List UInt16)} {e : ValueError}
    (h : found.mapM textOf = .error e) : e = .invalidUtf16 := by
  induction found with
  | nil => cases h
  | cons entry found ih =>
    rw [List.mapM_cons] at h
    cases htext : textOf entry with
    | error e' =>
      rw [htext] at h
      obtain rfl : e' = e := Except.error.inj h
      exact textOf_error htext
    | ok text =>
      cases hmore : found.mapM textOf with
      | error e' =>
        rw [htext, hmore] at h
        obtain rfl : e' = e := Except.error.inj h
        exact ih hmore
      | ok more =>
        rw [htext, hmore] at h
        cases h

/-! ### One string -/

/-- One string is read from the units before the first zero. -/
theorem readString_ofUnits (us : List UInt16) :
    readString (Bytes.ofUnits us) = textOf (us.takeWhile (· ≠ 0)) := by
  rw [readString, units_ofUnits]
  rfl

/-- One byte too many is refused before any text is looked for. -/
theorem readString_of_odd (h : bytes.length % 2 = 1) :
    readString bytes = .error (.oddLength bytes.length) := by
  rw [readString, units_of_odd h]
  rfl

/-- The text that the units hold is read. -/
theorem readString_of_holds (h : HoldsString us text) :
    readString (Bytes.ofUnits us) = .ok text := by
  rw [readString_ofUnits, textOf_takeWhile.mpr h]

/-- If the units hold no text, then they are refused. -/
theorem readString_of_none (h : ∀ text, ¬ HoldsString us text) :
    readString (Bytes.ofUnits us) = .error .invalidUtf16 := by
  rw [readString_ofUnits]
  cases hread : textOf (us.takeWhile (· ≠ 0)) with
  | ok text => exact absurd (textOf_takeWhile.mp hread) (h text)
  | error e => rw [textOf_error hread]

/-! ### A list of strings -/

/-- A list is read entry by entry, up to the first empty one. -/
theorem readStrings_ofUnits (us : List UInt16) :
    readStrings (Bytes.ofUnits us) = (entries us).mapM textOf := by
  rw [readStrings, units_ofUnits]
  rfl

/-- One byte too many is refused before the units are split. -/
theorem readStrings_of_odd (h : bytes.length % 2 = 1) :
    readStrings bytes = .error (.oddLength bytes.length) := by
  rw [readStrings, units_of_odd h]
  rfl

/-- The list that the units hold is read. -/
theorem readStrings_of_holds (h : HoldsStrings us texts) :
    readStrings (Bytes.ofUnits us) = .ok texts := by
  rw [readStrings_ofUnits, entries_eq.mpr h, mapM_textOf]

/-- If the units hold no list, then they are refused. -/
theorem readStrings_of_none (h : ∀ texts, ¬ HoldsStrings us texts) :
    readStrings (Bytes.ofUnits us) = .error .invalidUtf16 := by
  rw [readStrings_ofUnits]
  cases hread : (entries us).mapM textOf with
  | ok texts => exact absurd (entries_eq.mp (mapM_textOf_eq_ok.mp hread)) (h texts)
  | error e => rw [mapM_textOf_error hread]

/-! ### A number -/

/-- A number of the right width is read in its order of bytes. -/
theorem readNumber_of_length {kind : ValueKind} {width : Nat} {order : List UInt8 → Nat}
    (h : bytes.length = width) : readNumber kind width order bytes = .ok (order bytes) :=
  if_pos h

/-- Any other width is told with what it should have been. -/
theorem readNumber_of_wrong {kind : ValueKind} {width : Nat} {order : List UInt8 → Nat}
    (h : bytes.length ≠ width) :
    readNumber kind width order bytes = .error (.wrongLength kind width bytes.length) :=
  if_neg h

/-! ### Every type -/

/-- Under the code of a kind the bytes are read as those of this kind. -/
theorem decode_code (kind : ValueKind) (bytes : List UInt8) :
    decode ⟨kind.code, bytes⟩ = ofBytes kind bytes := by
  rw [decode, ValueData.kind?, ofCode?_code]

/-- A code without a name is not in the list, and nothing is read under it. -/
theorem decode_unnamed {code : UInt32} (h : ValueKind.ofCode? code = .none) (bytes : List UInt8) :
    decode ⟨code, bytes⟩ = .error (.unsupportedType code) := by
  rw [decode, ValueData.kind?, h]

/-- A code stands for one kind only. -/
theorem code_of_ofCode? {code : UInt32} {kind : ValueKind}
    (h : ValueKind.ofCode? code = some kind) : code = kind.code := by
  have hcode := List.find?_some h
  exact (of_decide_eq_true hcode).symm

/-- Reading one string keeps to the grammar, under either of the two codes for one. -/
theorem reads_string {code : UInt32} {f : String → Value} (hcode : code ∈ [1, 2])
    (hok : ∀ us text, bytes = Bytes.ofUnits us → HoldsString us text →
      Reads bytes code (.ok (f text))) :
    Reads bytes code (f <$> readString bytes) := by
  rcases odd_or_ofUnits bytes with hodd | ⟨us, rfl⟩
  · -- The codes for one string are among those where an odd length is refused.
    rw [readString_of_odd hodd]
    refine .oddLength ?_ hodd
    simp only [List.mem_cons, List.not_mem_nil, or_false] at hcode ⊢
    exact hcode.imp_right .inl
  · -- All bytes are code units here, which hold some text or none.
    by_cases hheld : ∃ text, HoldsString us text
    · rcases hheld with ⟨text, htext⟩
      rw [readString_of_holds htext]
      exact hok us text rfl htext
    · rw [readString_of_none (not_exists.mp hheld)]
      exact .noString hcode rfl (not_exists.mp hheld)

/-- Reading a list of strings keeps to the grammar. -/
theorem reads_strings : Reads bytes 7 (multiString <$> readStrings bytes) := by
  rcases odd_or_ofUnits bytes with hodd | ⟨us, rfl⟩
  · rw [readStrings_of_odd hodd]
    exact .oddLength (by decide) hodd
  · by_cases hheld : ∃ texts, HoldsStrings us texts
    · rcases hheld with ⟨texts, htexts⟩
      rw [readStrings_of_holds htexts]
      exact .multiString rfl htexts
    · rw [readStrings_of_none (not_exists.mp hheld)]
      exact .noStrings rfl (not_exists.mp hheld)

/-- Reading a number keeps to the grammar, under the three codes for one. -/
theorem reads_number {code : UInt32} {kind : ValueKind} {width : Nat} {order : List UInt8 → Nat}
    {f : Nat → Value}
    (hcode : (code, kind, width) ∈ [(4, .dword, 4), (5, .dwordBigEndian, 4), (11, .qword, 8)])
    (hok : bytes.length = width → Reads bytes code (.ok (f (order bytes)))) :
    Reads bytes code (do return f (← readNumber kind width order bytes)) := by
  by_cases hlength : bytes.length = width
  · rw [readNumber_of_length hlength]
    exact hok hlength
  · rw [readNumber_of_wrong hlength]
    exact .wrongLength hcode hlength

/-- A word of four bytes loses nothing of the number that was read. -/
theorem toNat_dword {order : List UInt8 → Nat} (horder : order bytes < 256 ^ bytes.length)
    (hlength : bytes.length = 4) : (UInt32.ofNat (order bytes)).toNat = order bytes := by
  rw [hlength] at horder
  exact UInt32.toNat_ofNat_of_lt' horder

/-- The reader keeps to the grammar. -/
theorem decode_reads (data : ValueData) : Reads data.bytes data.code (decode data) := by
  rcases data with ⟨code, bytes⟩
  change Reads bytes code (decode ⟨code, bytes⟩)
  cases hkind : ValueKind.ofCode? code with
  | none =>
    rw [decode_unnamed hkind]
    refine .unsupported fun hcode => ?_
    simp only [List.mem_cons, List.not_mem_nil, or_false] at hcode
    -- Each of the codes in the list has a kind, so that none of them is without one.
    rcases hcode with rfl | rfl | rfl | rfl | rfl | rfl | rfl | rfl <;> cases hkind
  | some kind =>
    obtain rfl := code_of_ofCode? hkind
    rw [decode_code]
    cases kind with
    | none => exact .none
    | sz => exact reads_string (by decide) fun us text => .string
    | expandSz => exact reads_string (by decide) fun us text => .expandString
    | binary => exact .binary
    | dword =>
      refine reads_number (by decide) fun hlength => .dword hlength ?_
      rw [toNat_dword (Bytes.ofLittleEndian_lt bytes) hlength, Bytes.ofLittleEndian_eq_ofDigits]
    | dwordBigEndian =>
      refine reads_number (by decide) fun hlength => .dwordBigEndian hlength ?_
      rw [toNat_dword (Bytes.ofBigEndian_lt bytes) hlength, Bytes.ofBigEndian,
        Bytes.ofLittleEndian_eq_ofDigits]
    | multiSz => exact reads_strings
    | qword =>
      refine reads_number (by decide) fun hlength => .qword hlength ?_
      have hbound := Bytes.ofLittleEndian_lt bytes
      rw [hlength] at hbound
      rw [← Bytes.ofLittleEndian_eq_ofDigits]
      exact UInt64.toNat_ofNat_of_lt' hbound
    -- These four kinds have codes of their own, but no reader.
    | link | resourceList | fullResourceDescriptor | resourceRequirementsList =>
      exact .unsupported (by decide)

/-- What the grammar gives, the reader gives. -/
theorem Reads.decode_eq {code : UInt32} {result : Except ValueError Value}
    (h : Reads bytes code result) : decode ⟨code, bytes⟩ = result := by
  cases h with
  | none => exact decode_code .none bytes
  | string hbytes htext =>
    refine (decode_code .sz bytes).trans ?_
    rw [ofBytes, hbytes, readString_of_holds htext]
    rfl
  | expandString hbytes htext =>
    refine (decode_code .expandSz bytes).trans ?_
    rw [ofBytes, hbytes, readString_of_holds htext]
    rfl
  | binary => exact decode_code .binary bytes
  | @dword n hlength hdigits =>
    refine (decode_code .dword bytes).trans ?_
    rw [← Bytes.ofLittleEndian_eq_ofDigits] at hdigits
    rw [ofBytes, readNumber_of_length hlength, ← hdigits]
    exact congrArg (fun m => Except.ok (Value.dword m)) UInt32.ofNat_toNat
  | @dwordBigEndian n hlength hdigits =>
    refine (decode_code .dwordBigEndian bytes).trans ?_
    rw [← Bytes.ofLittleEndian_eq_ofDigits, ← Bytes.ofBigEndian] at hdigits
    rw [ofBytes, readNumber_of_length hlength, ← hdigits]
    exact congrArg (fun m => Except.ok (Value.dwordBigEndian m)) UInt32.ofNat_toNat
  | multiString hbytes htexts =>
    refine (decode_code .multiSz bytes).trans ?_
    rw [ofBytes, hbytes, readStrings_of_holds htexts]
    rfl
  | @qword n hlength hdigits =>
    refine (decode_code .qword bytes).trans ?_
    rw [← Bytes.ofLittleEndian_eq_ofDigits] at hdigits
    rw [ofBytes, readNumber_of_length hlength, ← hdigits]
    exact congrArg (fun m => Except.ok (Value.qword m)) UInt64.ofNat_toNat
  -- One case for each of the three codes under which code units are read.
  | oddLength hcode hodd =>
    simp only [List.mem_cons, List.not_mem_nil, or_false] at hcode
    rcases hcode with rfl | rfl | rfl
    · exact (decode_code .sz bytes).trans (by rw [ofBytes, readString_of_odd hodd]; rfl)
    · exact (decode_code .expandSz bytes).trans (by rw [ofBytes, readString_of_odd hodd]; rfl)
    · exact (decode_code .multiSz bytes).trans (by rw [ofBytes, readStrings_of_odd hodd]; rfl)
  | noString hcode hbytes hnone =>
    simp only [List.mem_cons, List.not_mem_nil, or_false] at hcode
    rw [hbytes]
    rcases hcode with rfl | rfl
    · exact (decode_code .sz _).trans (by rw [ofBytes, readString_of_none hnone]; rfl)
    · exact (decode_code .expandSz _).trans (by rw [ofBytes, readString_of_none hnone]; rfl)
  | noStrings hbytes hnone =>
    rw [hbytes]
    exact (decode_code .multiSz _).trans (by rw [ofBytes, readStrings_of_none hnone]; rfl)
  | wrongLength hcode hlength =>
    simp only [List.mem_cons, List.not_mem_nil, or_false, Prod.mk.injEq] at hcode
    rcases hcode with ⟨rfl, rfl, rfl⟩ | ⟨rfl, rfl, rfl⟩ | ⟨rfl, rfl, rfl⟩
    · exact (decode_code .dword bytes).trans (by rw [ofBytes, readNumber_of_wrong hlength]; rfl)
    · exact (decode_code .dwordBigEndian bytes).trans
        (by rw [ofBytes, readNumber_of_wrong hlength]; rfl)
    · exact (decode_code .qword bytes).trans (by rw [ofBytes, readNumber_of_wrong hlength]; rfl)
  -- A code out of the list has no kind, or one of the four that nothing is read for.
  | unsupported hcode =>
    cases hkind : ValueKind.ofCode? code with
    | none => exact decode_unnamed hkind bytes
    | some kind =>
      obtain rfl := code_of_ofCode? hkind
      rw [decode_code]
      cases kind with
      | link | resourceList | fullResourceDescriptor | resourceRequirementsList => rfl
      | none | sz | expandSz | binary | dword | dwordBigEndian | multiSz | qword =>
        exact absurd (by decide) hcode

/-- What comes after the first zero unit is passed over when one string is read. -/
theorem readString_after_end (us more : List UInt16) :
    readString (Bytes.ofUnits (us ++ 0 :: more)) = readString (Bytes.ofUnits us) := by
  have hfront : (us ++ 0 :: more).takeWhile (· ≠ 0) = us.takeWhile (· ≠ 0) := by
    -- The units before the first zero are what they were, wherever that zero was found.
    rcases takeWhile_eq_iff.mp (Eq.refl (us.takeWhile (· ≠ 0))) with ⟨hzero, hends | ⟨later, hends⟩⟩
    · exact takeWhile_eq_iff.mpr ⟨hzero, .inr ⟨more, by rw [← hends]⟩⟩
    · refine takeWhile_eq_iff.mpr ⟨hzero, .inr ⟨later ++ 0 :: more, ?_⟩⟩
      rw [← List.cons_append, ← List.append_assoc, ← hends]
  rw [readString_ofUnits, readString_ofUnits, hfront]

/-- One zero unit at the end of a list, and what comes after two of them, is passed over. -/
theorem readStrings_after_end (us : List UInt16) (h : rest = [] ∨ ∃ more, rest = 0 :: more) :
    readStrings (Bytes.ofUnits (us ++ 0 :: rest)) = readStrings (Bytes.ofUnits us) := by
  rw [readStrings_ofUnits, readStrings_ofUnits, entries_append_zero us h]

/-- The reader accepts exactly its grammar: under every type code and for all bytes it gives what
    the grammar gives and nothing else. So it does not matter whether the zero units at the end of a
    string or of a list of strings are there, nor what comes after them. -/
theorem reads_iff (data : ValueData) (result : Except ValueError Value) (us more : List UInt16) :
    (decode data = result ↔ Reads data.bytes data.code result) ∧
      decode (.ofKind .sz (Bytes.ofUnits (us ++ 0 :: more))) =
        decode (.ofKind .sz (Bytes.ofUnits us)) ∧
      decode (.ofKind .expandSz (Bytes.ofUnits (us ++ 0 :: more))) =
        decode (.ofKind .expandSz (Bytes.ofUnits us)) ∧
      decode (.ofKind .multiSz (Bytes.ofUnits (us ++ [0]))) =
        decode (.ofKind .multiSz (Bytes.ofUnits us)) ∧
      decode (.ofKind .multiSz (Bytes.ofUnits (us ++ 0 :: 0 :: more))) =
        decode (.ofKind .multiSz (Bytes.ofUnits us)) := by
  refine ⟨⟨?_, Reads.decode_eq⟩, ?_, ?_, ?_, ?_⟩
  · rintro rfl
    exact decode_reads data
  · rw [ValueData.ofKind, ValueData.ofKind, decode_code, decode_code, ofBytes, ofBytes,
      readString_after_end]
  · rw [ValueData.ofKind, ValueData.ofKind, decode_code, decode_code, ofBytes, ofBytes,
      readString_after_end]
  · rw [ValueData.ofKind, ValueData.ofKind, decode_code, decode_code, ofBytes, ofBytes,
      readStrings_after_end us (.inl rfl)]
  · rw [ValueData.ofKind, ValueData.ofKind, decode_code, decode_code, ofBytes, ofBytes,
      readStrings_after_end us (.inr ⟨more, rfl⟩)]

end Value

end TransactionalRegistry
