import TransactionalRegistry.Proofs.Paths
import TransactionalRegistry.Registry.Operations

/-!
# Texts that spell a location

A location is written in one way and read in many: the name of its root key may be the long or the
short one, in any case of its letters, and separators may be added in front, at the end, and
wherever one stands. These spellings are given here by rules of their own, without the reader. The
reader accepts a text as a location exactly if the text is one of its spellings, so it neither
refuses a spelling nor takes a text for two locations.

Paths and locations come about in a few ways only, by reading a text or by moving from one to
another, and their names are single in all of them. That makes what is written the text of the same
path again, whichever side reads it: the one that names keys or the one that holds them.

## Main definitions

* `Path.Made`, `Location.Made`: The paths and locations that come about.
* `Path.Trail`: The texts that spell the names below a root key.
* `Location.Spelled`: The texts that spell a location.

## Theorems

* `Path.made_iff`, `Location.made_iff`: They are the ones whose names are single.
* `RootKey.ofName?_eq_some_iff`: A root key is read from its two names, in any case of letters.
* `Location.ofText?_eq_some_iff`: The reader accepts the spellings of a location.
* `texts_round_trip`: Paths and locations are read back from what they are written as.
-/

namespace TransactionalRegistry

/-! ## Paths that come about -/

namespace Path

/-- The paths that come about by reading a text and by moving from path to path. -/
inductive Made : Path → Prop
  | read (text : String) : Made (ofText text)
  | down {p : Path} (hp : Made p) (relative : String) : Made (p.join relative)
  | up {p q : Path} (hp : Made p) (hparent : p.parent? = some q) : Made q
  | beside {p q : Path} (hp : Made p) {name : String} (hname : p.withName? name = some q) : Made q

variable {p q : Path} {names : List String} {cs : List Char} {name : String}

/-- What is above a path is made of its names. -/
theorem Sound.parent (h : p.Sound) (hparent : p.parent? = some q) : q.Sound := by
  rw [parent?] at hparent
  split at hparent
  · exact absurd hparent (by simp)
  · rw [← Option.some.inj hparent]
    exact fun name hname => h name (List.dropLast_subset _ hname)

theorem Made.sound (h : p.Made) : p.Sound := by
  -- What is above a path and what is beside it are made of names that were single before.
  induction h with
  | read text => exact sound_ofText text
  | down _ relative ih => exact ih.join relative
  | up _ hparent ih => exact ih.parent hparent
  | beside _ hname ih =>
    obtain ⟨above, habove, rfl⟩ := Option.map_eq_some_iff.mp hname
    exact (ih.parent habove).join _

theorem made_iff (p : Path) : p.Made ↔ p.Sound :=
  ⟨Made.sound, fun h => ofText_text h ▸ .read p.text⟩

/-! ## Names after a root key -/

/-- The texts that spell `names` after the name of a root key: a separator before each name, and
    further ones wherever a separator may stand. -/
inductive Trail : List String → List Char → Prop
  | done : Trail [] []
  | further {names : List String} {cs : List Char} (h : Trail names cs) :
      Trail names (separator :: cs)
  | named {name : String} {names : List String} {cs : List Char}
      (hname : name ≠ "" ∧ separator ∉ name.toList) (h : Trail names cs) :
      Trail (name :: names) (separator :: (name.toList ++ cs))

/-- A name is never followed by one of its own characters. -/
theorem Trail.starts (h : Trail names cs) : cs = [] ∨ ∃ rest, cs = separator :: rest := by
  cases h with
  | done => exact Or.inl rfl
  | further => exact Or.inr ⟨_, rfl⟩
  | named => exact Or.inr ⟨_, rfl⟩

theorem toList_single (h : name ≠ "" ∧ separator ∉ name.toList) :
    name.toList ≠ [] ∧ separator ∉ name.toList :=
  ⟨fun hempty => h.1 (String.toList_eq_nil_iff.mp hempty), h.2⟩

/-- A separator in front spells no name. -/
theorem namesIn_separator (cs : List Char) : namesIn (separator :: cs) = namesIn cs :=
  namesIn_append [] cs

/-- From a trail the names are read that it spells. -/
theorem Trail.namesIn (h : Trail names cs) : namesIn cs = names.map String.toList := by
  induction h with
  | done => rfl
  | further _ ih => rw [namesIn_separator, ih]
  | @named name names cs hname h ih =>
    rw [namesIn_separator, List.map_cons]
    -- A name ends where the rest does or where its next separator stands.
    rcases h.starts with rfl | ⟨rest, rfl⟩
    · rw [List.append_nil, namesIn_single (toList_single hname), ← ih]
      rfl
    · rw [namesIn_append, namesIn_single (toList_single hname), ← ih, namesIn_separator]
      rfl

/-- What is read after a separator is what a trail spells. -/
theorem Trail.ofText_drop (h : Trail names cs) : ofText (String.ofList (cs.drop 1)) = ⟨names⟩ := by
  -- Whether or not a separator was dropped, the same names are read.
  have hdrop : Path.namesIn (cs.drop 1) = Path.namesIn cs := by
    rcases h.starts with rfl | ⟨rest, rfl⟩
    · rfl
    · exact (namesIn_separator rest).symm
  rw [ofText, String.toList_ofList, hdrop, h.namesIn, List.map_map]
  exact congrArg Path.mk (by simp [Function.comp_def])

/-- A piece without separators is one name or none, and goes before a trail with a separator in
    front of it. -/
theorem Trail.after_piece {piece : List Char} (h : Trail names cs) (hpiece : separator ∉ piece) :
    Trail ((Path.namesIn piece).map String.ofList ++ names) (separator :: (piece ++ cs)) := by
  by_cases hempty : piece = []
  · rw [hempty]
    exact .further h
  · have hsingle : String.ofList piece ≠ "" ∧ separator ∉ (String.ofList piece).toList :=
      ⟨fun heq => hempty (String.ofList_eq_empty_iff.mp heq), by rwa [String.toList_ofList]⟩
    have htrail := Trail.named hsingle h
    rw [String.toList_ofList] at htrail
    rw [namesIn_single ⟨hempty, hpiece⟩]
    exact htrail

/-- Every text behind a separator is a trail of the names that are read from it. -/
theorem trail_namesIn (cs : List Char) :
    Trail ((namesIn cs).map String.ofList) (separator :: cs) := by
  -- The recursion is on the length: the text up to the next separator is one piece.
  by_cases hmem : separator ∈ cs
  · obtain ⟨piece, rest, hcs, hpiece⟩ := List.eq_append_cons_of_mem hmem
    have hshorter : rest.length < cs.length := by
      rw [hcs, List.length_append, List.length_cons]
      omega
    rw [hcs, namesIn_append, List.map_append]
    exact (trail_namesIn rest).after_piece hpiece
  · have htrail := Trail.done.after_piece hmem
    rwa [List.append_nil, List.append_nil] at htrail
termination_by cs.length

/-- A path is written as a trail, but for the separator in front. -/
theorem trail_text (h : p.Sound) : Trail p.names (separator :: p.text.toList) := by
  have htrail := trail_namesIn p.text.toList
  have hnames : (namesIn p.text.toList).map String.ofList = p.names :=
    congrArg Path.names (ofText_text h)
  rwa [hnames] at htrail

end Path

/-! ## Names of root keys -/

namespace RootKey

variable {r s : RootKey} {word : String}

/-- A word for a root key: its long or its short name, in any case of ASCII letters. -/
def Word (r : RootKey) (word : String) : Prop :=
  ∃ name ∈ [r.name, r.shortName], name.toList.map Char.toLower = word.toList.map Char.toLower

/-- Comparing a text with both names of a root key decides whether it is a word for the key. -/
theorem word_iff (r : RootKey) (word : String) :
    r.Word word ↔ (sameLetters r.name word || sameLetters r.shortName word) = true := by
  rw [Bool.or_eq_true, sameLetters, sameLetters, decide_eq_true_iff, decide_eq_true_iff, Word]
  simp

theorem mem_all (r : RootKey) : r ∈ all := by
  cases r <;> decide

/-- No word is one for two root keys. -/
theorem names_apart : ∀ r ∈ all, ∀ s ∈ all, ∀ a ∈ [r.name, r.shortName],
    ∀ b ∈ [s.name, s.shortName], a.toList.map Char.toLower = b.toList.map Char.toLower → r = s := by
  decide

theorem Word.unique (hr : r.Word word) (hs : s.Word word) : r = s := by
  obtain ⟨a, ha, hword⟩ := hr
  obtain ⟨b, hb, hother⟩ := hs
  exact names_apart r (mem_all r) s (mem_all s) a ha b hb (hword.trans hother.symm)

theorem word_of_ofName? (h : ofName? word = some r) : r.Word word := by
  rw [ofName?, List.find?_eq_some_iff_append] at h
  exact (word_iff r word).mpr h.1

theorem ofName?_eq_some_iff : ofName? word = some r ↔ r.Word word := by
  refine ⟨word_of_ofName?, fun hword => ?_⟩
  have hsome : (ofName? word).isSome = true :=
    List.find?_isSome.mpr ⟨r, mem_all r, (word_iff r word).mp hword⟩
  -- Some root key is found by the word, and no other one has the same word.
  obtain ⟨s, hs⟩ := Option.isSome_iff_exists.mp hsome
  rw [hs, Word.unique (word_of_ofName? hs) hword]

theorem names_plain : ∀ r ∈ all, ∀ name ∈ [r.name, r.shortName],
    name.toList ≠ [] ∧ Path.separator ∉ name.toList.map Char.toLower := by
  decide

/-- A word for a root key is one piece of a text. -/
theorem Word.single (h : r.Word word) : word.toList ≠ [] ∧ Path.separator ∉ word.toList := by
  obtain ⟨name, hname, hword⟩ := h
  obtain ⟨hempty, hplain⟩ := names_plain r (mem_all r) name hname
  rw [hword] at hplain
  refine ⟨fun hnil => hempty ?_, fun hmem => hplain ?_⟩
  · rwa [hnil, List.map_nil, List.map_eq_nil_iff] at hword
  · exact List.mem_map.mpr ⟨Path.separator, hmem, rfl⟩

end RootKey

/-! ## Spellings of a location -/

namespace Location

/-- The texts that spell a location: a word for its root key and a trail of its names, with any
    number of separators in front. -/
inductive Spelled (l : Location) : String → Prop
  | mk (ahead : Nat) {word : String} {cs : List Char} (hword : l.root.Word word)
      (htrail : Path.Trail l.path.names cs) :
      Spelled l (String.ofList (List.replicate ahead Path.separator ++ (word.toList ++ cs)))

variable {l : Location} {text word : String} {cs rest : List Char}

/-- Trimming takes away the separators in front and no more. -/
theorem trimmed_replicate (ahead : Nat) (h : cs ≠ [] ∧ Path.separator ∉ cs) :
    trimmed (List.replicate ahead Path.separator ++ (cs ++ rest)) = cs ++ rest := by
  induction ahead with
  -- The word itself starts with no separator, so nothing of it is trimmed.
  | zero =>
    obtain ⟨c, more, rfl⟩ := List.exists_cons_of_ne_nil h.1
    have hc : c ≠ Path.separator := fun heq => h.2 (heq ▸ List.mem_cons_self)
    rw [List.replicate_zero, List.nil_append, trimmed, List.cons_append,
      List.dropWhile_cons_of_neg (by simpa using hc)]
  | succ ahead ih =>
    rw [List.replicate_succ, List.cons_append, trimmed, List.dropWhile_cons_of_pos (by simp)]
    exact ih

/-- What does not hold a separator ends where the text does or at the next separator. -/
theorem split_piece (hpiece : Path.separator ∉ cs)
    (hrest : rest = [] ∨ ∃ more, rest = Path.separator :: more) :
    (cs ++ rest).takeWhile (· ≠ Path.separator) = cs ∧
      (cs ++ rest).dropWhile (· ≠ Path.separator) = rest := by
  have hall : ∀ c ∈ cs, decide (c ≠ Path.separator) = true :=
    fun c hc => decide_eq_true fun heq => hpiece (heq ▸ hc)
  rw [List.takeWhile_append_of_pos hall, List.dropWhile_append_of_pos hall]
  rcases hrest with rfl | ⟨more, rfl⟩
  · simp
  · simp

/-- Reading takes a spelling apart into its word and its trail. -/
theorem parts_of_spelling (ahead : Nat) (hword : l.root.Word word)
    (htrail : Path.Trail l.path.names cs) :
    rootPart (String.ofList (List.replicate ahead Path.separator ++ (word.toList ++ cs))) = word ∧
      pathPart (String.ofList (List.replicate ahead Path.separator ++ (word.toList ++ cs))) =
        String.ofList (cs.drop 1) := by
  obtain ⟨hpiece, hbehind⟩ := split_piece hword.single.2 htrail.starts
  rw [rootPart, pathPart, String.toList_ofList, trimmed_replicate ahead hword.single, hpiece,
    hbehind, String.ofList_toList]
  exact ⟨rfl, rfl⟩

theorem Spelled.ofText? (h : l.Spelled text) : ofText? text = some l := by
  cases h with
  | mk ahead hword htrail =>
    obtain ⟨hroot, hpath⟩ := parts_of_spelling ahead hword htrail
    rw [Location.ofText?, hroot, hpath, RootKey.ofName?_eq_some_iff.mpr hword, Option.map_some,
      htrail.ofText_drop]

/-- What follows the name of a root key is a trail of the path that is read from it. -/
theorem trail_pathPart (text : String) :
    Path.Trail (Path.ofText (pathPart text)).names
      ((trimmed text.toList).dropWhile (· ≠ Path.separator)) := by
  rw [pathPart]
  induction trimmed text.toList with
  | nil => exact .done
  | cons c cs ih =>
    -- At the first separator the path begins; what stands before it belongs to the name.
    by_cases hc : c = Path.separator
    · rw [List.dropWhile_cons_of_neg (by simpa using hc), hc, List.drop_succ_cons, List.drop_zero,
        Path.ofText, String.toList_ofList]
      exact Path.trail_namesIn cs
    · rw [List.dropWhile_cons_of_pos (by simpa using hc)]
      exact ih

theorem exists_ahead (cs : List Char) :
    ∃ ahead, List.replicate ahead Path.separator ++ trimmed cs = cs := by
  induction cs with
  | nil => exact ⟨0, rfl⟩
  -- All separators in front are counted, up to the first other character.
  | cons c cs ih =>
    by_cases hc : c = Path.separator
    · obtain ⟨ahead, hahead⟩ := ih
      refine ⟨ahead + 1, ?_⟩
      rw [trimmed, List.dropWhile_cons_of_pos (by simpa using hc), hc, List.replicate_succ,
        List.cons_append]
      exact congrArg _ hahead
    · refine ⟨0, ?_⟩
      rw [trimmed, List.dropWhile_cons_of_neg (by simpa using hc)]
      rfl

theorem spelled_of_ofText? (h : ofText? text = some l) : l.Spelled text := by
  obtain ⟨root, hroot, rfl⟩ := Option.map_eq_some_iff.mp h
  obtain ⟨ahead, hahead⟩ := exists_ahead text.toList
  have hspelled : Spelled ⟨root, Path.ofText (pathPart text)⟩ _ :=
    .mk ahead (RootKey.word_of_ofName? hroot) (trail_pathPart text)
  rwa [rootPart, String.toList_ofList, List.takeWhile_append_dropWhile, hahead,
    String.ofList_toList] at hspelled

/-- The reader accepts a text as a location exactly if the text is one of its spellings. -/
theorem ofText?_eq_some_iff : ofText? text = some l ↔ l.Spelled text :=
  ⟨spelled_of_ofText?, Spelled.ofText?⟩

theorem parse_eq_ok_iff : Registry.parse text = .ok l ↔ l.Spelled text := by
  rw [← ofText?_eq_some_iff, Registry.parse]
  cases ofText? text <;> simp

/-- A location is written as one of its spellings. -/
theorem spelled_text (h : l.path.Sound) : l.Spelled l.text := by
  have hword : l.root.Word l.root.name := ⟨l.root.name, List.mem_cons_self, rfl⟩
  rw [text]
  -- A root key has no names after its own, and then no separator either.
  by_cases hroot : l.isRoot = true
  · have htrail : Path.Trail l.path.names [] := by
      rw [(isRoot_iff l).mp hroot]
      exact .done
    have hspelled := Spelled.mk 0 hword htrail
    rw [if_pos hroot]
    rwa [List.append_nil, List.replicate_zero, List.nil_append, String.ofList_toList] at hspelled
  · have hspelled := Spelled.mk 0 hword (Path.trail_text h)
    have htext : String.ofList (List.replicate 0 Path.separator ++
        (l.root.name.toList ++ Path.separator :: l.path.text.toList)) =
        l.root.name ++ String.singleton Path.separator ++ l.path.text := by
      rw [← String.toList_inj]
      simp
    rw [if_neg hroot]
    rwa [htext] at hspelled

/-! ## Locations that come about -/

/-- The locations that come about by reading a text and by moving from location to location. -/
inductive Made : Location → Prop
  | root (root : RootKey) : Made (ofRoot root)
  | read {l : Location} {text : String} (hread : Registry.parse text = .ok l) : Made l
  | down {l : Location} (hl : Made l) (relative : String) : Made (l.below relative)
  | up {l m : Location} (hl : Made l) (hparent : l.parent? = some m) : Made m

theorem Made.sound (h : l.Made) : l.path.Sound := by
  induction h with
  | root root => exact Path.sound_root
  | read hread =>
    obtain ⟨root, -, rfl⟩ := Option.map_eq_some_iff.mp
      (ofText?_eq_some_iff.mpr (parse_eq_ok_iff.mp hread))
    exact Path.sound_ofText _
  | down _ relative ih => exact ih.join relative
  | up _ hparent ih =>
    obtain ⟨path, hpath, rfl⟩ := Option.map_eq_some_iff.mp hparent
    exact ih.parent hpath

theorem made_iff (l : Location) : l.Made ↔ l.path.Sound :=
  ⟨Made.sound, fun h => .read (parse_eq_ok_iff.mpr (spelled_text h))⟩

end Location

/-! ## The round trips -/

/-- Paths that come about have single names and are read back from their texts, also below a root
    key, as the store reads them. Locations that come about are read back from their texts, and
    from no other texts than their spellings. -/
theorem texts_round_trip :
    (∀ p : Path, p.Made →
      (∀ name ∈ p.names, name ≠ "" ∧ Path.separator ∉ name.toList) ∧
      Path.ofText p.text = p ∧
      ∀ root, (Location.ofRoot root).below p.text = ⟨root, p⟩) ∧
    ∀ l : Location, l.Made →
      Registry.parse l.text = .ok l ∧ ∀ text, Registry.parse text = .ok l ↔ l.Spelled text := by
  refine ⟨fun p hp => ⟨hp.sound, Path.ofText_text hp.sound, fun root => ?_⟩, fun l hl => ⟨?_, ?_⟩⟩
  · exact Location.below_text (l := ⟨root, p⟩) hp.sound
  · exact Location.parse_eq_ok_iff.mpr (Location.spelled_text hl.sound)
  · exact fun text => Location.parse_eq_ok_iff

/-- A short name in mixed case, and separators that no written path has. -/
theorem round_trip_from_short_name :
    (Location.mk .localMachine ⟨["Soft/ware", "Vendor"]⟩).Made ∧
      Registry.parse "HKEY_LOCAL_MACHINE\\Soft/ware\\Vendor" =
        .ok ⟨.localMachine, ⟨["Soft/ware", "Vendor"]⟩⟩ ∧
      Location.Spelled ⟨.localMachine, ⟨["Soft/ware", "Vendor"]⟩⟩
        "\\\\hkLm\\\\Soft/ware\\Vendor\\\\" ∧
      Path.Made ⟨["Vendor", "App"]⟩ ∧ Path.ofText "Vendor\\App" = ⟨["Vendor", "App"]⟩ := by
  have hread : Registry.parse "\\\\hkLm\\\\Soft/ware\\Vendor\\\\" =
      .ok ⟨.localMachine, ⟨["Soft/ware", "Vendor"]⟩⟩ := rfl
  have hbeside : (Path.ofText "Vendor\\Old").withName? "\\App" = some ⟨["Vendor", "App"]⟩ := rfl
  have hmade : Path.Made ⟨["Vendor", "App"]⟩ := .beside (.read "Vendor\\Old") hbeside
  obtain ⟨htext, hspelled⟩ := texts_round_trip.2 _ (.read hread)
  exact ⟨.read hread, htext, (hspelled _).mp hread, hmade, (texts_round_trip.1 _ hmade).2.1⟩

end TransactionalRegistry
