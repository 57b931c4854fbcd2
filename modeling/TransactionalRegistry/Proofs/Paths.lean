import TransactionalRegistry.Proofs.FlatModel
import TransactionalRegistry.Proofs.Naming

/-!
# Paths and their texts

A path that was read from text can be written as text and read again, and it is the same path then:
its names are single, so each of them is one piece of the text. That is what an operation relies on
that is given a location and makes its call with a text below the handle of a root key.

Whether two locations are one place, and whether one lies below another, is asked name by name,
without regard to letter case. The place of a location, which is the list of its folded names,
answers the same questions; and what is found at a location stands at its place, laid flat.

## Theorems

* `Path.namesIn_append`: A text with a separator in it is read side by side.
* `Path.ofText_text`: Reading the text of a sound path gives the path.
* `Path.ofText_single`: A single name is read as the path of one name.
* `Location.below_text`: The location that an operation finds below a root key is the one it was
  given.
* `Path.startsWith_iff`, `Path.same_iff`: Paths are compared through their folded names.
* `Location.same_iff`, `Location.isWithin_iff`: Locations are compared as their places are.
* `Hives.flat_at_place`, `Hives.flat_below_place`: What stands at the place of a location, and right
  below it.
-/

namespace TransactionalRegistry

namespace Path

variable {cs : List Char} {names : List (List Char)} {p : Path}

/-- A text without separators is one piece. -/
theorem pieces_of_not_mem (h : separator ∉ cs) : pieces cs = [cs] := by
  induction cs with
  | nil => rfl
  | cons c cs ih =>
    rw [List.mem_cons, not_or] at h
    rw [pieces, if_neg (Ne.symm h.1), ih h.2]

theorem pieces_ne_nil (cs : List Char) : pieces cs ≠ [] := by
  cases cs with
  | nil => exact List.cons_ne_nil _ _
  | cons c cs =>
    rw [pieces]
    split
    · exact List.cons_ne_nil _ _
    · split <;> exact List.cons_ne_nil _ _

/-- A text is split at each of its separators, so its two sides are split apart from each other. -/
theorem pieces_append (before rest : List Char) :
    pieces (before ++ separator :: rest) = pieces before ++ pieces rest := by
  induction before with
  | nil => rw [List.nil_append, pieces, pieces, if_pos rfl]; rfl
  | cons c before ih =>
    rw [List.cons_append, pieces, ih, pieces]
    by_cases hc : c = separator
    · rw [if_pos hc, if_pos hc, List.cons_append]
    · rw [if_neg hc, if_neg hc]
      cases hbefore : pieces before with
      -- There is a first piece in any case, and the character becomes the first one of it.
      | nil => exact absurd hbefore (pieces_ne_nil before)
      | cons piece more => rfl

theorem namesIn_append (before rest : List Char) :
    namesIn (before ++ separator :: rest) = namesIn before ++ namesIn rest := by
  rw [namesIn, pieces_append, List.filter_append]
  rfl

theorem namesIn_single {name : List Char} (h : name ≠ [] ∧ separator ∉ name) :
    namesIn name = [name] := by
  rw [namesIn, pieces_of_not_mem h.2, List.filter_eq_self]
  intro other hother
  rw [List.mem_singleton.mp hother]
  exact decide_eq_true h.1

/-- Single names with separators between them are read as these names. -/
theorem namesIn_joined (h : ∀ name ∈ names, name ≠ [] ∧ separator ∉ name) :
    namesIn (joined names) = names := by
  induction names with
  | nil => rfl
  | cons name more ih =>
    have hname := namesIn_single (h name List.mem_cons_self)
    have hmore := ih (fun other hother => h other (List.mem_cons_of_mem _ hother))
    cases more with
    | nil => exact hname
    | cons next more => rw [joined, namesIn_append, hname, hmore, List.singleton_append]

/-- A sound path is read back from its text. -/
theorem ofText_text (h : p.Sound) : ofText p.text = p := by
  have hnames : ∀ name ∈ p.names.map String.toList, name ≠ [] ∧ separator ∉ name := by
    intro cs hcs
    rcases List.mem_map.mp hcs with ⟨name, hname, rfl⟩
    exact ⟨fun hempty => (h name hname).1 (String.toList_eq_nil_iff.mp hempty), (h name hname).2⟩
  have hback : String.ofList ∘ String.toList = id := funext fun _ => String.ofList_toList
  rw [ofText, text, String.toList_ofList, namesIn_joined hnames, List.map_map, hback, List.map_id]

theorem ofText_single {name : String} (h : name ≠ "" ∧ separator ∉ name.toList) :
    ofText name = ⟨[name]⟩ := by
  -- A path of this one name is sound, and is written as the name.
  have hsound : (Path.mk [name]).Sound := fun other hother => by
    rw [List.mem_singleton.mp hother]
    exact h
  rw [← ofText_text hsound, text, List.map_singleton, joined, String.ofList_toList]

theorem join_single {name : String} (h : name ≠ "" ∧ separator ∉ name.toList) :
    p.join name = ⟨p.names ++ [name]⟩ := by
  rw [join, ofText_single h]

/-- Names that begin with others name by name do so exactly if their folded names do. -/
theorem zip_sameName_iff {as bs : List String} (hlength : bs.length ≤ as.length) :
    ((as.zip bs).all fun pair => sameName pair.1 pair.2) = true ↔
      bs.map Text.fold <+: as.map Text.fold := by
  induction as generalizing bs with
  | nil =>
    rw [List.length_eq_zero_iff.mp (Nat.le_zero.mp hlength)]
    simp
  | cons a as ih =>
    cases bs with
    | nil => simp
    | cons b bs =>
      -- The first names are compared, and then the rest of both lists.
      rw [List.zip_cons_cons, List.all_cons, Bool.and_eq_true, ih (Nat.le_of_succ_le_succ hlength),
        List.map_cons, List.map_cons, List.cons_prefix_cons, sameName, decide_eq_true_iff]
      exact and_congr_left fun _ => eq_comm

/-- Paths are compared by their folded names. -/
theorem startsWith_iff (p q : Path) : p.startsWith q = true ↔ q.folded <+: p.folded := by
  rw [startsWith, Bool.and_eq_true, decide_eq_true_iff]
  constructor
  · rintro ⟨hlength, hall⟩
    exact (zip_sameName_iff hlength).mp hall
  · intro hbegins
    have hlength : q.names.length ≤ p.names.length := by simpa [folded] using hbegins.length_le
    exact ⟨hlength, (zip_sameName_iff hlength).mpr hbegins⟩

theorem same_iff (p q : Path) : p.same q = true ↔ p.folded = q.folded := by
  rw [same, Bool.and_eq_true, decide_eq_true_iff, startsWith_iff]
  constructor
  · rintro ⟨hlength, hbegins⟩
    exact (hbegins.eq_of_length (by simpa [folded] using hlength.symm)).symm
  · intro hfolded
    have hlength : p.names.length = q.names.length := by
      simpa [folded] using congrArg List.length hfolded
    exact ⟨hlength, hfolded ▸ List.prefix_rfl⟩

end Path

theorem Flat.Place.within_iff {p q : Flat.Place} :
    p.Within q ↔ p.root = q.root ∧ q.keys <+: p.keys := by
  rcases p with ⟨root, keys⟩
  constructor
  · rintro ⟨more, hp⟩
    -- To be below a place is to begin with its names.
    rw [Flat.Place.below, Flat.Place.mk.injEq] at hp
    exact ⟨hp.1, more, hp.2.symm⟩
  · rintro ⟨rfl, more, rfl⟩
    exact ⟨more, rfl⟩

namespace Location

variable {l m : Location} {name : String}

/-- A location is read back from the text of its path below its root key. -/
theorem below_text (h : l.path.Sound) : (ofRoot l.root).below l.path.text = l := by
  rw [below, ofRoot, Path.join, Path.ofText_text h]
  rfl

theorem below_single (h : name ≠ "" ∧ Path.separator ∉ name.toList) :
    l.below name = ⟨l.root, ⟨l.path.names ++ [name]⟩⟩ := by
  rw [below, Path.join_single h]

theorem same_iff (l m : Location) : l.same m = true ↔ l.place = m.place := by
  rw [same, Bool.and_eq_true, decide_eq_true_iff, Path.same_iff, place, place,
    Flat.Place.mk.injEq]

theorem isWithin_iff (l ancestor : Location) :
    l.isWithin ancestor = true ↔ l.place.Within ancestor.place := by
  rw [isWithin, Flat.Place.within_iff, Bool.and_eq_true, decide_eq_true_iff,
    List.isPrefixOf_iff_prefix]
  rfl

/-- The place of a location that is read below another one. -/
theorem place_of_below (l : Location) (relative : String) :
    (l.below relative).place = l.place.below (Path.ofText relative).folded := by
  rw [place, place, Flat.Place.below, below, Path.join, Path.folded, List.map_append]
  rfl

theorem isRoot_iff (l : Location) : l.isRoot = true ↔ l.path.names = [] := by
  rw [isRoot, Path.isRoot, List.isEmpty_iff]

end Location

/-! ## What is found at a location -/

namespace Hives

variable {h : Hives} {l : Location} {n : Node}

/-- What is found at a location stands at its place in the flat trees. -/
theorem flat_at_place (h : Hives) (l : Location) :
    h.flat.at? l.place = (h.find? l).map Node.entry := by
  cases hfound : h.find? l with
  | none => exact flat_place_of_missing hfound
  | some n => exact flat_place_of_found hfound

theorem contains_eq (h : Hives) (l : Location) : h.contains l = (h.flat.at? l.place).isSome := by
  rw [flat_at_place, Option.isSome_map]
  rfl

/-- What stands right below the place of a key is a key below that key. -/
theorem flat_below_place (hfound : h.find? l = some n) (name : String) :
    h.flat.at? (l.place.below [Text.fold name]) = (n.child? name).map Node.entry := by
  rw [← Node.flat_child_nil]
  exact flat_found hfound [Text.fold name]

end Hives

end TransactionalRegistry
