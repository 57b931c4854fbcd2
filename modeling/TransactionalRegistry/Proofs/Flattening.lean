import Mathlib.Logic.Function.Basic
import TransactionalRegistry.Proofs.Probing

/-!
# Trees laid flat

A tree of keys is laid flat when each key is put under the whole way to it, a list of folded names.
What stands there is the name of the key as it was given and its values under their folded names;
the keys below have places of their own, and the times of last write are left out. A place is empty
when there is no key, and then every place below it is empty too.

To lay a tree flat is to probe it for entries, so what an operation on a tree does to the tree laid
flat is what it does to any probe, place by place. Putting a key below another, or taking one away,
changes the places that begin with its name; a graft changes those that begin with the way to it.

## Main definitions

* `Flat.Entry`: A name and the values under their folded names.
* `Flat.Place`: A root key and the folded names on the way from it.
* `Flat`: Entries at places, none below an empty one.
* `Node.flat`, `Hives.flat`: Trees laid flat.
* `Hives.probe`: What is found of the key at a place.

## Theorems

* `Node.flat_eq_probe`, `Hives.flat_eq_probe`: A tree is laid flat by probing it for entries.
* `Node.flat_find?_append`: Below a key that is found, a tree laid flat is that key laid flat.
* `Node.flat_dropChild_cons`: A key below another one, taken away.
* `Node.flat_moveChild_new`, `Node.flat_moveChild_of_ne`: A key moved from one name to another.
* `Hives.flat_graft_within`, `Hives.flat_graft_apart`: A graft, within and apart from the way to it.
* `Hives.flat_graft_eq_update`: A graft that makes a difference at one place only.
* `Node.flat_create_kept`, `Node.flat_create_made`, `Node.flat_create_apart`: What creating the keys
  along a way leaves, makes, and does not touch.
-/

namespace TransactionalRegistry

/-! ## Flat trees -/

/-- What stands at a place: the name of a key, and its values under their folded names. -/
@[ext] structure Flat.Entry where
  name : String
  values : String → Option StoredValue

/-- A root key and the folded names on the way from it. -/
structure Flat.Place where
  root : RootKey
  keys : List String
  deriving DecidableEq, Repr

/-- The place at the end of a further way from `p`. -/
def Flat.Place.below (p : Flat.Place) (more : List String) : Flat.Place :=
  ⟨p.root, p.keys ++ more⟩

/-- The place of a location. -/
def Location.place (l : Location) : Flat.Place :=
  ⟨l.root, l.path.folded⟩

/-- Entries at places; below an empty place every place is empty. -/
structure Flat where
  at? : Flat.Place → Option Flat.Entry
  closed : ∀ (p : Flat.Place) (more : List String), at? p = none → at? (p.below more) = none

namespace Node

/-- What stands at the place of a key. -/
def entry (n : Node) : Flat.Entry :=
  ⟨n.name, Table.find? n.values⟩

/-- The entries at the ends of the ways from a key. -/
def flat : Node → List String → Option Flat.Entry
  | n, [] => some n.entry
  | n, key :: rest => (Table.find? n.subKeys key).bind (·.flat rest)

variable {n m child found : Node} {name key : String} {names keys more : List String}

@[simp] theorem flat_nil (n : Node) : n.flat [] = some n.entry := by
  rw [flat]

theorem flat_cons (n : Node) (key : String) (rest : List String) :
    n.flat (key :: rest) = (Table.find? n.subKeys key).bind (·.flat rest) := by
  rw [flat]

/-- A tree is laid flat by probing it for the entries of its keys. -/
theorem flat_eq_probe (n : Node) (keys : List String) : n.flat keys = n.probe entry keys := by
  induction keys generalizing n with
  | nil => rw [flat_nil, probe_nil]
  | cons key rest ih =>
    rw [flat_cons, probe_cons]
    exact congrArg _ (funext ih)

theorem shallow_entry : Shallow entry :=
  fun _ _ => rfl

theorem flat_closed (keys more : List String) (n : Node) (hempty : n.flat keys = none) :
    n.flat (keys ++ more) = none := by
  rw [flat_eq_probe] at hempty ⊢
  exact probe_closed keys more n hempty

theorem flat_find?_append (hfound : n.find? names = some found) :
    n.flat (names.map Text.fold ++ more) = found.flat more := by
  rw [flat_eq_probe, flat_eq_probe, probe_find?_append hfound]

theorem flat_of_find? (hfound : n.find? names = some found) :
    n.flat (names.map Text.fold) = some found.entry := by
  have happend : n.flat (names.map Text.fold ++ []) = found.flat [] := flat_find?_append hfound
  rwa [List.append_nil, flat_nil] at happend

theorem flat_of_missing (hmissing : n.find? names = none) :
    n.flat (names.map Text.fold) = none := by
  rw [flat_eq_probe, probe_of_missing hmissing]

/-! ## One key -/

theorem flat_child (n : Node) (name : String) (more : List String) :
    n.flat (Text.fold name :: more) = (n.child? name).bind (·.flat more) := by
  rw [flat_cons, child?]

theorem flat_child_nil (n : Node) (name : String) :
    n.flat [Text.fold name] = (n.child? name).map entry := by
  rw [flat_child]
  cases n.child? name with
  | none => rfl
  | some child => exact flat_nil child

/-- A key is without keys below it when the places right below its own are empty. -/
theorem subKeys_eq_nil_iff (n : Node) : n.subKeys = [] ↔ ∀ key, n.flat [key] = none := by
  constructor
  · intro hnil key
    rw [flat_cons, hnil]
    rfl
  · intro hempty
    cases hsub : n.subKeys with
    | nil => rfl
    | cons head rest =>
      -- The first child itself would stand at a place right below.
      have hhead := hempty head.1
      rw [flat_cons, hsub, Table.find?, if_pos rfl] at hhead
      exact absurd hhead (by simp)

theorem flat_touch (n : Node) (now : Time) (keys : List String) :
    (n.touch now).flat keys = n.flat keys := by
  cases keys <;> simp only [flat, touch, entry]

theorem flat_putChild_nil (n child : Node) (name : String) :
    (n.putChild name child).flat [] = n.flat [] := by
  simp only [flat, putChild, entry]

theorem flat_dropChild_nil (n : Node) (name : String) :
    (n.dropChild name).flat [] = n.flat [] := by
  simp only [flat, dropChild, entry]

theorem flat_dropChild_cons (n : Node) (name key : String) (rest : List String) :
    (n.dropChild name).flat (key :: rest) =
      if Text.fold name = key then none else n.flat (key :: rest) := by
  simp only [flat_eq_probe, probe_dropChild_cons]

/-- A way that leaves the key is not affected by what the key itself is called or holds. -/
theorem flat_cons_of_subKeys (hsub : m.subKeys = n.subKeys) (key : String) (rest : List String) :
    m.flat (key :: rest) = n.flat (key :: rest) := by
  rw [flat_eq_probe, flat_eq_probe, probe_cons_of_subKeys hsub]

theorem flat_moveChild_nil (now : Time) (new old : String) (child n : Node) :
    (moveChild now new old child n).flat [] = n.flat [] := by
  rw [moveChild, flat_touch, flat_putChild_nil, flat_dropChild_nil]

theorem flat_moveChild_new (now : Time) (new old : String) (child n : Node) (more : List String) :
    (moveChild now new old child n).flat (Text.fold new :: more) =
      ({ child with name := new, lastWrite := now } : Node).flat more := by
  rw [flat_eq_probe, flat_eq_probe, probe_moveChild_new]

theorem flat_moveChild_of_ne (now : Time) {new : String} (old : String) (child n : Node)
    (hne : key ≠ Text.fold new) (more : List String) :
    (moveChild now new old child n).flat (key :: more) =
      if Text.fold old = key then none else n.flat (key :: more) := by
  rw [flat_eq_probe, flat_eq_probe, probe_moveChild_of_ne now old child n hne]

/-! ## Creating -/

theorem flat_create_kept {e : Flat.Entry} (now : Time) (names : List String)
    (hthere : n.flat keys = some e) : (create now names n).flat keys = some e := by
  rw [flat_eq_probe] at hthere ⊢
  exact probe_create_kept shallow_entry now names hthere

theorem flat_create_made (now : Time) {above : List String} (hway : above ++ [name] <+: names)
    (hmissing : n.flat ((above ++ [name]).map Text.fold) = none) :
    (create now names n).flat ((above ++ [name]).map Text.fold) = some ⟨name, fun _ => none⟩ := by
  rw [flat_eq_probe] at hmissing ⊢
  exact probe_create_made shallow_entry now hway hmissing

theorem flat_create_apart (now : Time) (hapart : ¬ (keys ≠ [] ∧ keys <+: names.map Text.fold)) :
    (create now names n).flat keys = n.flat keys := by
  rw [flat_eq_probe, flat_eq_probe, probe_create_apart shallow_entry now hapart]

end Node

namespace Hives

variable {α : Type} {f : Node → α} {h : Hives} {root : RootKey} {names : List String}
  {m found : Node}

/-- What `f` finds of the key at a place, if there is one. -/
def probe (f : Node → α) (h : Hives) (p : Flat.Place) : Option α :=
  (h.get p.root).probe f p.keys

theorem probe_eq_map (f : Node → α) (h : Hives) (p : Flat.Place) :
    h.probe f p = (h.probe id p).map f :=
  Node.probe_eq_map f (h.get p.root) p.keys

theorem probe_found (hfound : (h.get root).find? names = some found) (more : List String) :
    h.probe f ⟨root, names.map Text.fold ++ more⟩ = found.probe f more :=
  Node.probe_find?_append hfound

theorem probe_graft_within (hfound : (h.get root).find? names = some found) (more : List String) :
    (h.set root (Node.graft m names (h.get root))).probe f ⟨root, names.map Text.fold ++ more⟩ =
      m.probe f more := by
  simp only [probe, get_set, if_true]
  exact Node.probe_graft_append hfound more

theorem probe_graft_apart (hf : Node.Shallow f) {p : Flat.Place}
    (hapart : ¬ (p.root = root ∧ names.map Text.fold <+: p.keys)) :
    (h.set root (Node.graft m names (h.get root))).probe f p = h.probe f p := by
  simp only [probe, get_set]
  by_cases hroot : root = p.root
  · rw [if_pos hroot, hroot]
    exact Node.probe_graft_apart hf (fun hprefix => hapart ⟨hroot.symm, hprefix⟩)
  · rw [if_neg hroot]

/-- The five trees laid flat. -/
def flat (h : Hives) : Flat where
  at? p := (h.get p.root).flat p.keys
  closed p more hempty := Node.flat_closed p.keys more _ hempty

theorem flat_eq_probe (h : Hives) (p : Flat.Place) : h.flat.at? p = h.probe Node.entry p :=
  Node.flat_eq_probe (h.get p.root) p.keys

theorem flat_found (hfound : (h.get root).find? names = some found) (more : List String) :
    h.flat.at? ⟨root, names.map Text.fold ++ more⟩ = found.flat more :=
  Node.flat_find?_append hfound

theorem flat_missing (hmissing : (h.get root).find? names = none) (more : List String) :
    h.flat.at? ⟨root, names.map Text.fold ++ more⟩ = none :=
  Node.flat_closed _ more _ (Node.flat_of_missing hmissing)

theorem flat_graft_within (hfound : (h.get root).find? names = some found) (more : List String) :
    (h.set root (Node.graft m names (h.get root))).flat.at? ⟨root, names.map Text.fold ++ more⟩ =
      m.flat more := by
  rw [flat_eq_probe, Node.flat_eq_probe, probe_graft_within hfound]

theorem flat_graft_apart {p : Flat.Place}
    (hapart : ¬ (p.root = root ∧ names.map Text.fold <+: p.keys)) :
    (h.set root (Node.graft m names (h.get root))).flat.at? p = h.flat.at? p := by
  rw [flat_eq_probe, flat_eq_probe, probe_graft_apart Node.shallow_entry hapart]

/-- A graft that changes the key at one place alone changes the five trees at that place alone. -/
theorem flat_graft_eq_update {way : List String} {e : Option Flat.Entry}
    (hfound : (h.get root).find? names = some found)
    (hchange : ∀ more, m.flat more = if more = way then e else found.flat more) :
    (h.set root (Node.graft m names (h.get root))).flat.at? =
      Function.update h.flat.at? ⟨root, names.map Text.fold ++ way⟩ e := by
  funext p
  rw [Function.update_apply]
  by_cases hwithin : p.root = root ∧ names.map Text.fold <+: p.keys
  · obtain ⟨proot, keys⟩ := p
    obtain ⟨rfl, more, rfl⟩ := hwithin
    rw [flat_graft_within hfound, flat_found hfound, hchange]
    simp only [Flat.Place.mk.injEq, List.append_cancel_left_eq, true_and]
  · have hne : p ≠ ⟨root, names.map Text.fold ++ way⟩ := by
      rintro rfl
      exact hwithin ⟨rfl, List.prefix_append _ _⟩
    rw [flat_graft_apart hwithin, if_neg hne]

end Hives

end TransactionalRegistry
