import TransactionalRegistry.Proofs.Grafting

/-!
# Probing a tree

What there is to know about a tree is known key by key: one goes down a way of folded names and
looks at what stands at its end. Whatever one looks for there, be it the name of the key, its values
or the time of its last write, it is one question what an operation on the tree does to the keys on
the way, and the answer is the same for all that does not depend on the keys below.

## Main definitions

* `Node.probe`: What is found at the end of a way of folded names.
* `Node.Shallow`: It does not depend on the keys below.

## Theorems

* `Node.probe_eq_map`: It is found of the key that stands there.
* `Node.probe_append`, `Node.probe_find?_append`: Below a key, probing goes on from that key.
* `Node.probe_putChild_cons`, `Node.probe_dropChild_cons`: A key put below another one, or taken
  away.
* `Node.probe_graft_append`, `Node.probe_graft_apart`: A graft, within and apart from the way to it.
* `Node.probe_create_kept`, `Node.probe_create_made`, `Node.probe_create_apart`: What creating the
  keys along a way leaves, makes, and does not touch.
-/

namespace TransactionalRegistry

namespace Node

variable {α : Type}

/-- What `f` finds of the key at the end of a way of folded names, if there is one. -/
def probe (f : Node → α) : Node → List String → Option α
  | n, [] => some (f n)
  | n, key :: rest => (Table.find? n.subKeys key).bind (probe f · rest)

/-- What `f` finds of a key does not depend on the keys below it. -/
def Shallow (f : Node → α) : Prop :=
  ∀ (n : Node) (subKeys : List (String × Node)), f { n with subKeys := subKeys } = f n

variable {f : Node → α} {n m child found : Node} {name key : String}
  {names keys more : List String}

theorem probe_nil (f : Node → α) (n : Node) : n.probe f [] = some (f n) := by
  rw [probe]

theorem probe_cons (f : Node → α) (n : Node) (key : String) (rest : List String) :
    n.probe f (key :: rest) = (Table.find? n.subKeys key).bind (probe f · rest) := by
  rw [probe]

/-- Whatever is looked for, it is the same key that is looked at. -/
theorem probe_eq_map (f : Node → α) (n : Node) (keys : List String) :
    n.probe f keys = (n.probe id keys).map f := by
  induction keys generalizing n with
  | nil => rfl
  | cons key rest ih =>
    rw [probe_cons, probe_cons, Option.map_bind]
    exact congrArg _ (funext ih)

/-- Below a place where there is no key there is none either. -/
theorem probe_closed (keys more : List String) (n : Node) (hempty : n.probe f keys = none) :
    n.probe f (keys ++ more) = none := by
  induction keys generalizing n with
  -- The way of no names ends at the key itself, where there is something to find.
  | nil => exact absurd hempty (by simp [probe])
  | cons key rest ih =>
    rw [probe_cons] at hempty
    rw [List.cons_append, probe_cons]
    cases hchild : Table.find? n.subKeys key with
    | none => rfl
    | some child =>
      rw [hchild, Option.bind_some] at hempty
      exact ih child hempty

/-- Below a key that is there, probing goes on from that key. -/
theorem probe_append (hthere : n.probe id keys = some m) (more : List String) :
    n.probe f (keys ++ more) = m.probe f more := by
  induction keys generalizing n with
  | nil =>
    rw [probe_nil, id, Option.some.injEq] at hthere
    rw [hthere, List.nil_append]
  | cons key rest ih =>
    rw [probe_cons, Option.bind_eq_some_iff] at hthere
    obtain ⟨child, hchild, hthere⟩ := hthere
    rw [List.cons_append, probe_cons, hchild, Option.bind_some, ih hthere]

/-- The way to a key that was looked up by its names leads on from that key. -/
theorem probe_find?_append (hfound : n.find? names = some found) :
    n.probe f (names.map Text.fold ++ more) = found.probe f more := by
  induction names generalizing n with
  | nil =>
    rw [find?, Option.some.injEq] at hfound
    rw [hfound, List.map_nil, List.nil_append]
  | cons name rest ih =>
    rw [find?_cons] at hfound
    rw [List.map_cons, List.cons_append, probe_cons]
    cases hchild : n.child? name with
    | none => exact absurd hfound (by simp [hchild])
    | some child =>
      rw [hchild, Option.bind_some] at hfound
      rw [child?] at hchild
      rw [hchild, Option.bind_some, ih hfound]

/-- Where nothing is found by names, nothing is found on their way. -/
theorem probe_of_missing (hmissing : n.find? names = none) :
    n.probe f (names.map Text.fold) = none := by
  induction names generalizing n with
  | nil => exact absurd hmissing (by simp [find?])
  | cons name rest ih =>
    rw [find?_cons] at hmissing
    rw [List.map_cons, probe_cons]
    cases hchild : n.child? name with
    | none =>
      rw [child?] at hchild
      rw [hchild, Option.bind_none]
    | some child =>
      rw [hchild, Option.bind_some] at hmissing
      rw [child?] at hchild
      rw [hchild, Option.bind_some, ih hmissing]

/-! ## One key -/

theorem probe_child (f : Node → α) (n : Node) (name : String) (more : List String) :
    n.probe f (Text.fold name :: more) = (n.child? name).bind (probe f · more) := by
  rw [probe_cons, child?]

/-- A way that leaves the key is not affected by what the key itself is called or holds. -/
theorem probe_cons_of_subKeys (hsub : m.subKeys = n.subKeys) (key : String) (rest : List String) :
    m.probe f (key :: rest) = n.probe f (key :: rest) := by
  rw [probe_cons, probe_cons, hsub]

theorem probe_putChild_nil (hf : Shallow f) (n child : Node) (name : String) :
    (n.putChild name child).probe f [] = n.probe f [] := by
  rw [probe_nil, probe_nil, putChild, hf]

theorem probe_putChild_cons (n child : Node) (name key : String) (rest : List String) :
    (n.putChild name child).probe f (key :: rest) =
      if Text.fold name = key then child.probe f rest else n.probe f (key :: rest) := by
  rw [probe_cons, probe_cons, putChild, Table.find?_insert]
  split <;> rfl

theorem probe_dropChild_cons (n : Node) (name key : String) (rest : List String) :
    (n.dropChild name).probe f (key :: rest) =
      if Text.fold name = key then none else n.probe f (key :: rest) := by
  rw [probe_cons, probe_cons, dropChild, Table.find?_erase]
  split <;> rfl

/-- A key that was moved keeps what is below it, under its new name. -/
theorem probe_moveChild_new (now : Time) (new old : String) (child n : Node) (more : List String) :
    (moveChild now new old child n).probe f (Text.fold new :: more) =
      ({ child with name := new, lastWrite := now } : Node).probe f more := by
  rw [moveChild, probe_cons_of_subKeys (m := touch _ now) (n := putChild _ _ _) rfl,
    probe_putChild_cons, if_pos rfl]

/-- Moving a key changes nothing under other names, save that the old one leads nowhere. -/
theorem probe_moveChild_of_ne (now : Time) {new : String} (old : String) (child n : Node)
    (hne : key ≠ Text.fold new) (more : List String) :
    (moveChild now new old child n).probe f (key :: more) =
      if Text.fold old = key then none else n.probe f (key :: more) := by
  rw [moveChild, probe_cons_of_subKeys (m := touch _ now) (n := putChild _ _ _) rfl,
    probe_putChild_cons, if_neg (Ne.symm hne), probe_dropChild_cons]

/-! ## Grafts -/

/-- Below a graft, probing finds what was put in its place. -/
theorem probe_graft_append (hfound : n.find? names = some found) (more : List String) :
    (graft m names n).probe f (names.map Text.fold ++ more) = m.probe f more := by
  induction names generalizing n with
  | nil => rfl
  | cons name rest ih =>
    rw [find?_cons] at hfound
    cases hchild : n.child? name with
    | none => exact absurd hfound (by simp [hchild])
    | some child =>
      rw [hchild, Option.bind_some] at hfound
      -- The graft goes through the same children as the way to the place, down to its end.
      simp only [graft, hchild]
      rw [List.map_cons, List.cons_append, probe_putChild_cons, if_pos rfl]
      exact ih hfound

/-- A graft leaves all places as they are that do not lie at it or below it. -/
theorem probe_graft_apart (hf : Shallow f) (hapart : ¬ names.map Text.fold <+: keys) :
    (graft m names n).probe f keys = n.probe f keys := by
  induction names generalizing n keys with
  | nil => exact absurd (List.nil_prefix) hapart
  | cons name rest ih =>
    rw [graft]
    cases hchild : n.child? name with
    | none => rfl
    | some child =>
      rw [child?] at hchild
      cases keys with
      | nil => exact probe_putChild_nil hf n _ name
      | cons key more =>
        simp only [probe_putChild_cons]
        by_cases hkey : Text.fold name = key
        · subst hkey
          -- Through the same child, the rest of the way must part from the place.
          have hrest : ¬ rest.map Text.fold <+: more := by
            intro hprefix
            exact hapart ((List.prefix_cons_inj _).mpr hprefix)
          rw [if_pos rfl, probe_cons, hchild, Option.bind_some]
          exact ih hrest
        · rw [if_neg hkey]

/-! ## Creating -/

/-- Creating a key below another one changes nothing of the latter but the keys below it. -/
theorem Shallow.create (hf : Shallow f) (now : Time) (names : List String) (n : Node) :
    f (create now names n) = f n := by
  cases names with
  | nil => rfl
  | cons name rest => rw [Node.create, putChild, hf]

/-- Creating a key takes nothing away from what there is. -/
theorem probe_create_kept (hf : Shallow f) {a : α} (now : Time) (names : List String)
    (hthere : n.probe f keys = some a) : (create now names n).probe f keys = some a := by
  induction names generalizing n keys with
  | nil => exact hthere
  | cons name rest ih =>
    cases keys with
    | nil => rw [probe_nil, hf.create, ← probe_nil, hthere]
    | cons key more =>
      rw [create, probe_putChild_cons]
      -- What is there is never replaced: a child on the way is gone through, others are left.
      by_cases hkey : Text.fold name = key
      · subst hkey
        rw [probe_child] at hthere
        cases hchild : n.child? name with
        | none => exact absurd hthere (by simp [hchild])
        | some child =>
          rw [hchild, Option.bind_some] at hthere
          rw [if_pos rfl, Option.getD_some]
          exact ih hthere
      · rw [if_neg hkey, hthere]

/-- Every key that was missing on the way of the names is new and empty. -/
theorem probe_create_made (hf : Shallow f) (now : Time) {above : List String}
    (hway : above ++ [name] <+: names)
    (hmissing : n.probe f ((above ++ [name]).map Text.fold) = none) :
    (create now names n).probe f ((above ++ [name]).map Text.fold) =
      some (f (empty name now)) := by
  induction names generalizing n above with
  | nil => exact absurd (List.prefix_nil.mp hway) (by simp)
  | cons first rest ih =>
    cases above with
    | nil =>
      obtain ⟨rfl, -⟩ := List.cons_prefix_cons.mp hway
      simp only [List.nil_append, List.map_cons, List.map_nil] at hmissing ⊢
      rw [probe_child] at hmissing
      cases hchild : n.child? name with
      | some child => exact absurd hmissing (by simp [hchild, probe])
      | none =>
        -- The first name that is missing is made here, and the rest of the names below it.
        rw [create, probe_putChild_cons, if_pos rfl, probe_nil, hf.create, hchild]
        rfl
    | cons next above' =>
      obtain ⟨rfl, hrest⟩ := List.cons_prefix_cons.mp hway
      simp only [List.cons_append, List.map_cons] at hmissing ⊢
      rw [create, probe_putChild_cons, if_pos rfl]
      refine ih hrest ?_
      rw [probe_child] at hmissing
      cases hchild : n.child? next with
      | some child =>
        rw [hchild, Option.bind_some] at hmissing
        exact hmissing
      | none =>
        -- A key that has just been made has nothing below it.
        rw [Option.getD_none]
        cases above' <;> rfl

/-- No other place than those on the way of the names is affected. -/
theorem probe_create_apart (hf : Shallow f) (now : Time)
    (hapart : ¬ (keys ≠ [] ∧ keys <+: names.map Text.fold)) :
    (create now names n).probe f keys = n.probe f keys := by
  induction names generalizing n keys with
  | nil => rfl
  | cons name rest ih =>
    cases keys with
    | nil => rw [probe_nil, probe_nil, hf.create]
    | cons key more =>
      rw [create, probe_putChild_cons]
      by_cases hkey : Text.fold name = key
      · subst hkey
        have hmore : ¬ more <+: rest.map Text.fold := by
          intro hprefix
          exact hapart ⟨List.cons_ne_nil _ _, (List.prefix_cons_inj _).mpr hprefix⟩
        rw [if_pos rfl, ih (fun h => hmore h.2), probe_child]
        cases n.child? name with
        | some child => rfl
        | none =>
          -- The place is below the new key, since the way to that key is on the way created.
          cases more with
          | nil => exact absurd List.nil_prefix hmore
          | cons _ _ => rfl
      · rw [if_neg hkey]

end Node

end TransactionalRegistry
