/-!
# Tables

A table is a list of entries under keys, in increasing order of the keys. The store keeps its open
handles in tables, and a key of the tree keeps the keys below it and its values in tables under
their folded names, so that they are listed in the order of those names.

The operations are right through `find?` on any list of entries, in order or not; the order only
decides where a new entry goes.

## Main definitions

* `Table`: Entries under keys.
* `Table.find?`: The entry under a key.
* `Table.insert`: A table with an entry put under a key.
* `Table.erase`: A table without the entry under a key.

## Theorems

* `find?_insert`: Only the entry under the inserted key changes.
* `find?_erase`: Only the entry under the erased key is gone.
* `mem_of_find?`: What is found is in the table.
-/

namespace TransactionalRegistry

/-- Entries under keys, in increasing order of the keys. -/
abbrev Table (κ α : Type) : Type := List (κ × α)

namespace Table

variable {κ α : Type} [DecidableEq κ]

/-- The entry under a key. -/
def find? : Table κ α → κ → Option α
  | [], _ => none
  | (k, a) :: rest, key => if k = key then some a else find? rest key

/-- Whether there is an entry under a key. -/
def contains (table : Table κ α) (key : κ) : Bool :=
  (find? table key).isSome

/-- The table with `entry` under `key`, in place of what was there. -/
def insert [LT κ] [DecidableLT κ] : Table κ α → κ → α → Table κ α
  | [], key, entry => [(key, entry)]
  | (k, a) :: rest, key, entry =>
    if key = k then (key, entry) :: rest
    else if key < k then (key, entry) :: (k, a) :: rest
    else (k, a) :: insert rest key entry

/-- The table without an entry under `key`. -/
def erase (table : Table κ α) (key : κ) : Table κ α :=
  table.filter fun entry => entry.1 ≠ key

theorem find?_insert [LT κ] [DecidableLT κ] (table : Table κ α) (key : κ) (entry : α) (k : κ) :
    find? (insert table key entry) k = if key = k then some entry else find? table k := by
  induction table with
  | nil => rfl
  | cons head rest ih =>
      rcases head with ⟨k', a⟩
      by_cases hk : key = k'
      · subst hk
        simp only [insert, if_true, find?]
        split <;> rfl
      · by_cases hlt : key < k'
        · simp only [insert, if_neg hk, if_pos hlt, find?]
        · simp only [insert, if_neg hk, if_neg hlt, find?, ih]
          by_cases h : k' = k
          · subst h
            simp only [if_true, if_neg hk]
          · simp only [if_neg h]

theorem find?_erase (table : Table κ α) (key k : κ) :
    find? (erase table key) k = if key = k then none else find? table k := by
  induction table with
  | nil => simp [erase, find?]
  | cons head rest ih =>
      rcases head with ⟨k', a⟩
      simp only [erase] at ih ⊢
      by_cases hk : k' = key
      · subst hk
        simp only [List.filter_cons, ne_eq, not_true_eq_false, decide_false, Bool.false_eq_true,
          if_false, ih, find?]
        split <;> rfl
      · simp only [List.filter_cons, ne_eq, hk, not_false_eq_true, decide_true, if_true, find?]
        by_cases h : k' = k
        · subst h
          simp only [if_true, if_neg (Ne.symm hk)]
        · simp only [if_neg h]
          exact ih

theorem mem_of_find? {table : Table κ α} {key : κ} {entry : α} (h : find? table key = some entry) :
    (key, entry) ∈ table := by
  induction table with
  | nil => exact absurd h (by simp [find?])
  | cons head rest ih =>
      rcases head with ⟨k, a⟩
      by_cases hk : k = key
      · subst hk
        rw [find?, if_pos rfl] at h
        rw [Option.some.inj h]
        exact List.mem_cons_self
      · rw [find?, if_neg hk] at h
        exact List.mem_cons_of_mem _ (ih h)

end Table

end TransactionalRegistry
