import TransactionalRegistry.Proofs.Naming
import TransactionalRegistry.Proofs.Timeless

/-!
# Changes that commute

Two changes to the trees commute when they are made below different root keys, or when both are
about single values, and not about the same one. Each of them then applies after the other exactly
if it applies by itself, it fails with the same error if it does not, and both orders end in the
same trees.

The argument follows the trees from the inside out. Two entries of a table are put and erased in
either order, since a table is in order of its keys and so has one form only; the values of a key
are such a table, and so are the keys below it. A way that two changes have in common is walked
once, and where their ways part they are about different tables, or about different entries of one.

That two changes keep out of each other's way is said of functions that may fail, so that it goes on
to hold of sequences of changes: it is enough that each change of the one sequence keeps out of the
way of each change of the other.

## Main definitions

* `Apart`: Two functions that may fail and that do not get in each other's way.
* `Mutation.Independent`: Changes below different root keys, or to different values.

## Theorems

* `Table.insert_comm`, `Table.erase_insert_comm`: Different entries of a table.
* `Node.updateValues_apart`: Different values of a tree.
* `Mutation.Independent.apply_apart`, `Mutation.replay_apart`: Independent changes, and sequences.
-/

namespace TransactionalRegistry

/-! ## Keeping out of each other's way -/

section

variable {ε σ : Type} {P : σ → Prop} {f f' g : σ → Except ε σ}

/-- Where `P` holds, two functions that may fail do not get in each other's way: each of them does
    after the other has succeeded what it does by itself. -/
structure Apart (P : σ → Prop) (f g : σ → Except ε σ) : Prop where
  both : ∀ {s x y}, P s → f s = .ok x → g s = .ok y → ∃ z, g x = .ok z ∧ f y = .ok z
  first : ∀ {s x e}, P s → f s = .ok x → g s = .error e → g x = .error e
  second : ∀ {s y e}, P s → g s = .ok y → f s = .error e → f y = .error e

/-- The state after a function that may fail, which stays as it is if that fails. -/
def afterTrying (f : σ → Except ε σ) (s : σ) : σ :=
  match f s with
  | .ok x => x
  | .error _ => s

namespace Apart

/-- Keeping out of each other's way goes both ways. -/
theorem symm (h : Apart P f g) : Apart P g f where
  both hs hg hf := by
    rcases h.both hs hf hg with ⟨z, hgx, hfy⟩
    exact ⟨z, hfy, hgx⟩
  first := h.second
  second := h.first

/-- It may be asked for in fewer states. -/
theorem mono {Q : σ → Prop} (h : Apart P f g) (hQ : ∀ s, Q s → P s) : Apart Q f g where
  both hs := h.both (hQ _ hs)
  first hs := h.first (hQ _ hs)
  second hs := h.second (hQ _ hs)

/-- Doing nothing is in nobody's way. -/
theorem ok (g : σ → Except ε σ) : Apart P .ok g where
  both _ hf hg := by
    obtain rfl := Except.ok.inj hf
    exact ⟨_, hg, rfl⟩
  first _ hf hg := by
    obtain rfl := Except.ok.inj hf
    exact hg
  second _ _ hf := by cases hf

/-- Two functions that keep out of the way of a third one do so one after the other. -/
theorem bind (h : Apart P f g) (h' : Apart P f' g) (hkeeps : ∀ {s x}, P s → f s = .ok x → P x) :
    Apart P (fun s => (f s).bind f') g where
  both {s x y} hs hf hg := by
    cases hfirst : f s with
    | error e =>
      rw [hfirst] at hf
      cases hf
    | ok x₁ =>
      -- The first function has kept out of the way, and the second one does from there.
      rw [hfirst] at hf
      rcases h.both hs hfirst hg with ⟨z₁, hgx₁, hfy⟩
      rcases h'.both (hkeeps hs hfirst) hf hgx₁ with ⟨z, hgx, hfz⟩
      refine ⟨z, hgx, ?_⟩
      rw [hfy]
      exact hfz
  first {s x e} hs hf hg := by
    cases hfirst : f s with
    | error e =>
      rw [hfirst] at hf
      cases hf
    | ok x₁ =>
      rw [hfirst] at hf
      exact h'.first (hkeeps hs hfirst) hf (h.first hs hfirst hg)
  second {s y e} hs hg hf := by
    cases hfirst : f s with
    | error e' =>
      rw [hfirst] at hf
      obtain rfl : e' = e := Except.error.inj hf
      rw [h.second hs hg hfirst]
      -- It fails after the other one just as it has failed by itself.
      rfl
    | ok x₁ =>
      rw [hfirst] at hf
      rcases h.both hs hfirst hg with ⟨z₁, hgx₁, hfy⟩
      rw [hfy]
      exact h'.second (hkeeps hs hfirst) hgx₁ hf

/-- Whether a function succeeds does not depend on whether the other one has been tried before. -/
theorem isOk_afterTrying {s : σ} (h : Apart P f g) (hs : P s) :
    (g (afterTrying f s)).isOk = (g s).isOk := by
  rw [afterTrying]
  cases hf : f s with
  | error e => rfl
  | ok x =>
    cases hg : g s with
    | error e' =>
      simp only [h.first hs hf hg]
    | ok y =>
      rcases h.both hs hf hg with ⟨z, hgx, -⟩
      simp only [hgx]
      rfl

/-- Trying one function after the other leads to the same state in either order. -/
theorem afterTrying_comm {s : σ} (h : Apart P f g) (hs : P s) :
    afterTrying g (afterTrying f s) = afterTrying f (afterTrying g s) := by
  cases hf : f s with
  | error e =>
    cases hg : g s with
    | error e' => simp only [afterTrying, hf, hg]
    | ok y => simp only [afterTrying, hf, hg, h.second hs hg hf]
  | ok x =>
    cases hg : g s with
    | error e' => simp only [afterTrying, hf, hg, h.first hs hf hg]
    | ok y =>
      rcases h.both hs hf hg with ⟨z, hgx, hfy⟩
      simp only [afterTrying, hf, hg, hgx, hfy]

end Apart

end

/-! ## Tables -/

namespace Table

variable {α : Type} {k k' : String}

/-- The smaller key is put in first here; the other order is the same equation read backwards. -/
theorem insert_comm_of_lt (hlt : k < k') (table : Table String α) (a b : α) :
    insert (insert table k a) k' b = insert (insert table k' b) k a := by
  have hne : k ≠ k' := by
    rintro rfl
    exact String.lt_irrefl k hlt
  have hnot : ¬ k' < k := fun h => String.lt_irrefl k (String.lt_trans hlt h)
  induction table with
  | nil => simp [insert, hne, hne.symm, hlt, hnot]
  | cons head rest ih =>
    rcases head with ⟨key, x⟩
    by_cases hk : k = key
    · subst hk
      simp [insert, hne.symm, hnot]
    · by_cases hbefore : k < key
      · -- If the larger key is that of the head, then the smaller one comes right before it.
        by_cases hk' : k' = key
        · subst hk'
          simp [insert, hne, hne.symm, hlt, hnot]
        · by_cases hbefore' : k' < key
          · simp [insert, hne, hne.symm, hlt, hnot, hk, hk', hbefore, hbefore']
          · simp [insert, hne.symm, hnot, hk, hk', hbefore, hbefore']
      · -- The smaller key comes after the head, and so does the larger one.
        have hafter : ¬ k' < key := fun h => hbefore (String.lt_trans hlt h)
        have hk' : k' ≠ key := by
          rintro rfl
          exact hbefore hlt
        simp [insert, hk, hk', hbefore, hafter, ih]

/-- Entries under different keys are put in either order. -/
theorem insert_comm (hne : k ≠ k') (table : Table String α) (a b : α) :
    insert (insert table k a) k' b = insert (insert table k' b) k a := by
  by_cases hlt : k < k'
  · exact insert_comm_of_lt hlt table a b
  · have hgt : k' < k := Decidable.byContradiction fun h => hne (String.le_antisymm h hlt)
    exact (insert_comm_of_lt hgt table b a).symm

/-- What is put under a key replaces what was put there before. -/
theorem insert_insert (table : Table String α) (key : String) (a b : α) :
    insert (insert table key a) key b = insert table key b := by
  induction table with
  | nil => simp [insert]
  | cons head rest ih =>
    rcases head with ⟨k, x⟩
    by_cases hk : key = k
    · simp [insert, hk]
    · by_cases hlt : key < k
      · simp [insert, hk, hlt]
      · simp [insert, hk, hlt, ih]

/-- Entries are erased in either order. -/
theorem erase_comm (table : Table String α) (k k' : String) :
    erase (erase table k) k' = erase (erase table k') k := by
  simp only [erase, List.filter_filter, Bool.and_comm]

/-- An entry is erased if it has the key, and kept otherwise. -/
theorem erase_cons (pair : String × α) (rest : Table String α) (key : String) :
    erase (pair :: rest) key = if pair.1 = key then erase rest key else pair :: erase rest key := by
  by_cases h : pair.1 = key <;> simp [erase, h]

/-- A key that is smaller than all others is put in front. -/
theorem insert_of_lt {table : Table String α} {key : String}
    (h : ∀ pair ∈ table, key < pair.1) (a : α) : insert table key a = (key, a) :: table := by
  cases table with
  | nil => rfl
  | cons head rest =>
    have hlt := h head List.mem_cons_self
    have hne : key ≠ head.1 := by
      intro heq
      rw [← heq] at hlt
      exact String.lt_irrefl key hlt
    simp only [insert, if_neg hne, if_pos hlt]

/-- In a table that is in order, what is put under one key and what is erased under another one do
    not affect each other. -/
theorem erase_insert_comm {table : Table String α} (h : Ordered table) (hne : k ≠ k') (a : α) :
    erase (insert table k a) k' = insert (erase table k') k a := by
  induction table with
  | nil => simp [insert, erase, hne]
  | cons head rest ih =>
    rcases head with ⟨key, x⟩
    rcases List.pairwise_cons.mp h with ⟨hhead, hrest⟩
    by_cases hk : k = key
    · subst hk
      rw [insert, if_pos rfl, erase_cons, if_neg hne, erase_cons, if_neg hne, insert, if_pos rfl]
    · by_cases hlt : k < key
      · -- All keys are larger, so the new one is in front with the other entry or without it.
        have hfront : ∀ pair ∈ erase ((key, x) :: rest) k', k < pair.1 := by
          intro pair hpair
          rcases List.mem_cons.mp (mem_erase hpair) with rfl | hmem
          · exact hlt
          · exact String.lt_trans hlt (hhead pair hmem)
        rw [insert_of_lt hfront, insert, if_neg hk, if_pos hlt, erase_cons, if_neg hne]
      · rw [insert, if_neg hk, if_neg hlt, erase_cons, erase_cons]
        by_cases herased : key = k'
        · rw [if_pos herased, if_pos herased, ih hrest]
        · rw [if_neg herased, if_neg herased, insert, if_neg hk, if_neg hlt, ih hrest]

/-- The table with an entry under a key, or with none. -/
def put (table : Table String α) (key : String) : Option α → Table String α
  | some entry => insert table key entry
  | none => erase table key

/-- Under its key there is what was put, and under other keys what there was. -/
theorem find?_put (table : Table String α) (key other : String) (entry : Option α) :
    find? (put table key entry) other = if key = other then entry else find? table other := by
  cases entry with
  | none => exact find?_erase table key other
  | some a => exact find?_insert table key a other

/-- Entries under different keys are put or erased in either order. -/
theorem put_comm {table : Table String α} (h : Ordered table) (hne : k ≠ k')
    (entry entry' : Option α) :
    put (put table k entry) k' entry' = put (put table k' entry') k entry := by
  cases entry <;> cases entry'
  case none.none => exact erase_comm table k k'
  case none.some b => exact (erase_insert_comm h hne.symm b).symm
  case some.none a => exact erase_insert_comm h hne a
  -- Whichever of the two are put, the other key is not in the way.
  case some.some a b => exact insert_comm hne table a b

end Table

/-! ## Parts of a state -/

/-- A part of a state: how it is read, and how it is replaced. -/
structure Part (σ τ : Type) where
  get : σ → τ
  set : σ → τ → σ

namespace Part

variable {ε σ τ υ : Type} {P : σ → Prop} {p : Part σ τ} {q : Part σ υ}

/-- Changes a part of a state by a function that may fail. -/
def change (p : Part σ τ) (f : τ → Except ε τ) (s : σ) : Except ε σ :=
  (f (p.get s)).map (p.set s)

/-- What is put in a part is found there, and replaces what was put there before. -/
structure Lawful (p : Part σ τ) : Prop where
  get_set : ∀ s a, p.get (p.set s a) = a
  set_set : ∀ s a b, p.set (p.set s a) b = p.set s b

/-- Where `P` holds, two parts have nothing in common. -/
structure Disjoint (P : σ → Prop) (p : Part σ τ) (q : Part σ υ) : Prop where
  first : ∀ {s} a, P s → q.get (p.set s a) = q.get s
  second : ∀ {s} b, P s → p.get (q.set s b) = p.get s
  comm : ∀ {s} a b, P s → q.set (p.set s a) b = p.set (q.set s b) a

/-- A change of a part succeeds where the function does on what is in it. -/
theorem change_eq_ok {f : τ → Except ε τ} {s x : σ} :
    p.change f s = .ok x ↔ ∃ a, f (p.get s) = .ok a ∧ p.set s a = x := by
  rw [change]
  cases f (p.get s) <;> simp [Except.map]

/-- It fails where the function does on what is in it. -/
theorem change_eq_error {f : τ → Except ε τ} {s : σ} {e : ε} :
    p.change f s = .error e ↔ f (p.get s) = .error e := by
  rw [change]
  cases f (p.get s) <;> simp [Except.map]

/-- What is done to one of two parts that have nothing in common does not stand in the way of what
    is done to the other. -/
theorem Disjoint.apart (h : Disjoint P p q) (f : τ → Except ε τ) (g : υ → Except ε υ) :
    Apart P (p.change f) (q.change g) where
  both hs hf hg := by
    rcases change_eq_ok.mp hf with ⟨a, ha, rfl⟩
    rcases change_eq_ok.mp hg with ⟨b, hb, rfl⟩
    refine ⟨_, change_eq_ok.mpr ⟨b, ?_, rfl⟩, change_eq_ok.mpr ⟨a, ?_, (h.comm a b hs).symm⟩⟩
    · rw [h.first a hs, hb]
    · rw [h.second b hs, ha]
  first hs hf hg := by
    rcases change_eq_ok.mp hf with ⟨a, ha, rfl⟩
    rw [change_eq_error, h.first a hs]
    exact change_eq_error.mp hg
  second hs hg hf := by
    rcases change_eq_ok.mp hg with ⟨b, hb, rfl⟩
    rw [change_eq_error, h.second b hs]
    exact change_eq_error.mp hf

/-- What does not get in each other's way within a part does not do so in the state. -/
theorem Lawful.apart {Q : τ → Prop} {f g : τ → Except ε τ} (h : p.Lawful) (hfg : Apart Q f g) :
    Apart (fun s => Q (p.get s)) (p.change f) (p.change g) where
  both hs hf hg := by
    rcases change_eq_ok.mp hf with ⟨a, ha, rfl⟩
    rcases change_eq_ok.mp hg with ⟨b, hb, rfl⟩
    rcases hfg.both hs ha hb with ⟨c, hga, hfb⟩
    -- The state that both lead to has in it what the two functions make of the part together.
    refine ⟨_, change_eq_ok.mpr ⟨c, ?_, rfl⟩, change_eq_ok.mpr ⟨c, ?_, ?_⟩⟩
    · rw [h.get_set, hga]
    · rw [h.get_set, hfb]
    · rw [h.set_set, h.set_set]
  first hs hf hg := by
    rcases change_eq_ok.mp hf with ⟨a, ha, rfl⟩
    rw [change_eq_error, h.get_set]
    exact hfg.first hs ha (change_eq_error.mp hg)
  second hs hg hf := by
    rcases change_eq_ok.mp hg with ⟨b, hb, rfl⟩
    rw [change_eq_error, h.get_set]
    exact hfg.second hs hb (change_eq_error.mp hf)

end Part

/-- The entry under a key of a table. -/
def Table.entryAt (α : Type) (key : String) : Part (Table String α) (Option α) where
  get table := table.find? key
  set table := table.put key

/-- Entries under different keys have nothing in common, as long as the table is in order. -/
theorem Table.entryAt_disjoint {α : Type} {k k' : String} (hne : k ≠ k') :
    (entryAt α k).Disjoint Ordered (entryAt α k') where
  first {table} entry _ := (find?_put table k k' entry).trans (if_neg hne)
  second {table} entry _ := (find?_put table k' k entry).trans (if_neg hne.symm)
  comm entry entry' h := put_comm h hne entry entry'

/-! ## Keys -/

namespace Node

/-- The values of a key, which is written at the time `now` when they change. -/
def valuesPart (now : Time) : Part Node (Table String StoredValue) where
  get := values
  set n values := { n with values := values, lastWrite := now }

/-- The keys below a key. -/
def subKeysPart : Part Node (Table String Node) where
  get := subKeys
  set n subKeys := { n with subKeys := subKeys }

/-- The values of a key are a part of it. -/
theorem valuesPart_lawful (now : Time) : (valuesPart now).Lawful :=
  ⟨fun _ _ => rfl, fun _ _ _ => rfl⟩

/-- The keys below a key are a part of it. -/
theorem subKeysPart_lawful : subKeysPart.Lawful :=
  ⟨fun _ _ => rfl, fun _ _ _ => rfl⟩

/-- Values and keys below have nothing in common; only values tell of the time of the write. -/
theorem valuesPart_disjoint (now : Time) :
    (valuesPart now).Disjoint (fun _ => True) subKeysPart :=
  ⟨fun _ _ => rfl, fun _ _ => rfl, fun _ _ _ => rfl⟩

/-- Changes an entry that is there, and stays one, and fails if there is none. -/
def ofEntry {ε : Type} (missing : ε) (f : Node → Except ε Node) :
    Option Node → Except ε (Option Node)
  | none => .error missing
  | some child => (f child).map some

variable {ε : Type} {missing : ε}

/-- One step on the way to a key changes one entry of the keys below. -/
theorem update_cons (f : Node → Except ε Node) (name : String) (rest : List String) :
    update missing f (name :: rest) =
      subKeysPart.change
        ((Table.entryAt Node (Text.fold name)).change
          (ofEntry missing (update missing f rest))) := by
  funext n
  simp only [update, Part.change, subKeysPart, Table.entryAt, child?]
  cases Table.find? n.subKeys (Text.fold name) with
  | none => rfl
  | some child =>
    simp only [ofEntry]
    cases update missing f rest child <;> rfl

/-- An entry is changed if it is there and the function succeeds on it. -/
theorem changeEntry_eq_ok {f : Node → Except ε Node} {key : String} {table x : Table String Node} :
    (Table.entryAt Node key).change (ofEntry missing f) table = .ok x ↔
      ∃ child m, table.find? key = some child ∧ f child = .ok m ∧ table.insert key m = x := by
  rw [Part.change_eq_ok]
  change (∃ a, ofEntry missing f (table.find? key) = .ok a ∧ table.put key a = x) ↔ _
  cases table.find? key with
  | none => simp [ofEntry]
  | some child => cases hf : f child <;> simp [ofEntry, hf, Except.map, Table.put]

/-- Changing an entry fails if it is missing, or where the function fails on it. -/
theorem changeEntry_eq_error {f : Node → Except ε Node} {key : String} {table : Table String Node}
    {e : ε} :
    (Table.entryAt Node key).change (ofEntry missing f) table = .error e ↔
      (table.find? key = none ∧ missing = e) ∨
        ∃ child, table.find? key = some child ∧ f child = .error e := by
  rw [Part.change_eq_error]
  change ofEntry missing f (table.find? key) = .error e ↔ _
  cases table.find? key with
  | none => simp [ofEntry]
  | some child => cases hf : f child <;> simp [ofEntry, hf, Except.map]

/-- What fails after an entry has been replaced has failed at the new entry. -/
theorem changeEntry_insert_error {f : Node → Except ε Node} {key : String}
    {table : Table String Node} {m : Node} {e : ε} (h : f m = .error e) :
    (Table.entryAt Node key).change (ofEntry missing f) (table.insert key m) = .error e :=
  changeEntry_eq_error.mpr (.inr ⟨m, (Table.find?_insert _ _ _ _).trans (if_pos rfl), h⟩)

/-- What succeeds after an entry has been replaced has replaced the new entry. -/
theorem changeEntry_insert_ok {f : Node → Except ε Node} {key : String} {table : Table String Node}
    {m m' : Node} (h : f m = .ok m') :
    (Table.entryAt Node key).change (ofEntry missing f) (table.insert key m) =
      .ok (table.insert key m') :=
  changeEntry_eq_ok.mpr ⟨m, m', (Table.find?_insert _ _ _ _).trans (if_pos rfl), h,
    Table.insert_insert table key m m'⟩

/-- Two functions that keep out of each other's way on a key do so on the table that it is in. -/
theorem changeEntry_apart {P : Node → Prop} {f g : Node → Except ε Node} (h : Apart P f g)
    (key : String) :
    Apart (fun table : Table String Node => ∀ child, table.find? key = some child → P child)
      ((Table.entryAt Node key).change (ofEntry missing f))
      ((Table.entryAt Node key).change (ofEntry missing g)) where
  both hP hf hg := by
    rcases changeEntry_eq_ok.mp hf with ⟨child, m, hchild, hm, rfl⟩
    rcases changeEntry_eq_ok.mp hg with ⟨child', m', hchild', hm', rfl⟩
    -- Both have found the same entry.
    obtain rfl : child = child' := Option.some.inj (hchild.symm.trans hchild')
    rcases h.both (hP child hchild) hm hm' with ⟨both, hgm, hfm⟩
    exact ⟨_, changeEntry_insert_ok hgm, changeEntry_insert_ok hfm⟩
  first hP hf hg := by
    rcases changeEntry_eq_ok.mp hf with ⟨child, m, hchild, hm, rfl⟩
    rcases changeEntry_eq_error.mp hg with ⟨hnone, -⟩ | ⟨child', hchild', he⟩
    · -- An entry that one function has changed is not missing for the other.
      rw [hchild] at hnone
      cases hnone
    · obtain rfl : child = child' := Option.some.inj (hchild.symm.trans hchild')
      exact changeEntry_insert_error (h.first (hP child hchild) hm he)
  second hP hg hf := by
    rcases changeEntry_eq_ok.mp hg with ⟨child, m, hchild, hm, rfl⟩
    rcases changeEntry_eq_error.mp hf with ⟨hnone, -⟩ | ⟨child', hchild', he⟩
    · rw [hchild] at hnone
      cases hnone
    · obtain rfl : child = child' := Option.some.inj (hchild.symm.trans hchild')
      exact changeEntry_insert_error (h.second (hP child hchild) hm he)

/-- Changes the value of a key that is under a folded name, or puts one there, or takes it away. -/
def changeValue (now : Time) (folded : String)
    (f : Option StoredValue → Except ε (Option StoredValue)) : Node → Except ε Node :=
  (valuesPart now).change ((Table.entryAt StoredValue folded).change f)

/-- Changes to different values of a tree, be they values of one key or of two. -/
theorem updateValues_apart {now : Time} {names names' : List String} {folded folded' : String}
    (f g : Option StoredValue → Except ε (Option StoredValue))
    (hne : names.map Text.fold ≠ names'.map Text.fold ∨ folded ≠ folded') :
    Apart WellNamed (update missing (changeValue now folded f) names)
      (update missing (changeValue now folded' g) names') := by
  -- The induction goes down both ways at once: they end at one key, or one ends above the other, or
  -- they part at a name.
  induction names generalizing names' with
  | nil =>
    cases names' with
    | nil =>
      -- Two values of one key: these are different entries of its table.
      have hfolded : folded ≠ folded' := hne.resolve_left fun h => h rfl
      have hvalues := (valuesPart_lawful now).apart ((Table.entryAt_disjoint hfolded).apart f g)
      exact hvalues.mono fun n hn => (hn n (.here n)).values_ordered
    | cons name' rest' =>
      -- One way ends here, and changes values; the other goes on below.
      rw [update_cons]
      exact ((valuesPart_disjoint now).apart _ _).mono fun _ _ => trivial
  | cons name rest ih =>
    cases names' with
    | nil =>
      rw [update_cons]
      exact ((valuesPart_disjoint now).apart _ _).symm.mono fun _ _ => trivial
    | cons name' rest' =>
      rw [update_cons, update_cons]
      by_cases hname : Text.fold name = Text.fold name'
      · -- The ways go on together for one more name.
        have hrest : rest.map Text.fold ≠ rest'.map Text.fold ∨ folded ≠ folded' :=
          hne.imp_left fun h heq => h (by rw [List.map_cons, List.map_cons, hname, heq])
        rw [← hname]
        refine (subKeysPart_lawful.apart (changeEntry_apart (ih hrest) (Text.fold name))).mono ?_
        exact fun n hn child hchild => (hn.of_child? hchild).1
      · -- The ways part here, into different entries of the table of keys.
        refine (subKeysPart_lawful.apart ((Table.entryAt_disjoint hname).apart _ _)).mono ?_
        exact fun n hn => (hn n (.here n)).subKeys_ordered

end Node

/-! ## The five trees -/

namespace Hives

/-- The tree of a root key. -/
def treePart (root : RootKey) : Part Hives Node where
  get h := h.get root
  set h n := h.set root n

/-- The tree of a root key is a part of the five. -/
theorem treePart_lawful (root : RootKey) : (treePart root).Lawful where
  get_set h n := (get_set h root root n).trans (if_pos rfl)
  set_set h n m := by cases root <;> rfl

/-- Different trees have nothing in common. -/
theorem treePart_disjoint {root root' : RootKey} (hne : root ≠ root') :
    (treePart root).Disjoint (fun _ => True) (treePart root') where
  first {h} n _ := (get_set h root root' n).trans (if_neg hne)
  second {h} n _ := (get_set h root' root n).trans (if_neg hne.symm)
  comm {h} n m _ := by
    cases root <;> cases root' <;> first | rfl | exact absurd rfl hne

end Hives

/-! ## Changes -/

namespace Mutation

/-- The name of the value that a change writes or deletes. -/
def valueName? : Mutation → Option String
  | setValue _ name _ | deleteValue _ name => some name
  | createKey _ | deleteKey _ | renameKey _ _ => none

/-- Two changes are made below different root keys, or they write or delete different values. -/
def Independent (m m' : Mutation) : Prop :=
  m.target.root ≠ m'.target.root ∨
    ∃ name name', m.valueName? = some name ∧ m'.valueName? = some name' ∧
      (m.target.path.folded ≠ m'.target.path.folded ∨ Text.fold name ≠ Text.fold name')

/-- What is changed from the key above is changed in the tree of its root key. -/
theorem exists_updateAbove_eq (l : Location) (f : String → Node → Except NativeError Node) :
    ∃ g, (Hives.updateAbove · l f) = (Hives.treePart l.root).change g := by
  -- The key above a root key is asked for in vain, so that nothing is changed.
  cases hname : l.path.name? with
  | none =>
    refine ⟨fun _ => .error .accessDenied, funext fun h => ?_⟩
    rw [Hives.updateAbove, hname]
    rfl
  | some name =>
    refine ⟨Node.update .fileNotFound (f name) l.path.names.dropLast, funext fun h => ?_⟩
    rw [Hives.updateAbove, hname]
    rfl

/-- A change is made in the tree of one root key. -/
theorem exists_apply_eq (now : Time) (m : Mutation) :
    ∃ f, (apply now · m) = (Hives.treePart m.target.root).change f := by
  cases m with
  | createKey l => exact ⟨fun n => .ok (n.create now l.path.names), rfl⟩
  | deleteKey l => exact exists_updateAbove_eq l _
  | renameKey l newName =>
    -- A name that is none is refused before the tree is looked at.
    by_cases hsingle : isSingleName newName = true
    · rcases exists_updateAbove_eq l (fun old => Node.renameChild now newName old) with ⟨f, hf⟩
      refine ⟨f, Eq.trans (funext fun h => ?_) hf⟩
      rw [apply, if_pos hsingle]
    · refine ⟨fun _ => .error .invalidParameter, funext fun h => ?_⟩
      rw [apply, if_neg hsingle]
      rfl
  | setValue l name data => exact ⟨_, rfl⟩
  | deleteValue l name => exact ⟨_, rfl⟩

/-- A change to a value is made at the end of the way to its key. -/
theorem exists_apply_value_eq (now : Time) {m : Mutation} {name : String}
    (hname : m.valueName? = some name) :
    ∃ f, (apply now · m) = (Hives.treePart m.target.root).change
      (Node.update .keyDeleted (Node.changeValue now (Text.fold name) f) m.target.path.names) := by
  cases m with
  | setValue l given data =>
    obtain rfl : given = name := Option.some.inj hname
    exact ⟨fun _ => .ok (some ⟨given, data⟩), rfl⟩
  | deleteValue l given =>
    obtain rfl : given = name := Option.some.inj hname
    -- The entry is taken away if it is there.
    let taken : Option StoredValue → Except NativeError (Option StoredValue) := fun found =>
      if found.isSome then .ok none else .error .fileNotFound
    have hremove : Node.removeValue now given = Node.changeValue now (Text.fold given) taken := by
      funext n
      rw [Node.removeValue, Node.value?]
      change _ = ((taken (Table.find? n.values (Text.fold given))).map _).map _
      cases Table.find? n.values (Text.fold given) <;> rfl
    refine ⟨taken, ?_⟩
    rw [← hremove]
    rfl
  | createKey l | deleteKey l | renameKey l newName => cases hname

/-- Independent changes keep out of each other's way, since they are made in different parts. -/
theorem Independent.apply_apart {m m' : Mutation} (h : m.Independent m') (now : Time) :
    Apart Hives.WellNamed (apply now · m) (apply now · m') := by
  by_cases hroot : m.target.root = m'.target.root
  · rcases h.resolve_left fun hne => hne hroot with ⟨name, name', hname, hname', hne⟩
    rcases exists_apply_value_eq now hname with ⟨f, hf⟩
    rcases exists_apply_value_eq now hname' with ⟨g, hg⟩
    rw [hf, hg, ← hroot]
    refine ((Hives.treePart_lawful _).apart (Node.updateValues_apart f g hne)).mono ?_
    exact fun h hwell => (hwell m.target.root).1
  · rcases exists_apply_eq now m with ⟨f, hf⟩
    rcases exists_apply_eq now m' with ⟨g, hg⟩
    rw [hf, hg]
    exact ((Hives.treePart_disjoint hroot).apart f g).mono fun _ _ => trivial

/-- A sequence of changes keeps out of the way of what each of its changes keeps out of the way
    of. -/
theorem replay_apart_of_forall {now : Time} {log : List Mutation}
    {g : Hives → Except NativeError Hives} (hsound : ∀ m ∈ log, m.Sound)
    (h : ∀ m ∈ log, Apart Hives.WellNamed (apply now · m) g) :
    Apart Hives.WellNamed (replay now · log) g := by
  -- The sequence gets longer at the front, and its first change leaves well-named trees.
  induction log with
  | nil => exact .ok g
  | cons m rest ih =>
    refine (h m List.mem_cons_self).bind (ih ?_ ?_) ?_
    · exact fun m' hm' => hsound m' (List.mem_cons_of_mem m hm')
    · exact fun m' hm' => h m' (List.mem_cons_of_mem m hm')
    · exact fun hwell hok => (hsound m List.mem_cons_self).apply hwell hok

/-- Sequences of independent changes keep out of each other's way. -/
theorem replay_apart (now : Time) {log log' : List Mutation}
    (h : ∀ m ∈ log, ∀ m' ∈ log', m.Independent m') (hsound : ∀ m ∈ log, m.Sound)
    (hsound' : ∀ m ∈ log', m.Sound) :
    Apart Hives.WellNamed (replay now · log) (replay now · log') := by
  -- Each change of the one sequence keeps out of the way of all of the other.
  refine replay_apart_of_forall hsound fun m hm => ?_
  exact (replay_apart_of_forall hsound' fun m' hm' => ((h m hm m' hm').apply_apart now).symm).symm

end Mutation

end TransactionalRegistry
