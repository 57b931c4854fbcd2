import TransactionalRegistry.Proofs.LetterCase
import TransactionalRegistry.Proofs.SideBySide
import TransactionalRegistry.Proofs.Views

/-!
# Calls under another spelling

A store remembers how a location was spelled in two places: where the key of an open handle is, and
what the pending changes of a transaction are to be made to. It looks locations up by what they fold
to, so nothing that it does depends on these spellings. Two stores that differ in them alone answer
a call alike, also if the call is made under two spellings of one place, and differ in them alone
afterwards.

Only creating a key shows the spelling in the trees. After that, the trees are the same up to the
letter case of the keys that were not there before.

## Main definitions

* `Store.folded`: A store with the locations that it remembers folded.
* `Store.SameUnder`: Two stores that differ in how locations are spelled, and in their trees as far
  as a map of trees leaves differences out.
* `Store.Same`: Two stores that differ in how locations are spelled and in nothing else.
* `Store.uncasedSince`: Trees without the letter case of the keys that an older store did not show.

## Theorems

* `Store.respelled_view`, `Store.respelled_mutate`: Looking at the trees and changing them.
* `Store.respelled_openKey`, `Store.respelled_createKey`, `Store.respelled_changeKey`: Calls by
  path.
* `Store.respelled_withNode`, `Store.respelled_changeValue`, `Store.respelled_closeKey`: Calls
  through a handle.
-/

namespace TransactionalRegistry

/-! ## Computations that end alike -/

section

variable {σ ε α β : Type} {P R E : σ → σ → Prop} {m₁ m₂ : EStateM ε σ α}
  {Q : α → α → σ → σ → Prop}

/-- No state is late. -/
abbrev Never (_ : σ) : Prop := False

/-- Where no state is late, nothing has to be kept. -/
theorem keeps_never {m : EStateM ε σ α} : Keeps Never m :=
  fun _ h => h.elim

/-- The rule for a step with related answers followed by the rest. -/
theorem Agrees.bind_related {A : β → β → Prop} {m₁ m₂ : EStateM ε σ β}
    {f₁ f₂ : β → EStateM ε σ α}
    (h : Agrees Never P m₁ m₂ (fun a b s₁ s₂ => A a b ∧ R s₁ s₂) E)
    (hf : ∀ a b, A a b → Agrees Never R (f₁ a) (f₂ b) Q E) :
    Agrees Never P (m₁ >>= f₁) (m₂ >>= f₂) Q E :=
  h.bind fun a b => ⟨keeps_never, fun s₁ s₂ hs => (hf a b hs.1).run s₁ s₂ hs.2⟩

/-- The rule for reading the state followed by the rest. -/
theorem agrees_get_bind {f₁ f₂ : σ → EStateM ε σ α}
    (h : ∀ a b, P a b → Agrees Never P (f₁ a) (f₂ b) Q E) :
    Agrees Never P (get >>= f₁) (get >>= f₂) Q E :=
  ⟨keeps_never, fun s₁ s₂ hs => (h s₁ s₂ hs).run s₁ s₂ hs⟩

/-- Two changes of the state that keep to the relation agree. -/
theorem agrees_modify {f₁ f₂ : σ → σ} (h : ∀ s₁ s₂, P s₁ s₂ → R (f₁ s₁) (f₂ s₂)) :
    Agrees (ε := ε) Never P (modify f₁) (modify f₂) (fun _ _ => R) E :=
  ⟨keeps_never, fun s₁ s₂ hs => Or.inr (.ok (h s₁ s₂ hs))⟩

end

/-! ## Stores without spellings -/

/-- A change at a key is spelled by its location alone. -/
theorem Mutation.AtKey.folded {change : Location → Mutation} (h : AtKey change) (l : Location) :
    (change l).folded = change l.folded := by
  cases h <;> rfl

/-- The open key with its location folded. -/
def OpenKey.folded (k : OpenKey) : OpenKey :=
  { k with location := k.location.folded }

/-- Open keys are the same but for spelling if their places are, with rights and transactions. -/
theorem OpenKey.folded_eq_iff {k₁ k₂ : OpenKey} :
    k₁.folded = k₂.folded ↔ k₁.location.place = k₂.location.place ∧ k₁.access = k₂.access ∧
      k₁.transaction = k₂.transaction := by
  rw [folded, folded, OpenKey.mk.injEq, Location.folded_eq_iff]

/-- Open keys at one place are the same but for spelling. -/
theorem OpenKey.folded_of_place {l m : Location} (h : l.place = m.place) (access : Access)
    (transaction : Option TransactionHandle) :
    folded ⟨l, access, transaction⟩ = folded ⟨m, access, transaction⟩ :=
  folded_eq_iff.mpr ⟨h, rfl, rfl⟩

namespace TransactionRecord

/-- The transaction with the locations of its pending changes folded. -/
def folded (r : TransactionRecord) : TransactionRecord :=
  { r with log := r.log.map Mutation.folded }

/-- The transaction with `f` applied to its private copy. -/
def mapTrees (f : Hives → Hives) (r : TransactionRecord) : TransactionRecord :=
  { r with workspace := r.workspace.map f }

/-- Two records stay the same but for spelling when they are given trees and changes that are. -/
theorem folded_replaced {r₁ r₂ : TransactionRecord} (h : r₁.folded = r₂.folded)
    {f : Hives → Hives} {h₁ h₂ : Hives} (htrees : f h₁ = f h₂) {log₁ log₂ : List Mutation}
    (hlog : log₁.map Mutation.folded = log₂.map Mutation.folded) :
    mapTrees f (folded { r₁ with workspace := some h₁, log := log₁ }) =
      mapTrees f (folded { r₂ with workspace := some h₂, log := log₂ }) := by
  simp only [folded, mapTrees, Option.map_some, htrees, hlog]
  exact congrArg (fun r : TransactionRecord =>
    { r with workspace := some (f h₂), log := log₂.map Mutation.folded }) h

end TransactionRecord

namespace Store

/-- The store with the locations of its open keys and of all pending changes folded. -/
def folded (s : Store) : Store :=
  { s with
    transactions := s.transactions.map (Prod.map id TransactionRecord.folded)
    keys := s.keys.map (Prod.map id OpenKey.folded) }

/-- The store with the trees of each owner changed: the live trees, which nobody owns, and the
    private copies of the transactions. -/
def mapTrees (f : Option TransactionHandle → Hives → Hives) (s : Store) : Store :=
  { s with
    hives := f none s.hives
    transactions := s.transactions.map fun entry => (entry.1, entry.2.mapTrees (f (some entry.1))) }

/-- The store after its clock was read. -/
def ticked (s : Store) : Store :=
  { s with clock := s.clock.read }

/-- The store with other live trees. -/
def withTrees (s : Store) (h : Hives) : Store :=
  { s with hives := h }

/-- The store with another record of a transaction. -/
def recording (s : Store) (t : TransactionHandle) (r : TransactionRecord) : Store :=
  { s with transactions := Table.insert s.transactions t r }

/-- The store without what is known about a handle. -/
def withoutKey (s : Store) (key : KeyHandle) : Store :=
  { s with keys := Table.erase s.keys key }

/-- Two stores that differ in how locations are spelled, and in their trees as far as `f` leaves
    differences out. -/
def SameUnder (f : Option TransactionHandle → Hives → Hives) (s₁ s₂ : Store) : Prop :=
  s₁.folded.mapTrees f = s₂.folded.mapTrees f

/-- Two stores that differ in how locations are spelled and in nothing else. -/
abbrev Same : Store → Store → Prop :=
  SameUnder fun _ h => h

/-- Trees without the letter case of the keys that their owner did not see in the store `s`. -/
def uncasedSince (s : Store) (owner : Option TransactionHandle) (h : Hives) : Hives :=
  match s.viewOf owner with
  | some old => old.uncased h
  | none => h

variable {f : Option TransactionHandle → Hives → Hives} {s s₁ s₂ : Store} {α : Type}

/-- Changing the trees to what they are changes nothing. -/
theorem mapTrees_id (s : Store) : s.mapTrees (fun _ h => h) = s := by
  have hrecord : ∀ r : TransactionRecord, r.mapTrees (fun h => h) = r := fun r => by
    rw [TransactionRecord.mapTrees, Option.map_id']
  simp only [mapTrees, hrecord, List.map_id']

/-- Stores that differ in spelling alone are equal when all locations are folded. -/
theorem same_iff : Same s₁ s₂ ↔ s₁.folded = s₂.folded := by
  rw [Same, SameUnder, mapTrees_id, mapTrees_id]

/-- Stores that are the same may be compared with less of their trees. -/
theorem Same.under (h : Same s₁ s₂) : SameUnder f s₁ s₂ :=
  congrArg (mapTrees f) (same_iff.mp h)

/-- What is read off the folded stores is the same. -/
theorem SameUnder.field {β : Type} (h : SameUnder f s₁ s₂) (field : Store → β) :
    field (s₁.folded.mapTrees f) = field (s₂.folded.mapTrees f) :=
  congrArg field h

namespace SameUnder

/-- Under a handle both stores have one key, up to spelling. -/
theorem openKey (h : SameUnder f s₁ s₂) (key : KeyHandle) :
    (Table.find? s₁.keys key).map OpenKey.folded =
      (Table.find? s₂.keys key).map OpenKey.folded := by
  rw [← Table.find?_map, ← Table.find?_map]
  exact h.field fun s => Table.find? s.keys key

/-- A handle is open in both stores or in neither. -/
theorem contains (h : SameUnder f s₁ s₂) (key : KeyHandle) :
    Table.contains s₁.keys key = Table.contains s₂.keys key := by
  have hsame := congrArg Option.isSome (h.openKey key)
  rw [Option.isSome_map, Option.isSome_map] at hsame
  exact hsame

/-- A location is protected or not, however it is spelled. -/
theorem isProtected (h : SameUnder f s₁ s₂) {l m : Location} (hplace : l.place = m.place) :
    s₁.isProtected l = s₂.isProtected m := by
  -- Two spellings of a place lie within the same locations.
  have hwithin : (l.isWithin ·) = (m.isWithin ·) := by
    funext ancestor
    rw [Bool.eq_iff_iff, Location.isWithin_iff, Location.isWithin_iff, hplace]
  have hplaces : s₁.protectedPlaces = s₂.protectedPlaces := h.field Store.protectedPlaces
  rw [Store.isProtected, Store.isProtected, hwithin, hplaces]

/-- Stores stay the same after steps that are one step without spellings. -/
theorem step (h : SameUnder f s₁ s₂) (g₁ g₂ g : Store → Store)
    (h₁ : ∀ s : Store, (g₁ s).folded.mapTrees f = g (s.folded.mapTrees f))
    (h₂ : ∀ s : Store, (g₂ s).folded.mapTrees f = g (s.folded.mapTrees f)) :
    SameUnder f (g₁ s₁) (g₂ s₂) := by
  rw [SameUnder, h₁, h₂]
  exact congrArg g h

/-- An entry is made in both logs. -/
theorem note (h : SameUnder f s₁ s₂) (entry : LogEntry) :
    SameUnder f (s₁.note entry) (s₂.note entry) :=
  h.step (Store.note entry) (Store.note entry) (Store.note entry) (fun _ => rfl) (fun _ => rfl)

/-- The clock is read in both stores. -/
theorem ticked (h : SameUnder f s₁ s₂) : SameUnder f s₁.ticked s₂.ticked :=
  h.step Store.ticked Store.ticked Store.ticked (fun _ => rfl) (fun _ => rfl)

/-- Live trees that `f` does not tell apart are put in place of one another. -/
theorem withTrees (h : SameUnder f s₁ s₂) {h₁ h₂ : Hives} (htrees : f none h₁ = f none h₂) :
    SameUnder f (s₁.withTrees h₁) (s₂.withTrees h₂) :=
  h.step (Store.withTrees · h₁) (Store.withTrees · h₂) (Store.withTrees · (f none h₂))
    (fun _ => htrees ▸ rfl) (fun _ => rfl)

/-- Records that do not differ under `f` are put in both stores. -/
theorem recording (h : SameUnder f s₁ s₂) {t : TransactionHandle} {r₁ r₂ : TransactionRecord}
    (hrecord : r₁.folded.mapTrees (f (some t)) = r₂.folded.mapTrees (f (some t))) :
    SameUnder f (s₁.recording t r₁) (s₂.recording t r₂) := by
  -- Folding the store and putting the record is done in either order.
  have hput : ∀ (r : TransactionRecord) (s : Store), (s.recording t r).folded.mapTrees f =
      (s.folded.mapTrees f).recording t (r.folded.mapTrees (f (some t))) := by
    intro r s
    rw [Store.recording, Store.folded, ← Table.insert_map, Store.mapTrees]
    exact congrArg (fun table => { s.folded.mapTrees f with transactions := table })
      (Table.insert_mapped (fun t r => TransactionRecord.mapTrees (f (some t)) r) _ _ _).symm
  exact h.step (Store.recording · t r₁) (Store.recording · t r₂)
    (Store.recording · t (r₂.folded.mapTrees (f (some t)))) (hrecord ▸ hput r₁) (hput r₂)

/-- A key is opened in both stores under the next handle. -/
theorem withKey (h : SameUnder f s₁ s₂) {k₁ k₂ : OpenKey} (hkey : k₁.folded = k₂.folded) :
    SameUnder f (s₁.withKey k₁) (s₂.withKey k₂) := by
  have hput : ∀ (k : OpenKey) (s : Store),
      (s.withKey k).folded.mapTrees f = (s.folded.mapTrees f).withKey k.folded := by
    intro k s
    rw [Store.withKey, Store.withKey, Store.folded, ← Table.insert_map]
    rfl
  exact h.step (Store.withKey · k₁) (Store.withKey · k₂) (Store.withKey · k₂.folded)
    (hkey ▸ hput k₁) (hput k₂)

/-- A key is closed in both stores. -/
theorem withoutKey (h : SameUnder f s₁ s₂) (key : KeyHandle) :
    SameUnder f (s₁.withoutKey key) (s₂.withoutKey key) := by
  have hdropped : ∀ s : Store,
      (s.withoutKey key).folded.mapTrees f = (s.folded.mapTrees f).withoutKey key := by
    intro s
    rw [Store.withoutKey, Store.folded, ← Table.erase_map]
    rfl
  exact h.step (Store.withoutKey · key) (Store.withoutKey · key) (Store.withoutKey · key) hdropped
    hdropped

end SameUnder

/-! ## Steps of a call -/

section

variable {t : TransactionHandle} {owner : Option TransactionHandle} {E : Store → Store → Prop}

/-- Both clocks tell the same time. -/
theorem respelled_readClock :
    Agrees Never (SameUnder f) readClock readClock
      (fun now₁ now₂ s₁ s₂ => now₁ = now₂ ∧ SameUnder f s₁ s₂) E := by
  refine ⟨keeps_never, fun s₁ s₂ h => Or.inr (.ok ⟨?_, h.ticked⟩)⟩
  exact h.field fun s => s.clock.read.now

/-- The log is no matter of spelling. -/
theorem respelled_log (entry : LogEntry) :
    Agrees Never (SameUnder f) (log entry) (log entry) (fun _ _ => SameUnder f) E :=
  agrees_modify fun _ _ h => h.note entry

/-- Records that do not differ under `f` are written. -/
theorem respelled_putRecord {r₁ r₂ : TransactionRecord}
    (hrecord : r₁.folded.mapTrees (f (some t)) = r₂.folded.mapTrees (f (some t))) :
    Agrees Never (SameUnder f) (putRecord t r₁) (putRecord t r₂) (fun _ _ => SameUnder f) E :=
  agrees_modify fun _ _ h => h.recording hrecord

/-- Whether a transaction is known does not depend on spellings, nor does what is known of it but
    for its pending changes. -/
theorem Same.record_cases (h : Same s₁ s₂) (t : TransactionHandle) :
    (Table.find? s₁.transactions t = none ∧ Table.find? s₂.transactions t = none) ∨
      ∃ r₁ r₂, Table.find? s₁.transactions t = some r₁ ∧
        Table.find? s₂.transactions t = some r₂ ∧ r₁.folded = r₂.folded := by
  have hsame : (Table.find? s₁.transactions t).map TransactionRecord.folded =
      (Table.find? s₂.transactions t).map TransactionRecord.folded := by
    rw [← Table.find?_map, ← Table.find?_map]
    exact congrArg (record? · t) (same_iff.mp h)
  cases hr : Table.find? s₁.transactions t with
  | none =>
    rw [hr] at hsame
    exact Or.inl ⟨rfl, Option.map_eq_none_iff.mp hsame.symm⟩
  | some r₁ =>
    rw [hr] at hsame
    obtain ⟨r₂, hr₂, hfolded⟩ := Option.map_eq_some_iff.mp hsame.symm
    exact Or.inr ⟨r₁, r₂, rfl, hr₂, hfolded.symm⟩

/-- A record that is looked up is found or expires in both stores. -/
theorem respelled_currentRecord (t : TransactionHandle) :
    Agrees Never Same (currentRecord t) (currentRecord t)
      (fun r₁ r₂ s₁ s₂ => r₁.folded = r₂.folded ∧ Same s₁ s₂) Same := by
  unfold currentRecord
  refine agrees_get_bind (fun a b hab => ?_)
  rcases hab.record_cases t with ⟨ha, hb⟩ | ⟨r₁, r₂, ha, hb, hfolded⟩
  · rw [ha, hb]
    exact agrees_throw (fun _ _ h => h)
  · rw [ha, hb]
    -- When the transaction ends, and what becomes of it then, does not depend on its pending
    -- changes.
    have hpending : r₁.folded.pendingDeadline = r₂.folded.pendingDeadline := by rw [hfolded]
    have hdiscarded : r₁.folded.discarded = r₂.folded.discarded := by rw [hfolded]
    change r₁.pendingDeadline = r₂.pendingDeadline at hpending
    change r₁.discarded = r₂.discarded at hdiscarded
    simp only [hpending, hdiscarded]
    cases r₂.pendingDeadline with
    | none => exact agrees_pure (fun _ _ h => ⟨hfolded, h⟩)
    | some deadline =>
      refine respelled_readClock.bind_eq (fun now => ?_)
      by_cases hin : now < deadline
      · simp only [if_pos hin]
        exact agrees_pure (fun _ _ h => ⟨hfolded, h⟩)
      · simp only [if_neg hin]
        refine (respelled_log _).bind_unit ((respelled_putRecord rfl).bind_unit ?_)
        exact agrees_pure (fun _ _ h => ⟨rfl, h⟩)

/-- The same trees are seen in both stores. -/
theorem respelled_view (owner : Option TransactionHandle) :
    Agrees Never Same (view owner) (view owner) (fun h₁ h₂ s₁ s₂ => h₁ = h₂ ∧ Same s₁ s₂) Same := by
  have htrees : ∀ a b, Same a b → a.hives = b.hives := by
    intro a b hab
    exact hab.field Store.hives
  cases owner with
  | none => exact agrees_get_bind (fun a b hab => agrees_pure (fun _ _ h => ⟨htrees a b hab, h⟩))
  | some t =>
    unfold view
    refine (respelled_currentRecord t).bind_related (fun r₁ r₂ hfolded => ?_)
    have hstate : r₁.folded.state = r₂.folded.state := by rw [hfolded]
    have hworkspace : r₁.folded.workspace = r₂.folded.workspace := by rw [hfolded]
    change r₁.state = r₂.state at hstate
    change r₁.workspace = r₂.workspace at hworkspace
    have hlog : r₁.folded.log = r₂.folded.log := by rw [hfolded]
    by_cases hactive : r₂.state = .active
    · rw [if_neg (not_not_intro (hstate.trans hactive)), if_neg (not_not_intro hactive),
        hworkspace]
      cases hcopy : r₂.workspace with
      | some h => exact agrees_pure (fun _ _ hs => ⟨rfl, hs⟩)
      | none =>
        -- The first look copies the live trees, which are the same in both stores.
        refine agrees_get_bind (fun a b hab => ?_)
        rw [htrees a b hab]
        exact (respelled_putRecord (TransactionRecord.folded_replaced hfolded rfl hlog)).bind_unit
          (agrees_pure (fun _ _ hs => ⟨rfl, hs⟩))
    · rw [if_pos (hstate ▸ hactive), if_pos hactive]
      exact agrees_throw (fun _ _ h => h)

/-- Changed trees are put in place of those that were seen, with the change that was made. -/
theorem respelled_install {h₁ h₂ : Hives} {m₁ m₂ : Mutation} (htrees : f owner h₁ = f owner h₂)
    (hchange : m₁.folded = m₂.folded) :
    Agrees Never Same (install owner h₁ m₁) (install owner h₂ m₂) (fun _ _ => SameUnder f) E := by
  cases owner with
  | none => exact agrees_modify (fun _ _ h => h.under.withTrees htrees)
  | some t =>
    refine agrees_get_bind (fun a b hab => ?_)
    -- The transaction is known to both stores, or to neither.
    rcases hab.record_cases t with ⟨ha, hb⟩ | ⟨r₁, r₂, ha, hb, hfolded⟩
    · rw [ha, hb]
      exact agrees_pure (fun _ _ h => h.under)
    · rw [ha, hb]
      have hlog : r₁.folded.log = r₂.folded.log := by rw [hfolded]
      refine (respelled_putRecord (TransactionRecord.folded_replaced hfolded htrees ?_)).mono_pre
        (fun _ _ h => h.under)
      rw [List.map_append, List.map_append, List.map_singleton, List.map_singleton, hchange]
      exact congrArg (· ++ [m₂.folded]) hlog

/-- A change is made to what is seen, under two spellings. `Seen` is what is known of the trees that
    are seen when the stores are known to satisfy `T`. -/
theorem respelled_mutate (T : Store → Prop) (Seen : Hives → Prop) {m₁ m₂ : Mutation}
    (hview : ∀ s, T s → Ends (view owner) s (fun h _ => Seen h) (fun _ _ => True))
    (hchange : m₁.folded = m₂.folded)
    (happly : ∀ now h, Seen h →
      (m₁.apply now h).map (f owner) = (m₂.apply now h).map (f owner)) :
    Agrees Never (fun s₁ s₂ => Same s₁ s₂ ∧ T s₁) (mutate owner m₁) (mutate owner m₂)
      (fun _ _ => SameUnder f) (SameUnder f) := by
  -- What is known of the trees that are seen concerns the first store alone, and they are the same.
  have hlook : Agrees Never (fun s₁ s₂ => Same s₁ s₂ ∧ T s₁) (view owner) (view owner)
      (fun h₁ h₂ s₁ s₂ => (h₁ = h₂ ∧ Seen h₁) ∧ Same s₁ s₂) (SameUnder f) :=
    ((respelled_view owner).and_first hview).mono (fun _ _ h => h)
      (fun _ _ _ _ h => ⟨⟨h.1.1, h.2⟩, h.1.2⟩) (fun _ _ h => h.under)
  refine hlook.bind_related ?_
  rintro h _ ⟨rfl, hseen⟩
  refine respelled_readClock.bind_eq (fun now => ?_)
  -- The change is refused for the same reason, or leads to trees that `f` does not tell apart.
  rcases Except.map_eq_cases (happly now h hseen) with ⟨e, h₁, h₂⟩ | ⟨c₁, c₂, h₁, h₂, htrees⟩
  · rw [h₁, h₂]
    exact agrees_throw (fun _ _ hs => Same.under hs)
  · rw [h₁, h₂]
    exact respelled_install htrees hchange

/-! ## Checks of a call -/

variable {P : Store → Store → Prop}

/-- Two spellings of one location are protected or not together. -/
theorem respelled_requireUnprotected (hP : ∀ s₁ s₂, P s₁ s₂ → SameUnder f s₁ s₂) {l m : Location}
    (hplace : l.place = m.place) :
    Agrees Never P (requireUnprotected l) (requireUnprotected m) (fun _ _ => P) P :=
  agrees_get_bind fun a b hab => by
    rw [(hP a b hab).isProtected hplace]
    exact agrees_require _ _

/-- Nor does it depend on the spelling whether the rights that are asked for are granted. -/
theorem respelled_requireAdmissible (hP : ∀ s₁ s₂, P s₁ s₂ → SameUnder f s₁ s₂) {l m : Location}
    (hplace : l.place = m.place) (access : Access) :
    Agrees Never P (requireAdmissible l access) (requireAdmissible m access) (fun _ _ => P) P :=
  agrees_get_bind fun a b hab => by
    rw [(hP a b hab).isProtected hplace]
    exact agrees_require _ _

/-- An open key is looked up under its handle in both stores. -/
theorem respelled_lookUp (hP : ∀ s₁ s₂, P s₁ s₂ → SameUnder f s₁ s₂) (key : KeyHandle) :
    Agrees Never P (lookUp key) (lookUp key) (fun k₁ k₂ s₁ s₂ => k₁.folded = k₂.folded ∧ P s₁ s₂)
      P := by
  unfold lookUp
  cases key.root? with
  | some root => exact agrees_pure (fun _ _ h => ⟨rfl, h⟩)
  | none =>
    refine agrees_get_bind (fun a b hab => ?_)
    have hkey := (hP a b hab).openKey key
    -- Both stores have a key under this handle, or neither has.
    cases ha : Table.find? a.keys key with
    | none =>
      rw [ha] at hkey
      rw [Option.map_eq_none_iff.mp hkey.symm]
      exact agrees_throw (fun _ _ h => h)
    | some k₁ =>
      rw [ha] at hkey
      obtain ⟨k₂, hb, hfolded⟩ := Option.map_eq_some_iff.mp hkey.symm
      rw [hb]
      exact agrees_pure (fun _ _ h => ⟨hfolded.symm, h⟩)

/-- Two texts that spell one way. -/
def SameWay (sub₁ sub₂ : String) : Prop :=
  (Path.ofText sub₁).folded = (Path.ofText sub₂).folded

/-- What is below an open key is one place if the open keys and the ways from them are. -/
theorem respelled_target {p₁ p₂ : OpenKey} {sub₁ sub₂ : String}
    (hview : Agrees Never P (view owner) (view owner) (fun h₁ h₂ s₁ s₂ => h₁ = h₂ ∧ P s₁ s₂) E)
    (hPE : ∀ s₁ s₂, P s₁ s₂ → E s₁ s₂) (hparent : p₁.location.place = p₂.location.place)
    (hway : SameWay sub₁ sub₂) :
    Agrees Never P (target p₁ sub₁ owner) (target p₂ sub₂ owner)
      (fun l m s₁ s₂ => l.place = m.place ∧ P s₁ s₂) E := by
  unfold target
  refine hview.bind_eq (fun trees => ?_)
  rw [Hives.contains_of_place hparent]
  refine ((agrees_require _ _).mono_error hPE).bind_unit (agrees_pure (fun _ _ h => ⟨?_, h⟩))
  rw [Location.place_of_below, Location.place_of_below, hparent, hway]

/-- The handle of a new key is drawn from the counter, which is the same in both. -/
theorem respelled_addKey {k₁ k₂ : OpenKey} (h : k₁.folded = k₂.folded) :
    Agrees Never (SameUnder f) (addKey k₁) (addKey k₂)
      (fun key₁ key₂ s₁ s₂ => key₁ = key₂ ∧ SameUnder f s₁ s₂) E :=
  ⟨keeps_never, fun _ _ hs =>
    Or.inr (.ok ⟨congrArg KeyHandle.mk (hs.field Store.nextHandle), hs.withKey h⟩)⟩

/-! ## Calls by path -/

variable {sub₁ sub₂ : String}

/-- Opening a key under two spellings gives one handle. -/
theorem respelled_openKey (parent : KeyHandle) (hway : SameWay sub₁ sub₂) (access : Access)
    (transaction : Option TransactionHandle) :
    Agrees Never Same (openKey parent sub₁ access transaction)
      (openKey parent sub₂ access transaction)
      (fun key₁ key₂ s₁ s₂ => key₁ = key₂ ∧ Same s₁ s₂) Same := by
  refine (respelled_lookUp (fun _ _ h => h) parent).bind_related (fun p₁ p₂ hfolded => ?_)
  obtain ⟨hparent, -, howner⟩ := OpenKey.folded_eq_iff.mp hfolded
  dsimp only
  rw [howner]
  refine (respelled_target (respelled_view _) (fun _ _ h => h) hparent hway).bind_related
    (fun l m hplace => ?_)
  refine (respelled_view _).bind_eq (fun trees => ?_)
  rw [Hives.contains_of_place hplace]
  refine (agrees_require _ _).bind_unit ?_
  refine (respelled_requireAdmissible (fun _ _ h => h) hplace access).bind_unit ?_
  exact respelled_addKey (OpenKey.folded_of_place hplace access _)

/-- A key is deleted or renamed, or its values are changed, under two spellings. -/
theorem respelled_change {change : Location → Mutation} (hchange : Mutation.AtKey change)
    {l m : Location} (hplace : l.place = m.place) :
    Agrees Never Same (mutate owner (change l)) (mutate owner (change m)) (fun _ _ => Same)
      Same := by
  refine (respelled_mutate (fun _ => True) (fun _ => True) ?_ ?_ ?_).mono_pre
    (fun _ _ h => ⟨h, trivial⟩)
  · exact fun _ _ => ends_of_forall (fun _ _ => trivial) (fun _ _ => trivial)
  · rw [hchange.folded, hchange.folded, Location.folded_eq_iff.mpr hplace]
  · exact fun now h _ => by rw [hchange.apply_of_place hplace]

/-- Deleting or renaming a key under two spellings has one outcome. -/
theorem respelled_changeKey (parent : KeyHandle) (hway : SameWay sub₁ sub₂)
    (transaction : Option TransactionHandle) {change : Location → Mutation}
    (hchange : Mutation.AtKey change) :
    Agrees Never Same (changeKey parent sub₁ transaction change)
      (changeKey parent sub₂ transaction change) (fun _ _ => Same) Same := by
  refine (respelled_lookUp (fun _ _ h => h) parent).bind_related (fun p₁ p₂ hfolded => ?_)
  obtain ⟨hparent, -, howner⟩ := OpenKey.folded_eq_iff.mp hfolded
  dsimp only
  rw [howner]
  refine (respelled_target (respelled_view _) (fun _ _ h => h) hparent hway).bind_related
    (fun l m hplace => ?_)
  rw [Location.isRoot_of_place hplace]
  refine (agrees_require _ _).bind_unit ?_
  refine (respelled_requireUnprotected (fun _ _ h => h) hplace).bind_unit ?_
  exact respelled_change hchange hplace

/-! ### Creating a key -/

/-- Two stores of one spelling, the first of which has come from `s` by looks through `owner`. -/
def Facing (s : Store) (owner : Option TransactionHandle) (s₁ s₂ : Store) : Prop :=
  Same s₁ s₂ ∧ Looked owner s s₁

/-- What both see is what was to be seen in `s`. -/
theorem facing_view (s : Store) (owner : Option TransactionHandle) :
    Agrees Never (Facing s owner) (view owner) (view owner)
      (fun h₁ h₂ s₁ s₂ => h₁ = h₂ ∧ s.viewOf owner = some h₁ ∧ Facing s owner s₁ s₂)
      (SameUnder s.uncasedSince) :=
  ((respelled_view owner).and_first (fun _ hlook => view_finds hlook)).mono (fun _ _ h => h)
    (fun _ _ _ _ h => ⟨h.1.1, h.2.2, h.1.2, h.2.1⟩) (fun _ _ h => h.under)

theorem Facing.under {s : Store} (h : Facing s owner s₁ s₂) : SameUnder f s₁ s₂ :=
  Same.under h.1

/-- A key that is missing is created under two spellings, in the trees that are seen. -/
theorem respelled_createMissing (s : Store) {p₁ p₂ : OpenKey} (haccess : p₁.access = p₂.access)
    {l m : Location} (hplace : l.place = m.place) (owner : Option TransactionHandle) :
    Agrees Never (Facing s owner) (createMissing p₁ l owner) (createMissing p₂ m owner)
      (fun _ _ => SameUnder s.uncasedSince) (SameUnder s.uncasedSince) := by
  unfold createMissing
  rw [haccess]
  refine ((agrees_require _ _).mono_error (fun _ _ h => h.under)).bind_unit ?_
  refine ((respelled_requireUnprotected (fun _ _ h => h.1) hplace).mono_error
    (fun _ _ h => h.under)).bind_unit ?_
  refine respelled_mutate (Looked owner s) (fun h => s.viewOf owner = some h) ?_ ?_ ?_
  · exact fun s₁ hlook => (view_finds hlook).mono (fun _ _ h => h.2) (fun _ _ _ => trivial)
  · rw [Mutation.folded, Mutation.folded, Location.folded_eq_iff.mpr hplace]
  · intro now h hseen
    have hcase : s.uncasedSince owner = h.uncased := by
      funext trees
      rw [uncasedSince, hseen]
    rw [hcase]
    exact Mutation.createKey_uncased hplace now h

/-- Creating a key under two spellings leaves trees that differ in the letter case of new keys
    alone. -/
theorem respelled_createKey (s : Store) (parent : KeyHandle) (hway : SameWay sub₁ sub₂)
    (access : Access) (transaction : Option TransactionHandle) :
    Agrees Never (fun s₁ s₂ => Same s₁ s₂ ∧ ∀ owner, Looked owner s s₁)
      (createKey parent sub₁ access transaction) (createKey parent sub₂ access transaction)
      (fun answer₁ answer₂ s₁ s₂ => answer₁ = answer₂ ∧ SameUnder s.uncasedSince s₁ s₂)
      (SameUnder s.uncasedSince) := by
  refine ((respelled_lookUp (fun _ _ h => h.1) parent).mono_error
    (fun _ _ h => h.1.under)).bind_related (fun p₁ p₂ hfolded => ?_)
  obtain ⟨hparent, haccess, howner⟩ := OpenKey.folded_eq_iff.mp hfolded
  dsimp only
  rw [howner]
  have hview := facing_view s (transaction.or p₂.transaction)
  have htarget := respelled_target (hview.mono_ok (fun _ _ _ _ h => ⟨h.1, h.2.2⟩))
    (fun _ _ h => h.under) hparent hway
  refine (htarget.mono_pre (fun _ _ h => ⟨h.1, h.2 _⟩)).bind_related (fun l m hplace => ?_)
  -- Once the key is there, it is opened, whether it was there before or has just been created.
  have hopen : ∀ disposition : Disposition,
      Agrees Never (SameUnder s.uncasedSince)
        (requireAdmissible l access >>= fun _ => do
          let handle ← addKey ⟨l, access, transaction.or p₂.transaction⟩
          return (handle, disposition))
        (requireAdmissible m access >>= fun _ => do
          let handle ← addKey ⟨m, access, transaction.or p₂.transaction⟩
          return (handle, disposition))
        (fun answer₁ answer₂ s₁ s₂ => answer₁ = answer₂ ∧ SameUnder s.uncasedSince s₁ s₂)
        (SameUnder s.uncasedSince) := by
    intro disposition
    refine (respelled_requireAdmissible (fun _ _ h => h) hplace access).bind_unit ?_
    refine (respelled_addKey (OpenKey.folded_of_place hplace access _)).bind_eq
      (fun handle => ?_)
    exact agrees_pure (fun _ _ h => ⟨rfl, h⟩)
  refine hview.bind_eq (fun trees => ?_)
  rw [Hives.contains_of_place hplace]
  cases trees.contains m with
  | true => exact (hopen .openedExisting).mono_pre (fun _ _ h => h.2.under)
  | false =>
    refine Agrees.bind_unit ?_ (hopen .createdNew)
    exact (respelled_createMissing s haccess hplace _).mono_pre (fun _ _ h => h.2)

/-! ## Calls through a handle -/

/-- What is read through a handle does not depend on spellings. -/
theorem respelled_withNode {α : Type} (key : KeyHandle) (access : Access)
    (transaction : Option TransactionHandle) (read : Node → Except NativeError α) :
    Agrees Never Same (withNode key access transaction read) (withNode key access transaction read)
      (fun a b s₁ s₂ => a = b ∧ Same s₁ s₂) Same := by
  refine (respelled_lookUp (fun _ _ h => h) key).bind_related (fun k₁ k₂ hfolded => ?_)
  obtain ⟨hplace, haccess, howner⟩ := OpenKey.folded_eq_iff.mp hfolded
  rw [haccess, howner]
  refine (agrees_require _ _).bind_unit ((respelled_view _).bind_eq (fun trees => ?_))
  rw [Hives.find?_of_place hplace]
  cases trees.find? k₂.location with
  | none => exact agrees_throw (fun _ _ h => h)
  | some n =>
    dsimp only
    cases read n with
    | ok a => exact agrees_pure (fun _ _ h => ⟨rfl, h⟩)
    | error e => exact agrees_throw (fun _ _ h => h)

/-- Changing a value through a handle has one outcome, however the key was opened. -/
theorem respelled_changeValue (key : KeyHandle) (transaction : Option TransactionHandle)
    {change : Location → Mutation} (hchange : Mutation.AtKey change) :
    Agrees Never Same (changeValue key transaction change) (changeValue key transaction change)
      (fun _ _ => Same) Same := by
  refine (respelled_lookUp (fun _ _ h => h) key).bind_related (fun k₁ k₂ hfolded => ?_)
  obtain ⟨hplace, haccess, howner⟩ := OpenKey.folded_eq_iff.mp hfolded
  rw [haccess, howner]
  refine (agrees_require _ _).bind_unit ?_
  refine (respelled_requireUnprotected (fun _ _ h => h) hplace).bind_unit ?_
  exact respelled_change hchange hplace

/-- Closing a handle has one outcome. -/
theorem respelled_closeKey (key : KeyHandle) :
    Agrees Never (SameUnder f) (closeKey key) (closeKey key) (fun _ _ => SameUnder f)
      (SameUnder f) := by
  unfold closeKey
  cases key.isPredefined with
  | true => exact agrees_pure (fun _ _ h => h)
  | false =>
    refine agrees_get_bind (fun a b hab => ?_)
    rw [hab.contains key]
    exact (agrees_require _ _).bind_unit (agrees_modify (fun _ _ h => h.withoutKey key))

end

end Store

end TransactionalRegistry
