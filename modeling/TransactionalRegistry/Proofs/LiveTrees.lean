import TransactionalRegistry.Proofs.Snapshots

/-!
# The live trees are what was committed

The live trees are five empty root keys with the contributions of the history made to them in order,
up to times. A contribution is the change of one call that ran in no transaction, or all changes of
one transaction that was committed; no transaction contributes twice, and one that has been rolled
back, closed, or has run out of time contributes no more.

## Main definitions

* `Chronicle.Replayed`: The live trees are what the contributions make of five empty root keys.
* `Chronicle.Carries`: A move that neither opens nor commits a transaction.
* `Chronicle.Books`: The open transactions that have contributed are the committed ones.
* `Chronicle.Over`: A transaction can no longer be committed.

## Theorems

* `Replayed.move`, `Books.move`, `Over.move`: What a move does to each of them.
* `Over.mem_sources`: A transaction that is over contributes no more.
* `live_trees_are_committed_history`: All of it, after every run.
-/

namespace TransactionalRegistry

open Store

/-! ## Contributions -/

namespace History

variable {g : History}

/-- A change outside every transaction is contributed last. -/
theorem mutations_changed (m : Mutation) : (g.changed none m).mutations = g.mutations ++ [m] := by
  simp only [changed, mutations, List.flatMap_append, List.flatMap_cons, List.flatMap_nil,
    List.append_nil]

/-- A commit contributes the changes in the account of the transaction, in their order. -/
theorem mutations_committed (t : TransactionHandle) :
    (g.committed t).mutations = g.mutations ++ (g.accounts t).changes := by
  simp only [committed, mutations, List.flatMap_append, List.flatMap_cons, List.flatMap_nil,
    List.append_nil]

/-- To look at the trees is to contribute nothing. -/
theorem contributions_looked (transaction : Option TransactionHandle) (live : Hives) :
    (g.looked transaction live).contributions = g.contributions := by
  cases transaction with
  | none => rfl
  | some t => rfl

theorem created_looked (transaction : Option TransactionHandle) (live : Hives) :
    (g.looked transaction live).created = g.created := by
  cases transaction with
  | none => rfl
  | some t => rfl

/-- Whoever looks keeps the number that it has. -/
theorem number_looked (transaction : Option TransactionHandle) (live : Hives)
    (t' : TransactionHandle) :
    ((g.looked transaction live).accounts t').number = (g.accounts t').number := by
  cases transaction with
  | none => rfl
  | some t =>
    simp only [looked, withAccount]
    split
    · rfl
    · rfl

/-- Whoever changes something keeps the number that it has. -/
theorem number_changed (transaction : Option TransactionHandle) (m : Mutation)
    (t' : TransactionHandle) :
    ((g.changed transaction m).accounts t').number = (g.accounts t').number := by
  cases transaction with
  | none => rfl
  | some t =>
    simp only [changed, withAccount]
    split
    · rfl
    · rfl

theorem created_changed (transaction : Option TransactionHandle) (m : Mutation) :
    (g.changed transaction m).created = g.created := by
  cases transaction with
  | none => rfl
  | some t => rfl

/-- A change by itself makes no transaction one of those that have contributed. -/
theorem sources_changed (transaction : Option TransactionHandle) (m : Mutation) :
    (g.changed transaction m).sources = g.sources := by
  cases transaction with
  | none => simp only [changed, sources, List.filterMap_append, List.filterMap_cons,
      List.filterMap_nil, List.append_nil]
  | some t => rfl

/-- A commit makes its transaction one of those that have contributed. -/
theorem sources_committed (t : TransactionHandle) :
    (g.committed t).sources = g.sources ++ [(g.accounts t).number] := by
  simp only [committed, sources, List.filterMap_append, List.filterMap_cons, List.filterMap_nil]

/-- A transaction that is opened gets the next number, and the others keep theirs. -/
theorem number_opened (t t' : TransactionHandle) :
    ((g.opened t).accounts t').number = if t = t' then g.created else (g.accounts t').number := by
  simp only [opened, withAccount]
  split
  · rfl
  · rfl

/-- A transaction that is opened has changed nothing. -/
theorem changes_opened (t t' : TransactionHandle) :
    ((g.opened t).accounts t').changes = if t = t' then [] else (g.accounts t').changes := by
  simp only [opened, withAccount]
  split
  · rfl
  · rfl

/-- To look at the trees is to change nothing. -/
theorem changes_looked (transaction : Option TransactionHandle) (live : Hives)
    (t' : TransactionHandle) :
    ((g.looked transaction live).accounts t').changes = (g.accounts t').changes := by
  cases transaction with
  | none => rfl
  | some t =>
    simp only [looked, withAccount]
    split
    · rfl
    · rfl

end History

namespace Store

variable {m : Mutation} {s s' : Store}

/-- A change outside every transaction is made to the live trees. -/
theorem Changed.replay (h : Changed none m s s') :
    Mutation.replay 0 s.hives.timeless [m] = .ok s'.hives.timeless := by
  rcases h with ⟨trees, changed, hsees, happly, rfl⟩
  have hlive : s.hives = trees := hsees
  rw [Mutation.replay, Mutation.apply_timeless s.clock.now, hlive, happly]
  rfl

/-- A change in a transaction leaves the live trees alone. -/
theorem Changed.hives {t : TransactionHandle} (h : Changed (some t) m s s') :
    s'.hives = s.hives := by
  rcases h with ⟨trees, changed, ⟨r, hr, _⟩, _, rfl⟩
  rw [installed_some hr]

end Store

namespace Chronicle

/-! ## The live trees -/

/-- The live trees are what the contributions make of five empty root keys, up to times. -/
def Replayed (c : Chronicle) : Prop :=
  Mutation.replay 0 (Hives.empty 0) c.history.mutations = .ok c.store.hives.timeless

/-- A move leaves the live trees alone and contributes nothing, or does the same to both. -/
theorem Replayed.move {c c' : Chronicle} (hmove : Moves c c') (hsnapshotted : c.Snapshotted)
    (h : c.Replayed) : c'.Replayed := by
  induction hmove with
  | @rest s s' g hrests =>
    unfold Replayed at h ⊢
    rw [hrests.hives]
    exact h
  | @look s s' g transaction hobs =>
    unfold Replayed History.mutations at h ⊢
    rw [hobs.1.hives, History.contributions_looked]
    exact h
  | @change s s' g transaction m hchanged =>
    unfold Replayed at h ⊢
    cases transaction with
    | none =>
      -- The change is made to the live trees, and contributed last.
      rw [History.mutations_changed, Mutation.replay_append, h]
      exact hchanged.replay
    | some t =>
      -- The change is made to the private copy and goes to the account of the transaction.
      rw [hchanged.hives]
      exact h
  | @opened s s' g _ _ t hcreated =>
    unfold Replayed at h ⊢
    rw [hcreated.hives]
    exact h
  | @committed s s' g t r hsettled hreplay =>
    unfold Replayed at h ⊢
    -- The changes that are replayed are the ones that the calls of the transaction have made.
    have hlog := (hsnapshotted t r hsettled.found hsettled.active).log_eq
    have hchanges : Mutation.replay 0 s.hives.timeless (g.accounts t).changes
        = .ok s'.hives.timeless := by
      rw [← hlog, Mutation.replay_timeless s'.clock.now, hreplay]
      rfl
    rw [History.mutations_committed, Mutation.replay_append, h]
    exact hchanges
  | trans hfirst _ ih ih' => exact ih' (hsnapshotted.move hfirst) (ih hsnapshotted h)

/-! ## Who contributes -/

/-- No transaction was opened or committed, and a transaction that is no longer as it was has been
    rolled back. -/
structure Carries (c c' : Chronicle) : Prop where
  created : c'.history.created = c.history.created
  sources : c'.history.sources = c.history.sources
  numbers : ∀ t, (c'.history.accounts t).number = (c.history.accounts t).number
  clock : c.store.clock.now ≤ c'.store.clock.now
  records : ∀ t r', c'.store.record? t = some r' → ∃ r, c.store.record? t = some r ∧
    r'.deadline = r.deadline ∧
    (r'.state = r.state ∨ r.state = .active ∧ r'.state = .rolledBack)

variable {s s' : Store} {g : History}

/-- Where a store rests, a transaction can only have run out of time. -/
theorem carries_of_rests (h : s.Rests s') : Carries ⟨s, g⟩ ⟨s', g⟩ where
  created := rfl
  sources := rfl
  numbers _ := rfl
  clock := h.clock
  records t r' hr' := by
    rcases h.records t r' hr' with ⟨r, hr, rfl | ⟨hactive, rfl⟩⟩
    · exact ⟨r', hr, rfl, Or.inl rfl⟩
    · exact ⟨r, hr, rfl, Or.inr ⟨hactive, rfl⟩⟩

/-- Whoever looks may have run out of time, or has a copy now, and stays what it was otherwise. -/
theorem carries_of_observed {transaction : Option TransactionHandle}
    (h : Observed transaction s s') :
    Carries ⟨s, g⟩ ⟨s', g.looked transaction s.hives⟩ where
  created := g.created_looked transaction s.hives
  sources :=
    congrArg (List.filterMap Contribution.source) (g.contributions_looked transaction s.hives)
  numbers := g.number_looked transaction s.hives
  clock := h.1.clock
  records t r' hr' := by
    rcases h.1.origin hr' with ⟨r, hr, hrecord⟩
    refine ⟨r, hr, ?_⟩
    cases hrecord with
    | same => exact ⟨rfl, Or.inl rfl⟩
    | expired _ hactive => exact ⟨rfl, Or.inr ⟨hactive, rfl⟩⟩
    | copied => exact ⟨rfl, Or.inl rfl⟩

theorem carries_of_changed {transaction : Option TransactionHandle} {m : Mutation}
    (h : Changed transaction m s s') : Carries ⟨s, g⟩ ⟨s', g.changed transaction m⟩ := by
  -- A change of the live trees or of a private copy leaves states and deadlines alone.
  have hstore : s.clock.now ≤ s'.clock.now ∧ ∀ t r', s'.record? t = some r' →
      ∃ r, s.record? t = some r ∧ r'.deadline = r.deadline ∧ r'.state = r.state := by
    rcases h with ⟨trees, changed, hsees, _, rfl⟩
    cases transaction with
    | none => exact ⟨Nat.le_refl _, fun t r' hr' => ⟨r', hr', rfl, rfl⟩⟩
    | some t =>
      rcases hsees with ⟨r, hr, _⟩
      rw [installed_some hr]
      refine ⟨Nat.le_refl _, ?_⟩
      intro t' r' hr'
      rw [record?_insert] at hr'
      by_cases ht : t = t'
      · subst ht
        rw [if_pos rfl, Option.some.injEq] at hr'
        rw [← hr']
        exact ⟨r, hr, rfl, rfl⟩
      · rw [if_neg ht] at hr'
        exact ⟨r', hr', rfl, rfl⟩
  refine ⟨g.created_changed transaction m, g.sources_changed transaction m,
    g.number_changed transaction m, hstore.1, ?_⟩
  intro t r' hr'
  rcases hstore.2 t r' hr' with ⟨r, hr, hdeadline, hstate⟩
  exact ⟨r, hr, hdeadline, Or.inl hstate⟩

/-- Open transactions have numbers of their own, and those that have contributed are the committed
    ones; each has contributed once. -/
structure Books (c : Chronicle) : Prop where
  numbered : ∀ t r, c.store.record? t = some r →
    (c.history.accounts t).number < c.history.created
  distinct : ∀ t t' r r', c.store.record? t = some r → c.store.record? t' = some r' →
    (c.history.accounts t).number = (c.history.accounts t').number → t = t'
  contributed : ∀ t r, c.store.record? t = some r →
    ((c.history.accounts t).number ∈ c.history.sources ↔ r.state = .committed)
  once : c.history.sources.Nodup
  earlier : ∀ n ∈ c.history.sources, n < c.history.created

namespace Books

/-- The books stay right where no transaction was opened or committed. -/
theorem carry {c c' : Chronicle} (h : c.Books) (hcarries : Carries c c') : c'.Books where
  numbered t r' hr' := by
    rcases hcarries.records t r' hr' with ⟨r, hr, _⟩
    rw [hcarries.numbers, hcarries.created]
    exact h.numbered t r hr
  distinct t₁ t₂ r₁' r₂' hr₁' hr₂' hnumber := by
    rcases hcarries.records t₁ r₁' hr₁' with ⟨r₁, hr₁, _⟩
    rcases hcarries.records t₂ r₂' hr₂' with ⟨r₂, hr₂, _⟩
    rw [hcarries.numbers, hcarries.numbers] at hnumber
    exact h.distinct t₁ t₂ r₁ r₂ hr₁ hr₂ hnumber
  contributed t r' hr' := by
    rcases hcarries.records t r' hr' with ⟨r, hr, _, hstate⟩
    -- A transaction that is rolled back was active, so it had not contributed.
    rw [hcarries.numbers, hcarries.sources, h.contributed t r hr]
    rcases hstate with hsame | ⟨hactive, hended⟩
    · rw [hsame]
    · rw [hactive, hended]
      simp
  once := by
    rw [hcarries.sources]
    exact h.once
  earlier n hn := by
    rw [hcarries.sources] at hn
    rw [hcarries.created]
    exact h.earlier n hn

/-- The number of a new transaction is a new one. -/
theorem opened {timeoutMillis : UInt32} {description : Option String} {t : TransactionHandle}
    (h : Books ⟨s, g⟩) (hcreated : Created timeoutMillis description t s s') :
    Books ⟨s', g.opened t⟩ := by
  have hrecord := hcreated.record
  have hbelow : ∀ t' r', t ≠ t' → s'.record? t' = some r' → (g.accounts t').number < g.created := by
    intro t' r' ht hr'
    rw [hrecord, if_neg ht] at hr'
    exact h.numbered t' r' hr'
  -- Only the new transaction has the number `g.created`; all others lie below it.
  refine ⟨?_, ?_, ?_, h.once, fun n hn => Nat.lt_succ_of_lt (h.earlier n hn)⟩
  · intro t' r' hr'
    change ((g.opened t).accounts t').number < g.created + 1
    rw [History.number_opened]
    by_cases ht : t = t'
    · rw [if_pos ht]
      exact Nat.lt_succ_self _
    · rw [if_neg ht]
      exact Nat.lt_succ_of_lt (hbelow t' r' ht hr')
  · intro t₁ t₂ r₁ r₂ hr₁ hr₂ hnumber
    change ((g.opened t).accounts t₁).number = ((g.opened t).accounts t₂).number at hnumber
    rw [History.number_opened, History.number_opened] at hnumber
    by_cases ht₁ : t = t₁
    · by_cases ht₂ : t = t₂
      · rw [← ht₁, ht₂]
      · -- The new number is `g.created`, and no other transaction has that one.
        rw [if_pos ht₁, if_neg ht₂] at hnumber
        exact absurd (hbelow t₂ r₂ ht₂ hr₂) (by omega)
    · by_cases ht₂ : t = t₂
      · rw [if_neg ht₁, if_pos ht₂] at hnumber
        exact absurd (hbelow t₁ r₁ ht₁ hr₁) (by omega)
      · rw [if_neg ht₁, if_neg ht₂] at hnumber
        change s'.record? t₁ = some r₁ at hr₁
        change s'.record? t₂ = some r₂ at hr₂
        rw [hrecord, if_neg ht₁] at hr₁
        rw [hrecord, if_neg ht₂] at hr₂
        exact h.distinct t₁ t₂ r₁ r₂ hr₁ hr₂ hnumber
  · intro t' r' hr'
    change ((g.opened t).accounts t').number ∈ g.sources ↔ _
    change s'.record? t' = some r' at hr'
    rw [History.number_opened]
    rw [hrecord] at hr'
    by_cases ht : t = t'
    · rw [if_pos ht, Option.some.injEq] at hr'
      rw [if_pos ht, ← hr']
      -- The new transaction is active, and its number cannot have contributed yet.
      refine ⟨fun hmem => ?_, fun hcommitted => ?_⟩
      · exact absurd (h.earlier _ hmem) (Nat.lt_irrefl _)
      · exact absurd hcommitted (by simp [TransactionRecord.fresh])
    · rw [if_neg ht] at hr' ⊢
      exact h.contributed t' r' hr'

/-- The number of an active transaction is none of those that have contributed, so a commit adds
    one. -/
theorem committed {t : TransactionHandle} {r : TransactionRecord} (h : Books ⟨s, g⟩)
    (hsettled : Decided t r r.settled s s') : Books ⟨s', g.committed t⟩ := by
  have hfirst : (g.accounts t).number ∉ g.sources := by
    intro hmem
    have hcommitted := (h.contributed t r hsettled.found).mp hmem
    exact absurd hcommitted (by rw [hsettled.active]; simp)
  -- No transaction is opened by a commit, so each one of now was there before.
  have hfound : ∀ t' r', s'.record? t' = some r' → ∃ r₀, s.record? t' = some r₀ := by
    intro t' r' hr'
    by_cases ht : t = t'
    · exact ⟨r, ht ▸ hsettled.found⟩
    · exact ⟨r', by rw [← hsettled.others t' ht]; exact hr'⟩
  refine ⟨?_, ?_, ?_, ?_, ?_⟩
  · intro t' r' hr'
    rcases hfound t' r' hr' with ⟨r₀, hr₀⟩
    exact h.numbered t' r₀ hr₀
  · intro t₁ t₂ r₁' r₂' hr₁' hr₂' hnumber
    rcases hfound t₁ r₁' hr₁' with ⟨r₁, hr₁⟩
    rcases hfound t₂ r₂' hr₂' with ⟨r₂, hr₂⟩
    exact h.distinct t₁ t₂ r₁ r₂ hr₁ hr₂ hnumber
  · intro t' r' hr'
    change (g.accounts t').number ∈ (g.committed t).sources ↔ _
    change s'.record? t' = some r' at hr'
    rw [History.sources_committed, List.mem_append, List.mem_singleton]
    by_cases ht : t = t'
    · subst ht
      rw [hsettled.decided, Option.some.injEq] at hr'
      rw [← hr']
      exact ⟨fun _ => rfl, fun _ => Or.inr rfl⟩
    · -- Another transaction has another number, so that the new source is not its own.
      rw [hsettled.others t' ht] at hr'
      rw [← h.contributed t' r' hr']
      refine ⟨fun hmem => hmem.resolve_right (fun hnumber => ?_), Or.inl⟩
      exact ht (h.distinct t' t r' r hr' hsettled.found hnumber).symm
  · change (g.committed t).sources.Nodup
    rw [History.sources_committed, List.nodup_append]
    refine ⟨h.once, by simp, ?_⟩
    intro n hn n' hn' heq
    rw [List.mem_singleton] at hn'
    rw [heq, hn'] at hn
    exact hfirst hn
  · intro n hn
    change n ∈ (g.committed t).sources at hn
    rw [History.sources_committed, List.mem_append, List.mem_singleton] at hn
    rcases hn with hn | hn
    · exact h.earlier n hn
    · rw [hn]
      exact h.numbered t r hsettled.found

/-- Whatever happens, the books stay right. -/
theorem move {c c' : Chronicle} (hmove : Moves c c') (h : c.Books) : c'.Books := by
  induction hmove with
  | rest hrests => exact h.carry (carries_of_rests hrests)
  | look _ hobs => exact h.carry (carries_of_observed hobs)
  | change _ _ hchanged => exact h.carry (carries_of_changed hchanged)
  | opened hcreated => exact h.opened hcreated
  | committed hsettled _ => exact h.committed hsettled
  | trans _ _ ih ih' => exact ih' (ih h)

end Books

/-! ## Transactions that are over -/

/-- The transaction with the number `n` can no longer be committed: it is not open any more, or it
    has ended, or its time is over. -/
def Over (n : Nat) (c : Chronicle) : Prop :=
  n < c.history.created ∧ ∀ t r, c.store.record? t = some r →
    (c.history.accounts t).number = n → r.state = .active →
    ∃ deadline, r.deadline = some deadline ∧ deadline ≤ c.store.clock.now

namespace Over

variable {n : Nat}

/-- What is over stays over where no transaction was opened or committed. -/
theorem carry {c c' : Chronicle} (h : c.Over n) (hcarries : Carries c c') : c'.Over n := by
  refine ⟨by rw [hcarries.created]; exact h.1, ?_⟩
  intro t r' hr' hnumber hactive
  rcases hcarries.records t r' hr' with ⟨r, hr, hdeadline, hsame | ⟨_, hended⟩⟩
  · rw [hcarries.numbers] at hnumber
    rcases h.2 t r hr hnumber (hsame.symm.trans hactive) with ⟨deadline, hd, hdue⟩
    exact ⟨deadline, hdeadline.trans hd, Nat.le_trans hdue hcarries.clock⟩
  · -- A transaction that was rolled back is not active any more.
    exact absurd hactive (by rw [hended]; simp)

/-- A transaction that is opened is none of those that are over. -/
theorem opened {timeoutMillis : UInt32} {description : Option String} {t : TransactionHandle}
    (h : Over n ⟨s, g⟩) (hcreated : Created timeoutMillis description t s s') :
    Over n ⟨s', g.opened t⟩ := by
  have hn : n < g.created := h.1
  refine ⟨Nat.lt_succ_of_lt hn, ?_⟩
  intro t' r' hr' hnumber hactive
  change ((g.opened t).accounts t').number = n at hnumber
  rw [History.number_opened] at hnumber
  change s'.record? t' = some r' at hr'
  rw [hcreated.record] at hr'
  by_cases ht : t = t'
  · -- The new transaction has the next number, which `n` lies below.
    rw [if_pos ht] at hnumber
    exact absurd hn (by omega)
  · rw [if_neg ht] at hnumber hr'
    rcases h.2 t' r' hr' hnumber hactive with ⟨deadline, hd, hdue⟩
    -- Opening a transaction reads the clock, which never runs backwards.
    have hclock : s.clock.now ≤ s'.clock.now := by
      rw [hcreated.clock]
      exact s.clock.le_read
    exact ⟨deadline, hd, Nat.le_trans hdue hclock⟩

/-- A transaction that is committed is active and in time, so it is none that is over. -/
theorem number_ne {t : TransactionHandle} {r record : TransactionRecord} (h : Over n ⟨s, g⟩)
    (hdecided : Decided t r record s s') : (g.accounts t).number ≠ n := by
  intro hnumber
  rcases h.2 t r hdecided.found hnumber hdecided.active with ⟨deadline, hd, hdue⟩
  exact absurd (hdecided.in_time deadline hd) (Nat.not_lt_of_le hdue)

/-- A commit of another transaction does not bring one back that is over. -/
theorem committed {t : TransactionHandle} {r : TransactionRecord} (h : Over n ⟨s, g⟩)
    (hsettled : Decided t r r.settled s s') : Over n ⟨s', g.committed t⟩ := by
  refine ⟨h.1, ?_⟩
  intro t' r' hr' hnumber hactive
  change (g.accounts t').number = n at hnumber
  change s'.record? t' = some r' at hr'
  by_cases ht : t = t'
  · exact absurd hnumber (ht ▸ h.number_ne hsettled)
  · rw [hsettled.others t' ht] at hr'
    rcases h.2 t' r' hr' hnumber hactive with ⟨deadline, hd, hdue⟩
    exact ⟨deadline, hd, Nat.le_trans hdue hsettled.clock⟩

/-- A transaction that is over stays over. -/
theorem move {c c' : Chronicle} (hmove : Moves c c') (h : c.Over n) : c'.Over n := by
  induction hmove with
  | rest hrests => exact h.carry (carries_of_rests hrests)
  | look _ hobs => exact h.carry (carries_of_observed hobs)
  | change _ _ hchanged => exact h.carry (carries_of_changed hchanged)
  | opened hcreated => exact h.opened hcreated
  | committed hsettled _ => exact h.committed hsettled
  | trans _ _ ih ih' => exact ih' (ih h)

/-- A transaction that is over contributes no more. -/
theorem mem_sources {c c' : Chronicle} (hmove : Moves c c') (h : c.Over n) :
    n ∈ c'.history.sources ↔ n ∈ c.history.sources := by
  induction hmove with
  | rest hrests => exact Iff.rfl
  | @look s s' g transaction hobs => rw [(carries_of_observed (g := g) hobs).sources]
  | @change s s' g transaction m hchanged => rw [(carries_of_changed (g := g) hchanged).sources]
  | opened hcreated => exact Iff.rfl
  | @committed s s' g t r hsettled hreplay =>
    change n ∈ (g.committed t).sources ↔ n ∈ g.sources
    rw [History.sources_committed, List.mem_append, List.mem_singleton]
    exact ⟨fun hmem => hmem.resolve_right (fun heq => h.number_ne hsettled heq.symm), Or.inl⟩
  | trans hfirst _ ih ih' => exact (ih' (h.move hfirst)).trans (ih h)

end Over

/-! ## Runs -/

/-- The live trees of a run are what its contributions make, from the five empty root keys on. -/
theorem run_replayed (clock : Clock) (actions : List Action) : (run clock actions).Replayed := by
  have hfresh : (fresh clock).Snapshotted ∧ (fresh clock).Replayed := by
    refine ⟨run_snapshotted clock [], ?_⟩
    change Except.ok (Hives.empty 0) = .ok (Hives.empty clock.now).timeless
    rw [← Hives.empty_timeless]
  refine (continued_moves (P := fun c => c.Snapshotted ∧ c.Replayed)
    (fresh_aligned clock) ?_ hfresh actions).2
  -- That the changes in an account are those in the log is needed at each commit, so it is carried
  -- along.
  intro c c' hmove h
  exact ⟨h.1.move hmove, Replayed.move hmove h.1 h.2⟩

/-- The books of a run are right. -/
theorem run_books (clock : Clock) (actions : List Action) : (run clock actions).Books := by
  refine continued_moves (fresh_aligned clock) (fun _ _ => Books.move) ?_ actions
  -- At the beginning there is no transaction that anything could be said of.
  have hnone : ∀ t r, (fresh clock).store.record? t ≠ some r := by
    intro t r
    simp [fresh, Store.fresh, record?, Table.find?]
  refine ⟨?_, ?_, ?_, List.nodup_nil, ?_⟩
  · exact fun t r hr => absurd hr (hnone t r)
  · exact fun t _ r _ hr _ _ => absurd hr (hnone t r)
  · exact fun t r hr => absurd hr (hnone t r)
  · intro n hn
    exact absurd hn (by simp [fresh, History.empty, History.sources])

/-- What is over after a run contributes no more, whatever is done next. -/
theorem run_over {clock : Clock} {actions : List Action} {n : Nat}
    (h : (run clock actions).Over n) (more : List Action) :
    n ∈ (run clock (actions ++ more)).history.sources ↔
      n ∈ (run clock actions).history.sources := by
  rw [run_append]
  refine (continued_moves (P := fun c => c.Over n ∧
    (n ∈ c.history.sources ↔ n ∈ (run clock actions).history.sources))
    (run_aligned clock actions) ?_ ⟨h, Iff.rfl⟩ more).2
  intro c c' hmove hc
  exact ⟨hc.1.move hmove, (hc.1.mem_sources hmove).trans hc.2⟩

end Chronicle

/-- After every run, and up to times, the live trees are five empty root keys with the contributions
    made to them in order. No transaction contributes twice; of the open ones the committed ones
    have contributed and no other; and one that was closed, has ended or has run out of time
    contributes no more, whatever happens. -/
theorem live_trees_are_committed_history (clock : Clock) (actions : List Action) :
    (∀ now, (Mutation.replay now (Hives.empty now)
        (Chronicle.run clock actions).history.mutations).map Hives.timeless =
          .ok (Chronicle.run clock actions).store.hives.timeless) ∧
      (Chronicle.run clock actions).history.sources.Nodup ∧
      (∀ t r, (Chronicle.run clock actions).store.record? t = some r →
        (((Chronicle.run clock actions).history.accounts t).number ∈
          (Chronicle.run clock actions).history.sources ↔ r.state = .committed)) ∧
      ∀ n, (Chronicle.run clock actions).Over n → ∀ more,
        (n ∈ (Chronicle.run clock (actions ++ more)).history.sources ↔
          n ∈ (Chronicle.run clock actions).history.sources) := by
  have hbooks := Chronicle.run_books clock actions
  refine ⟨?_, hbooks.once, hbooks.contributed, fun n h => Chronicle.run_over h⟩
  intro now
  rw [← Mutation.replay_timeless, ← Hives.empty_timeless]
  exact Chronicle.run_replayed clock actions

/-- Two transactions create a key each; one is committed, and the other one is closed. -/
def commitOneAndCloseAnother : List Action :=
  [.call (.createTransaction 0 none),
   .call (.createTransaction 0 none),
   .call (.createKey RootKey.currentUser.handle "Kept" .all (some ⟨0x1000⟩)),
   .call (.createKey RootKey.currentUser.handle "Lost" .all (some ⟨0x1004⟩)),
   .call (.commitTransaction ⟨0x1000⟩),
   .call (.closeTransaction ⟨0x1004⟩)]

/-- The transaction with the number 0 has contributed, and the closed one with the number 1 never
    does. -/
theorem live_trees_of_commitOneAndCloseAnother :
    (∃ r, (Chronicle.run ⟨0, []⟩ commitOneAndCloseAnother).store.record? ⟨0x1000⟩ = some r) ∧
      (Chronicle.run ⟨0, []⟩ commitOneAndCloseAnother).Over 1 ∧
      0 ∈ (Chronicle.run ⟨0, []⟩ commitOneAndCloseAnother).history.sources ∧
      (∀ more, 1 ∉ (Chronicle.run ⟨0, []⟩ (commitOneAndCloseAnother ++ more)).history.sources) := by
  have hover : (Chronicle.run ⟨0, []⟩ commitOneAndCloseAnother).Over 1 := by
    refine ⟨by decide, ?_⟩
    intro t r hr hnumber
    -- Only the committed transaction is still open, and its number is 0.
    change Table.find? [(⟨0x1000⟩, _)] t = some r at hr
    unfold Table.find? at hr
    split at hr
    · rename_i ht
      subst ht
      exact absurd hnumber (by decide)
    · exact absurd hr (by simp [Table.find?])
  have h := live_trees_are_committed_history ⟨0, []⟩ commitOneAndCloseAnother
  refine ⟨⟨_, rfl⟩, hover, (h.2.2.1 ⟨0x1000⟩ _ rfl).mpr rfl, ?_⟩
  intro more
  rw [h.2.2.2 1 hover more]
  decide

end TransactionalRegistry
