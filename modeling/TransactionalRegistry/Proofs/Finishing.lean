import TransactionalRegistry.Proofs.Deciding
import TransactionalRegistry.Proofs.Timeless
import TransactionalRegistry.Proofs.Work
import TransactionalRegistry.Propagation

/-!
# How a policy finishes a transaction

When the work inside a new transaction has ended with a value, the policy asks how far the
transaction has come, commits it, closes it, and gives up its own clone and that of the ambient
stack. If the changes of the transaction make the live trees what they should be, and the time of
the transaction is not over by the end, none of this fails, and the live trees are what they should
be.

As with an agreement, a run that comes too late is of no interest, as long as it stays late.

## Main definitions

* `Finishes`: A run that ends with a value, unless it comes too late.
* `Succeeds`: A computation whose runs do.
* `Store.Pending`: A transaction whose commit makes the live trees the given ones.
* `Store.Settled`: A transaction that has been committed.
* `Situation`: What a policy finds around it while it finishes a transaction.
* `Context.Overdue`: The deadline has come.

## Theorems

* `Store.transactionOutcome_succeeds`, `Store.commitTransaction_succeeds`,
  `Store.closeTransaction_succeeds`: The calls of a policy.
* `status_succeeds`, `settle_succeeds`, `close_succeeds`, `release_succeeds`: Its steps.
* `finishing_finishes`: Work in a transaction that is finished afterwards.
* `leave_finishes`: The transaction is taken off the ambient stack.
-/

namespace TransactionalRegistry

/-! ## Computations that succeed -/

section

variable {ε σ α β : Type}

/-- The run of `m` from `s` ends with a value as `Q` asks, unless it ends in `K`. -/
def Finishes (K : σ → Prop) (m : EStateM ε σ α) (s : σ) (Q : α → σ → Prop) : Prop :=
  Ends m s (fun a s' => K s' ∨ Q a s') (fun _ => K)

/-- Runs of `m` from states with `P` end with a value as `Q` asks, unless they end in `K`; and from
    `K` there is no way back. -/
structure Succeeds (K P : σ → Prop) (m : EStateM ε σ α) (Q : α → σ → Prop) : Prop where
  keeps : Keeps K m
  run : ∀ s, P s → Finishes K m s Q

variable {K P P' : σ → Prop} {m : EStateM ε σ α} {s : σ} {Q Q' : α → σ → Prop}

/-- Whatever keeps to `K` ends as is asked once it has begun there. -/
theorem Keeps.finishes (h : Keeps K m) (hs : K s) : Finishes K m s Q :=
  (h s hs).mono (fun _ _ hK => Or.inl hK) (fun _ _ hK => hK)

/-- Nothing is asked of a run that ends in `K`. -/
theorem finishes_of_late (h : K (endState m s)) : Finishes K m s Q := by
  unfold endState at h
  unfold Finishes Ends
  cases hm : m s with
  | ok a s' =>
    rw [hm] at h
    exact Or.inl h
  | error e s' =>
    rw [hm] at h
    exact h

/-- Two runs that do the same end alike. -/
theorem Finishes.of_eq {m' : EStateM ε σ α} {s' : σ} (heq : m s = m' s')
    (h : Finishes K m' s' Q) : Finishes K m s Q := by
  unfold Finishes Ends at h ⊢
  rw [heq]
  exact h

/-- A run that is not late in the end has ended with a value. -/
theorem Finishes.value (h : Finishes K m s Q) (hin_time : ¬ K (endState m s)) :
    ∃ a s', m s = .ok a s' ∧ Q a s' := by
  unfold Finishes Ends at h
  unfold endState at hin_time
  cases hm : m s with
  | ok a s' =>
    rw [hm] at h hin_time
    exact ⟨a, s', rfl, h.resolve_left hin_time⟩
  | error e s' =>
    rw [hm] at h hin_time
    exact absurd h hin_time

/-- What is asked of the value may be weakened. -/
theorem Finishes.mono (h : Finishes K m s Q) (hQ : ∀ a s', Q a s' → Q' a s') :
    Finishes K m s Q' :=
  Ends.mono h (fun a s' => Or.imp_right (hQ a s')) (fun _ _ hK => hK)

/-- What is known at the beginning may be more than what is needed. -/
theorem Succeeds.mono_pre (h : Succeeds K P m Q) (hP : ∀ s, P' s → P s) : Succeeds K P' m Q where
  keeps := h.keeps
  run s hs := h.run s (hP s hs)

/-- What does not depend on the state stays as it is. -/
theorem Succeeds.frame {p : Prop} (h : Succeeds K P m Q) :
    Succeeds K (fun s => p ∧ P s) m (fun a s => p ∧ Q a s) where
  keeps := h.keeps
  run s hs := (h.run s hs.2).mono (fun _ _ hQ => ⟨hs.1, hQ⟩)

/-- Nothing has to be shown of a computation that is never run. -/
theorem succeeds_of_never (hkeeps : Keeps K m) (hnever : ∀ s, ¬ P s) : Succeeds K P m Q where
  keeps := hkeeps
  run s hs := absurd hs (hnever s)

/-- A value is given right away. -/
theorem succeeds_pure {a : α} (h : ∀ s, P s → Q a s) :
    Succeeds K P (pure a : EStateM ε σ α) Q where
  keeps := keeps_pure a
  run s hs := Or.inr (h s hs)

/-- The state is changed, and the run goes on. -/
theorem succeeds_modify {Q : PUnit → σ → Prop} {f : σ → σ} (hkeeps : ∀ s, K s → K (f s))
    (h : ∀ s, P s → Q ⟨⟩ (f s)) : Succeeds K P (modify f : EStateM ε σ PUnit) Q where
  keeps := keeps_modify hkeeps
  run s hs := Or.inr (h s hs)

/-- A run that finishes, and then a computation that succeeds from wherever that was. -/
theorem Finishes.bind {m : EStateM ε σ β} {f : β → EStateM ε σ α} {R : β → σ → Prop}
    (h : Finishes K m s R) (hf : ∀ b, Succeeds K (R b) (f b) Q) : Finishes K (m >>= f) s Q := by
  refine Ends.bind h ?_ (fun _ _ hK => hK)
  intro b s' hstep
  rcases hstep with hK | hR
  · exact (hf b).keeps.finishes hK
  · exact (hf b).run s' hR

/-- One computation that succeeds, and then another one. -/
theorem Succeeds.bind {m : EStateM ε σ β} {f : β → EStateM ε σ α} {R : β → σ → Prop}
    (h : Succeeds K P m R) (hf : ∀ b, Succeeds K (R b) (f b) Q) : Succeeds K P (m >>= f) Q where
  keeps := h.keeps.bind (fun b => (hf b).keeps)
  run s hs := (h.run s hs).bind hf

end

section

variable {W ε ε' α β : Type} {K P : Context W → Prop} {act : Act W ε α} {ctx : Context W}
  {cleanup : Act W Empty Unit} {Q Q' : α → Context W → Prop}

/-- Errors are told otherwise, but none arises. -/
theorem Finishes.mapError (f : ε → ε') (h : Finishes K act ctx Q) :
    Finishes K (act.mapError f) ctx Q :=
  Ends.mapError f h

/-- The clean-up of a panic is not run, but must keep to `K` all the same. -/
theorem Finishes.onPanic (h : Finishes K act ctx Q) (hcleanup : Keeps K cleanup) :
    Finishes K (act.onPanic cleanup) ctx Q :=
  Ends.onPanic h hcleanup

/-- The clean-up is run after the value is there, and goes on from what is known of it. -/
theorem Finishes.ensuring (h : Finishes K act ctx Q) (hkeeps : Keeps K cleanup)
    (hcleanup : ∀ a ctx', Q a ctx' → Finishes K cleanup ctx' (fun _ => Q' a)) :
    Finishes K (act.ensuring cleanup) ctx Q' := by
  refine Ends.ensuring h hkeeps ?_
  intro a ctx' hend
  rcases hend with hK | hQ
  · exact hkeeps.finishes hK
  · exact hcleanup a ctx' hQ

/-- An error could be turned into an answer, but there is none, and the rest goes on from the
    value. -/
theorem Finishes.attempt_bind {f : Except ε α → Act W ε' β} {R : β → Context W → Prop}
    (h : Finishes K act ctx Q) (hok : ∀ a, Succeeds K (Q a) (f (.ok a)) R)
    (herror : ∀ e, Keeps K (f (.error e))) : Finishes K (act.attempt >>= f) ctx R := by
  refine (Ends.attempt h).bind ?_ (fun _ _ hK => hK)
  intro result ctx' hend
  -- In time the result is a value, and otherwise only `K` has to be kept.
  rcases hend with hK | ⟨a, rfl, hK | hQ⟩
  · cases result with
    | ok a => exact (hok a).keeps.finishes hK
    | error e => exact (herror e).finishes hK
  · exact (hok a).keeps.finishes hK
  · exact (hok a).run ctx' hQ

/-- Errors are told otherwise, but none arises. -/
theorem Succeeds.mapError (f : ε → ε') (h : Succeeds K P act Q) :
    Succeeds K P (act.mapError f) Q where
  keeps := h.keeps.mapError f
  run ctx hctx := (h.run ctx hctx).mapError f

/-- The same of a computation, for all runs from states with `P`. -/
theorem Succeeds.attempt_bind {f : Except ε α → Act W ε' β} {R : β → Context W → Prop}
    (h : Succeeds K P act Q) (hok : ∀ a, Succeeds K (Q a) (f (.ok a)) R)
    (herror : ∀ e, Keeps K (f (.error e))) : Succeeds K P (act.attempt >>= f) R where
  keeps := by
    refine h.keeps.attempt.bind (fun result => ?_)
    cases result with
    | ok a => exact (hok a).keeps
    | error e => exact herror e
  run ctx hctx := (h.run ctx hctx).attempt_bind hok herror

end

/-! ## The calls of a policy -/

namespace Store

variable {t : TransactionHandle} {deadline : Option Time} {trees : Hives} {s : Store}

/-- The transaction `t` is active with the given deadline, and its changes make the live trees, up
    to times, what `trees` are. -/
def Pending (t : TransactionHandle) (deadline : Option Time) (trees : Hives) (s : Store) : Prop :=
  ∃ r, s.record? t = some r ∧ r.state = .active ∧ r.deadline = deadline ∧
    Mutation.replay 0 s.hives.timeless r.log = .ok trees

/-- The transaction `t` is still open, and the live trees are, up to times, what `trees` are. -/
def Settled (t : TransactionHandle) (trees : Hives) (s : Store) : Prop :=
  (∃ r, s.record? t = some r) ∧ s.hives.timeless = trees

/-- The live trees are, up to times, what `trees` are. -/
def Shows (trees : Hives) (s : Store) : Prop :=
  s.hives.timeless = trees

/-- A pending transaction is reported active, unless its deadline has come. -/
theorem transactionOutcome_succeeds :
    Succeeds (Late deadline) (Pending t deadline trees) (transactionOutcome t)
      (fun outcome s => outcome = 1 ∧ Pending t deadline trees s) where
  keeps := keeps_late (fun s => (transactionOutcome_ends t s).mono
    (fun _ _ h => h.1.look.clock) (fun _ _ h => h.2.1.look.clock))
  run s h := by
    rcases h with ⟨r, hr, hactive, hdeadline, hreplay⟩
    refine (transactionOutcome_ends t s).mono ?_ ?_
    · intro outcome s' hasked
      rcases hasked with ⟨hstore, r₀, r', hr₀, hr', hchecked, houtcome⟩
      rw [hr, Option.some.injEq] at hr₀
      subst hr₀
      -- A transaction that is found out of time makes the run a late one.
      cases hchecked with
      | kept _ =>
        refine Or.inr ⟨?_, r, hr', hactive, hdeadline, ?_⟩
        · rw [houtcome, hactive]
          rfl
        · rw [hstore.look.hives]
          exact hreplay
      | expired due _ hdue hcome => exact Or.inl ⟨due, hdeadline.symm.trans hdue, hcome⟩
    · intro e s' hunknown
      exact absurd hr (by rw [hunknown.1]; simp)

/-- The commit of a pending transaction makes its changes to the live trees. -/
theorem commitTransaction_succeeds :
    Succeeds (Late deadline) (Pending t deadline trees) (commitTransaction t)
      (fun _ => Settled t trees) where
  keeps := by
    refine keeps_late (fun s => (commitTransaction_ends t s).mono ?_ ?_)
    · intro _ s' h
      rcases h with ⟨s₁, r, hchecked, hdecided, _⟩
      exact Nat.le_trans hchecked.look.clock hdecided.clock
    · intro e s' h
      rcases h with hundecidable | ⟨_, _, s₁, r, e', hchecked, hdecided, _⟩
      · exact hundecidable.1.look.clock
      · exact Nat.le_trans hchecked.look.clock hdecided.clock
  run s h := by
    rcases h with ⟨r, hr, hactive, hdeadline, hreplay⟩
    refine (commitTransaction_ends t s).mono ?_ ?_
    · intro _ s' hcommitted
      -- In time, it is the transaction itself whose log was applied.
      rcases hcommitted with ⟨s₁, r', hchecked, hdecided, hlive⟩
      rw [hdecided.eq_of_checked hchecked hr] at hlive
      rw [Mutation.replay_timeless s'.clock.now, hlive] at hreplay
      exact Or.inr ⟨⟨_, hdecided.decided⟩, Except.ok.inj hreplay⟩
    · intro e s' hrefused
      rcases hrefused with hundecidable | ⟨_, _, s₁, r', e', hchecked, hdecided, hconflict⟩
      · -- An active transaction can be refused the commit only for its deadline.
        rcases hundecidable.expired hr hactive with ⟨due, hdue, hcome⟩
        exact ⟨due, hdeadline.symm.trans hdue, hcome⟩
      · -- The changes are known to apply to these trees, at whatever time.
        rw [hdecided.eq_of_checked hchecked hr] at hconflict
        rw [Mutation.replay_timeless s'.clock.now, hconflict] at hreplay
        exact absurd hreplay (by simp [Except.map])

/-- Closing a transaction does not turn the clock back. -/
theorem closeTransaction_keeps_late : Keeps (Late deadline) (closeTransaction t) := by
  refine keeps_late (fun s => (closeTransaction_ends t s).mono ?_ ?_)
  · intro _ s' h
    rcases h with ⟨_, _, _, _, _, hclock, _⟩
    exact Nat.le_of_eq (congrArg Clock.now hclock.symm)
  · exact fun _ _ h => h.2.1.clock

/-- Closing the transaction leaves the trees of the commit. -/
theorem closeTransaction_succeeds :
    Succeeds (Late deadline) (Settled t trees) (closeTransaction t) (fun _ => Shows trees) where
  keeps := closeTransaction_keeps_late
  run s h := by
    rcases h with ⟨⟨r, hr⟩, htrees⟩
    refine (closeTransaction_ends t s).mono ?_ ?_
    · intro _ s' hclosed
      refine Or.inr ?_
      change s'.hives.timeless = trees
      rw [hclosed.2.1]
      exact htrees
    · intro e s' hunknown
      exact absurd hr (by rw [hunknown.1]; simp)

end Store

/-! ## The steps of a policy -/

/-- The world is as `P` says, the clones of `t` share the given state, and the ambient stack is the
    given one. -/
structure Situation (t : Transaction) (state : Shared) (stack : List (Option Transaction))
    (P : Store → Prop) (ctx : Context Store) : Prop where
  world : P ctx.world
  shared : ctx.shared[t.id]? = some state
  ambient : ctx.ambient = stack

/-- The deadline, if there is one, has come. -/
def Context.Overdue (deadline : Option Time) (ctx : Context Store) : Prop :=
  ctx.world.Late deadline

section

open Store Policy

variable {ε α : Type} {deadline : Option Time} {t : Transaction} {state : Shared}
  {stack : List (Option Transaction)} {P : Store → Prop} {trees : Hives}

/-- An entry in the log does not turn the clock back. -/
theorem keeps_log (entry : LogEntry) :
    Keeps (Context.Overdue deadline) (Act.log entry : Act Store ε Unit) :=
  fun _ h => h

/-- Neither does any change that leaves the world alone. -/
theorem keeps_update {f : Context Store → Context Store} (hf : ∀ ctx, (f ctx).world = ctx.world) :
    Keeps (Context.Overdue deadline) (modify f : Act Store ε PUnit) := by
  refine keeps_modify (fun ctx hctx => ?_)
  unfold Context.Overdue
  rw [hf]
  exact hctx

/-- A call changes the world, and neither the ambient stack nor what clones share. -/
theorem ends_call {call : Call} {ctx : Context Store} {Q : call.Answer → Store → Prop}
    {E : NativeError → Store → Prop} (h : Ends (perform call) ctx.world Q E) :
    Ends (Act.call call) ctx
      (fun answer ctx' => Q answer ctx'.world ∧ ctx'.ambient = ctx.ambient ∧
        ctx'.shared = ctx.shared)
      (fun _ ctx' => ∃ e, E e ctx'.world) := by
  rw [Act.call_eq]
  unfold Ends at h ⊢
  unfold Act.ofWorld
  cases hcall : perform call ctx.world with
  | ok answer world =>
    rw [hcall] at h
    exact ⟨h, rfl, rfl⟩
  | error e world =>
    rw [hcall] at h
    exact ⟨e, h⟩

/-- A call keeps to what is too late if it does so in the world. -/
theorem keeps_call {call : Call} (h : Keeps (Store.Late deadline) (perform call)) :
    Keeps (Context.Overdue deadline) (Act.call call) := by
  intro ctx hlate
  refine (ends_call (h ctx.world hlate)).mono (fun _ _ h => h.1) ?_
  intro _ ctx' hend
  rcases hend with ⟨_, hlate⟩
  exact hlate

/-- A call succeeds in the situation of a policy if it does so in the world. -/
theorem succeeds_call {call : Call} {Q : call.Answer → Store → Prop}
    (h : Succeeds (Store.Late deadline) P (perform call) Q) :
    Succeeds (Context.Overdue deadline) (Situation t state stack P) (Act.call call)
      (fun answer => Situation t state stack (Q answer)) where
  keeps := keeps_call h.keeps
  run ctx hctx := by
    refine (ends_call (h.run ctx.world hctx.world)).mono ?_ ?_
    · intro answer ctx' hend
      rcases hend with ⟨hlate | hQ, hambient, hshared⟩
      · -- The stack and what is shared are what they were before the call.
        exact Or.inl hlate
      · refine Or.inr ⟨hQ, ?_, hambient.trans hctx.ambient⟩
        rw [hshared]
        exact hctx.shared
    · intro _ ctx' hend
      rcases hend with ⟨_, hlate⟩
      exact hlate

/-- Nothing that is asked of the world depends on the log. -/
theorem succeeds_log (hP : ∀ entry s, P s → P (s.note entry)) (entry : LogEntry) :
    Succeeds (Context.Overdue deadline) (Situation t state stack P)
      (Act.log entry : Act Store ε Unit) (fun _ => Situation t state stack P) where
  keeps := keeps_log entry
  run ctx h := Or.inr ⟨hP entry ctx.world h.world, h.shared, h.ambient⟩

/-- What the clones share is read without any effect. -/
theorem keeps_shared : Keeps (Context.Overdue deadline) (t.shared : Act Store ε Shared) :=
  keeps_get.bind (fun _ => keeps_pure _)

/-- The clones of the transaction share what the situation says. -/
theorem succeeds_shared :
    Succeeds (Context.Overdue deadline) (Situation t state stack P)
      (t.shared : Act Store ε Shared)
      (fun found ctx => found = state ∧ Situation t state stack P ctx) where
  keeps := keeps_shared
  run ctx h := by
    refine Or.inr ⟨?_, h⟩
    rw [Context.sharedOf, h.shared]
    rfl

/-- What the clones share is changed, and nothing else is. -/
theorem succeeds_update (f : Shared → Shared) :
    Succeeds (Context.Overdue deadline) (Situation t state stack P)
      (modify (Context.updateShared t f) : Act Store ε PUnit)
      (fun _ => Situation t (f state) stack P) := by
  refine succeeds_modify (fun _ h => h) (fun ctx h => ⟨h.world, ?_, h.ambient⟩)
  change (ctx.shared.modify t.id f)[t.id]? = some (f state)
  rw [List.getElem?_modify, h.shared]
  simp

/-- What is done for a closed transaction is not done for one that is open. -/
theorem succeeds_if_open {Q : α → Context Store → Prop} {refused main : Act Store ε α}
    (hopen : state.closed = false) (hrefused : Keeps (Context.Overdue deadline) refused)
    (hmain : Succeeds (Context.Overdue deadline) (Situation t state stack P) main Q) :
    Succeeds (Context.Overdue deadline) (Situation t state stack P)
      (do if (← t.shared).closed then refused else main) Q := by
  refine succeeds_shared.bind (fun found => ?_)
  cases hfound : found.closed with
  | true =>
    refine succeeds_of_never hrefused (fun ctx h => ?_)
    rw [h.1, hopen] at hfound
    exact absurd hfound (by simp)
  | false => exact hmain.mono_pre (fun _ h => h.2)

/-- A pending transaction is found active. -/
theorem query_succeeds (hopen : state.closed = false) :
    Succeeds (Context.Overdue deadline)
      (Situation t state stack (Pending t.handle deadline trees)) t.query
      (fun answer ctx => answer = .ok .active ∧
        Situation t state stack (Pending t.handle deadline trees) ctx) := by
  have hcall : Succeeds (Context.Overdue deadline)
      (Situation t state stack (Pending t.handle deadline trees))
      (Act.call (.transactionOutcome t.handle))
      (fun outcome => Situation t state stack
        (fun s => outcome = 1 ∧ Pending t.handle deadline trees s)) :=
    succeeds_call transactionOutcome_succeeds
  refine succeeds_if_open hopen (keeps_pure _) (hcall.attempt_bind (fun outcome => ?_) ?_)
  · -- Other outcomes are never told of a pending transaction.
    by_cases hactive : outcome = 1
    · subst hactive
      exact succeeds_pure (fun _ h => ⟨rfl, h.world.2, h.shared, h.ambient⟩)
    · refine succeeds_of_never ?_ (fun _ h => hactive h.world.1)
      cases hstatus : TransactionStatus.ofOutcome? outcome with
      | none =>
        -- What else there could be to tell of an outcome has no effect.
        simp only [hstatus]
        exact keeps_pure _
      | some status =>
        simp only [hstatus]
        exact keeps_pure _
  · intro e
    by_cases hinvalid : e.isInvalidHandle
    · simp only [if_pos hinvalid]
      exact keeps_pure _
    · simp only [if_neg hinvalid]
      exact keeps_throw _

/-- An active transaction is reported as such. -/
theorem status_succeeds (hopen : state.closed = false) :
    Succeeds (Context.Overdue deadline)
      (Situation t state stack (Pending t.handle deadline trees)) t.status
      (fun status ctx => status = .active ∧
        Situation t state stack (Pending t.handle deadline trees) ctx) := by
  refine (query_succeeds hopen).bind (fun answer => ?_)
  cases answer with
  | ok status => exact succeeds_pure (fun ctx h => ⟨Except.ok.inj h.1, h.2⟩)
  | error outcome =>
    refine succeeds_of_never (keeps_throw _) (fun ctx h => ?_)
    exact absurd h.1 (by simp)

/-- The commit settles what was pending. -/
theorem commit_succeeds (hopen : state.closed = false) :
    Succeeds (Context.Overdue deadline)
      (Situation t state stack (Pending t.handle deadline trees)) t.commit
      (fun _ => Situation t state stack (Settled t.handle trees)) := by
  have hcall : Succeeds (Context.Overdue deadline)
      (Situation t state stack (Pending t.handle deadline trees))
      (Act.call (.commitTransaction t.handle))
      (fun _ => Situation t state stack (Settled t.handle trees)) :=
    succeeds_call commitTransaction_succeeds
  have hrequired : Succeeds (Context.Overdue deadline)
      (Situation t state stack (Pending t.handle deadline trees))
      (t.requireOpen "CommitTransaction" : Act Store _ Unit)
      (fun _ => Situation t state stack (Pending t.handle deadline trees)) :=
    succeeds_if_open hopen (keeps_throw _) (succeeds_pure (fun _ h => h))
  refine hrequired.bind (fun _ => ?_)
  exact (hcall.mapError _).bind (fun _ => succeeds_log (fun _ _ h => h) _)

/-- The transaction of work that has ended with a value is committed. -/
theorem settle_succeeds (hopen : state.closed = false) (hcommits : state.autoCommit = true) :
    Succeeds (Context.Overdue deadline)
      (Situation t state stack (Pending t.handle deadline trees)) (settle t)
      (fun _ => Situation t state stack (Settled t.handle trees)) := by
  refine (status_succeeds hopen).bind (fun status => ?_)
  cases status with
  | active =>
    refine (succeeds_shared.mono_pre (fun _ h => h.2)).bind (fun found => ?_)
    cases hfound : found.autoCommit with
    | true => exact (commit_succeeds hopen).mono_pre (fun _ h => h.2)
    | false =>
      refine succeeds_of_never (keeps_log _) (fun ctx h => ?_)
      rw [h.1, hcommits] at hfound
      exact absurd hfound (by simp)
  -- Only an active transaction is pending.
  | _ =>
    refine succeeds_of_never (keeps_log _) (fun ctx h => ?_)
    exact absurd h.1 (by simp)

/-- Closing a settled transaction leaves the trees as the commit has made them. -/
theorem close_succeeds (hopen : state.closed = false) :
    Succeeds (Context.Overdue deadline)
      (Situation t state stack (Settled t.handle trees)) (t.close : Act Store _ Unit)
      (fun _ => Situation t { state with closed := true } stack (Shows trees)) := by
  have hcall : Succeeds (Context.Overdue deadline)
      (Situation t { state with closed := true } stack (Settled t.handle trees))
      (Act.call (.closeTransaction t.handle))
      (fun _ => Situation t { state with closed := true } stack (Shows trees)) :=
    succeeds_call closeTransaction_succeeds
  refine succeeds_if_open hopen (keeps_log _) ?_
  -- It is marked as closed first, so that it is not closed again when its last clone is given up.
  refine (succeeds_update fun shared => { shared with closed := true }).bind (fun _ => ?_)
  exact (hcall.mapError _).bind (fun _ => succeeds_log (fun _ _ h => h) _)

/-! ### Giving up clones -/

/-- Closing an abandoned transaction does not turn the clock back. -/
theorem keeps_closeAbandoned :
    Keeps (Context.Overdue deadline) (t.closeAbandoned : Act Store ε Unit) := by
  have hcall : Keeps (Context.Overdue deadline)
      (Act.call (.closeTransaction t.handle) : Act Store _ Unit) :=
    keeps_call closeTransaction_keeps_late
  refine (keeps_log _).bind (fun _ => hcall.attempt.bind (fun result => ?_))
  cases result with
  | ok _ => exact keeps_pure _
  | error e => exact keeps_log _

/-- A clone of a transaction that is closed is given up. -/
theorem release_succeeds (hclosed : state.closed = true) :
    Succeeds (Context.Overdue deadline) (Situation t state stack P)
      (t.release : Act Store ε Unit)
      (fun _ => Situation t { state with clones := state.clones - 1 } stack P) := by
  refine succeeds_shared.bind (fun found => ?_)
  refine (succeeds_update (fun shared => { shared with clones := shared.clones - 1 })).frame.bind
    (fun _ => ?_)
  by_cases hlast : found.clones = 1 ∧ !found.closed
  · -- The last clone closes the transaction, unless that was done.
    rw [if_pos hlast]
    refine succeeds_of_never keeps_closeAbandoned (fun ctx h => ?_)
    rw [h.1, hclosed] at hlast
    exact absurd hlast.2 (by simp)
  · rw [if_neg hlast]
    exact succeeds_pure (fun _ h => h.2)

/-- Nor does closing one, as was seen where that succeeds. -/
theorem keeps_close : Keeps (Context.Overdue deadline) (t.close : Act Store _ Unit) := by
  have hclose : Succeeds (Context.Overdue deadline)
      (Situation t Shared.fresh [] (Settled t.handle (Hives.empty 0))) t.close
      (fun _ => Situation t { Shared.fresh with closed := true } [] (Shows (Hives.empty 0))) :=
    close_succeeds rfl
  exact hclose.keeps

/-- Nor does giving up a clone. -/
theorem keeps_release : Keeps (Context.Overdue deadline) (t.release : Act Store ε Unit) := by
  have hrelease : Succeeds (Context.Overdue deadline)
      (Situation t Shared.absent [] (Shows (Hives.empty 0))) (t.release : Act Store ε Unit)
      (fun _ => Situation t { Shared.absent with clones := 0 } [] (Shows (Hives.empty 0))) :=
    release_succeeds rfl
  exact hrelease.keeps

/-- Nor does what is done when the work panics. -/
theorem keeps_closeOnUnwind :
    Keeps (Context.Overdue deadline) (closeOnUnwind t : Act Store ε Unit) := by
  refine (keeps_log _).bind (fun _ => keeps_close.attempt.bind (fun result => ?_))
  cases result with
  | ok _ => exact keeps_release
  | error e => exact (keeps_log _).bind (fun _ => keeps_release)

/-- Nor does leaving the scope. -/
theorem keeps_leave : Keeps (Context.Overdue deadline) (Ambient.leave : Act Store ε Unit) := by
  refine keeps_get.bind (fun ctx => ?_)
  refine Keeps.bind (keeps_update (fun _ => rfl)) (fun _ => (keeps_log _).bind (fun _ => ?_))
  cases Ambient.top ctx.ambient with
  | none => exact keeps_pure _
  | some t => exact keeps_release

/-- Work in a transaction ends with its value, and its changes have been made to the live trees. -/
theorem finishing_finishes {act : Act Store ε α} {ctx : Context Store} {A : α → Prop}
    (hopen : state.closed = false) (hcommits : state.autoCommit = true)
    (hact : Finishes (Context.Overdue deadline) act ctx
      (fun a ctx' => A a ∧ Situation t state stack (Pending t.handle deadline trees) ctx')) :
    Finishes (Context.Overdue deadline) (finishing t act) ctx
      (fun a ctx' => A a ∧
        Situation t ⟨state.autoCommit, true, state.clones - 1⟩ stack (Shows trees) ctx') := by
  -- Whether there is a value, or the work or the commit has failed, is what the ends tell.
  have hsettled : Finishes (Context.Overdue deadline) (actAndSettle t act) ctx
      (fun ends ctx' => ∃ a, ends = (.ok a, .ok ()) ∧ A a ∧
        Situation t state stack (Settled t.handle trees) ctx') := by
    refine hact.attempt_bind (fun a => ?_) (fun e => keeps_pure _)
    refine (settle_succeeds hopen hcommits).frame.attempt_bind ?_ (fun e => keeps_pure _)
    exact fun _ => succeeds_pure (fun ctx h => ⟨a, rfl, h⟩)
  refine ((hsettled.onPanic keeps_closeOnUnwind).mapError _).bind (fun ends => ?_)
  -- Only a late run has seen the work or the commit fail.
  by_cases hends : ∃ a, ends = (.ok a, .ok ())
  · rcases hends with ⟨a, rfl⟩
    have hclosed : Succeeds (Context.Overdue deadline)
        (fun ctx => A a ∧ Situation t state stack (Settled t.handle trees) ctx) t.close
        (fun _ ctx => A a ∧
          Situation t { state with closed := true } stack (Shows trees) ctx) :=
      (close_succeeds hopen).frame
    refine (hclosed.attempt_bind (fun _ => ?_) (fun e => ?_)).mono_pre ?_
    · exact (release_succeeds rfl).frame.bind (fun _ => succeeds_pure (fun _ h => h))
    · exact keeps_release.bind (fun _ => keeps_throw _)
    · intro ctx h
      rcases h with ⟨a', hsame, hfinished⟩
      cases hsame
      exact hfinished
  · refine succeeds_of_never ?_ (fun ctx h => ?_)
    · refine keeps_close.attempt.bind (fun closed => keeps_release.bind (fun _ => ?_))
      cases combine ends.1 ends.2 closed with
      | ok a => exact keeps_pure a
      | error e => exact keeps_throw _
    · rcases h with ⟨a, hsame, _⟩
      exact hends ⟨a, hsame⟩

/-- When the entry of a closed transaction is taken off the ambient stack, nothing else happens. -/
theorem leave_finishes {ctx : Context Store} (hclosed : state.closed = true)
    (h : Situation t state (some t :: stack) (Shows trees) ctx) :
    Finishes (Context.Overdue deadline) (Ambient.leave : Act Store ε Unit) ctx
      (fun _ ctx' => ctx'.ambient = stack ∧ ctx'.world.Shows trees) := by
  have hentry : Ambient.top ctx.ambient = some t := by
    rw [h.ambient]
    rfl
  -- The entry is taken off before the clone in it is given up.
  have htaken : Situation t state stack (Shows trees)
      ⟨ctx.world.note (.trace "leave ambient scope"), ctx.ambient.tail, ctx.shared⟩ := by
    refine ⟨h.world, h.shared, ?_⟩
    change ctx.ambient.tail = stack
    rw [h.ambient]
    rfl
  refine ends_bind (ends_get ?_)
  rw [hentry]
  refine Finishes.mono ((release_succeeds hclosed).run _ htaken) ?_
  exact fun _ _ hgiven => ⟨hgiven.ambient, hgiven.world⟩

end

end TransactionalRegistry
