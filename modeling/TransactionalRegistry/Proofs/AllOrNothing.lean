import TransactionalRegistry.Proofs.Courses
import TransactionalRegistry.Proofs.Fates
import TransactionalRegistry.Proofs.Images

/-!
# All or nothing

Work on keys under policies, nested to any depth, either takes effect as a whole or not at all, one
transaction at a time. What an operation changes goes to the transaction that is current, or
straight to the live trees if there is none. What becomes of the changes of a transaction is decided
when the policy that has created it is over, and by that policy alone: they are all applied, in
order, if its work has succeeded and its commit has; if not, none of them is applied, then or ever.
That is so whatever the work around it does with the outcome, and whatever becomes of the
transaction of that work.

The work is any routine of operations on keys, so a failure may be passed on, swallowed or turned
into a panic at every level.

## Main definitions

* `Made`: Changes, with the transaction that they were made in.
* `TransactionSettings.Unfit`: There can be no transaction with the settings.
* `Policy.Upholds`: What a policy does about the changes of its work.
* `Routine.Upheld`: Every operation and every policy of a routine does with its changes as it
  should.
* `Context.Endures`: What work leaves as it was.

## Theorems

* `Timeline.image`: Work on a timeline is work on its store.
* `Policy.upholds`, `Routine.upheld`: Policies and routines.
* `policies_are_all_or_nothing`: Work under a policy that is started anywhere.
-/

namespace TransactionalRegistry

variable {ε α : Type}

/-! ## What is upheld -/

/-- Changes that an operation has made, with the transaction that was current. -/
structure Made where
  transaction : Option TransactionHandle
  changes : List Mutation

namespace Made

/-- The changes among them that were made in the transaction with the handle `h`. -/
def within (h : TransactionHandle) (made : List Made) : List Mutation :=
  (made.filter (·.transaction = some h)).flatMap (·.changes)

variable {h : TransactionHandle} {changes : List Mutation}

theorem within_append (h : TransactionHandle) (made more : List Made) :
    within h (made ++ more) = within h made ++ within h more := by
  rw [within, List.filter_append, List.flatMap_append]
  rfl

theorem within_same : within h [⟨some h, changes⟩] = changes := by
  simp [within]

theorem within_other {transaction : Option TransactionHandle} (hother : transaction ≠ some h) :
    within h [⟨transaction, changes⟩] = [] := by
  simp [within, hother]

end Made

/-- There can be no transaction with these settings, and this is why: the timeout is not one in
    milliseconds, or the description is too long. -/
inductive TransactionSettings.Unfit (settings : TransactionSettings) : TransactionError → Prop
  | timeout : settings.timeout.wholeMillis? = none →
      settings.Unfit (.invalidTimeout settings.timeout)
  | description :
      settings.description.any (Store.maxDescriptionLength < Utf16.length ·) = true →
      settings.Unfit (.native "CreateTransaction" .invalidParameter)

/-- What a policy does about the changes of its work, which are `made`. -/
inductive Policy.Upholds (policy : Policy) (act : Act Timeline ε α) (made : List Made)
    (ctx : Context Timeline) : Prop
  /-- It is not for a policy like this to run work here, and nothing is changed. -/
  | refused {e : TransactionError} :
      policy.propagation.course (Ambient.top ctx.ambient) = .refuse e →
      policy.entrance? ctx = none → made = [] →
      outcome (policy.call act) ctx = .error (.error (.ofTransaction e)) →
      ctx.world.Still (endState (policy.call act) ctx).world → Upholds policy act made ctx
  /-- There can be no transaction with the settings of the policy, and nothing is changed. -/
  | uncreated {hides : Bool} {e : TransactionError} :
      policy.propagation.course (Ambient.top ctx.ambient) = .run hides true →
      policy.settings.Unfit e → policy.entrance? ctx = none → made = [] →
      outcome (policy.call act) ctx = .error (.error (.ofTransaction e)) →
      ctx.world.Still (endState (policy.call act) ctx).world → Upholds policy act made ctx
  /-- The work runs in the current transaction, or in none, and nothing is changed before it or
      after it. -/
  | plain {hides : Bool} {start : Context Timeline} :
      policy.propagation.course (Ambient.top ctx.ambient) = .run hides false →
      policy.entrance? ctx = some start →
      start.ambient = (if hides then [none] else []) ++ ctx.ambient →
      ctx.world.Still start.world →
      (endState act start).world.Still (endState (policy.call act) ctx).world →
      outcome (policy.call act) ctx = (outcome act start).mapError (Failure.map .ofAction) →
      Upholds policy act made ctx
  /-- The work runs in a transaction that has just been opened, under a handle and a number of its
      own. The changes that were made in it meet their fate as a whole. -/
  | new {hides : Bool} {t : Transaction} {start : Context Timeline} :
      policy.propagation.course (Ambient.top ctx.ambient) = .run hides true →
      policy.entrance? ctx = some start →
      start.ambient = some t :: ((if hides then [none] else []) ++ ctx.ambient) →
      ctx.world.store.record? t.handle = none →
      start.world.store.hives = ctx.world.store.hives →
      start.world.history = ctx.world.history.opened t.handle →
      ((endState act start).world.history.accounts t.handle).number = ctx.world.history.created →
      ((endState act start).world.history.accounts t.handle).changes = Made.within t.handle made →
      Fate t.handle (endState act start).world (endState (policy.call act) ctx).world
        (outcome act start) (outcome (policy.call act) ctx) →
      Upholds policy act made ctx

/-- Every operation of a routine makes its changes in the transaction that is current then, and
    every policy upholds what it should, however deep in the routine. The changes are `made`, in
    order. -/
def Routine.Upheld {ε α : Type} :
    Routine (Vocabulary.keys Timeline) ε α → Context Timeline → (made : List Made) → Prop
  | done _, _, made => made = []
  | step s next, ctx, made =>
    ∃ changes rest, made = ⟨(Ambient.top ctx.ambient).map (·.handle), changes⟩ :: rest ∧
      Chronicle.Works ctx.world.chronicle
        (endState ((Vocabulary.keys Timeline).act s) ctx).world.chronicle
        ((Ambient.top ctx.ambient).map (·.handle)) changes ∧
      (next (outcome ((Vocabulary.keys Timeline).act s) ctx)).Upheld
        (endState ((Vocabulary.keys Timeline).act s) ctx) rest
  | under policy body next, ctx, made =>
    ∃ inner rest, made = inner ++ rest ∧ policy.Upholds body.act inner ctx ∧
      (∀ start, policy.entrance? ctx = some start → body.Upheld start inner) ∧
      (next (outcome (policy.call body.act) ctx)).Upheld (endState (policy.call body.act) ctx) rest

/-! ## What work leaves as it was -/

theorem Chronicle.Works.accounts {c c' : Chronicle} {transaction : Option TransactionHandle}
    {changes : List Mutation} (h : Chronicle.Works c c' transaction changes)
    (t : TransactionHandle) :
    (c'.history.accounts t).changes
      = (c.history.accounts t).changes ++ Made.within t [⟨transaction, changes⟩] := by
  cases h with
  | outside _ _ hchanges =>
    rw [hchanges, Made.within_other (by simp), List.append_nil]
  | @inside t' _ _ _ hchanges hothers =>
    by_cases ht : t' = t
    · subst ht
      rw [hchanges, Made.within_same]
    · rw [hothers t ht, Made.within_other (fun heq => ht (Option.some.inj heq)), List.append_nil]

namespace Context

/-- Work leaves undecided what was open before it, and leaves alone the state that clones of earlier
    transactions share. To the account of what was open it adds what it has made there. -/
structure Endures (made : List Made) (ctx ctx' : Context Timeline) : Prop where
  before : ctx.world.Before ctx'.world
  spares : Chronicle.Spares none ctx.world.chronicle ctx'.world.chronicle
  accounts : ∀ h r, ctx.world.store.record? h = some r →
    (ctx'.world.history.accounts h).changes
      = (ctx.world.history.accounts h).changes ++ Made.within h made
  shared : ∀ id, id < ctx.shared.length → ctx'.shared[id]? = ctx.shared[id]?

variable {ctx ctx' ctx'' : Context Timeline} {made more : List Made}

theorem Endures.trans (h : ctx.Endures made ctx') (h' : ctx'.Endures more ctx'') :
    ctx.Endures (made ++ more) ctx'' := by
  refine ⟨h.before.trans h'.before, h.spares.trans h'.spares, fun t r hr => ?_, fun id hid => ?_⟩
  · -- What was open before is still open in between, so its account goes on from there.
    rcases h.spares.records t r (by simp) hr with ⟨r', hr', _⟩
    rw [h'.accounts t r' hr', h.accounts t r hr, Made.within_append, List.append_assoc]
  · have hlater : id < ctx'.shared.length := by
      have hsame := h.shared id hid
      rw [List.getElem?_eq_getElem hid] at hsame
      exact (List.getElem?_eq_some_iff.mp hsame).1
    exact (h'.shared id hlater).trans (h.shared id hid)

/-- Nothing is made where the history stays as it is. -/
theorem endures_of_still (hbefore : ctx.world.Before ctx'.world)
    (hstill : ctx.world.Still ctx'.world)
    (hspares : Chronicle.Spares none ctx.world.chronicle ctx'.world.chronicle)
    (hshared : ctx'.shared = ctx.shared) : ctx.Endures [] ctx' where
  before := hbefore
  spares := hspares
  accounts h _ _ := by
    rw [hstill.history]
    exact (List.append_nil _).symm
  shared _ _ := by rw [hshared]

theorem Passes.endures (h : ctx.Passes ctx') : ctx.Endures [] ctx' :=
  endures_of_still h.world.before h.world.noted.still h.world.noted.spares h.shared

end Context

/-- What is in time is in time in every part of it that spares what was open before. -/
theorem Timeline.InTime.within {l l₁ l₂ l' : Timeline} (h : l.InTime l') (hfirst : l.Before l₁)
    (hspares : Chronicle.Spares none l.chronicle l₁.chronicle) (hlast : l₂.Before l') :
    l₁.InTime l₂ := by
  intro middle hstart hend t r hunknown hr
  -- If the transaction had been open at `l`, it would be open at `l₁`.
  refine h middle (hfirst.trans hstart) (hend.trans hlast) t r ?_ hr
  cases hknown : l.store.record? t with
  | none => rfl
  | some r₀ =>
    rcases hspares.records t r₀ (by simp) hknown with ⟨r₁, hr₁, _⟩
    exact absurd (hunknown.symm.trans hr₁) (by simp)

/-! ## Policies -/

namespace Policy

variable {policy : Policy} {act : Act Timeline ε α} {ctx start : Context Timeline} {hides : Bool}
  {t : Transaction} {calls : List CallRecord} {made : List Made}

/-- If a policy ends with a value and has created a transaction, then all that was made in that has
    just been applied. -/
theorem Upholds.applied {a : α} (h : policy.Upholds act made ctx)
    (hcourse : policy.propagation.course (Ambient.top ctx.ambient) = .run hides true)
    (hvalue : outcome (policy.call act) ctx = .ok a) :
    ∃ t now, ∃ finish : Timeline,
      (endState (policy.call act) ctx).world.history = finish.history.committed t ∧
      Mutation.replay now finish.store.hives (Made.within t made)
        = .ok (endState (policy.call act) ctx).world.store.hives := by
  cases h with
  | refused _ _ _ hfails => exact absurd (hfails.symm.trans hvalue) (by simp)
  | uncreated _ _ _ _ hfails => exact absurd (hfails.symm.trans hvalue) (by simp)
  | plain hplain => exact absurd (hplain.symm.trans hcourse) (by simp)
  | @new _ t start _ _ _ _ _ _ _ hchanges hfate =>
    rw [hvalue] at hfate
    generalize outcome act start = ending at hfate
    cases hfate with
    | applied hhistory hreplay =>
      rw [hchanges] at hreplay
      exact ⟨t.handle, _, _, hhistory, hreplay⟩

/-- A policy comes after its start, if its work does. -/
theorem before_call
    (hact : ∀ start, policy.entrance? ctx = some start →
      (endState act start).ambient = start.ambient)
    (hbefore : ∀ start, policy.entrance? ctx = some start →
      start.world.Before (endState act start).world) :
    ctx.world.Before (endState (policy.call act) ctx).world := by
  rcases policy.around act ctx hact with
    ⟨e, hrefuses⟩ | ⟨hides, start, hplain⟩ | ⟨hides, e, calls, huncreated⟩ |
    ⟨hides, t, start, calls, hnew⟩
  · exact hrefuses.after.world.before
  · exact (hplain.before.world.before.trans (hbefore start hplain.entrance)).trans
      hplain.after.world.before
  · exact huncreated.world.before
  · rcases hnew.before with ⟨millis, _, hworld⟩
    exact (hworld.before.trans (hbefore start hnew.entrance)).trans hnew.after.before

/-- A policy creates its transaction under a handle of its own. -/
theorem RunsInNew.creates (h : policy.RunsInNew act ctx hides t start calls)
    (hroom : start.world.Roomy) : ctx.world.Creates t.handle start.world := by
  rcases h.before with ⟨millis, _, hworld⟩
  rcases hworld.first with ⟨l₁, hnoted, hok, hrest⟩
  have hbefore := (Timeline.before_after l₁ _).trans hrest.before
  exact (Timeline.creating (hroom.earlier hbefore) hok).noted hnoted hrest.noted

/-- A policy that cannot create its transaction changes nothing, and its settings are to blame. -/
theorem Uncreated.unchanged {e : TransactionError}
    (h : policy.Uncreated act ctx hides e calls) :
    policy.settings.Unfit e ∧ ctx.world.Still (endState (policy.call act) ctx).world ∧
      ctx.Endures [] (endState (policy.call act) ctx) := by
  have hworld := h.world
  rcases h.reason with ⟨htimeout, rfl, rfl⟩ | ⟨millis, error, _, rfl, rfl⟩
  · have hnoted := hworld.noted
    exact ⟨.timeout htimeout, hnoted.still,
      Context.endures_of_still hworld.before hnoted.still hnoted.spares h.shared⟩
  · rcases hworld.first with ⟨l₁, hnoted, hfails, hrest⟩
    rcases Timeline.not_creating hfails with ⟨hlong, rfl, hstill, hspares⟩
    have hlast := hrest.noted
    have hall := (hnoted.still.trans hstill).trans hlast.still
    exact ⟨.description hlong, hall, Context.endures_of_still hworld.before hall
      ((hnoted.spares.trans hspares).trans hlast.spares) h.shared⟩

/-- The work of a policy leaves the transaction that was created for it open, and its commit on. -/
theorem RunsInNew.sharedOf (h : policy.RunsInNew act ctx hides t start calls)
    (hwork : start.Endures made (endState act start)) :
    (endState act start).sharedOf t = { Shared.fresh with clones := 2 } := by
  have hstart : start.shared[t.id]? = some { Shared.fresh with clones := 2 } := by
    rw [h.shared, h.id, List.getElem?_concat_length]
  have hsame := hwork.shared t.id (List.getElem?_eq_some_iff.mp hstart).1
  rw [Context.sharedOf, hsame, hstart]
  rfl

/-- The transaction that a policy has created is active when the work in it is over. Its number is
    its own, and its account is what the work has made in it. -/
theorem RunsInNew.active (h : policy.RunsInNew act ctx hides t start calls)
    (hcreates : ctx.world.Creates t.handle start.world)
    (hwork : start.Endures made (endState act start))
    (hin : ctx.world.InTime (endState (policy.call act) ctx).world) :
    ((endState act start).world.history.accounts t.handle).number = ctx.world.history.created ∧
      ((endState act start).world.history.accounts t.handle).changes
        = Made.within t.handle made ∧
      ∃ r, (endState act start).world.store.record? t.handle = some r ∧ r.state = .active := by
  rcases hcreates.record with ⟨r₀, hr₀, hactive⟩
  rcases hwork.spares.records t.handle r₀ (by simp) hr₀ with ⟨r, hr, _, hnumber, hstate⟩
  refine ⟨hnumber.trans ?_, ?_, r, hr, ?_⟩
  · refine (congrArg (fun g => (History.accounts g t.handle).number) hcreates.history).trans ?_
    exact (History.number_opened t.handle t.handle).trans (if_pos rfl)
  · rw [hwork.accounts t.handle r₀ hr₀, hcreates.history, History.changes_opened, if_pos rfl]
    rfl
  · rcases hstate with hsame | ⟨_, hoverdue⟩
    · exact hsame.trans hactive
    · have hbefore := hcreates.before.trans hwork.before
      exact absurd hoverdue (hin _ hbefore h.after.before t.handle r hcreates.unknown hr)

/-- A policy that has created a transaction upholds what it should, if its work leaves alone what
    was there before it. -/
theorem RunsInNew.upholds (h : policy.RunsInNew act ctx hides t start calls)
    (hcreates : ctx.world.Creates t.handle start.world)
    (hwork : start.Endures made (endState act start))
    (hin : ctx.world.InTime (endState (policy.call act) ctx).world) :
    policy.Upholds act made ctx ∧ ctx.Endures made (endState (policy.call act) ctx) := by
  have hshared := h.sharedOf hwork
  have hbefore := hcreates.before.trans hwork.before
  rcases h.active hcreates hwork hin with ⟨hnumber, hchanges, r, hr, hactive⟩
  rcases fate_of_finalizes h.after h.finalizes (by rw [hshared]; rfl) (by rw [hshared]; rfl) hr
    hactive (fun middle hfirst hlast r' hr' =>
      hin middle (hbefore.trans hfirst) hlast t.handle r' hcreates.unknown hr') with
    ⟨hfate, hspares⟩
  refine ⟨.new h.course h.entrance h.ambient hcreates.unknown hcreates.hives hcreates.history
    hnumber hchanges hfate, hbefore.trans h.after.before, ?_, fun t' r' hr' => ?_, fun id hid => ?_⟩
  · -- The transaction was not open before, so nothing is excepted.
    have hall := (hcreates.spares.trans hwork.spares).excepting.trans hspares
    exact hall.of_unknown hcreates.unknown
  · -- Opening the transaction and finishing it touch its own account only.
    have hother : t.handle ≠ t' := by
      rintro rfl
      exact absurd (hcreates.unknown.symm.trans hr') (by simp)
    rcases hcreates.spares.records t' r' (by simp) hr' with ⟨r₁, hr₁, _⟩
    rw [hfate.accounts, hwork.accounts t' r₁ hr₁, hcreates.history, History.changes_opened,
      if_neg hother]
  · -- The state of its clones was not there before.
    have hother : id ≠ t.id := by
      rw [h.id]
      exact Nat.ne_of_lt hid
    have hlater : id < start.shared.length := by
      rw [h.shared, List.length_append]
      exact Nat.lt_add_right _ hid
    rw [h.others id hother, hwork.shared id hlater, h.shared, List.getElem?_append_left hid]

/-- The work of a policy is in time and has room, as long as the policy has. -/
theorem work_in_time
    (hact : ∀ start, policy.entrance? ctx = some start →
      (endState act start).ambient = start.ambient)
    (hbefore : ∀ start, policy.entrance? ctx = some start →
      start.world.Before (endState act start).world)
    (hroom : (endState (policy.call act) ctx).world.Roomy)
    (hin : ctx.world.InTime (endState (policy.call act) ctx).world)
    (hentrance : policy.entrance? ctx = some start) :
    (endState act start).world.Roomy ∧ start.world.InTime (endState act start).world := by
  rcases around_entered hentrance (hact start hentrance) with
    ⟨hides, hplain⟩ | ⟨hides, t, calls, hnew⟩
  · have hfirst := hplain.before.endures
    have hlater := hplain.after.endures.before
    exact ⟨hroom.earlier hlater, hin.within hfirst.before hfirst.spares hlater⟩
  · have hlater := hnew.after.before
    have hcreates := hnew.creates ((hroom.earlier hlater).earlier (hbefore start hentrance))
    exact ⟨hroom.earlier hlater, hin.within hcreates.before hcreates.spares hlater⟩

/-- Every policy upholds what it should, if its work leaves alone what was there before it. -/
theorem upholds
    (hact : ∀ start, policy.entrance? ctx = some start →
      (endState act start).ambient = start.ambient)
    (hunrun : policy.entrance? ctx = none → made = [])
    (hwork : ∀ start, policy.entrance? ctx = some start → start.Endures made (endState act start))
    (hroom : (endState (policy.call act) ctx).world.Roomy)
    (hin : ctx.world.InTime (endState (policy.call act) ctx).world) :
    policy.Upholds act made ctx ∧ ctx.Endures made (endState (policy.call act) ctx) := by
  rcases policy.around act ctx hact with
    ⟨e, hrefuses⟩ | ⟨hides, start, hplain⟩ | ⟨hides, e, calls, huncreated⟩ |
    ⟨hides, t, start, calls, hnew⟩
  · have hnone := hunrun hrefuses.entrance
    subst hnone
    exact ⟨.refused hrefuses.course hrefuses.entrance rfl hrefuses.result
      hrefuses.after.world.noted.still, hrefuses.after.endures⟩
  · have hendures := (hplain.before.endures.trans (hwork start hplain.entrance)).trans
      hplain.after.endures
    rw [List.nil_append, List.append_nil] at hendures
    exact ⟨.plain hplain.course hplain.entrance hplain.ambient hplain.before.world.noted.still
      hplain.after.world.noted.still hplain.result, hendures⟩
  · have hnone := hunrun huncreated.entrance
    subst hnone
    rcases huncreated.unchanged with ⟨hunfit, hstill, hendures⟩
    exact ⟨.uncreated huncreated.course hunfit huncreated.entrance rfl huncreated.result hstill,
      hendures⟩
  · have hendures := hwork start hnew.entrance
    have hlater := hendures.before.trans hnew.after.before
    exact hnew.upholds (hnew.creates (hroom.earlier hlater)) hendures hin

end Policy

/-! ## Routines -/

namespace Routine

/-- A routine adds to what has happened. -/
theorem before_act {ε α : Type} (routine : Routine (Vocabulary.keys Timeline) ε α)
    (ctx : Context Timeline) : ctx.world.Before (endState routine.act ctx).world := by
  induction routine generalizing ctx with
  | done ending => cases ending <;> exact .refl _
  | step s next ih => exact (operates s.1 s.2 ctx).before.trans (ih _ _)
  | under policy body next ihbody ih =>
    have hcall : ctx.world.Before (endState (policy.call body.act) ctx).world :=
      Policy.before_call (fun start _ => body.ambient_act start) (fun start _ => ihbody start)
    exact hcall.trans (ih _ _)

/-- Every step and every policy of a routine upholds what it should, as long as there is room and
    nothing runs out of time. -/
theorem upheld {ε α : Type} (routine : Routine (Vocabulary.keys Timeline) ε α)
    (ctx : Context Timeline) (hroom : (endState routine.act ctx).world.Roomy)
    (hin : ctx.world.InTime (endState routine.act ctx).world) :
    ∃ made, routine.Upheld ctx made ∧ ctx.Endures made (endState routine.act ctx) := by
  -- By induction on the routine. Each part endures, so the rest is in time if the whole is, and the
  -- work of a policy leaves alone what the policy needs to find when it is over.
  induction routine generalizing ctx with
  | done ending => cases ending <;> exact ⟨[], rfl, (Context.Passes.refl ctx).endures⟩
  | step s next ih =>
    rcases operates s.1 s.2 ctx with ⟨_, hshared, hbefore, hspares, changes, hworks⟩
    have hfirst : ctx.Endures [⟨(Ambient.top ctx.ambient).map (·.handle), changes⟩] _ :=
      ⟨hbefore, hspares, fun h _ _ => hworks.accounts h, fun _ _ => by rw [hshared]⟩
    rcases ih _ _ hroom (hin.within hbefore hspares (.refl _)) with ⟨rest, hupheld, hendures⟩
    exact ⟨_, ⟨changes, rest, rfl, hworks, hupheld⟩, hfirst.trans hendures⟩
  | under policy body next ihbody ih =>
    have hlater := before_act (next (outcome (policy.call body.act) ctx))
      (endState (policy.call body.act) ctx)
    have hroomy := hroom.earlier hlater
    have hintime := hin.within (.refl _) (.refl _ _) hlater
    -- The work makes what it makes from where it starts, if the policy comes to it.
    have hbody : ∃ inner, (policy.entrance? ctx = none → inner = []) ∧
        ∀ start, policy.entrance? ctx = some start →
          body.Upheld start inner ∧ start.Endures inner (endState body.act start) := by
      cases hentrance : policy.entrance? ctx with
      | none => exact ⟨[], fun _ => rfl, fun _ h => absurd h (by simp)⟩
      | some start =>
        rcases Policy.work_in_time (fun start _ => body.ambient_act start)
          (fun start _ => body.before_act start) hroomy hintime hentrance with ⟨hroom, hin⟩
        rcases ihbody start hroom hin with ⟨inner, hinner⟩
        refine ⟨inner, fun h => absurd h (by simp), fun start' h => ?_⟩
        rw [← Option.some.inj h]
        exact hinner
    rcases hbody with ⟨inner, hunrun, hinner⟩
    rcases Policy.upholds (fun start _ => body.ambient_act start) hunrun
      (fun start hentrance => (hinner start hentrance).2) hroomy hintime with ⟨hpolicy, hfirst⟩
    rcases ih _ _ hroom (hin.within hfirst.before hfirst.spares (.refl _)) with
      ⟨rest, hupheld, hendures⟩
    exact ⟨_, ⟨inner, rest, rfl, hpolicy, fun start hentrance => (hinner start hentrance).1,
      hupheld⟩, hfirst.trans hendures⟩

end Routine

/-! ## The whole -/

/-- The store that a timeline has led to is an image of the timeline. -/
theorem Timeline.image : Native.Image Timeline.store where
  perform call l := by
    change Store.perform call l.store = imageOf Timeline.store (Timeline.perform call l)
    have hafter := Timeline.store_call call l
    unfold Timeline.perform outcome
    unfold endState at hafter
    cases hrun : Store.perform call l.store with
    | ok answer s =>
      rw [hrun] at hafter
      exact congrArg (EStateM.Result.ok answer) hafter.symm
    | error e s =>
      rw [hrun] at hafter
      exact congrArg (EStateM.Result.error e) hafter.symm
  log entry l := (Timeline.store_after l (.note entry)).symm

/-- Work under a policy, of any shape and wherever it is started, is all or nothing. Each operation
    in it makes its changes in the transaction that is current, or in the live trees at once if
    there is none. The changes that were made in a transaction that a policy has created, by its
    work or by any work under it that has joined the transaction, are applied when the policy is
    over, in order, if the work ended with a value and they apply; the policy ends with that value
    then. If they do not apply, the policy fails with a conflict, and if the work did not end with a
    value, the policy fails as the work did; in either case none of them is applied, then or at any
    later time. A policy that does not come to its work changes nothing.

    The live trees are at every moment what the contributions make of them, and no contribution is
    ever taken back. The same work under the same policy on the store alone, with no history beside
    it, ends in the same way and leaves the same store behind. -/
theorem policies_are_all_or_nothing (policy : Policy)
    (work : Routine (Vocabulary.keys Timeline) ε α) (ctx : Context Timeline)
    (hroom : (endState (policy.call work.act) ctx).world.Roomy)
    (hin : ctx.world.InTime (endState (policy.call work.act) ctx).world) :
    ∃ made, policy.Upholds work.act made ctx ∧
      (∀ start, policy.entrance? ctx = some start → work.Upheld start made) ∧
      (∀ l : Timeline, l.Before (endState (policy.call work.act) ctx).world →
        l.chronicle.Replayed ∧ l.history.contributions <+:
          (endState (policy.call work.act) ctx).world.history.contributions) ∧
      outcome (policy.call (work.onto Store).act) (ctx.onto Timeline.store)
        = outcome (policy.call work.act) ctx ∧
      endState (policy.call (work.onto Store).act) (ctx.onto Timeline.store)
        = (endState (policy.call work.act) ctx).onto Timeline.store := by
  -- To be done under a policy is to be a routine that does nothing afterwards.
  have hwhole : endState (Routine.under policy work .done).act ctx
      = endState (policy.call work.act) ctx := by
    change endState (Act.ended (outcome (policy.call work.act) ctx)) _ = _
    cases outcome (policy.call work.act) ctx <;> rfl
  rcases (Routine.under policy work .done).upheld ctx (by rw [hwhole]; exact hroom)
    (by rw [hwhole]; exact hin) with ⟨_, ⟨made, _, _, hupholds, hupheld, _⟩, _⟩
  have honto := policy.onto_call Timeline.image (work.onto_act Timeline.image)
  exact ⟨made, hupholds, hupheld, fun l hbefore =>
    ⟨Chronicle.run_replayed l.clock l.actions, hbefore.contributions⟩, honto.outcome ctx,
    honto.endState ctx⟩

/-- A store to which nothing has happened, and no clock that moves. -/
def untouched : Timeline :=
  ⟨⟨0, []⟩, []⟩

/-- The key of the given name that belongs to the current user. -/
def keyNamed (name : String) : Location :=
  ⟨.currentUser, ⟨[name]⟩⟩

/-- Work that creates keys: one by itself, one in no transaction, one in a transaction of its own
    that fails, and one in the transaction that is current. It swallows the failure. -/
def createFour : Routine (Vocabulary.keys Timeline) String Nat :=
  .step (keyNamed "Notes", .scripted .create) fun _ =>
    .under ⟨.notSupported, TransactionSettings.default⟩
      (.step (keyNamed "Log", .scripted .create) fun _ =>
        (.done (.ok ()) : Routine (Vocabulary.keys Timeline) Empty Unit)) fun _ =>
      .under ⟨.requiresNew, TransactionSettings.default⟩
        (.step (keyNamed "Draft", .scripted .create) fun _ =>
          (.done (.error (.error "withdrawn")) : Routine (Vocabulary.keys Timeline) String Unit))
        fun _ =>
          .under ⟨.mandatory, TransactionSettings.default⟩
            (.step (keyNamed "Index", .scripted .create) fun _ =>
              (.done (.ok ()) : Routine (Vocabulary.keys Timeline) Empty Unit)) fun _ =>
            .done (.ok 4)

/-- The policy of that work. -/
def asRequired : Policy :=
  ⟨.required, TransactionSettings.default⟩

/-- All that has happened when that is over. -/
def allFour : Timeline :=
  (endState (asRequired.call createFour.act) (Context.ofWorld untouched)).world

theorem asRequired_ends :
    Ends (asRequired.call createFour.act) (Context.ofWorld untouched) (fun count _ => count = 4)
      (fun _ _ => False) := by
  decide +kernel

theorem all_or_nothing_of_createFour :
    allFour.Roomy ∧ untouched.InTime allFour ∧
      ∃ (made : List Made) (h : TransactionHandle) (now : Time) (finish : Timeline),
        allFour.history = finish.history.committed h ∧
        Mutation.replay now finish.store.hives (Made.within h made) = .ok allFour.store.hives ∧
        allFour.history.contributions.map (fun c => (c.source, c.changes.length))
          = [(none, 1), (some 0, 2)] := by
  have hroom : allFour.Roomy := Timeline.roomy_of_length (by decide +kernel)
  have hin : untouched.InTime allFour := Timeline.inTime_of_no_deadline (by decide +kernel)
  have hvalue : outcome (asRequired.call createFour.act) (Context.ofWorld untouched) = .ok 4 :=
    asRequired_ends.outcome_ok
  rcases policies_are_all_or_nothing asRequired createFour (Context.ofWorld untouched) hroom
    hin with ⟨made, hupholds, _⟩
  have hcourse : asRequired.propagation.course none = .run false true := rfl
  rcases hupholds.applied hcourse hvalue with ⟨h, now, finish, hhistory, hreplay⟩
  exact ⟨hroom, hin, made, h, now, finish, hhistory, hreplay, by decide +kernel⟩

end TransactionalRegistry
