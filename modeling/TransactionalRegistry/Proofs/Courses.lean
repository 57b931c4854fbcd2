import TransactionalRegistry.Proofs.Routines

/-!
# What a policy does around its work

A policy does one of four things. It refuses its work; it runs it in no new transaction; it fails to
create a transaction and so does not come to its work; or it creates one, runs its work in that and
finishes it. Each of them is described here from end to end: the calls that the policy makes by
itself before the work and after it, what comes out, and what becomes of the state that the clones
of transactions share.

Only work that leaves the ambient stack as it finds it is spoken of. All routines are of that kind.

## Main definitions

* `Context.Passes`: A context goes on to another without a call.
* `Policy.Refuses`, `Policy.RunsPlainly`, `Policy.Uncreated`, `Policy.RunsInNew`: What a policy
  does.

## Theorems

* `Policy.around`: A policy does one of the four.
* `Policy.around_entered`, `Policy.around_unentered`: In two of them it comes to its work.
-/

namespace TransactionalRegistry

variable {W ε α : Type} [Native W]

/-- A context goes on to another without a call, and no state that clones share changes. The ambient
    stack may change. -/
structure Context.Passes (ctx ctx' : Context W) : Prop where
  world : Transcript ctx.world [] ctx'.world
  shared : ctx'.shared = ctx.shared

namespace Context

variable {ctx ctx' ctx'' : Context W}

theorem Passes.refl (ctx : Context W) : ctx.Passes ctx :=
  ⟨.nil _, rfl⟩

theorem Passes.trans (h : ctx.Passes ctx') (h' : ctx'.Passes ctx'') : ctx.Passes ctx'' :=
  ⟨h.world.append h'.world, h'.shared.trans h.shared⟩

theorem passes_logged (entry : LogEntry) (ctx : Context W) : ctx.Passes (ctx.logged entry) :=
  ⟨.log entry (.nil _), rfl⟩

theorem passes_hidden (hides : Bool) (ctx : Context W) : ctx.Passes (ctx.hidden hides) := by
  cases hides with
  | false => exact .refl ctx
  | true => exact ⟨.log _ (.nil _), rfl⟩

/-- Taking off the entry that hides those below it makes no call. -/
theorem passes_shown (hides : Bool) {stack : List (Option Transaction)}
    (h : ctx.ambient = (if hides then [none] else []) ++ stack) : ctx.Passes (ctx.shown hides) := by
  cases hides with
  | false => exact .refl ctx
  | true =>
    have htop : Ambient.top ctx.ambient = none := by rw [h]; rfl
    rw [shown, if_pos rfl, endState_of_ok (Ambient.leave_of_none htop)]
    exact ⟨.log _ (.nil _), rfl⟩

end Context

/-- Taking off a transaction that has been closed makes no call. -/
theorem Ambient.goes_leave {ctx : Context W} {t : Transaction} {stack : List (Option Transaction)}
    (hambient : ctx.ambient = some t :: stack) (hclosed : (ctx.sharedOf t).closed = true) :
    Context.Goes t [] { ctx with ambient := stack } (endState (leave : Act W Empty Unit) ctx) := by
  have hleave := @leave_of_some W Empty _ ctx t (by rw [hambient]; rfl)
  rw [hambient] at hleave
  refine (hleave.mono ?_ (fun _ _ h => h)).endState_total
  rintro _ ctx' ⟨calls, hgoes, hquiet⟩
  rw [hquiet hclosed] at hgoes
  exact hgoes

namespace Policy

/-- A policy refuses its work. -/
structure Refuses (policy : Policy) (act : Act W ε α) (ctx : Context W) (e : TransactionError) :
    Prop where
  course : policy.propagation.course (Ambient.top ctx.ambient) = .refuse e
  entrance : policy.entrance? ctx = none
  result : outcome (policy.call act) ctx = .error (.error (.ofTransaction e))
  after : ctx.Passes (endState (policy.call act) ctx)

/-- A policy runs its work in no new transaction, from `start` on. -/
structure RunsPlainly (policy : Policy) (act : Act W ε α) (ctx : Context W) (hides : Bool)
    (start : Context W) : Prop where
  course : policy.propagation.course (Ambient.top ctx.ambient) = .run hides false
  entrance : policy.entrance? ctx = some start
  before : ctx.Passes start
  ambient : start.ambient = (if hides then [none] else []) ++ ctx.ambient
  result : outcome (policy.call act) ctx = (outcome act start).mapError (Failure.map .ofAction)
  after : (endState act start).Passes (endState (policy.call act) ctx)

/-- A policy cannot create the transaction that its work is to run in. The timeout of its settings
    is rejected before a call is made, or the call that creates the transaction fails. -/
structure Uncreated (policy : Policy) (act : Act W ε α) (ctx : Context W) (hides : Bool)
    (e : TransactionError) (calls : List CallRecord) : Prop where
  course : policy.propagation.course (Ambient.top ctx.ambient) = .run hides true
  entrance : policy.entrance? ctx = none
  reason :
    policy.settings.timeout.wholeMillis? = none ∧ e = .invalidTimeout policy.settings.timeout ∧
        calls = [] ∨
      ∃ millis error, policy.settings.timeout.wholeMillis? = some millis ∧
        e = .native "CreateTransaction" error ∧
        calls = [⟨.createTransaction millis policy.settings.description, .error error⟩]
  result : outcome (policy.call act) ctx = .error (.error (.ofTransaction e))
  world : Transcript ctx.world calls (endState (policy.call act) ctx).world
  shared : (endState (policy.call act) ctx).shared = ctx.shared

/-- A policy creates the transaction `t`, runs its work in it from `start` on, and finishes it by
    `calls`. -/
structure RunsInNew (policy : Policy) (act : Act W ε α) (ctx : Context W) (hides : Bool)
    (t : Transaction) (start : Context W) (calls : List CallRecord) : Prop where
  course : policy.propagation.course (Ambient.top ctx.ambient) = .run hides true
  entrance : policy.entrance? ctx = some start
  before : ∃ millis, policy.settings.timeout.wholeMillis? = some millis ∧
    Transcript ctx.world
      [⟨.createTransaction millis policy.settings.description, .ok t.handle⟩] start.world
  ambient : start.ambient = some t :: ((if hides then [none] else []) ++ ctx.ambient)
  id : t.id = ctx.shared.length
  shared : start.shared = ctx.shared ++ [{ Shared.fresh with clones := 2 }]
  finalizes : Finalizes t.handle ((endState act start).sharedOf t) (outcome act start) calls
    (outcome (policy.call act) ctx)
  after : Transcript (endState act start).world calls (endState (policy.call act) ctx).world
  others : ∀ id, id ≠ t.id →
    (endState (policy.call act) ctx).shared[id]? = (endState act start).shared[id]?

variable {policy : Policy} {act : Act W ε α} {ctx : Context W} {hides : Bool}

theorem refuses {e : TransactionError}
    (hcourse : policy.propagation.course (Ambient.top ctx.ambient) = .refuse e) :
    policy.Refuses act ctx e where
  course := hcourse
  entrance := entrance?_of_refuse hcourse
  result := by rw [outcome, call_of_refuse act hcourse]
  after := by
    rw [endState, call_of_refuse act hcourse]
    exact Context.passes_logged _ ctx

theorem runsPlainly
    (hcourse : policy.propagation.course (Ambient.top ctx.ambient) = .run hides false)
    (hact : ∀ start, policy.entrance? ctx = some start →
      (endState act start).ambient = start.ambient) :
    policy.RunsPlainly act ctx hides (ctx.consulted.hidden hides) where
  course := hcourse
  entrance := entrance?_of_plain hcourse
  before := (Context.passes_logged _ ctx).trans (Context.passes_hidden hides _)
  ambient := ambient_hidden hides ctx.consulted
  result := (call_of_plain act hcourse).1
  after := by
    rw [(call_of_plain act hcourse).2]
    have hambient := hact _ (entrance?_of_plain hcourse)
    exact Context.passes_shown hides (hambient.trans (ambient_hidden hides ctx.consulted))

theorem uncreated {e : TransactionError} {created : Context W}
    (hcourse : policy.propagation.course (Ambient.top ctx.ambient) = .run hides true)
    (hcreate : policy.create (ctx.consulted.hidden hides) = .error (.error e) created) :
    ∃ calls, policy.Uncreated act ctx hides e calls := by
  have hbefore : ctx.Passes (ctx.consulted.hidden hides) :=
    (Context.passes_logged _ ctx).trans (Context.passes_hidden hides _)
  have hfinal := (call_of_uncreated act hcourse hcreate).2
  -- Either way the entry that hides the current transaction is still on top.
  have hdone : ∀ calls, Transcript (ctx.consulted.hidden hides).world calls created.world →
      created.ambient = (ctx.consulted.hidden hides).ambient →
      created.shared = (ctx.consulted.hidden hides).shared →
      Transcript ctx.world calls (endState (policy.call act) ctx).world ∧
        (endState (policy.call act) ctx).shared = ctx.shared := by
    intro calls hworld hambient hshared
    rw [hfinal]
    have hshown := Context.passes_shown hides (hambient.trans (ambient_hidden hides ctx.consulted))
    have hall := (hbefore.world.append hworld).append hshown.world
    rw [List.nil_append, List.append_nil] at hall
    exact ⟨hall, hshown.shared.trans (hshared.trans hbefore.shared)⟩
  rcases (create_goes policy.settings _).error hcreate with
    ⟨e', heq, ⟨htimeout, rfl, rfl⟩ | ⟨millis, error, hmillis, rfl, hworld, hambient, hshared⟩⟩
  · cases heq
    rcases hdone [] (.nil _) rfl rfl with ⟨hworld, hshared⟩
    exact ⟨_, hcourse, entrance?_of_uncreated hcourse hcreate, Or.inl ⟨htimeout, rfl, rfl⟩,
      (call_of_uncreated act hcourse hcreate).1, hworld, hshared⟩
  · cases heq
    rcases hdone _ hworld hambient hshared with ⟨hworld, hshared⟩
    exact ⟨_, hcourse, entrance?_of_uncreated hcourse hcreate,
      Or.inr ⟨millis, error, hmillis, rfl, rfl⟩, (call_of_uncreated act hcourse hcreate).1, hworld,
      hshared⟩

theorem runsInNew {t : Transaction} {created : Context W}
    (hcourse : policy.propagation.course (Ambient.top ctx.ambient) = .run hides true)
    (hcreate : policy.create (ctx.consulted.hidden hides) = .ok t created)
    (hact : ∀ start, policy.entrance? ctx = some start →
      (endState act start).ambient = start.ambient) :
    ∃ calls, policy.RunsInNew act ctx hides t (started t created) calls := by
  have hentrance := entrance?_of_created hcourse hcreate
  have hbefore : ctx.Passes (ctx.consulted.hidden hides) :=
    (Context.passes_logged _ ctx).trans (Context.passes_hidden hides _)
  rcases (create_goes policy.settings _).ok hcreate with
    ⟨millis, hmillis, hcreated, hambient, hid, hshared⟩
  have hstack : created.ambient = (if hides then [none] else []) ++ ctx.ambient :=
    hambient.trans (ambient_hidden hides ctx.consulted)
  rw [hbefore.shared] at hid hshared
  rcases finished t act (started t created) with ⟨calls, hgoes, hclosed, hfinalizes⟩
  -- The work ends with its transaction on top, and finishing leaves it there, closed.
  have htop : (endState (finishing t act) (started t created)).ambient
      = some t :: created.ambient :=
    hgoes.ambient.trans (hact _ hentrance)
  have hleft := Ambient.goes_leave htop hclosed
  have hfinal := (call_of_created act hcourse hcreate).2
  have hshown := Context.passes_shown hides (hleft.ambient.trans hstack)
  refine ⟨calls, hcourse, hentrance, ⟨millis, hmillis, ?_⟩, congrArg (some t :: ·) hstack, hid, ?_,
    ?_, ?_, ?_⟩
  · have hstarted : Transcript created.world [] (started t created).world :=
      .log _ (.log _ (.nil _))
    exact (hbefore.world.append hcreated).append hstarted
  · change created.shared.modify t.id _ = _
    rw [hshared, hid, List.modify_eq_take_drop, List.take_left, List.drop_left]
    rfl
  · rw [(call_of_created act hcourse hcreate).1]
    exact hfinalizes
  · rw [hfinal]
    have hall := (hgoes.world.append hleft.world).append hshown.world
    rw [List.append_nil, List.append_nil] at hall
    exact hall
  · intro id hother
    rw [hfinal, hshown.shared, hleft.shared id hother, hgoes.shared id hother]

/-- Where its work starts, the transaction of a policy was just created. -/
theorem RunsInNew.origin {t : Transaction} {start : Context W} {calls : List CallRecord}
    (h : policy.RunsInNew act ctx hides t start calls) :
    ∃ created, policy.create (ctx.consulted.hidden hides) = .ok t created ∧
      created.ambient = (ctx.consulted.hidden hides).ambient ∧
      started t created = start := by
  have hentrance := h.entrance
  rcases policy.create_cases (ctx.consulted.hidden hides) with
    ⟨e, created, hcreate, _⟩ | ⟨t', created, hcreate, hambient, _⟩
  · rw [entrance?_of_uncreated h.course hcreate] at hentrance
    exact absurd hentrance (by simp)
  · rw [entrance?_of_created h.course hcreate, Option.some.injEq] at hentrance
    have htop := congrArg (fun ctx : Context W => Ambient.top ctx.ambient) hentrance
    simp only [h.ambient] at htop
    obtain rfl : t' = t := Option.some.inj htop
    exact ⟨created, hcreate, hambient, hentrance⟩

/-- A policy does one of four things. -/
theorem around (policy : Policy) (act : Act W ε α) (ctx : Context W)
    (hact : ∀ start, policy.entrance? ctx = some start →
      (endState act start).ambient = start.ambient) :
    (∃ e, policy.Refuses act ctx e) ∨ (∃ hides start, policy.RunsPlainly act ctx hides start) ∨
      (∃ hides e calls, policy.Uncreated act ctx hides e calls) ∨
      ∃ hides t start calls, policy.RunsInNew act ctx hides t start calls := by
  rcases policy.course_cases (Ambient.top ctx.ambient) with ⟨e, hcourse⟩ | ⟨hides, creates, hcourse⟩
  · exact Or.inl ⟨e, refuses hcourse⟩
  · cases creates with
    | false => exact Or.inr (Or.inl ⟨hides, _, runsPlainly hcourse hact⟩)
    | true =>
      rcases policy.create_cases (ctx.consulted.hidden hides) with
        ⟨e, created, hcreate, _⟩ | ⟨t, created, hcreate, _⟩
      · have huncreated : ∃ calls, policy.Uncreated act ctx hides e calls :=
          uncreated hcourse hcreate
        rcases huncreated with ⟨calls, huncreated⟩
        exact Or.inr (Or.inr (Or.inl ⟨hides, e, calls, huncreated⟩))
      · rcases runsInNew hcourse hcreate hact with ⟨calls, hruns⟩
        exact Or.inr (Or.inr (Or.inr ⟨hides, t, _, calls, hruns⟩))

/-- A policy that comes to its work, from `start` on, runs it plainly or in a new transaction. -/
theorem around_entered {start : Context W} (hentry : policy.entrance? ctx = some start)
    (hact : (endState act start).ambient = start.ambient) :
    (∃ hides, policy.RunsPlainly act ctx hides start) ∨
      ∃ hides t calls, policy.RunsInNew act ctx hides t start calls := by
  have hevery : ∀ here, policy.entrance? ctx = some here →
      (endState act here).ambient = here.ambient := by
    intro here hhere
    rw [hentry, Option.some.injEq] at hhere
    exact hhere ▸ hact
  have hsome : policy.entrance? ctx ≠ none := by rw [hentry]; simp
  rcases policy.around act ctx hevery with
    ⟨e, hrefuses⟩ | ⟨hides, here, hplain⟩ | ⟨hides, e, calls, huncreated⟩ |
    ⟨hides, t, here, calls, hnew⟩
  · exact absurd hrefuses.entrance hsome
  · have hsame : here = start := Option.some.inj (hplain.entrance.symm.trans hentry)
    exact Or.inl ⟨hides, hsame ▸ hplain⟩
  · exact absurd huncreated.entrance hsome
  · have hsame : here = start := Option.some.inj (hnew.entrance.symm.trans hentry)
    exact Or.inr ⟨hides, t, calls, hsame ▸ hnew⟩

/-- A policy that does not come to its work refuses it or cannot create a transaction. -/
theorem around_unentered (act : Act W ε α) (hentry : policy.entrance? ctx = none) :
    (∃ e, policy.Refuses act ctx e) ∨ ∃ hides e calls, policy.Uncreated act ctx hides e calls := by
  have hnever : ∀ here, policy.entrance? ctx ≠ some here := fun here => by rw [hentry]; simp
  rcases policy.around act ctx (fun here hhere => absurd hhere (hnever here)) with
    hrefuses | ⟨hides, here, hplain⟩ | huncreated | ⟨hides, t, here, calls, hnew⟩
  · exact Or.inl hrefuses
  · exact absurd hplain.entrance (hnever here)
  · exact Or.inr huncreated
  · exact absurd hnew.entrance (hnever here)

end Policy

end TransactionalRegistry
