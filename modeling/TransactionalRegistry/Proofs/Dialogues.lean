import Mathlib.Tactic.Choose
import TransactionalRegistry.Proofs.Sessions

/-!
# Operations as dialogues

An operation on a key is written once, for every world and for either route. So what it does can be
told before it runs: it is a dialogue, which logs entries, asks calls and goes on according to the
answers, closes a key, and comes to an end. Neither the world that answers nor the transaction that
is current is part of a dialogue. The route only says in which variant its calls are made.

A dialogue of an operation goes through the phases of a session. It is idle until it makes a call by
path; if that call opens a key, it makes its further calls through this key and closes it; after
that, or if no key was opened, it is over and asks nothing more.

## Main definitions

* `Context.route`: The route of the transaction that is current.
* `Act.callBy`: A call in the variant of a route.
* `Dialogue`: What an operation does, whoever answers and by whichever route.
* `Dialogue.held`: A dialogue that is held by a route.
* `Dialogue.Ordered`: A dialogue that goes through the phases in their order.
* `Spoken`: An act that holds such a dialogue.

## Theorems

* `Dialogue.held_andThen`: Two dialogues, one after the other.
* `Spoken.andThen`: What an act that is spoken may be followed by.
* `KeyOperation.spoken`: Every operation on a key holds one dialogue.
-/

namespace TransactionalRegistry

open Script (KeyStep)

/-- The route of the transaction that is current in a context. -/
def Context.route {W : Type} (ctx : Context W) : Route :=
  ⟨(Ambient.top ctx.ambient).map (·.handle)⟩

/-- Makes a call by a route. A call that has two variants is made in the variant of the route,
    whichever variant was asked for. -/
def Act.callBy {W : Type} [Native W] (route : Route) :
    (call : Call) → Act W NativeError call.Answer
  | .openKey parent subKey access _ => call (.openKey parent subKey access route.transaction)
  | .createKey parent subKey access _ => call (.createKey parent subKey access route.transaction)
  | .deleteKey parent subKey _ => call (.deleteKey parent subKey route.transaction)
  | .renameKey parent subKey newName _ =>
    call (.renameKey parent subKey newName route.transaction)
  | .getValue key name _ => call (.getValue key name route.transaction)
  | .setValue key name data _ => call (.setValue key name data route.transaction)
  | .deleteValue key name _ => call (.deleteValue key name route.transaction)
  | .createTransaction timeoutMillis description =>
    call (.createTransaction timeoutMillis description)
  | .transactionOutcome transaction => call (.transactionOutcome transaction)
  | .commitTransaction transaction => call (.commitTransaction transaction)
  | .rollbackTransaction transaction => call (.rollbackTransaction transaction)
  | .closeTransaction transaction => call (.closeTransaction transaction)
  | .closeKey key => call (.closeKey key)
  | .queryInfo key => call (.queryInfo key)
  | .enumKey key index => call (.enumKey key index)
  | .enumValue key index => call (.enumValue key index)

/-- What an operation does, whoever answers its calls and by whichever route it makes them. -/
inductive Dialogue (ε α : Type) where
  /-- It comes to an end. -/
  | done (ending : Except (Failure ε) α)
  /-- It logs an entry, which may tell the route, and goes on. -/
  | note (entry : Route → LogEntry) (rest : Dialogue ε α)
  /-- It makes a call and goes on according to the answer. -/
  | ask (call : Call) (rest : Except NativeError call.Answer → Dialogue ε α)
  /-- It closes a key and goes on, whether that has failed or not. -/
  | close (key : KeyHandle) (rest : Dialogue ε α)

namespace Dialogue

variable {W ε ε' α β : Type}

/-- A dialogue that is held by a route. -/
def held [Native W] (route : Route) : Dialogue ε α → Act W ε α
  | done ending => Act.ended ending
  | note entry rest => do
    Act.log (entry route)
    rest.held route
  | ask call rest => do
    let result ← (Act.callBy route call).attempt
    (rest result).held route
  | close key rest => do
    Act.lift (Registry.closeKey key)
    rest.held route

/-- A dialogue and what comes after it, which depends on how it ends. -/
def andThen : Dialogue ε α → (Except (Failure ε) α → Dialogue ε' β) → Dialogue ε' β
  | done ending, next => next ending
  | note entry rest, next => note entry (rest.andThen next)
  | ask call rest, next => ask call (fun result => (rest result).andThen next)
  | close key rest, next => close key (rest.andThen next)

end Dialogue

/-! ## What a dialogue leaves alone -/

section

variable {W ε ε' α β : Type} [Native W] {route : Route} {ctx : Context W}

/-- A call by a route is answered or fails, but does not panic. -/
theorem Act.ends_callBy (route : Route) (call : Call) (ctx : Context W) :
    Ends (Act.callBy route call) ctx (fun _ ctx' => ctx'.ambient = ctx.ambient)
      (fun failure ctx' => (∃ e, failure = .error e) ∧ ctx'.ambient = ctx.ambient) := by
  cases call <;> exact Act.ends_call (fun _ _ _ => rfl) (fun e _ _ => ⟨⟨e, rfl⟩, rfl⟩)

/-- The answer to a call, whatever errors there are around it. -/
theorem Act.attempt_callBy (route : Route) (call : Call) (ctx : Context W) :
    ∃ result ctx', (∀ ε, ((Act.callBy route call).attempt : Act W ε _) ctx = .ok result ctx') ∧
      ctx'.ambient = ctx.ambient := by
  have hends := Act.ends_callBy route call ctx
  cases hcall : Act.callBy route call ctx with
  | ok answer ctx' => exact ⟨.ok answer, ctx', fun _ => Act.attempt_of_ok hcall, hends.ok hcall⟩
  | error failure ctx' =>
    obtain ⟨⟨e, rfl⟩, hambient⟩ := hends.error hcall
    exact ⟨.error e, ctx', fun _ => Act.attempt_of_error hcall, hambient⟩

/-- A failure to close a key is logged, so closing never fails. -/
theorem Registry.closeKey_run (key : KeyHandle) (ctx : Context W) :
    ∃ ctx', (closeKey key : Act W Empty Unit) ctx = .ok () ctx' ∧
      ctx'.ambient = ctx.ambient := by
  obtain ⟨closed, ctx', hclose, hambient⟩ := Act.attempt_callBy ⟨none⟩ (.closeKey key) ctx
  cases closed with
  | ok u => exact ⟨ctx', bind_of_ok (hclose Empty), hambient⟩
  | error e => exact ⟨ctx'.logged _, bind_of_ok (hclose Empty), hambient⟩

namespace Dialogue

/-- A dialogue that asks goes on with the answer. -/
theorem held_ask {call : Call} {rest : Except NativeError call.Answer → Dialogue ε α}
    {result : Except NativeError call.Answer} {ctx' : Context W}
    (h : ((Act.callBy route call).attempt : Act W ε _) ctx = .ok result ctx') :
    (ask call rest).held route ctx = (rest result).held route ctx' :=
  bind_of_ok h

/-- A dialogue that closes a key goes on, whatever has come of it. -/
theorem held_close {key : KeyHandle} {rest : Dialogue ε α} {ctx' : Context W}
    (h : (Registry.closeKey key : Act W Empty Unit) ctx = .ok () ctx') :
    (close key rest).held route ctx = rest.held route ctx' :=
  bind_of_ok (Act.lift_of_ok h)

/-- Holding a dialogue leaves the ambient stack alone. -/
theorem endState_ambient (d : Dialogue ε α) (route : Route) (ctx : Context W) :
    (endState (d.held route) ctx).ambient = ctx.ambient := by
  induction d generalizing ctx with
  | done ending => cases ending <;> rfl
  -- An entry and a call change the world, and the stack is no part of it.
  | note entry rest ih => exact ih (ctx.logged (entry route))
  | ask call rest ih =>
    obtain ⟨result, ctx', hcall, hambient⟩ := Act.attempt_callBy route call ctx
    rw [endState, held_ask (hcall ε), ← hambient]
    exact ih result ctx'
  | close key rest ih =>
    obtain ⟨ctx', hclose, hambient⟩ := Registry.closeKey_run key ctx
    rw [endState, held_close hclose, ← hambient]
    exact ih ctx'

/-- A dialogue and what comes after it are held one after the other. -/
theorem held_andThen (d : Dialogue ε α) (next : Except (Failure ε) α → Dialogue ε' β)
    (route : Route) (ctx : Context W) :
    (d.andThen next).held route ctx =
      (next (outcome (d.held route) ctx)).held route (endState (d.held route) ctx) := by
  induction d generalizing ctx with
  | done ending => cases ending <;> rfl
  | note entry rest ih => exact ih (ctx.logged (entry route))
  | ask call rest ih =>
    obtain ⟨result, ctx', hcall, -⟩ := Act.attempt_callBy route call ctx
    -- What is answered to the first dialogue is answered to both of them together.
    rw [andThen, outcome, endState, held_ask (hcall ε), held_ask (hcall ε')]
    exact ih result ctx'
  | close key rest ih =>
    obtain ⟨ctx', hclose, -⟩ := Registry.closeKey_run key ctx
    rw [andThen, outcome, endState, held_close hclose, held_close hclose]
    exact ih ctx'

end Dialogue

end

/-! ## Phases -/

/-- The phases of an operation: it is idle at first, it may then hold a key that it has opened, and
    it is over when it has closed the key or has opened none. -/
inductive Phase where
  | idle
  | holding (key : KeyHandle)
  | finished

namespace Phase

/-- The phase after a call by path. -/
def after (call : Call) : Except NativeError call.Answer → Phase
  | .ok answer =>
    match call.handle? answer with
    | some key => holding key
    | none => finished
  | .error _ => finished

/-- The phase after an act, given those after its values and the one after its failures. -/
def atEnd {ε α : Type} (next : α → Phase) (failed : Phase) : Except (Failure ε) α → Phase
  | .ok a => next a
  | .error _ => failed

/-- An act may end in the phase that it has got to, and one that is idle may be over. -/
inductive Reaches : Phase → Phase → Prop
  | refl (phase : Phase) : Reaches phase phase
  | finished_of_idle : Reaches idle finished

/-- An act that has got somewhere goes on from there. -/
theorem Reaches.trans {a b c : Phase} (h : a.Reaches b) (h' : b.Reaches c) : a.Reaches c := by
  cases h with
  | refl => exact h'
  | finished_of_idle =>
    cases h'
    exact .finished_of_idle

end Phase

/-- From a phase on, the dialogue goes through the phases in their order. It ends in a phase that
    its value determines, or in `failed`. The calls are told in their plain variants. -/
inductive Dialogue.Ordered {ε α : Type} (next : α → Phase) (failed : Phase) :
    Phase → Dialogue ε α → Prop
  | done {phase : Phase} {ending : Except (Failure ε) α} :
      phase.Reaches (Phase.atEnd next failed ending) → Ordered next failed phase (.done ending)
  | note {phase : Phase} {entry : Route → LogEntry} {rest : Dialogue ε α} :
      Ordered next failed phase rest → Ordered next failed phase (.note entry rest)
  | byPath {call : Call} {rest : Except NativeError call.Answer → Dialogue ε α} :
      call.ByPath none → (∀ result, Ordered next failed (Phase.after call result) (rest result)) →
      Ordered next failed .idle (.ask call rest)
  | through {key : KeyHandle} {call : Call}
      {rest : Except NativeError call.Answer → Dialogue ε α} :
      call.Through none key → (∀ result, Ordered next failed (.holding key) (rest result)) →
      Ordered next failed (.holding key) (.ask call rest)
  | close {key : KeyHandle} {rest : Dialogue ε α} : Ordered next failed .finished rest →
      Ordered next failed (.holding key) (.close key rest)

namespace Dialogue.Ordered

variable {ε ε' α β : Type} {mid : α → Phase} {next : β → Phase} {failed failed' phase : Phase}

/-- What may be done when an operation is over may also be done before it has begun. -/
theorem earlier {d : Dialogue ε α} {phase' : Phase} (h : Ordered mid failed phase' d)
    (hphase : phase.Reaches phase') : Ordered mid failed phase d := by
  cases hphase with
  | refl => exact h
  | finished_of_idle =>
    generalize hfinished : Phase.finished = phase' at h
    induction h with
    | done hreaches =>
      subst hfinished
      exact .done (Phase.Reaches.finished_of_idle.trans hreaches)
    | note _ ih => exact .note (ih hfinished)
    | byPath => cases hfinished
    | through => cases hfinished
    | close => cases hfinished

/-- What comes after a dialogue begins in the phase that this one ends in. -/
theorem andThen {d : Dialogue ε α} {rest : Except (Failure ε) α → Dialogue ε' β}
    (h : Ordered mid failed phase d)
    (hrest : ∀ ending, Ordered next failed' (Phase.atEnd mid failed ending) (rest ending)) :
    Ordered next failed' phase (d.andThen rest) := by
  induction h with
  | done hreaches => exact (hrest _).earlier hreaches
  | note _ ih => exact .note ih
  | byPath hpath _ ih => exact .byPath hpath ih
  | through hthrough _ ih => exact .through hthrough ih
  | close _ ih => exact .close ih

end Dialogue.Ordered

/-! ## Acts that are spoken -/

/-- In every world and in every context, the act holds one dialogue by the route of the transaction
    that is current. The dialogue goes through the phases in their order. -/
def Spoken {ε α : Type} (phase : Phase) (act : (W : Type) → [Native W] → Route → Act W ε α)
    (next : α → Phase) (failed : Phase) : Prop :=
  ∃ d : Dialogue ε α, d.Ordered next failed phase ∧
    ∀ (W : Type) [Native W] (ctx : Context W), act W ctx.route ctx = d.held ctx.route ctx

namespace Spoken

variable {ε ε' α β : Type} {phase failed failed' : Phase} {mid : α → Phase} {next : β → Phase}
  {act : (W : Type) → [Native W] → Route → Act W ε α}

/-- An act that goes on after another one, according to how that one has ended. -/
theorem andThen {whole : (W : Type) → [Native W] → Route → Act W ε' β}
    {R : Except (Failure ε) α → (W : Type) → [Native W] → Route → Act W ε' β}
    (h : Spoken phase act mid failed)
    (hrest : ∀ ending, Spoken (Phase.atEnd mid failed ending) (R ending) next failed')
    (hwhole : ∀ (W : Type) [Native W] (route : Route) (ctx : Context W), whole W route ctx =
      R (outcome (act W route) ctx) W route (endState (act W route) ctx)) :
    Spoken phase whole next failed' := by
  obtain ⟨d, hordered, hact⟩ := h
  choose d' hordered' hact' using hrest
  refine ⟨d.andThen d', hordered.andThen hordered', fun W _ ctx => ?_⟩
  have houtcome : outcome (act W ctx.route) ctx = outcome (d.held ctx.route) ctx := by
    unfold outcome
    rw [hact W ctx]
  have hend : endState (act W ctx.route) ctx = endState (d.held ctx.route) ctx := by
    unfold endState
    rw [hact W ctx]
  -- The route is read off the ambient stack, which the first dialogue leaves alone.
  have hroute : (endState (d.held ctx.route) ctx).route = ctx.route := by
    unfold Context.route
    rw [d.endState_ambient]
  have hgoes := hact' (outcome (d.held ctx.route) ctx) W (endState (d.held ctx.route) ctx)
  rw [hroute] at hgoes
  rw [hwhole, d.held_andThen, houtcome, hend, hgoes]

/-- An act and the one that its value is passed to. -/
theorem bind {f : α → (W : Type) → [Native W] → Route → Act W ε β}
    (h : Spoken phase act mid failed) (hf : ∀ a, Spoken (mid a) (f a) next failed) :
    Spoken phase (fun W _ route => act W route >>= fun a => f a W route) next failed := by
  refine h.andThen (R := fun ending W _ route =>
    match ending with
    | .ok a => f a W route
    | .error failure => throw failure) (fun ending => ?_) (fun W _ route ctx => ?_)
  · cases ending with
    | ok a => exact hf a
    -- After a failure nothing more is done, so the phase stays.
    | error failure => exact ⟨.done (.error failure), .done (.refl _), fun _ _ _ => rfl⟩
  · unfold outcome endState
    cases hact : act W route ctx with
    | ok a ctx' => exact bind_of_ok hact
    | error failure ctx' => exact bind_of_error hact

/-- Telling errors otherwise changes nothing about the phases. -/
theorem mapError (f : ε → ε') (h : Spoken phase act mid failed) :
    Spoken phase (fun W _ route => (act W route).mapError f) mid failed := by
  refine h.andThen (R := fun ending _ _ _ => Act.ended (ending.mapError (Failure.map f)))
    (fun ending => ?_) (fun W _ route ctx => ?_)
  · refine ⟨.done (ending.mapError (Failure.map f)), .done ?_, fun _ _ _ => rfl⟩
    cases ending <;> exact .refl _
  · rw [Act.eq_ended ((act W route).mapError f), outcome_mapError, endState_mapError]

/-- An error is turned into an answer, and the rest goes on from there. -/
theorem attempt_bind {f : Except ε α → (W : Type) → [Native W] → Route → Act W ε' β}
    (h : Spoken phase act mid failed) (hok : ∀ a, Spoken (mid a) (f (.ok a)) next failed)
    (herror : ∀ e, Spoken failed (f (.error e)) next failed) :
    Spoken phase (fun W _ route => (act W route).attempt >>= fun result => f result W route) next
      failed := by
  refine h.andThen (R := fun ending W _ route =>
    match ending with
    | .ok a => f (.ok a) W route
    | .error (.error e) => f (.error e) W route
    | .error (.panic message) => Act.panic message) (fun ending => ?_) (fun W _ route ctx => ?_)
  · match ending with
    | .ok a => exact hok a
    | .error (.error e) => exact herror e
    | .error (.panic message) => exact ⟨.done (.error _), .done (.refl _), fun _ _ _ => rfl⟩
  · unfold outcome endState
    match hact : act W route ctx with
    | .ok a ctx' => exact bind_of_ok (Act.attempt_of_ok hact)
    | .error (.error e) ctx' => exact bind_of_ok (Act.attempt_of_error hact)
    | .error (.panic message) ctx' => exact bind_of_error (Act.attempt_of_panic hact)

/-- A key is closed whichever way the work with it ends. -/
theorem closing {key : KeyHandle} (h : Spoken phase act (fun _ => .holding key) (.holding key)) :
    Spoken phase (fun W _ route => Registry.closing key (act W route)) (fun _ => .finished)
      .finished := by
  refine h.andThen (R := fun ending W _ _ => do
      Act.lift (Registry.closeKey key)
      Act.ended ending)
    (fun ending => ?_) (fun W _ route ctx => ?_)
  · refine ⟨.close key (.done ending), ?_, fun _ _ _ => rfl⟩
    cases ending <;> exact .close (.done (.refl _))
  · rw [Registry.closing, Act.ensuring_eq]

end Spoken

section

variable {ε ε' α β : Type} {phase failed : Phase}

/-- An act that has ended is spoken in the phase that it ends in. -/
theorem spoken_ended {next : α → Phase} (ending : Except (Failure ε) α)
    (h : phase.Reaches (Phase.atEnd next failed ending)) :
    Spoken phase (fun _ _ _ => Act.ended ending) next failed :=
  ⟨.done ending, .done h, fun _ _ _ => rfl⟩

/-- An answer is given in the phase that it is told for. -/
theorem spoken_pure {next : α → Phase} (a : α) (h : phase.Reaches (next a)) :
    Spoken phase (fun _ _ _ => (pure a : Act _ ε α)) next failed :=
  spoken_ended (.ok a) h

/-- A failure is told in the phase for failures. -/
theorem spoken_throw {next : α → Phase} (failure : Failure ε) (h : phase.Reaches failed) :
    Spoken phase (fun _ _ _ => (throw failure : Act _ ε α)) next failed :=
  spoken_ended (.error failure) h

/-- What is worked out without the world is spoken in any phase. -/
theorem spoken_ofExcept (result : Except ε α) (h : phase.Reaches failed) :
    Spoken phase (fun _ _ _ => Act.ofExcept result) (fun _ => phase) failed := by
  cases result with
  | ok a => exact spoken_pure a (.refl phase)
  | error e => exact spoken_throw (.error e) h

/-- An entry is made in any phase. -/
theorem spoken_log (entry : Route → LogEntry) :
    Spoken phase (fun _ _ route => (Act.log (entry route) : Act _ ε Unit)) (fun _ => phase)
      failed :=
  ⟨.note entry (.done (.ok ())), .note (.done (.refl phase)), fun _ _ _ => rfl⟩

/-- A call is asked, and the act ends as it is answered. -/
theorem Act.callBy_eq_held {W : Type} [Native W] (route : Route) (call : Call) (ctx : Context W) :
    callBy route call ctx =
      (Dialogue.ask call (fun result => .done (result.mapError .error))).held route ctx := by
  have hends := Act.ends_callBy route call ctx
  cases hcall : callBy route call ctx with
  | ok answer ctx' =>
    rw [Dialogue.held_ask (Act.attempt_of_ok hcall)]
    rfl
  | error failure ctx' =>
    obtain ⟨⟨e, rfl⟩, -⟩ := hends.error hcall
    rw [Dialogue.held_ask (Act.attempt_of_error hcall)]
    rfl

/-- A call by path is logged and made. -/
theorem spoken_byPath {call : Call} (h : call.ByPath none) (plain transacted : String) :
    Spoken .idle (fun _ _ route => route.trace plain transacted >>= fun _ => Act.callBy route call)
      (fun answer => Phase.after call (.ok answer)) .finished := by
  refine (spoken_log _).bind (fun _ => ⟨_, .byPath h (fun result => .done ?_), fun _ _ ctx =>
    Act.callBy_eq_held ctx.route call ctx⟩)
  -- A call by path is over when it has failed, and otherwise there may be a key.
  cases result <;> exact .refl _

/-- A call through an open key is made. -/
theorem spoken_through {call : Call} {key : KeyHandle} (h : call.Through none key) :
    Spoken (.holding key) (fun _ _ route => Act.callBy route call) (fun _ => .holding key)
      (.holding key) := by
  refine ⟨_, .through h (fun result => .done ?_), fun _ _ ctx =>
    Act.callBy_eq_held ctx.route call ctx⟩
  cases result <;> exact .refl _

/-- A call through an open key is logged and made. -/
theorem spoken_traced {call : Call} {key : KeyHandle} (h : call.Through none key)
    (plain transacted : String) :
    Spoken (.holding key)
      (fun _ _ route => route.trace plain transacted >>= fun _ => Act.callBy route call)
      (fun _ => .holding key) (.holding key) :=
  (spoken_log _).bind (fun _ => spoken_through h)

/-- An act that asks for the route takes the one that it is given anyway. -/
theorem spoken_route {f : (W : Type) → [Native W] → Route → Act W ε α} {next : α → Phase}
    (h : Spoken phase f next failed) :
    Spoken phase (fun W _ _ => Route.current >>= f W) next failed := by
  obtain ⟨d, hordered, hact⟩ := h
  exact ⟨d, hordered, fun W _ ctx => hact W ctx⟩

end

/-! ## Operations -/

namespace Registry

variable {α : Type}

/-- Opening a key holds it, or is over when it has failed. -/
theorem spoken_openAt (l : Location) (access : Access) :
    Spoken .idle (fun _ _ route => openAt route l access) .holding .finished :=
  (spoken_byPath (.openKey l.root l.path.text access) _ _).mapError _

/-- Opening a key, working with it and closing it again. -/
theorem spoken_with_key {l : Location} {access : Access}
    {f : KeyHandle → (W : Type) → [Native W] → Route → Act W RegistryError α}
    (hf : ∀ key, Spoken (.holding key) (f key) (fun _ => .holding key) (.holding key)) :
    Spoken .idle (fun W _ _ => do
        let route ← Route.current
        let key ← openAt route l access
        closing key (f key W route))
      (fun _ => .finished) .finished :=
  spoken_route ((spoken_openAt l access).bind (fun key => (hf key).closing))

/-- Enumerating is done while the key is held. -/
theorem spoken_enumerate {key : KeyHandle}
    {item : UInt32 → (W : Type) → [Native W] → Route → Act W NativeError α}
    (hitem : ∀ index, Spoken (.holding key) (item index) (fun _ => .holding key) (.holding key)) :
    Spoken (.holding key) (fun W _ route => enumerate (fun index => item index W route))
      (fun _ => .holding key) (.holding key) := by
  have hfrom : ∀ limit index, Spoken (.holding key)
      (fun W _ route => enumerateFrom (fun index => item index W route) limit index)
      (fun _ => .holding key) (.holding key) := by
    -- The induction is on the limit that enumerations are cut off at.
    intro limit
    induction limit with
    | zero => exact fun _ => spoken_throw _ (.refl _)
    | succ limit ih =>
      intro index
      refine (hitem index).attempt_bind ?_ ?_
      · exact fun a => (ih (index + 1)).bind (fun _ => spoken_pure _ (.refl _))
      · intro e
        simp only []
        split
        · exact spoken_pure _ (.refl _)
        · exact spoken_throw _ (.refl _)
  exact hfrom _ _

/-- Whether a key is there is found out by opening it, and closing it again. -/
theorem spoken_exists (l : Location) :
    Spoken .idle (fun _ _ _ => Registry.exists l) (fun _ => .finished) .finished := by
  refine spoken_route ((spoken_openAt l .queryValue).attempt_bind ?_ ?_)
  · exact fun key => (spoken_pure true (.refl _)).closing
  · intro e
    cases e <;> first | exact spoken_pure _ (.refl _) | exact spoken_throw _ (.refl _)

/-- Creating a key is opening and closing one, but for a root key, where nothing is done. -/
theorem spoken_createIfMissing (l : Location) :
    Spoken .idle (fun _ _ _ => createIfMissing l) (fun _ => .finished) .finished := by
  unfold createIfMissing
  split
  · exact spoken_pure false .finished_of_idle
  · have hcreate := spoken_byPath (.createKey l.root l.path.text .queryValue)
    refine spoken_route (((hcreate _ _).mapError _).bind ?_)
    rintro ⟨key, disposition⟩
    refine Spoken.closing ?_
    cases disposition with
    | createdNew => exact (spoken_log _).bind (fun _ => spoken_pure true (.refl _))
    | openedExisting => exact spoken_pure false (.refl _)

/-- That the key was there is told when all is over. -/
theorem spoken_create (l : Location) :
    Spoken .idle (fun _ _ _ => create l) (fun _ => .finished) .finished := by
  refine (spoken_createIfMissing l).bind (fun created => ?_)
  cases created with
  | true => exact spoken_pure _ (.refl _)
  | false => exact spoken_throw _ (.refl _)

/-- What is done with any key but a root key. -/
theorem spoken_refuseRoot {operation : String} {l : Location}
    {act : (W : Type) → [Native W] → Route → Act W RegistryError α}
    (h : Spoken .idle act (fun _ => .finished) .finished) :
    Spoken .idle (fun W _ route => refuseRoot operation l >>= fun _ => act W route)
      (fun _ => .finished) .finished := by
  have hrefuse : Spoken .idle (fun _ _ _ => refuseRoot operation l) (fun _ => .idle) .finished := by
    unfold refuseRoot
    split
    · exact spoken_throw _ .finished_of_idle
    · exact spoken_pure _ (.refl _)
  exact hrefuse.bind (fun _ => h)

/-- Deleting a key is one call by path. -/
theorem spoken_delete (l : Location) :
    Spoken .idle (fun _ _ _ => delete l) (fun _ => .finished) .finished := by
  refine spoken_refuseRoot (spoken_route ?_)
  exact ((spoken_byPath (.deleteKey l.root l.path.text) _ _).mapError _).bind
    (fun _ => spoken_log _)

/-- A missing key is told when all is over. -/
theorem spoken_deleteIfExists (l : Location) :
    Spoken .idle (fun _ _ _ => deleteIfExists l) (fun _ => .finished) .finished := by
  refine (spoken_delete l).attempt_bind (fun _ => spoken_pure _ (.refl _)) (fun e => ?_)
  cases e <;> first | exact spoken_pure _ (.refl _) | exact spoken_throw _ (.refl _)

/-- Renaming a key is one call by path. -/
theorem spoken_rename (l : Location) (newName : String) :
    Spoken .idle (fun _ _ _ => rename l newName) (fun _ => .finished) .finished := by
  refine spoken_refuseRoot (spoken_route ?_)
  refine ((spoken_byPath (.renameKey l.root l.path.text newName) _ _).mapError _).bind ?_
  refine fun _ => (spoken_log _).bind (fun _ => ?_)
  cases l.renamed? newName with
  | some renamed => exact spoken_pure _ (.refl _)
  | none => exact spoken_throw _ (.refl _)

/-- What there is to know of a key is asked while it is held. -/
theorem spoken_info (l : Location) :
    Spoken .idle (fun _ _ _ => info l) (fun _ => .finished) .finished :=
  spoken_with_key (fun _ => (spoken_through .queryInfo).mapError _)

/-- The names below a key are asked for while it is held. -/
theorem spoken_subKeyNames (l : Location) :
    Spoken .idle (fun _ _ _ => subKeyNames l) (fun _ => .finished) .finished :=
  spoken_with_key (fun _ =>
    Spoken.mapError _ (spoken_enumerate (fun index => spoken_through (.enumKey index))))

/-- The values of a key are asked for while it is held. -/
theorem spoken_storedValues (l : Location) :
    Spoken .idle (fun _ _ _ => storedValues l) (fun _ => .finished) .finished :=
  spoken_with_key (fun _ =>
    Spoken.mapError _ (spoken_enumerate (fun index => spoken_through (.enumValue index))))

/-- A value is asked for while its key is held. -/
theorem spoken_getValue (l : Location) (name : String) :
    Spoken .idle (fun _ _ _ => getValue l name) (fun _ => .finished) .finished :=
  spoken_with_key (fun _ => ((spoken_traced (.getValue name) _ _).mapError _).bind
    (fun _ => spoken_ofExcept _ (.refl _)))

/-- That a value is missing is told when all is over. -/
theorem spoken_valueExists (l : Location) (name : String) :
    Spoken .idle (fun _ _ _ => valueExists l name) (fun _ => .finished) .finished := by
  refine (spoken_getValue l name).attempt_bind (fun _ => spoken_pure _ (.refl _)) (fun e => ?_)
  cases e <;> first | exact spoken_pure _ (.refl _) | exact spoken_throw _ (.refl _)

/-- A value is set while its key is held. -/
theorem spoken_setValue (l : Location) (name : String) (value : Value) :
    Spoken .idle (fun _ _ _ => setValue l name value) (fun _ => .finished) .finished := by
  -- A value that cannot be stored is refused before anything is opened.
  refine (spoken_ofExcept _ .finished_of_idle).bind (fun data => spoken_with_key (fun _ => ?_))
  exact ((spoken_traced (.setValue name data) _ _).mapError _).bind (fun _ => spoken_log _)

/-- A value is deleted while its key is held. -/
theorem spoken_deleteValue (l : Location) (name : String) :
    Spoken .idle (fun _ _ _ => deleteValue l name) (fun _ => .finished) .finished :=
  spoken_with_key (fun _ =>
    ((spoken_traced (.deleteValue name) _ _).mapError _).bind (fun _ => spoken_log _))

/-- A missing value is told when all is over. -/
theorem spoken_deleteValueIfExists (l : Location) (name : String) :
    Spoken .idle (fun _ _ _ => deleteValueIfExists l name) (fun _ => .finished) .finished := by
  refine (spoken_deleteValue l name).attempt_bind (fun _ => spoken_pure _ (.refl _)) (fun e => ?_)
  cases e <;> first | exact spoken_pure _ (.refl _) | exact spoken_throw _ (.refl _)

/-- Whether the value has the right type is told when all is over. -/
theorem spoken_getSelected (l : Location) (name : String) (expected : ValueKind)
    (select : Value → Option α) :
    Spoken .idle (fun _ _ _ => getSelected l name expected select) (fun _ => .finished)
      .finished := by
  refine (spoken_getValue l name).bind (fun value => ?_)
  cases select value with
  | some a => exact spoken_pure a (.refl _)
  | none => exact spoken_throw _ (.refl _)

theorem spoken_step (l : Location) (step : KeyStep) :
    Spoken .idle (fun _ _ _ => step.act l) (fun _ => .finished) .finished := by
  cases step with
  | «exists» => exact spoken_exists l
  | create => exact spoken_create l
  | createIfMissing => exact spoken_createIfMissing l
  | delete => exact spoken_delete l
  | deleteIfExists => exact spoken_deleteIfExists l
  | rename newName => exact spoken_rename l newName
  | info => exact (spoken_info l).bind (fun _ => spoken_pure _ (.refl _))
  | subKeyNames => exact spoken_subKeyNames l
  | subKeys => exact (spoken_subKeyNames l).bind (fun _ => spoken_pure _ (.refl _))
  | valueNames => exact (spoken_storedValues l).bind (fun _ => spoken_pure _ (.refl _))
  | values => exact (spoken_storedValues l).bind (fun _ => spoken_ofExcept _ (.refl _))
  | get name => exact spoken_getValue l name
  | valueExists name => exact spoken_valueExists l name
  | set name value => exact spoken_setValue l name value
  | deleteValue name => exact spoken_deleteValue l name
  | deleteValueIfExists name => exact spoken_deleteValueIfExists l name
  | getString name => exact spoken_getSelected l name _ _
  | getDword name => exact spoken_getSelected l name _ _
  | getQword name => exact spoken_getSelected l name _ _
  | getMultiString name => exact spoken_getSelected l name _ _
  | getBinary name => exact spoken_getSelected l name _ _

end Registry

/-- Every operation on a key holds one dialogue, in every world and by either route. -/
theorem KeyOperation.spoken (l : Location) (operation : KeyOperation) :
    Spoken .idle (fun _ _ _ => operation.act l) (fun _ => .finished) .finished := by
  cases operation with
  | scripted step => exact Registry.spoken_step l step
  | fullInfo => exact Registry.spoken_info l

end TransactionalRegistry
