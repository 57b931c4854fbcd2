import TransactionalRegistry.Native.Recorder
import TransactionalRegistry.Proofs.Agreement
import TransactionalRegistry.Propagation

/-!
# Acts and what they do to their context

An act that is put together from others ends in a way, and leaves a context behind, that can be read
off how those end. That is said here once for each way of putting acts together, over any world.

What an act does to its world is a transcript: the native calls that it makes, one after the other
and each with its result, while entries are logged in between. An act that goes about its own
business leaves the ambient stack alone, and the state that the clones of other transactions share.

## Main definitions

* `Failure.map`: A failure with its error turned.
* `Act.ended`: An act that ends at once.
* `Context.logged`: The context after an entry was logged.
* `Transcript`: The calls that lead from one world to another.
* `Context.Goes`: A context goes on to another by such calls.

## Theorems

* `outcome_mapError`, `outcome_ensuring`, `endState_ensuring`: How acts that are put together end.
* `Act.ends_attempt`, `Act.ends_mapError`, `Act.ends_call`, `Act.ends_log`: Their rules.
* `Transcript.append`, `Context.Goes.trans`: One after the other.
* `Transcript.recorded`: A recorded world keeps just the calls of a transcript.
-/

namespace TransactionalRegistry

variable {W ε ε' α β : Type}

/-- A failure with its error turned by `f`. -/
def Failure.map (f : ε → ε') : Failure ε → Failure ε'
  | error e => error (f e)
  | panic message => panic message

/-- An act that ends at once. -/
def Act.ended (ending : Except (Failure ε) α) : Act W ε α := fun ctx =>
  match ending with
  | .ok a => .ok a ctx
  | .error failure => .error failure ctx

/-! ## Ends -/

section

variable {act : Act W ε α} {cleanup : Act W Empty Unit} {ctx : Context W}

/-- An act runs on to where it ends, and ends there. -/
theorem Act.eq_ended (act : Act W ε α) (ctx : Context W) :
    act ctx = Act.ended (outcome act ctx) (endState act ctx) := by
  unfold outcome endState
  cases hact : act ctx with
  | ok a ctx' => rfl
  | error failure ctx' => rfl

theorem outcome_mapError (f : ε → ε') (act : Act W ε α) (ctx : Context W) :
    outcome (act.mapError f) ctx = (outcome act ctx).mapError (Failure.map f) := by
  unfold outcome Act.mapError
  cases act ctx with
  | ok a ctx' => rfl
  | error failure ctx' =>
    cases failure with
    | error e => rfl
    | panic message => rfl

/-- Cleaning up comes after the act and before its end. -/
theorem Act.ensuring_eq (act : Act W ε α) (cleanup : Act W Empty Unit) (ctx : Context W) :
    act.ensuring cleanup ctx = (do lift cleanup; ended (outcome act ctx) : Act W ε α)
      (endState act ctx) := by
  unfold outcome endState ensuring
  cases act ctx with
  | ok a ctx' => rfl
  | error failure ctx' => rfl

theorem Act.attempt_of_ok {a : α} {ctx' : Context W} (h : act ctx = .ok a ctx') :
    (attempt act : Act W ε' _) ctx = .ok (.ok a) ctx' := by
  rw [attempt, h]

theorem Act.attempt_of_error {e : ε} {ctx' : Context W} (h : act ctx = .error (.error e) ctx') :
    (attempt act : Act W ε' _) ctx = .ok (.error e) ctx' := by
  rw [attempt, h]

theorem Act.attempt_of_panic {message : String} {ctx' : Context W}
    (h : act ctx = .error (.panic message) ctx') :
    (attempt act : Act W ε' _) ctx = .error (.panic message) ctx' := by
  rw [attempt, h]

theorem Act.lift_of_ok {a : α} {act : Act W Empty α} {ctx' : Context W}
    (h : act ctx = .ok a ctx') : (lift act : Act W ε α) ctx = .ok a ctx' := by
  rw [lift, mapError, h]

theorem endState_ensuring (act : Act W ε α) (cleanup : Act W Empty Unit) (ctx : Context W) :
    endState (act.ensuring cleanup) ctx = endState cleanup (endState act ctx) := by
  rw [endState, Act.ensuring_eq, ← endState, ← endState_mapError Empty.elim cleanup]
  -- The context that is left does not depend on whether the act has failed.
  cases hlift : (Act.lift cleanup : Act W ε Unit) (endState act ctx) with
  | ok u ctx' =>
    rw [endState, bind_of_ok hlift]
    refine Eq.trans ?_ (endState_of_ok hlift).symm
    cases outcome act ctx with
    | ok a => rfl
    | error failure => rfl
  | error failure ctx' =>
    rw [endState, bind_of_error hlift]
    exact (endState_of_error hlift).symm

/-- An act that is cleaned up after ends as it does by itself, unless the cleaning up fails. -/
theorem outcome_ensuring (hcleanup : Ends cleanup (endState act ctx) (fun _ _ => True)
    (fun _ _ => False)) : outcome (act.ensuring cleanup) ctx = outcome act ctx := by
  -- Only the cleaning up could put its own failure in the place of the end of the act.
  cases hrun : cleanup (endState act ctx) with
  | ok u ctx' =>
    rw [outcome, Act.ensuring_eq, bind_of_ok (Act.lift_of_ok hrun)]
    cases outcome act ctx with
    | ok a => rfl
    | error failure => rfl
  | error failure ctx' => exact (hcleanup.error hrun).elim

end

theorem keeps_ofExcept {K : Context W → Prop} (result : Except ε α) :
    Keeps K (Act.ofExcept result : Act W ε α) := by
  cases result with
  | ok a => exact keeps_pure a
  | error e => exact keeps_throw _

/-! ## Rules -/

namespace Act

variable {act : Act W ε α} {cleanup : Act W Empty Unit} {ctx : Context W}
  {Q : α → Context W → Prop} {E : Failure ε → Context W → Prop}

theorem ends_attempt {Q : Except ε α → Context W → Prop} {E : Failure ε' → Context W → Prop}
    (h : Ends act ctx (fun a => Q (.ok a)) (fun failure ctx' =>
      match failure with
      | .error e => Q (.error e) ctx'
      | .panic message => E (.panic message) ctx')) :
    Ends (act.attempt : Act W ε' (Except ε α)) ctx Q E := by
  unfold Ends at h ⊢
  unfold attempt
  cases hact : act ctx with
  | ok a ctx' =>
    rw [hact] at h
    exact h
  | error failure ctx' =>
    rw [hact] at h
    -- Attempting turns errors into answers; a panic stays one.
    cases failure with
    | error e => exact h
    | panic message => exact h

theorem ends_mapError {f : ε → ε'} {E : Failure ε' → Context W → Prop}
    (h : Ends act ctx Q (fun failure => E (failure.map f))) : Ends (act.mapError f) ctx Q E := by
  unfold Ends at h ⊢
  unfold mapError
  cases hact : act ctx with
  | ok a ctx' =>
    rw [hact] at h
    exact h
  | error failure ctx' =>
    rw [hact] at h
    cases failure with
    | error e => exact h
    | panic message => exact h

/-- The rule for an act that has no errors, among others that have. -/
theorem ends_lift {act : Act W Empty α}
    (h : Ends act ctx Q (fun failure => E (failure.map Empty.elim))) :
    Ends (lift act : Act W ε α) ctx Q E :=
  ends_mapError h

theorem ends_onPanic (h : Ends act ctx Q (fun failure ctx' =>
    match failure with
    | .error e => E (.error e) ctx'
    | .panic message =>
      Ends cleanup ctx' (fun _ => E (.panic message)) (fun _ _ => False))) :
    Ends (act.onPanic cleanup) ctx Q E := by
  unfold Ends at h ⊢
  unfold onPanic
  cases hact : act ctx with
  | ok a ctx' =>
    rw [hact] at h
    exact h
  | error failure ctx' =>
    rw [hact] at h
    cases failure with
    | error e => exact h
    | panic message =>
      -- After a panic the cleaning up is run, and then the panic goes on.
      have hcleanup : Ends cleanup ctx' (fun _ => E (.panic message)) (fun _ _ => False) := h
      have hlift : Ends (lift cleanup : Act W ε Unit) ctx' (fun _ => E (.panic message)) E :=
        ends_lift (hcleanup.mono (fun _ _ h => h) (fun _ _ h => h.elim))
      exact hlift.bind (fun _ _ h => h) (fun _ _ h => h)

variable [Native W]

theorem ends_call {call : Call} {Q : call.Answer → Context W → Prop}
    {E : Failure NativeError → Context W → Prop}
    (hok : ∀ answer world, Native.perform call ctx.world = .ok answer world →
      Q answer { ctx with world := world })
    (herror : ∀ e world, Native.perform call ctx.world = .error e world →
      E (.error e) { ctx with world := world }) :
    Ends (Act.call call) ctx Q E := by
  unfold Ends Act.call
  cases hperform : Native.perform call ctx.world with
  | ok answer world => exact hok answer world hperform
  | error e world => exact herror e world hperform

end Act

/-- The context after an entry was logged. -/
def Context.logged [Native W] (entry : LogEntry) (ctx : Context W) : Context W :=
  { ctx with world := Native.log entry ctx.world }

theorem Act.ends_log [Native W] {entry : LogEntry} {ctx : Context W} {Q : Unit → Context W → Prop}
    {E : Failure ε → Context W → Prop} (h : Q () (ctx.logged entry)) :
    Ends (Act.log entry : Act W ε Unit) ctx Q E :=
  h

theorem Act.log_eq [Native W] (entry : LogEntry) (ctx : Context W) :
    (Act.log entry : Act W ε Unit) ctx = .ok () (ctx.logged entry) :=
  rfl

/-! ## Recorded worlds -/

/-- A recorded call is answered by the world inside. -/
theorem Recorded.perform_eq [Native W] (call : Call) (r : Recorded W) :
    Native.perform call r = match Native.perform call r.world with
      | .ok answer world => .ok answer ⟨world, r.calls ++ [⟨call, .ok answer⟩]⟩
      | .error e world => .error e ⟨world, r.calls ++ [⟨call, .error e⟩]⟩ :=
  rfl

theorem Recorded.ends_perform [Native W] {call : Call} {r : Recorded W}
    {Q : call.Answer → Recorded W → Prop} {E : NativeError → Recorded W → Prop}
    (h : Ends (Native.perform call) r.world
      (fun answer world => Q answer ⟨world, r.calls ++ [⟨call, .ok answer⟩]⟩)
      (fun e world => E e ⟨world, r.calls ++ [⟨call, .error e⟩]⟩)) :
    Ends (Native.perform call) r Q E := by
  unfold Ends at h ⊢
  rw [Recorded.perform_eq]
  cases hrun : Native.perform call r.world with
  | ok answer world =>
    rw [hrun] at h
    exact h
  | error e world =>
    rw [hrun] at h
    exact h

/-- A call is kept behind those made before. -/
theorem Recorded.calls_perform [Native W] (call : Call) (r : Recorded W) :
    Ends (Native.perform call) r (fun answer r' => r'.calls = r.calls ++ [⟨call, .ok answer⟩])
      (fun e r' => r'.calls = r.calls ++ [⟨call, .error e⟩]) :=
  Recorded.ends_perform (ends_of_forall (fun _ _ => rfl) (fun _ _ => rfl))

/-! ## Transcripts -/

/-- From one world to another by making `calls`, each with its result, and logging in between. -/
inductive Transcript [Native W] : W → List CallRecord → W → Prop
  | nil (w : W) : Transcript w [] w
  | log {w w' : W} {calls : List CallRecord} (entry : LogEntry) :
      Transcript (Native.log entry w) calls w' → Transcript w calls w'
  | ok {w w₁ w' : W} {calls : List CallRecord} {call : Call} {answer : call.Answer} :
      Native.perform call w = .ok answer w₁ → Transcript w₁ calls w' →
      Transcript w (⟨call, .ok answer⟩ :: calls) w'
  | error {w w₁ w' : W} {calls : List CallRecord} {call : Call} {e : NativeError} :
      Native.perform call w = .error e w₁ → Transcript w₁ calls w' →
      Transcript w (⟨call, .error e⟩ :: calls) w'

namespace Transcript

variable [Native W] {w w' w'' : W} {calls more : List CallRecord}

theorem append (h : Transcript w calls w') (h' : Transcript w' more w'') :
    Transcript w (calls ++ more) w'' := by
  induction h with
  | nil => exact h'
  | log entry _ ih => exact .log entry (ih h')
  | ok hperform _ ih => exact .ok hperform (ih h')
  | error hperform _ ih => exact .error hperform (ih h')

/-- A recorded world keeps just the calls of a transcript. -/
theorem recorded {w w' : Recorded W} (h : Transcript w calls w') :
    w'.calls = w.calls ++ calls := by
  induction h with
  | nil w => rw [List.append_nil]
  | log entry _ ih => exact ih
  | ok hcall _ ih =>
    rw [ih, (Recorded.calls_perform _ _).ok hcall, List.append_assoc, List.singleton_append]
  | error hcall _ ih =>
    rw [ih, (Recorded.calls_perform _ _).error hcall, List.append_assoc, List.singleton_append]

end Transcript

/-- A context goes on to another by making `calls`. It keeps the ambient stack and the state that
    the clones of every transaction but `t` share. -/
structure Context.Goes [Native W] (t : Transaction) (calls : List CallRecord)
    (ctx ctx' : Context W) : Prop where
  world : Transcript ctx.world calls ctx'.world
  ambient : ctx'.ambient = ctx.ambient
  shared : ∀ id, id ≠ t.id → ctx'.shared[id]? = ctx.shared[id]?

namespace Context

variable [Native W] {t : Transaction} {calls more : List CallRecord} {ctx ctx' ctx'' : Context W}

theorem Goes.refl (t : Transaction) (ctx : Context W) : Goes t [] ctx ctx :=
  ⟨.nil _, rfl, fun _ _ => rfl⟩

theorem Goes.trans (h : Goes t calls ctx ctx') (h' : Goes t more ctx' ctx'') :
    Goes t (calls ++ more) ctx ctx'' where
  world := h.world.append h'.world
  ambient := h'.ambient.trans h.ambient
  shared id hid := (h'.shared id hid).trans (h.shared id hid)

theorem goes_logged (t : Transaction) (entry : LogEntry) (ctx : Context W) :
    Goes t [] ctx (ctx.logged entry) :=
  ⟨.log entry (.nil _), rfl, fun _ _ => rfl⟩

theorem Goes.logged (h : Goes t calls ctx ctx') {entry : LogEntry} :
    Goes t calls ctx (ctx'.logged entry) := by
  rw [← List.append_nil calls]
  exact h.trans (goes_logged t entry ctx')

theorem goes_updateShared (t : Transaction) (f : Shared → Shared) (ctx : Context W) :
    Goes t [] ctx (ctx.updateShared t f) := by
  refine ⟨.nil _, rfl, fun id hid => ?_⟩
  exact List.getElem?_modify_ne f ctx.shared hid.symm

theorem goes_ok {call : Call} {answer : call.Answer} {world : W}
    (h : Native.perform call ctx.world = .ok answer world) :
    Goes t [⟨call, .ok answer⟩] ctx { ctx with world := world } :=
  ⟨.ok h (.nil _), rfl, fun _ _ => rfl⟩

theorem goes_error {call : Call} {e : NativeError} {world : W}
    (h : Native.perform call ctx.world = .error e world) :
    Goes t [⟨call, .error e⟩] ctx { ctx with world := world } :=
  ⟨.error h (.nil _), rfl, fun _ _ => rfl⟩

omit [Native W] in
/-- A transaction is closed after a change that leaves it closed. One that shares no state is closed
    anyway. -/
theorem closed_updateShared {f : Shared → Shared} (ctx : Context W)
    (hclosed : (f (ctx.sharedOf t)).closed = true) :
    ((ctx.updateShared t f).sharedOf t).closed = true := by
  unfold updateShared sharedOf at *
  rw [List.getElem?_modify_eq]
  -- Without shared state there is nothing to change, and nothing to say that it is open.
  cases hshared : ctx.shared[t.id]? with
  | none => rfl
  | some shared =>
    rw [hshared] at hclosed
    exact hclosed

end Context

end TransactionalRegistry
