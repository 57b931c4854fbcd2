import TransactionalRegistry.Native.Recorder
import TransactionalRegistry.Proofs.Passages

/-!
# Keys that are opened are closed again

An operation on a key opens at most one key, and whatever happens to it afterwards, a query that
fails, an enumeration that breaks off, data that cannot be read or are of an unexpected type, the
key is closed by the last call that the operation makes. If no key was opened, because the call
failed or because it is not one that opens keys, then none is closed. Closing is never what an
operation fails by: however it is answered, the operation ends in the same way.

Both are passages. In the first one the operation runs in a recorded world and in the bare one: the
two worlds stay the same, and the recorded calls tell which phase the operation is in. In the second
one it runs in two worlds that differ in how keys are closed: they are the same up to the moment at
which the key is closed, and no answer of theirs matters afterwards.

Nothing is assumed of the world, so this is true of calls that fail at any moment and in any way.

## Main definitions

* `CallRecord.opened?`, `CallRecord.closed?`: The key that a call has opened, and the key that it
  was made to close.
* `Held`, `Released`: Calls that leave one key open, and calls that leave none open.
* `Reclosed`: A world in which keys are closed in a way of their own.

## Theorems

* `no_operation_leaks_a_key`: Every operation on a key closes what it has opened.
-/

namespace TransactionalRegistry

/-! ## Calls that open and close keys -/

/-- The key that a call has opened or created. A call that failed has opened none. -/
def CallRecord.opened? (record : CallRecord) : Option KeyHandle :=
  match record.result with
  | .ok answer => record.call.handle? answer
  | .error _ => none

/-- The key that a call was made to close, whether it did so or not. -/
def CallRecord.closed? (record : CallRecord) : Option KeyHandle :=
  match record.call with
  | .closeKey key => some key
  | _ => none

/-- The calls have opened one key first and were then made through it. -/
inductive Held (key : KeyHandle) : List CallRecord → Prop
  | opened {opening : CallRecord} : opening.opened? = some key → Held key [opening]
  | used {calls : List CallRecord} {record : CallRecord} : Held key calls →
      record.call.key? = some key → record.opened? = none → record.closed? = none →
      Held key (calls ++ [record])

/-- Either no call has opened a key and none was made to close one, or the calls have opened one key
    first, were then made through it, and the last one was made to close it. -/
inductive Released : List CallRecord → Prop
  | untouched {calls : List CallRecord} :
      (∀ record ∈ calls, record.opened? = none ∧ record.closed? = none) → Released calls
  | closed {key : KeyHandle} {calls : List CallRecord} {closing : CallRecord} : Held key calls →
      closing.closed? = some key → Released (calls ++ [closing])

theorem Released.single {record : CallRecord} (hopened : record.opened? = none)
    (hclosed : record.closed? = none) : Released [record] := by
  refine .untouched (fun record' hrecord => ?_)
  rw [List.mem_singleton.mp hrecord]
  exact ⟨hopened, hclosed⟩

theorem Call.ByPath.closed? {transaction : Option TransactionHandle} {call : Call}
    (h : call.ByPath transaction) (result : Except NativeError call.Answer) :
    (CallRecord.mk call result).closed? = none := by
  cases h <;> rfl

/-- A key stays held while calls are made through it. -/
theorem Held.through {transaction : Option TransactionHandle} {key : KeyHandle} {call : Call}
    {calls : List CallRecord} (held : Held key calls) (h : call.Through transaction key)
    (result : Except NativeError call.Answer) : Held key (calls ++ [⟨call, result⟩]) := by
  cases h <;> cases result <;> exact held.used rfl rfl rfl

/-! ## The calls of an operation -/

section

variable {W : Type} {stack : List (Option Transaction)} {P P' : List CallRecord → Prop}

/-- A context with nothing recorded so far. -/
def Context.recording (ctx : Context W) : Context (Recorded W) :=
  ⟨⟨ctx.world, []⟩, ctx.ambient, ctx.shared⟩

/-- The two contexts are the same, with the ambient stack `stack`, but in the first one calls are
    recorded. The recorded calls are as `P` asks. -/
structure Context.Records (stack : List (Option Transaction)) (P : List CallRecord → Prop)
    (recorded : Context (Recorded W)) (ctx : Context W) : Prop where
  world : recorded.world.world = ctx.world
  shared : recorded.shared = ctx.shared
  recorded_ambient : recorded.ambient = stack
  ambient : ctx.ambient = stack
  calls : P recorded.world.calls

open Context (Records)

theorem Context.Records.mono {recorded : Context (Recorded W)} {ctx : Context W}
    (h : Records stack P recorded ctx) (hP : ∀ calls, P calls → P' calls) :
    Records stack P' recorded ctx :=
  ⟨h.world, h.shared, h.recorded_ambient, h.ambient, hP _ h.calls⟩

variable [Native W]

theorem Context.Records.logged {recorded : Context (Recorded W)} {ctx : Context W}
    (h : Records stack P recorded ctx) (entry : LogEntry) :
    Records stack P (recorded.logged entry) (ctx.logged entry) :=
  ⟨congrArg (Native.log entry) h.world, h.shared, h.recorded_ambient, h.ambient, h.calls⟩

/-- A call is answered alike in the two contexts, and recorded in one. -/
theorem Context.Records.together_call (call : Call)
    {Q : call.Answer → Context (Recorded W) → Context W → Prop}
    {E : Context (Recorded W) → Context W → Prop}
    (hok : ∀ calls answer recorded ctx, P calls →
      Records stack (· = calls ++ [⟨call, .ok answer⟩]) recorded ctx → Q answer recorded ctx)
    (herror : ∀ calls e recorded ctx, P calls →
      Records stack (· = calls ++ [⟨call, .error e⟩]) recorded ctx → E recorded ctx) :
    Act.Together (Records stack P) (Act.call call) (Act.call call) Q E := by
  refine Act.together_of_alike (fun recorded ctx h => ?_)
  unfold Act.call
  rw [Recorded.perform_eq, h.world]
  cases Native.perform call ctx.world with
  | ok answer world =>
    exact .ok ⟨rfl, hok _ answer _ _ h.calls ⟨rfl, h.shared, h.recorded_ambient, h.ambient, rfl⟩⟩
  | error e world =>
    exact .error (herror _ e _ _ h.calls ⟨rfl, h.shared, h.recorded_ambient, h.ambient, rfl⟩)

/-- The recorded calls tell the phase that an operation is in. -/
def Passage.recorded (W : Type) [Native W] (stack : List (Option Transaction)) :
    Passage (Recorded W) W ((Ambient.top stack).map (·.handle)) where
  Idle := Records stack (· = [])
  Open key := Records stack (Held key)
  Over := Records stack Released
  current _ _ h := by
    rw [h.recorded_ambient, h.ambient]
    exact ⟨rfl, rfl⟩
  finished_of_idle _ _ h := h.mono (fun _ hnone => .untouched (by simp [hnone]))
  idle_logged _ _ entry h := h.logged entry
  open_logged _ _ _ entry h := h.logged entry
  over_logged _ _ entry h := h.logged entry
  byPath call hpath := by
    refine Records.together_call call ?_ ?_
    · rintro _ answer recorded ctx rfl h
      cases hhandle : call.handle? answer with
      | some key => exact h.mono (fun _ hcalls => hcalls ▸ .opened hhandle)
      | none => exact h.mono (fun _ hcalls => hcalls ▸ .single hhandle (hpath.closed? _))
    · rintro _ e recorded ctx rfl h
      exact h.mono (fun _ hcalls => hcalls ▸ .single rfl (hpath.closed? _))
  through key call hthrough := Records.together_call call
    (fun _ _ _ _ held h => h.mono (fun _ hcalls => hcalls ▸ held.through hthrough _))
    (fun _ _ _ _ held h => h.mono (fun _ hcalls => hcalls ▸ held.through hthrough _))
  close key := by
    refine Registry.agrees_closeKey ?_ (fun _ _ entry h => h.logged entry)
    refine (Records.together_call (.closeKey key) ?_ ?_).mono_ok (fun _ _ _ _ h => h.2)
    · exact fun _ _ _ _ held h => h.mono (fun _ hcalls => hcalls ▸ .closed held rfl)
    · exact fun _ _ _ _ held h => h.mono (fun _ hcalls => hcalls ▸ .closed held rfl)

end

/-! ## Closing keys in another way -/

section

variable {W ε : Type} [Native W]

/-- A world with a way of closing keys that is not its own. -/
structure Reclosed (W : Type) where
  world : W
  close : KeyHandle → EStateM NativeError W Unit

namespace Reclosed

/-- The answer to a call: keys are closed in the way that was given. -/
def answer (close : KeyHandle → EStateM NativeError W Unit) :
    (call : Call) → EStateM NativeError W call.Answer
  | .closeKey key => close key
  | call => Native.perform call

/-- The answer to a call, with the way of closing keys kept. -/
def perform (call : Call) : EStateM NativeError (Reclosed W) call.Answer := fun r =>
  match answer r.close call r.world with
  | .ok a world => .ok a { r with world := world }
  | .error e world => .error e { r with world := world }

/-- Keys are closed in the way that was given; other calls are answered by the world inside. -/
instance : Native (Reclosed W) where
  perform := perform
  log entry r := { r with world := Native.log entry r.world }

theorem perform_eq (call : Call) (r : Reclosed W) :
    Native.perform call r = match answer r.close call r.world with
      | .ok a world => .ok a { r with world := world }
      | .error e world => .error e { r with world := world } :=
  rfl

end Reclosed

/-- A context in which keys are closed in another way. -/
def Context.reclosed (close : KeyHandle → EStateM NativeError W Unit) (ctx : Context W) :
    Context (Reclosed W) :=
  ⟨⟨ctx.world, close⟩, ctx.ambient, ctx.shared⟩

theorem Registry.ends_closeKey (key : KeyHandle) (ctx : Context W) :
    Ends (closeKey key : Act W Empty Unit) ctx (fun _ _ => True) (fun _ _ => False) := by
  obtain ⟨ctx', hclose, -⟩ := closeKey_run key ctx
  rw [Ends, hclose]
  trivial

/-- Acts that cannot fail, and whose ends nobody compares. -/
theorem agrees_of_total {W₁ W₂ ε : Type} {P : Context W₁ → Context W₂ → Prop}
    {act₁ : Act W₁ ε Unit} {act₂ : Act W₂ ε Unit}
    (h₁ : ∀ ctx, Ends act₁ ctx (fun _ _ => True) (fun _ _ => False))
    (h₂ : ∀ ctx, Ends act₂ ctx (fun _ _ => True) (fun _ _ => False)) :
    Agrees (fun _ => False) P act₁ act₂ (fun _ _ _ _ => True) (fun _ _ => True) := by
  refine ⟨fun _ hnever => hnever.elim, fun ctx₁ ctx₂ _ => Or.inr ?_⟩
  cases hrun₁ : act₁ ctx₁ with
  | error _ _ => exact ((h₁ ctx₁).error hrun₁).elim
  | ok _ _ =>
    cases hrun₂ : act₂ ctx₂ with
    | error _ _ => exact ((h₂ ctx₂).error hrun₂).elim
    | ok _ _ => exact .ok trivial

/-- The two contexts are the same, with the ambient stack `stack`, but in the second one keys are
    closed by `close`. -/
def Context.Recloses (stack : List (Option Transaction))
    (close : KeyHandle → EStateM NativeError W Unit) (ctx : Context W)
    (ctx' : Context (Reclosed W)) : Prop :=
  ctx.ambient = stack ∧ ctx' = ctx.reclosed close

open Context (Recloses)

/-- A call that is not made to close a key is answered alike. -/
theorem Context.Recloses.together_call {stack : List (Option Transaction)}
    {close : KeyHandle → EStateM NativeError W Unit} {call : Call}
    (h : ∀ w, Reclosed.answer close call w = Native.perform call w) :
    Act.Together (Recloses stack close) (Act.call call) (Act.call call)
      (fun _ => Recloses stack close) (Recloses stack close) := by
  refine Act.together_of_alike ?_
  rintro ctx _ ⟨hambient, rfl⟩
  unfold Act.call Context.reclosed
  rw [Reclosed.perform_eq, h]
  cases Native.perform call ctx.world with
  | ok a world => exact .ok ⟨rfl, hambient, rfl⟩
  | error e world => exact .error ⟨hambient, rfl⟩

/-- The two worlds are the same until the key is closed. When the operation is over, they are not
    compared any more. -/
def Passage.reclosed (stack : List (Option Transaction))
    (close : KeyHandle → EStateM NativeError W Unit) :
    Passage W (Reclosed W) ((Ambient.top stack).map (·.handle)) where
  Idle := Recloses stack close
  Open _ := Recloses stack close
  Over _ _ := True
  current := by
    rintro ctx _ ⟨hambient, rfl⟩
    rw [Context.reclosed, hambient]
    exact ⟨rfl, rfl⟩
  finished_of_idle _ _ _ := trivial
  idle_logged := by
    rintro ctx _ entry ⟨hambient, rfl⟩
    exact ⟨hambient, rfl⟩
  open_logged := by
    rintro _ ctx _ entry ⟨hambient, rfl⟩
    exact ⟨hambient, rfl⟩
  over_logged _ _ _ _ := trivial
  byPath call hpath := by
    have hanswer : ∀ w, Reclosed.answer close call w = Native.perform call w := by
      cases hpath <;> exact fun _ => rfl
    exact (Recloses.together_call hanswer).whatever_opened (fun _ _ _ h => h) (fun _ _ _ => trivial)
      (fun _ _ _ => trivial)
  through _ call hthrough := Recloses.together_call (by cases hthrough <;> exact fun _ => rfl)
  close key := agrees_of_total (Registry.ends_closeKey key) (Registry.ends_closeKey key)

/-- Over every world, in every context and however its calls are answered, an operation on a key
    opens or creates at most one key. If it does, the key is closed by one call, which comes after
    all calls through the key and is the last one of the operation; if it does not, no key is
    closed. The calls are read off a recorder that has no influence on them. And in whichever way
    the calls that close keys are answered, the operation ends in the same way. -/
theorem no_operation_leaks_a_key (ctx : Context W) (l : Location) (operation : KeyOperation) :
    (outcome (operation.act l) ctx.recording = outcome (operation.act l) ctx ∧
      (endState (operation.act l) ctx.recording).world.world =
        (endState (operation.act l) ctx).world ∧
      Released (endState (operation.act l) ctx.recording).world.calls) ∧
    ∀ close : KeyHandle → EStateM NativeError W Unit,
      outcome (operation.act l) (ctx.reclosed close) = outcome (operation.act l) ctx := by
  have hrecorded := (Passage.recorded W ctx.ambient).keyOperation l operation
  have hidle : (Passage.recorded W ctx.ambient).Idle ctx.recording ctx :=
    ⟨rfl, rfl, rfl, rfl, rfl⟩
  have hover := hrecorded.endStates hidle
  refine ⟨⟨hrecorded.outcome_eq hidle, hover.world, hover.calls⟩, fun close => ?_⟩
  exact (((Passage.reclosed ctx.ambient close).keyOperation l operation).outcome_eq
    ⟨rfl, rfl⟩).symm

end

-- The value that is asked for does not exist, but the key that was opened to read it is closed.
example : (endState (Registry.getDword ⟨.currentUser, ⟨[]⟩⟩ "Count")
      (Context.ofWorld (Store.fresh ⟨0, []⟩)).recording).world.calls.map (·.call)
    = [.openKey RootKey.currentUser.handle "" .queryValue none, .getValue ⟨0x1000⟩ "Count" none,
      .closeKey ⟨0x1000⟩] := by
  rfl

end TransactionalRegistry
