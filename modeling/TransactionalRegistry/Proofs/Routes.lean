import TransactionalRegistry.Proofs.Images
import TransactionalRegistry.Proofs.Releasing

/-!
# One operation, one route

An operation on a key makes its first call by path, in the variant of the route that was current
when the operation started. All further calls go through the key that this very call has opened,
again by that route, or close it. Which route it is makes no other difference: two runs of an
operation, in any two worlds and by any two routes, make the same calls with the same arguments in
the same order as long as they are answered alike, and if all are answered alike, the two runs end
alike.

Both are read off the dialogue that the operation is. The second is an induction on it: two runs of
one dialogue go on alike until some call is answered in two ways.

## Main definitions

* `CallRecord.rerouted`: A call as it is made by another route.
* `KeyOperation.calls`: The calls of an operation, as a recorder keeps them.
* `Routed`: Calls that are made by one route.
* `CallsPart`: Two lists of calls that are the same up to one that is answered in two ways.
* `KeyOperation.Refused`: Operations that are refused before they make a call.
* `Dialogue.Yields`: The calls and the end that a dialogue may come to.

## Theorems

* `Dialogue.yields_held`: A recorder keeps what the dialogue has come to.
* `Dialogue.Yields.routed`: The calls of a dialogue that goes through the phases in their order.
* `Dialogue.Yields.alike_or_part`: Two runs of one dialogue.
* `one_operation_one_route`: The calls of every operation on a key.
-/

namespace TransactionalRegistry

variable {W ε α : Type}

/-! ## The calls of an operation -/

/-- The call as it is made by the route of `transaction`, with its result. A call without variants
    is the same by every route. -/
def CallRecord.rerouted (transaction : Option TransactionHandle) : CallRecord → CallRecord
  | ⟨.openKey parent subKey access _, result⟩ =>
    ⟨.openKey parent subKey access transaction, result⟩
  | ⟨.createKey parent subKey access _, result⟩ =>
    ⟨.createKey parent subKey access transaction, result⟩
  | ⟨.deleteKey parent subKey _, result⟩ => ⟨.deleteKey parent subKey transaction, result⟩
  | ⟨.renameKey parent subKey newName _, result⟩ =>
    ⟨.renameKey parent subKey newName transaction, result⟩
  | ⟨.getValue key name _, result⟩ => ⟨.getValue key name transaction, result⟩
  | ⟨.setValue key name data _, result⟩ => ⟨.setValue key name data transaction, result⟩
  | ⟨.deleteValue key name _, result⟩ => ⟨.deleteValue key name transaction, result⟩
  | record => record

/-- The call in its plain variant, with its result. -/
def CallRecord.plain (record : CallRecord) : CallRecord :=
  record.rerouted none

/-- The calls that an operation on the key at a location makes, as a recorder keeps them. -/
def KeyOperation.calls [Native W] (operation : KeyOperation) (l : Location) (ctx : Context W) :
    List CallRecord :=
  (endState (operation.act l) ctx.recording).world.calls

/-- The first call is made by path and by the route of `transaction`. All others are made through
    the key that this call has opened, by the same route, or close it. -/
inductive Routed (transaction : Option TransactionHandle) : List CallRecord → Prop
  | silent : Routed transaction []
  | started {first : CallRecord} {rest : List CallRecord} : first.call.ByPath transaction →
      (∀ record ∈ rest, ∃ key, first.opened? = some key ∧
        (record.call.Through transaction key ∨ record.call = .closeKey key)) →
      Routed transaction (first :: rest)

/-- The calls are the same, and answered alike, up to one that is made in both and answered in two
    ways. -/
def CallsPart (calls calls' : List CallRecord) : Prop :=
  ∃ (common rest rest' : List CallRecord) (call : Call)
    (result result' : Except NativeError call.Answer), result ≠ result' ∧
    calls = common ++ ⟨call, result⟩ :: rest ∧
    calls' = common ++ ⟨call, result'⟩ :: rest'

theorem CallsPart.cons {calls calls' : List CallRecord} (h : CallsPart calls calls')
    (record : CallRecord) : CallsPart (record :: calls) (record :: calls') := by
  obtain ⟨common, rest, rest', call, result, result', hne, hcalls, hcalls'⟩ := h
  exact ⟨record :: common, rest, rest', call, result, result', hne,
    congrArg (record :: ·) hcalls, congrArg (record :: ·) hcalls'⟩

/-- Operations that are refused before they make a call: a root key is neither deleted nor renamed
    nor created, and a value that cannot be encoded is not written. -/
def KeyOperation.Refused (l : Location) : KeyOperation → Prop
  | scripted .delete | scripted .deleteIfExists | scripted (.rename _) => l.isRoot
  | scripted .create | scripted .createIfMissing => l.isRoot
  | scripted (.set _ value) => ∃ e, value.encode = .error e
  | _ => False

/-! ## What a recorder keeps of a dialogue -/

/-- By the route of `transaction` the dialogue may make these calls, each with its result, and come
    to this end. -/
inductive Dialogue.Yields (transaction : Option TransactionHandle) :
    Dialogue ε α → List CallRecord → Except (Failure ε) α → Prop
  | done (ending : Except (Failure ε) α) : Yields transaction (.done ending) [] ending
  | note {entry : Route → LogEntry} {rest : Dialogue ε α} {calls : List CallRecord}
      {ending : Except (Failure ε) α} : Yields transaction rest calls ending →
      Yields transaction (.note entry rest) calls ending
  | ask {call : Call} {rest : Except NativeError call.Answer → Dialogue ε α}
      (result : Except NativeError call.Answer) {calls : List CallRecord}
      {ending : Except (Failure ε) α} : Yields transaction (rest result) calls ending →
      Yields transaction (.ask call rest)
        (CallRecord.rerouted transaction ⟨call, result⟩ :: calls) ending
  | close {key : KeyHandle} {rest : Dialogue ε α} (result : Except NativeError Unit)
      {calls : List CallRecord} {ending : Except (Failure ε) α} :
      Yields transaction rest calls ending →
      Yields transaction (.close key rest) (⟨.closeKey key, result⟩ :: calls) ending

section

variable [Native W] {transaction : Option TransactionHandle}

/-- A recorder keeps the call that is made by a route, with its result. -/
theorem Act.recorded_callBy (route : Route) (call : Call) (ctx : Context (Recorded W)) :
    ∃ result ctx', (∀ ε, ((Act.callBy route call).attempt : Act _ ε _) ctx = .ok result ctx') ∧
      ctx'.world.calls =
        ctx.world.calls ++ [CallRecord.rerouted route.transaction ⟨call, result⟩] := by
  -- Whatever the call answers, the recorder has appended it once with its answer.
  have hcall : ∀ call : Call, Ends (Act.call call) ctx
      (fun answer ctx' => ctx'.world.calls = ctx.world.calls ++ [⟨call, .ok answer⟩])
      (fun failure ctx' => ∃ e, failure = .error e ∧
        ctx'.world.calls = ctx.world.calls ++ [⟨call, .error e⟩]) := fun call =>
    Act.ends_call (fun _ _ hrun => (Recorded.calls_perform call ctx.world).ok hrun)
      (fun e _ hrun => ⟨e, rfl, (Recorded.calls_perform call ctx.world).error hrun⟩)
  have hends : Ends (Act.callBy route call) ctx
      (fun answer ctx' => ctx'.world.calls =
        ctx.world.calls ++ [CallRecord.rerouted route.transaction ⟨call, .ok answer⟩])
      (fun failure ctx' => ∃ e, failure = .error e ∧ ctx'.world.calls =
        ctx.world.calls ++ [CallRecord.rerouted route.transaction ⟨call, .error e⟩]) := by
    cases call <;> exact hcall _
  cases hrun : Act.callBy route call ctx with
  | ok answer ctx' => exact ⟨.ok answer, ctx', fun _ => Act.attempt_of_ok hrun, hends.ok hrun⟩
  | error failure ctx' =>
    obtain ⟨e, rfl, hcalls⟩ := hends.error hrun
    exact ⟨.error e, ctx', fun _ => Act.attempt_of_error hrun, hcalls⟩

/-- A recorder keeps the call that closes a key, with its result. -/
theorem Registry.recorded_closeKey (key : KeyHandle) (ctx : Context (Recorded W)) :
    ∃ (result : Except NativeError Unit) (ctx' : Context (Recorded W)),
      (closeKey key : Act _ Empty Unit) ctx = .ok () ctx' ∧
      ctx'.world.calls = ctx.world.calls ++ [⟨.closeKey key, result⟩] := by
  obtain ⟨result, ctx', hclose, hcalls⟩ := Act.recorded_callBy ⟨none⟩ (.closeKey key) ctx
  -- A failed closing is only logged, and the log is no part of what the recorder keeps.
  cases result with
  | ok u => exact ⟨.ok u, ctx', bind_of_ok (hclose Empty), hcalls⟩
  | error e => exact ⟨.error e, ctx'.logged _, bind_of_ok (hclose Empty), hcalls⟩

/-- A dialogue that is held in a recorded world yields the calls that the recorder keeps, and the
    end that it comes to. -/
theorem Dialogue.yields_held (d : Dialogue ε α) (route : Route) (ctx : Context (Recorded W)) :
    ∃ calls, d.Yields route.transaction calls (outcome (d.held route) ctx) ∧
      (endState (d.held route) ctx).world.calls = ctx.world.calls ++ calls := by
  induction d generalizing ctx with
  | done ending =>
    refine ⟨[], ?_, ?_⟩
    · cases ending <;> exact .done _
    · cases ending <;> exact (List.append_nil _).symm
  | note entry rest ih =>
    obtain ⟨calls, hyields, hcalls⟩ := ih (ctx.logged (entry route))
    exact ⟨calls, .note hyields, hcalls⟩
  | ask call rest ih =>
    obtain ⟨result, ctx', hrun, hcall⟩ := Act.recorded_callBy route call ctx
    obtain ⟨calls, hyields, hcalls⟩ := ih result ctx'
    rw [outcome, endState, held_ask (hrun ε)]
    refine ⟨_, .ask result hyields, ?_⟩
    rw [← endState, hcalls, hcall, List.append_assoc, List.singleton_append]
  | close key rest ih =>
    obtain ⟨result, ctx', hrun, hcall⟩ := Registry.recorded_closeKey key ctx
    obtain ⟨calls, hyields, hcalls⟩ := ih ctx'
    rw [outcome, endState, held_close hrun]
    refine ⟨_, .close result hyields, ?_⟩
    rw [← endState, hcalls, hcall, List.append_assoc, List.singleton_append]

end

/-! ## The calls of a dialogue -/

@[simp] theorem CallRecord.plain_rerouted (transaction : Option TransactionHandle)
    (record : CallRecord) : (record.rerouted transaction).plain = record.plain := by
  cases record with
  | mk call result => cases call <;> rfl

/-- Two results of one call are two results of its plain variant. -/
theorem CallRecord.plain_ne {call : Call} {result result' : Except NativeError call.Answer}
    (h : result ≠ result') : ∃ (plainCall : Call) (a b : Except NativeError plainCall.Answer),
      a ≠ b ∧ plain ⟨call, result⟩ = ⟨plainCall, a⟩ ∧ plain ⟨call, result'⟩ = ⟨plainCall, b⟩ := by
  -- Making a call plain changes neither the type nor the value of its result.
  cases call <;> exact ⟨(plain ⟨_, result⟩).call, (plain ⟨_, result⟩).result,
    (plain ⟨_, result'⟩).result, h, rfl, rfl⟩

/-- A call by path, made by a route, and the phase after it. -/
theorem Call.ByPath.rerouted {call : Call} (h : call.ByPath none)
    (transaction : Option TransactionHandle) (result : Except NativeError call.Answer) :
    (CallRecord.rerouted transaction ⟨call, result⟩).call.ByPath transaction ∧
      Phase.after call result = match (CallRecord.rerouted transaction ⟨call, result⟩).opened? with
        | some key => .holding key
        | none => .finished := by
  cases h with
  | openKey root subKey access => exact ⟨.openKey root subKey access, by cases result <;> rfl⟩
  | createKey root subKey access => exact ⟨.createKey root subKey access, by cases result <;> rfl⟩
  | deleteKey root subKey => exact ⟨.deleteKey root subKey, by cases result <;> rfl⟩
  | renameKey root subKey newName =>
    exact ⟨.renameKey root subKey newName, by cases result <;> rfl⟩

/-- A call through an open key, made by a route. -/
theorem Call.Through.rerouted {call : Call} {key : KeyHandle} (h : call.Through none key)
    (transaction : Option TransactionHandle) (result : Except NativeError call.Answer) :
    (CallRecord.rerouted transaction ⟨call, result⟩).call.Through transaction key := by
  cases h with
  | queryInfo => exact .queryInfo
  | enumKey index => exact .enumKey index
  | enumValue index => exact .enumValue index
  | getValue name => exact .getValue name
  | setValue name data => exact .setValue name data
  | deleteValue name => exact .deleteValue name

namespace Dialogue.Yields

variable {transaction transaction' : Option TransactionHandle} {d : Dialogue ε α}
  {calls calls' : List CallRecord} {ending ending' : Except (Failure ε) α} {next : α → Phase}
  {failed : Phase}

/-- When an operation is over, it makes no further call. -/
theorem of_finished (h : d.Yields transaction calls ending)
    (hordered : d.Ordered next failed .finished) :
    calls = [] := by
  induction h with
  | done => rfl
  | note _ ih =>
    cases hordered with
    | note hrest => exact ih hrest
  | ask => cases hordered
  | close => cases hordered

/-- While an operation holds a key, it makes its calls through this key, until it closes it. -/
theorem of_holding {key : KeyHandle} (h : d.Yields transaction calls ending)
    (hordered : d.Ordered next failed (.holding key)) :
    ∀ record ∈ calls, record.call.Through transaction key ∨ record.call = .closeKey key := by
  induction h with
  | done => exact fun _ hmem => absurd hmem List.not_mem_nil
  | note _ ih =>
    cases hordered with
    | note hrest => exact ih hrest
  | ask result _ ih =>
    cases hordered with
    | through hthrough hrest =>
      intro record hmem
      rcases List.mem_cons.mp hmem with rfl | hmem
      · exact Or.inl (hthrough.rerouted transaction result)
      · exact ih (hrest result) record hmem
  | close result hyields _ =>
    cases hordered with
    | close hrest =>
      intro record hmem
      -- After the key is closed there is nothing left to call.
      rw [hyields.of_finished hrest, List.mem_singleton] at hmem
      exact Or.inr (congrArg CallRecord.call hmem)

/-- The calls of a dialogue that goes through the phases in their order are made by one route. -/
theorem routed (h : d.Yields transaction calls ending) (hordered : d.Ordered next failed .idle) :
    Routed transaction calls := by
  induction h with
  | done => exact .silent
  | note _ ih =>
    cases hordered with
    | note hrest => exact ih hrest
  -- Nothing is closed before anything has been opened.
  | close => cases hordered
  | @ask call _ result _ _ hyields _ =>
    cases hordered with
    | byPath hpath hrest =>
      obtain ⟨hroute, hphase⟩ := hpath.rerouted transaction result
      have hafter := hrest result
      rw [hphase] at hafter
      -- What may come next depends on whether the call has opened a key.
      cases hopened : (CallRecord.rerouted transaction ⟨call, result⟩).opened? with
      | none =>
        rw [hopened] at hafter
        rw [hyields.of_finished hafter]
        exact .started hroute (fun _ hmem => absurd hmem List.not_mem_nil)
      | some key =>
        rw [hopened] at hafter
        exact .started hroute (fun record hmem =>
          ⟨key, hopened, hyields.of_holding hafter record hmem⟩)

/-- Two runs of one dialogue, by any two routes, make the same calls and come to the same end,
    unless some call is answered in two ways. -/
theorem alike_or_part (h : d.Yields transaction calls ending)
    (h' : d.Yields transaction' calls' ending') :
    (calls.map (·.plain) = calls'.map (·.plain) ∧ ending = ending') ∨
      CallsPart (calls.map (·.plain)) (calls'.map (·.plain)) := by
  -- The induction is on the first run; the second one follows the same dialogue step by step.
  induction h generalizing calls' with
  | done =>
    cases h'
    exact Or.inl ⟨rfl, rfl⟩
  | note _ ih =>
    cases h' with
    | note hrest' => exact ih hrest'
  | ask result _ ih =>
    cases h' with
    | ask result' hrest' =>
      simp only [List.map_cons, CallRecord.plain_rerouted]
      by_cases hresult : result = result'
      · subst hresult
        exact (ih hrest').imp (fun hsame => ⟨congrArg _ hsame.1, hsame.2⟩) (·.cons _)
      · obtain ⟨call, a, b, hne, hplain, hplain'⟩ := CallRecord.plain_ne hresult
        rw [hplain, hplain']
        exact Or.inr ⟨[], _, _, call, a, b, hne, rfl, rfl⟩
  | close result _ ih =>
    cases h' with
    | close result' hrest' =>
      simp only [List.map_cons]
      by_cases hresult : result = result'
      · subst hresult
        exact (ih hrest').imp (fun hsame => ⟨congrArg _ hsame.1, hsame.2⟩) (·.cons _)
      · exact Or.inr ⟨[], _, _, .closeKey _, result, result', hresult, rfl, rfl⟩

end Dialogue.Yields

/-! ## Operations that are refused -/

theorem Registry.refuseRoot_of_isRoot {l : Location} (operation : String) (h : l.isRoot)
    (ctx : Context W) : (refuseRoot operation l : Act W _ _) ctx =
      .error (.error (.rootKeyUnsupported operation l.text)) ctx := by
  rw [refuseRoot, if_pos h]
  rfl

theorem Registry.createIfMissing_of_isRoot [Native W] {l : Location} (h : l.isRoot)
    (ctx : Context W) : (createIfMissing l : Act W _ _) ctx = .ok false ctx := by
  rw [createIfMissing, if_pos h]
  rfl

theorem Registry.setValue_of_unencodable [Native W] {l : Location} {name : String} {value : Value}
    {e : ValueError} (h : value.encode = .error e) (ctx : Context W) :
    (setValue l name value : Act W _ _) ctx =
      .error (.error (.invalidData l.text name e)) ctx := by
  refine bind_of_error ?_
  rw [h]
  rfl

/-- An operation that is refused leaves its context as it was: it neither calls nor logs. -/
theorem KeyOperation.Refused.endState_eq [Native W] {operation : KeyOperation} {l : Location}
    (h : operation.Refused l) (ctx : Context W) : endState (operation.act l) ctx = ctx := by
  -- The cases are those in which an operation is refused, each with its own first step.
  unfold Refused at h
  split at h
  · exact endState_of_error (bind_of_error (Registry.refuseRoot_of_isRoot "delete" h ctx))
  · have hdelete : ((Registry.delete l).attempt : Act W RegistryError _) ctx =
        .ok (.error (.rootKeyUnsupported "delete" l.text)) ctx :=
      Act.attempt_of_error (bind_of_error (Registry.refuseRoot_of_isRoot "delete" h ctx))
    exact endState_of_error (bind_of_ok hdelete)
  · exact endState_of_error (bind_of_error (Registry.refuseRoot_of_isRoot "rename" h ctx))
  · exact endState_of_error (bind_of_ok (Registry.createIfMissing_of_isRoot h ctx))
  · exact endState_of_ok (Registry.createIfMissing_of_isRoot h ctx)
  · obtain ⟨e, hencode⟩ := h
    exact endState_of_error (Registry.setValue_of_unencodable hencode ctx)
  · exact h.elim

/-! ## Every operation -/

/-- What is recorded of an operation is what the dialogue that it is yields. -/
theorem KeyOperation.yields_calls [Native W] {operation : KeyOperation} {l : Location}
    {d : Dialogue RegistryError operation.Answer}
    (hact : ∀ (W : Type) [Native W] (ctx : Context W), operation.act l ctx = d.held ctx.route ctx)
    (ctx : Context W) :
    d.Yields ctx.route.transaction (operation.calls l ctx) (outcome (operation.act l) ctx) := by
  obtain ⟨made, hyields, hmade⟩ := d.yields_held ctx.route ctx.recording
  have hrun : operation.act l ctx.recording = d.held ctx.route ctx.recording :=
    hact (Recorded W) ctx.recording
  -- The recorder has no influence on how the operation ends.
  have houtcome : outcome (operation.act l) ctx = outcome (operation.act l) ctx.recording :=
    (KeyOperation.onto_act Recorded.image l operation).outcome ctx.recording
  have hcalls : operation.calls l ctx = made := by
    rw [KeyOperation.calls, endState, hrun]
    exact hmade
  rw [hcalls, houtcome, outcome, hrun]
  exact hyields

/-- Over every implementation of the calls and for every ambient stack, an operation on a key makes
    its calls by one route, that of the transaction which is current when it starts: the first one
    by path from a root key, all others through the key that this call has opened or to close it.
    The calls are read off a recorder that has no influence on them. In any two worlds and by any
    two routes, it makes the same calls with the same arguments in the same order, apart from their
    variant, and ends alike, unless one of them is answered in two ways. An operation that is
    refused up front makes no call. -/
theorem one_operation_one_route [Native W] (ctx : Context W) (l : Location)
    (operation : KeyOperation) :
    (outcome (operation.act l) ctx.recording = outcome (operation.act l) ctx ∧
      (endState (operation.act l) ctx.recording).world.world =
        (endState (operation.act l) ctx).world) ∧
    Routed ((Ambient.top ctx.ambient).map (·.handle)) (operation.calls l ctx) ∧
    (∀ (W' : Type) [Native W'] (ctx' : Context W'),
      ((operation.calls l ctx).map (·.plain) = (operation.calls l ctx').map (·.plain) ∧
        outcome (operation.act l) ctx = outcome (operation.act l) ctx') ∨
      CallsPart ((operation.calls l ctx).map (·.plain)) ((operation.calls l ctx').map (·.plain))) ∧
    (operation.Refused l → operation.calls l ctx = []) := by
  obtain ⟨d, hordered, hact⟩ := operation.spoken l
  have hyields := KeyOperation.yields_calls hact ctx
  have honto := KeyOperation.onto_act (Recorded.image (W := W)) l operation
  refine ⟨⟨(honto.outcome ctx.recording).symm,
      congrArg Context.world (honto.endState ctx.recording).symm⟩,
    hyields.routed hordered, fun W' _ ctx' => ?_, fun hrefused => ?_⟩
  · exact hyields.alike_or_part (KeyOperation.yields_calls hact ctx')
  · rw [KeyOperation.calls, hrefused.endState_eq]
    rfl

/-- A root key is not deleted, and nothing is called to find that out. -/
theorem deleting_a_root_key_calls_nothing :
    KeyOperation.Refused ⟨.currentUser, ⟨[]⟩⟩ (.scripted .delete) ∧
    (KeyOperation.scripted .delete).calls ⟨.currentUser, ⟨[]⟩⟩
      (Context.ofWorld (Store.fresh ⟨0, []⟩)) = [] :=
  ⟨rfl, (one_operation_one_route _ _ _).2.2.2 rfl⟩

-- With a transaction current, the key is opened and asked for its value in it, and then closed.
example : ((KeyOperation.scripted (.valueExists "Count")).calls ⟨.currentUser, ⟨[]⟩⟩
      { Context.ofWorld (endState (Store.createTransaction 0 none) (Store.fresh ⟨0, []⟩)) with
        ambient := [some ⟨0, ⟨0x1000⟩, .zero, none⟩] }).map (·.call)
    = [.openKey RootKey.currentUser.handle "" .queryValue (some ⟨0x1000⟩),
      .getValue ⟨0x1004⟩ "Count" (some ⟨0x1000⟩), .closeKey ⟨0x1004⟩] := by
  rfl

end TransactionalRegistry
