import TransactionalRegistry.Proofs.Admission
import TransactionalRegistry.Proofs.Traffic

/-!
# Work that holds clones

Work gets hold of a transaction in one of two ways: it creates it, or it takes a clone of the one
that is current. From then on it holds a clone by hand, which it may use, clone again, or give up.
Clones are also on the ambient stack, and with the policies whose work is being done. So whoever
does something with a transaction does it through a clone that there is.

A world with a place for the clones that are held makes this precise. The steps of work name a
clone by the slot that it is in, and there is no other way to name one. Every call is recorded, and
with it the transaction through whose clone it was made. Only calls on keys are made through no
clone, and those that were to create a transaction and have failed.

## Main definitions

* `Hands`: A world with the clones that are held by hand.
* `CloneUse`, `CloneStep`: What work does with clones, and the steps that it takes.
* `Vocabulary.clones`: Those steps as a vocabulary.
* `Use`: A call with the transaction through which it was made.
* `Policy.uses`, `Routine.uses`: The calls of a policy with its work, and those of a routine.
* `Routine.AtAllTimes`: What holds at every moment of a routine, however deep.
* `Transaction.story`: The calls that were made through the clones of a transaction.
* `Transaction.Shut`: How a transaction responds that has been closed.
* `CallRecord.Detached`: A call that is made through no clone.
* `Context.Beside`: What is done through no clone.

## Theorems

* `CloneUse.serves`: What is done with a clone is some traffic on its handle.
* `Context.beside_operation`: An operation on a key goes through no clone.
* `Transcript.held`: No call changes what is held.
* `Transaction.shut_of_closed`: A closed transaction responds without a call.
-/

namespace TransactionalRegistry

variable {W ε α : Type}

/-- A world with the clones that are held by hand. -/
structure Hands (W : Type) where
  world : W
  held : List Transaction

/-- The answer of the world, with the clones held as before. -/
def Hands.perform [Native W] (call : Call) : EStateM NativeError (Hands W) call.Answer :=
  fun hands =>
    match Native.perform call hands.world with
    | .ok answer world => .ok answer { hands with world := world }
    | .error e world => .error e { hands with world := world }

/-- Calls are answered and entries logged by the world alone. -/
instance [Native W] : Native (Hands W) where
  perform := Hands.perform
  log entry hands := { hands with world := Native.log entry hands.world }

namespace Context

/-- The clones that are held by hand. -/
def held (ctx : Context (Recorded (Hands W))) : List Transaction :=
  ctx.world.world.held

/-- The context with other clones held. -/
def holding (held : List Transaction) (ctx : Context (Recorded (Hands W))) :
    Context (Recorded (Hands W)) :=
  { ctx with world := { ctx.world with world := { ctx.world.world with held := held } } }

/-- The context with its world changed, but neither what is recorded nor what is held. -/
def happened (change : W → W) (ctx : Context (Recorded (Hands W))) :
    Context (Recorded (Hands W)) :=
  { ctx with world := { ctx.world with
      world := { ctx.world.world with world := change ctx.world.world.world } } }

end Context

/-! ## Steps -/

/-- What can be done with a clone. -/
inductive CloneUse where
  | status
  | display
  | commit
  | rollback
  | close
  | setAutoCommit (autoCommit : Bool)

namespace CloneUse

/-- The errors of a use. -/
@[reducible]
def Error : CloneUse → Type
  | status | commit | rollback | close => TransactionError
  | display | setAutoCommit _ => Empty

/-- What a use answers. -/
@[reducible]
def Answer : CloneUse → Type
  | status => TransactionStatus
  | display => String
  | commit | rollback | close | setAutoCommit _ => Unit

/-- What a use does. -/
def act [Native W] (t : Transaction) : (use : CloneUse) → Act W use.Error use.Answer
  | status => t.status
  | display => t.display
  | commit => t.commit
  | rollback => t.rollback
  | close => t.close
  | setAutoCommit autoCommit => t.setAutoCommit autoCommit

theorem keeps_calm [Native W] {P : Context W → Prop} (hP : Context.Calm P) (what : CloneUse)
    (t : Transaction) : Keeps P (what.act t) := by
  cases what with
  | status => exact hP.keeps_status t
  | display => exact hP.keeps_display t
  | commit => exact hP.keeps_decide t _ _ _
  | rollback => exact hP.keeps_decide t _ _ _
  | close => exact hP.keeps_close t
  | setAutoCommit autoCommit => exact hP.keeps_update t (fun _ => rfl)

/-- Whatever is done with a clone, it is some traffic on its handle. -/
theorem serves [Native W] (what : CloneUse) (t : Transaction) (ctx : Context W) :
    ctx.Serves t (endState (what.act t) ctx) := by
  cases what with
  | status => exact (t.status_serves ctx).endState
  | display => exact (t.display_serves ctx).endState
  | commit => exact (t.decide_serves .commits _ _ ctx).endState
  | rollback => exact (t.decide_serves .rollsBack _ _ ctx).endState
  | close => exact (t.close_serves ctx).endState
  | setAutoCommit autoCommit =>
    refine Transaction.serves_update ?_ ctx t
    exact fun _ => rfl

end CloneUse

/-- The steps of work that holds clones. A slot is a place in the list of the clones held. -/
inductive CloneStep (W : Type) where
  /-- An entry is logged. -/
  | log (entry : LogEntry)
  /-- An operation on the key at a location. -/
  | operation (l : Location) (operation : KeyOperation)
  /-- Something happens to the world, by itself or by calls that are made elsewhere. -/
  | happen (change : W → W)
  /-- A transaction is created outside any policy, and held. -/
  | create (manager : Manager) (options : List TransactionOption)
  /-- A clone of the current transaction is taken, and held. -/
  | current
  /-- One more clone is taken of the transaction in a slot, and held. -/
  | clone (slot : Nat)
  /-- The clone in a slot is given up. -/
  | drop (slot : Nat)
  /-- Something is done with the transaction in a slot. -/
  | use (slot : Nat) (use : CloneUse)

namespace CloneStep

/-- The errors of a step. -/
@[reducible]
def Error : CloneStep W → Type
  | operation _ _ => RegistryError
  | create _ _ => TransactionError
  | use _ what => what.Error
  | log _ | happen _ | current | clone _ | drop _ => Empty

/-- What a step answers: for a slot, nothing if the slot is empty. -/
@[reducible]
def Answer : CloneStep W → Type
  | operation _ work => work.Answer
  | use _ what => Option what.Answer
  | current | clone _ | drop _ => Option Unit
  | log _ | happen _ | create _ _ => Unit

variable [Native W]

/-- Work with the transaction in a slot. -/
def atSlot (slot : Nat) (work : Transaction → Act (Recorded (Hands W)) ε α) :
    Act (Recorded (Hands W)) ε (Option α) := do
  match (← get).held[slot]? with
  | none => return none
  | some t => return some (← work t)

omit [Native W] in
theorem atSlot_empty {slot : Nat} {ctx : Context (Recorded (Hands W))}
    (work : Transaction → Act (Recorded (Hands W)) ε α) (h : ctx.held[slot]? = none) :
    endState (atSlot slot work) ctx = ctx := by
  have hget : (get : Act (Recorded (Hands W)) ε _) ctx = .ok ctx ctx := rfl
  unfold endState atSlot
  rw [bind_of_ok hget, h]
  rfl

omit [Native W] in
theorem atSlot_some {slot : Nat} {t : Transaction} {ctx : Context (Recorded (Hands W))}
    (work : Transaction → Act (Recorded (Hands W)) ε α) (h : ctx.held[slot]? = some t) :
    endState (atSlot slot work) ctx = endState (work t) ctx := by
  have hget : (get : Act (Recorded (Hands W)) ε _) ctx = .ok ctx ctx := rfl
  rw [endState, atSlot, bind_of_ok hget, h]
  exact endState_bind_pure (work t) some ctx

/-- Takes one more clone of a transaction, and holds it. -/
def take (t : Transaction) : Act (Recorded (Hands W)) ε Unit := do
  t.retain
  modify fun ctx => ctx.holding (ctx.held ++ [t])

/-- What a step does. -/
def act : (step : CloneStep W) → Act (Recorded (Hands W)) step.Error step.Answer
  | log entry => Act.log entry
  | operation l work => work.act l
  | happen change => modify (Context.happened change)
  | create manager options => do
    let t ← manager.createTransaction options
    modify fun ctx => ctx.holding (ctx.held ++ [t])
  | current => do
    match ← Ambient.current with
    | none => return none
    | some t => return some (← take t)
  | clone slot => atSlot slot take
  | drop slot => atSlot slot fun t => do
    modify fun ctx => ctx.holding (ctx.held.eraseIdx slot)
    t.release
  | use slot what => atSlot slot (what.act ·)

/-- The transaction that a step is about: the one in its slot, the one that is current, or the one
    that it creates. -/
def about (ctx : Context (Recorded (Hands W))) : CloneStep W → Option Transaction
  | log _ | operation _ _ | happen _ => none
  | create manager options =>
    (outcome (manager.createTransaction options : Act (Recorded (Hands W)) _ _) ctx).toOption
  | current => Ambient.top ctx.ambient
  | clone slot | drop slot | use slot _ => ctx.held[slot]?

end CloneStep

section

variable [Native W]

/-- No step touches the ambient stack. -/
theorem CloneStep.keeps_ambient {stack : List (Option Transaction)} (step : CloneStep W) :
    Keeps (Context.Stacked stack) step.act := by
  have hstack := @Context.steady_stacked (Recorded (Hands W)) stack
  -- A slot that is empty is left alone; otherwise the work in it is what counts.
  have hslot : ∀ {ε α : Type} (slot : Nat) {work : Transaction → Act (Recorded (Hands W)) ε α},
      (∀ t, Keeps (Context.Stacked stack) (work t)) →
      Keeps (Context.Stacked stack) (CloneStep.atSlot slot work) := by
    intro ε α slot work hwork
    refine keeps_get.bind (fun ctx => ?_)
    split
    · exact keeps_pure _
    · exact (hwork _).bind (fun _ => keeps_pure _)
  have htake : ∀ {ε : Type} (t : Transaction), Keeps (Context.Stacked stack)
      (CloneStep.take t : Act (Recorded (Hands W)) ε Unit) :=
    fun t => (hstack.keeps_update t _).bind (fun _ => keeps_modify (fun _ h => h))
  cases step with
  | log entry => exact hstack.calm.keeps_log entry
  | operation l work => exact hstack.calm.keeps_operation l work
  | happen change => exact keeps_modify (fun _ h => h)
  | create manager options =>
    exact (hstack.keeps_create manager options).bind (fun _ => keeps_modify (fun _ h => h))
  | current =>
    have hcurrent : Keeps (Context.Stacked stack)
        (Ambient.current : Act (Recorded (Hands W)) Empty _) :=
      keeps_get.bind (fun _ => keeps_pure _)
    refine hcurrent.bind (fun entry => ?_)
    cases entry with
    | none => exact keeps_pure _
    | some t => exact (htake t).bind (fun _ => keeps_pure _)
  | clone slot => exact hslot slot htake
  | drop slot =>
    refine hslot slot (fun t => Keeps.bind ?_ (fun _ => hstack.keeps_release t))
    exact keeps_modify (fun _ h => h)
  | use slot what => exact hslot slot (fun t => what.keeps_calm hstack.calm t)

/-- The steps of work that holds clones, as a vocabulary. -/
def Vocabulary.clones (W : Type) [Native W] : Vocabulary (Recorded (Hands W)) where
  Step := CloneStep W
  Error := CloneStep.Error
  Answer := CloneStep.Answer
  act := CloneStep.act
  ambient step _ := step.keeps_ambient.endState rfl

/-! ## What calls are made through a clone -/

/-- A call with the transaction through which it was made, if it was made through one. -/
structure Use where
  user : Option Transaction
  record : CallRecord

/-- The calls that were made from one context to another, all of them through one transaction. -/
def Context.made (user : Option Transaction) (ctx ctx' : Context (Recorded (Hands W))) : List Use :=
  (ctx'.world.calls.drop ctx.world.calls.length).map (Use.mk user)

omit [Native W] in
theorem Context.made_of_calls {user : Option Transaction} {calls : List CallRecord}
    {ctx ctx' : Context (Recorded (Hands W))}
    (h : ctx'.world.calls = ctx.world.calls ++ calls) :
    ctx.made user ctx' = calls.map (Use.mk user) := by
  rw [made, h, List.drop_left]

/-- The calls of a step. -/
def CloneStep.uses (step : CloneStep W) (ctx : Context (Recorded (Hands W))) : List Use :=
  ctx.made (step.about ctx) (endState step.act ctx)

/-- The transactions of which a policy keeps a clone while its work is done: the one that it has
    created. -/
def Policy.keeps (policy : Policy) (ctx start : Context (Recorded (Hands W))) : List Transaction :=
  if policy.propagation.place (Ambient.top ctx.ambient) = .inNew
  then (Ambient.top start.ambient).toList else []

/-- The calls of a policy, with those of its work in between. The calls that it makes by itself
    before its work and after it are made through the transaction that is current while the work is
    done. -/
def Policy.uses (policy : Policy) (act : Act (Recorded (Hands W)) ε α)
    (inside : Context (Recorded (Hands W)) → List Use) (ctx : Context (Recorded (Hands W))) :
    List Use :=
  match policy.entrance? ctx with
  | none => ctx.made none (endState (policy.call act) ctx)
  | some start =>
    ctx.made (Ambient.top start.ambient) start ++ inside start ++
      (endState act start).made (Ambient.top start.ambient) (endState (policy.call act) ctx)

/-- The calls of a routine. -/
def Routine.uses {ε α : Type} :
    Routine (Vocabulary.clones W) ε α → Context (Recorded (Hands W)) → List Use
  | done _, _ => []
  | step s next, ctx =>
    CloneStep.uses s ctx ++ (next (outcome (CloneStep.act s) ctx)).uses
      (endState (CloneStep.act s) ctx)
  | under policy body next, ctx =>
    policy.uses body.act body.uses ctx ++
      (next (outcome (policy.call body.act) ctx)).uses (endState (policy.call body.act) ctx)

/-- What holds at every moment of a routine, at every level of a nest: of the calls so far, of the
    transactions of which the policies around keep a clone, and of the context. -/
def Routine.AtAllTimes (P : List Use → List Transaction → Context (Recorded (Hands W)) → Prop)
    {ε α : Type} : Routine (Vocabulary.clones W) ε α → List Use → List Transaction →
      Context (Recorded (Hands W)) → Prop
  | done _, past, kept, ctx => P past kept ctx
  | step s next, past, kept, ctx =>
    P past kept ctx ∧ (next (outcome (CloneStep.act s) ctx)).AtAllTimes P
      (past ++ CloneStep.uses s ctx) kept (endState (CloneStep.act s) ctx)
  | under policy body next, past, kept, ctx =>
    P past kept ctx ∧
      (∀ start, policy.entrance? ctx = some start →
        body.AtAllTimes P (past ++ ctx.made (Ambient.top start.ambient) start)
          (policy.keeps ctx start ++ kept) start) ∧
      (next (outcome (policy.call body.act) ctx)).AtAllTimes P
        (past ++ policy.uses body.act body.uses ctx) kept (endState (policy.call body.act) ctx)

/-! ## A transaction among others -/

namespace Transaction

/-- The calls that were made through the clones of a transaction, the one that has created it
    included. -/
def story (t : Transaction) (past : List Use) : List CallRecord :=
  (past.filter (·.user = some t)).map (·.record)

/-- Calls through its own clones go on with the story of a transaction. -/
theorem story_own (t : Transaction) (past : List Use) (calls : List CallRecord) :
    t.story (past ++ calls.map (Use.mk (some t))) = t.story past ++ calls := by
  -- All these calls were made through the transaction, so the filter keeps them all.
  have hall : (calls.map (Use.mk (some t))).filter (·.user = some t)
      = calls.map (Use.mk (some t)) := by
    refine List.filter_eq_self.mpr (fun u hu => ?_)
    rcases List.mem_map.mp hu with ⟨r, _, rfl⟩
    simp
  rw [story, List.filter_append, List.map_append, ← story, hall, List.map_map]
  exact congrArg (t.story past ++ ·) (List.map_id calls)

/-- Other calls do not. -/
theorem story_other {t : Transaction} {user : Option Transaction} (h : user ≠ some t)
    (past : List Use) (calls : List CallRecord) :
    t.story (past ++ calls.map (Use.mk user)) = t.story past := by
  have hnone : (calls.map (Use.mk user)).filter (·.user = some t) = [] := by
    refine List.filter_eq_nil_iff.mpr (fun u hu => ?_)
    rcases List.mem_map.mp hu with ⟨r, _, rfl⟩
    simpa using h
  rw [story, List.filter_append, hnone, List.append_nil, ← story]

/-- How a transaction responds that has been closed: it says so, closing it again does nothing, and
    nothing else can be done with it. None of this takes a call. -/
structure Shut {W : Type} [Native W] (t : Transaction) (ctx : Context W) : Prop where
  status : t.status ctx = .ok .closed ctx
  display : (t.display : Act W Empty String) ctx
    = .ok ("Transaction[" ++ t.handle.text ++ ", " ++ TransactionStatus.closed.name ++ "]") ctx
  close : t.close ctx = .ok () (ctx.logged (.trace "transaction already closed"))
  commit : t.commit ctx = .error (.error (.native "CommitTransaction" .invalidHandle)) ctx
  rollback : t.rollback ctx = .error (.error (.native "RollbackTransaction" .invalidHandle)) ctx

/-- A closed transaction responds without a call. -/
theorem shut_of_closed {W : Type} [Native W] {t : Transaction} {ctx : Context W}
    (h : (ctx.sharedOf t).closed = true) : t.Shut ctx := by
  have hshared : ∀ {ε : Type}, (t.shared : Act W ε Shared) ctx = .ok (ctx.sharedOf t) ctx :=
    fun {_} => rfl
  have hquery : t.query ctx = .ok (.ok .closed) ctx := by
    unfold query
    rw [bind_of_ok hshared, if_pos h]
    rfl
  have hrefused : ∀ operation : String, (t.requireOpen operation : Act W _ Unit) ctx
      = .error (.error (.native operation .invalidHandle)) ctx := by
    intro operation
    unfold requireOpen
    rw [bind_of_ok hshared, if_pos h]
    rfl
  refine ⟨?_, ?_, ?_, ?_, ?_⟩
  · unfold status
    rw [bind_of_ok hquery]
    rfl
  · have hattempt : (t.query.attempt : Act W Empty _) ctx = .ok (.ok (.ok .closed)) ctx := by
      rw [Act.attempt, hquery]
    have hstatus : (t.displayStatus : Act W Empty _) ctx = .ok .closed ctx :=
      (bind_of_ok hattempt).trans rfl
    exact (bind_of_ok hstatus).trans rfl
  · unfold close
    rw [bind_of_ok hshared, if_pos h]
    rfl
  · exact bind_of_error (hrefused _)
  · exact bind_of_error (hrefused _)

end Transaction

/-! ## Calls through no clone -/

/-- A call that is made through no clone: one on a key, or one that was to create a transaction and
    has failed. -/
inductive CallRecord.Detached : CallRecord → Prop
  | onKey {call : Call} {result : Except NativeError call.Answer} :
      call.key?.isSome → Detached ⟨call, result⟩
  | uncreated {millis : UInt32} {description : Option String} {e : NativeError} :
      Detached ⟨.createTransaction millis description, .error e⟩

/-- A context goes on to another through no clone. -/
structure Context.Beside (ctx ctx' : Context (Recorded (Hands W))) : Prop where
  calls : ∃ calls, ctx'.world.calls = ctx.world.calls ++ calls ∧ ∀ r ∈ calls, r.Detached
  shared : ctx'.shared = ctx.shared
  ambient : ctx'.ambient = ctx.ambient
  held : ctx'.held = ctx.held

/-! ## What is held -/

/-- No call changes what is held. -/
theorem Transcript.held {w w' : Recorded (Hands W)} {calls : List CallRecord}
    (h : Transcript w calls w') : w'.world.held = w.world.held := by
  have hhands : ∀ (call : Call) (hands : Hands W), Ends (Native.perform call) hands
      (fun _ hands' => hands'.held = hands.held) (fun _ hands' => hands'.held = hands.held) := by
    intro call hands
    change Ends (Hands.perform call) hands _ _
    unfold Ends Hands.perform
    cases Native.perform call hands.world with
    | ok answer world => rfl
    | error e world => rfl
  have hperform : ∀ (call : Call) (w : Recorded (Hands W)), Ends (Native.perform call) w
      (fun _ w' => w'.world.held = w.world.held) (fun _ w' => w'.world.held = w.world.held) :=
    fun call w => Recorded.ends_perform (hhands call w.world)
  induction h with
  | nil => rfl
  | log entry _ ih => exact ih
  | ok hcall _ ih => exact ih.trans ((hperform _ _).ok hcall)
  | error hcall _ ih => exact ih.trans ((hperform _ _).error hcall)

namespace Context

variable {ctx ctx' ctx'' : Context (Recorded (Hands W))}

omit [Native W] in
theorem Beside.refl (ctx : Context (Recorded (Hands W))) : ctx.Beside ctx :=
  ⟨⟨[], (List.append_nil _).symm, fun _ hr => absurd hr List.not_mem_nil⟩, rfl, rfl, rfl⟩

/-- Calls are made through no clone. -/
theorem Beside.called {calls : List CallRecord} {world : Recorded (Hands W)}
    (h : ctx.Beside ctx') (hworld : Transcript ctx'.world calls world)
    (hcalls : ∀ r ∈ calls, r.Detached) : ctx.Beside { ctx' with world := world } := by
  rcases h.calls with ⟨earlier, hearlier, hdetached⟩
  refine ⟨⟨earlier ++ calls, ?_, List.forall_mem_append.mpr ⟨hdetached, hcalls⟩⟩, h.shared,
    h.ambient, hworld.held.trans h.held⟩
  rw [← List.append_assoc, ← hearlier]
  exact hworld.recorded

theorem Beside.logged (h : ctx.Beside ctx') (entry : LogEntry) : ctx.Beside (ctx'.logged entry) :=
  h.called (.log entry (.nil _)) (fun _ hr => absurd hr List.not_mem_nil)

theorem keeps_beside {call : Call} (hkey : call.key?.isSome) :
    Keeps ctx.Beside (Act.call call : Act (Recorded (Hands W)) _ _) := by
  intro ctx' h
  refine Act.ends_call ?_ ?_
  · exact fun answer world hperform =>
      h.called (.ok hperform (.nil _)) (List.forall_mem_singleton.mpr (.onKey hkey))
  · exact fun e world hperform =>
      h.called (.error hperform (.nil _)) (List.forall_mem_singleton.mpr (.onKey hkey))

/-- An operation on a key goes through no clone. -/
theorem beside_operation (l : Location) (operation : KeyOperation)
    (ctx : Context (Recorded (Hands W))) : ctx.Beside (endState (operation.act l) ctx) := by
  let session : Session (Recorded (Hands W)) ((Ambient.top ctx.ambient).map (·.handle)) :=
    Session.keeping ctx.Beside (fun _ h => by rw [h.ambient]) (fun _ entry h => h.logged entry)
      (fun _ hkey => keeps_beside hkey)
  exact (session.keyOperation l operation ctx (.refl ctx)).endState

end Context

end

end TransactionalRegistry
