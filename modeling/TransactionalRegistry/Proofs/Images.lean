import TransactionalRegistry.Proofs.AmbientStack

/-!
# The image of a world

A map takes a world to its image if the image answers every call as the world does, and is left as
the image of what the world is left as. A recorded world has the world inside it as an image, and a
world that keeps more than it needs has an image that does not.

Nothing that is made of native calls can tell a world from its image. An act on the world and the
same act on the image end with the same value, the same error or the same panic, with the same
ambient stack and the same state of clones, and the one world they leave behind is the image of the
other. So what is proved of a world that keeps track of more is true of the bare one.

## Main definitions

* `Native.Image`: A map that takes a world to its image.
* `Act.Onto`: An act does on the image what another does on the world.
* `Routine.onto`: A routine of operations on keys, to be run on the image.

## Theorems

* `Act.Onto.bind`, `Act.Onto.attempt`, `Act.Onto.ensuring` and the like: Acts that are put together.
* `Policy.onto_call`: Policies.
* `KeyOperation.onto_act`: Operations on keys.
* `Routine.onto_act`: Routines.
-/

namespace TransactionalRegistry

variable {W W' ε ε' α β : Type}

/-- The result of a computation with the image of the state that it leaves behind. -/
def imageOf {σ σ' : Type} (f : σ → σ') : EStateM.Result ε σ α → EStateM.Result ε σ' α
  | .ok a s => .ok a (f s)
  | .error e s => .error e (f s)

/-- The world `W'` answers through `f` as the world `W` does. -/
structure Native.Image [Native W] [Native W'] (f : W → W') : Prop where
  perform : ∀ (call : Call) (w : W),
    Native.perform call (f w) = imageOf f (Native.perform call w)
  log : ∀ (entry : LogEntry) (w : W), Native.log entry (f w) = f (Native.log entry w)

/-- The world inside a recorder is an image of the recorded world. -/
theorem Recorded.image [Native W] : Native.Image (Recorded.world : Recorded W → W) where
  perform call r := by
    rw [Recorded.perform_eq]
    cases Native.perform call r.world <;> rfl
  log _ _ := rfl

/-- A context with the image of its world. -/
def Context.onto (f : W → W') (ctx : Context W) : Context W' :=
  ⟨f ctx.world, ctx.ambient, ctx.shared⟩

/-- On the image `act'` does what `act` does on the world: it ends in the same way, and leaves the
    image of what that leaves. -/
def Act.Onto (f : W → W') (act : Act W ε α) (act' : Act W' ε α) : Prop :=
  ∀ ctx, act' (ctx.onto f) = imageOf (Context.onto f) (act ctx)

variable {f : W → W'}

namespace Act

variable {act : Act W ε α} {act' : Act W' ε α}

/-- An act ends on the image as it does on the world. -/
theorem Onto.outcome (h : Onto f act act') (ctx : Context W) :
    TransactionalRegistry.outcome act' (ctx.onto f) = TransactionalRegistry.outcome act ctx := by
  unfold TransactionalRegistry.outcome
  rw [h ctx]
  cases act ctx <;> rfl

/-- An act leaves on the image the image of what it leaves on the world. -/
theorem Onto.endState (h : Onto f act act') (ctx : Context W) :
    TransactionalRegistry.endState act' (ctx.onto f)
      = (TransactionalRegistry.endState act ctx).onto f := by
  unfold TransactionalRegistry.endState
  rw [h ctx]
  cases act ctx <;> rfl

/-- An act and what does the same on the image end alike. -/
theorem Onto.together (h : Onto f act act') :
    Together (fun ctx ctx' => ctx' = ctx.onto f) act act' (fun _ ctx ctx' => ctx' = ctx.onto f)
      (fun ctx ctx' => ctx' = ctx.onto f) := by
  refine together_of_alike ?_
  rintro ctx _ rfl
  rw [h ctx]
  cases act ctx with
  | ok a ctx₁ => exact .ok ⟨rfl, rfl⟩
  | error failure ctx₁ => exact .error rfl

/-- Acts that end alike, the one on the image of the world of the other. -/
theorem Together.imageOf_eq {P : Context W → Context W' → Prop}
    (h : Together P act act' (fun _ ctx ctx' => ctx' = ctx.onto f)
      (fun ctx ctx' => ctx' = ctx.onto f)) {ctx : Context W} {ctx' : Context W'} (hP : P ctx ctx') :
    act' ctx' = imageOf (Context.onto f) (act ctx) := by
  have halike := h.alike hP
  -- Both results are made variables, so that the cases are how they go together.
  generalize act ctx = r at halike
  generalize act' ctx' = r' at halike
  cases halike with
  | ok hends =>
    rw [hends.1, hends.2]
    rfl
  | error hends =>
    rw [hends]
    rfl

/-! ## Acts that are put together -/

theorem onto_pure (a : α) : Onto f (pure a : Act W ε α) (pure a) :=
  fun _ => rfl

theorem onto_throw (failure : Failure ε) :
    Onto f (throw failure : Act W ε α) (throw failure) :=
  fun _ => rfl

theorem onto_ofExcept (result : Except ε α) :
    Onto f (ofExcept result : Act W ε α) (ofExcept result) := by
  cases result with
  | ok a => exact onto_pure a
  | error e => exact onto_throw _

/-- The rule for a step followed by the rest. -/
theorem Onto.bind {next : α → Act W ε β} {next' : α → Act W' ε β} (h : Onto f act act')
    (hnext : ∀ a, Onto f (next a) (next' a)) : Onto f (act >>= next) (act' >>= next') := by
  -- The second act runs on the image of what the first has left, if that has succeeded.
  intro ctx
  have hrun := h ctx
  cases hact : act ctx with
  | ok a ctx₁ =>
    rw [hact] at hrun
    rw [bind_of_ok hact, bind_of_ok hrun]
    exact hnext a ctx₁
  | error failure ctx₁ =>
    rw [hact] at hrun
    rw [bind_of_error hact, bind_of_error hrun]
    rfl

theorem Onto.mapError (g : ε → ε') (h : Onto f act act') :
    Onto f (act.mapError g) (act'.mapError g) := by
  intro ctx
  unfold Act.mapError
  rw [h ctx]
  rcases act ctx with ⟨a, ctx₁⟩ | ⟨failure, ctx₁⟩
  · rfl
  · cases failure <;> rfl

theorem Onto.attempt (h : Onto f act act') :
    Onto f (act.attempt : Act W ε' (Except ε α)) act'.attempt := by
  intro ctx
  unfold Act.attempt
  rw [h ctx]
  rcases act ctx with ⟨a, ctx₁⟩ | ⟨failure, ctx₁⟩
  · rfl
  · cases failure <;> rfl

theorem Onto.caught (h : Onto f act act') :
    Onto f (act.caught : Act W ε' (Except (Failure ε) α)) act'.caught := by
  intro ctx
  unfold Act.caught
  rw [h.outcome, h.endState]
  rfl

theorem Onto.lift {act : Act W Empty α} {act' : Act W' Empty α} (h : Onto f act act') :
    Onto f (lift act : Act W ε α) (lift act') :=
  h.mapError _

theorem Onto.onPanic {cleanup : Act W Empty Unit} {cleanup' : Act W' Empty Unit}
    (h : Onto f act act') (hcleanup : Onto f cleanup cleanup') :
    Onto f (act.onPanic cleanup) (act'.onPanic cleanup') := by
  intro ctx
  unfold Act.onPanic
  rw [h ctx]
  rcases act ctx with ⟨a, ctx₁⟩ | ⟨failure, ctx₁⟩
  · rfl
  · cases failure with
    | error e => rfl
    | panic message => exact (hcleanup.lift.bind (fun _ => onto_throw _)) ctx₁

theorem Onto.ensuring {cleanup : Act W Empty Unit} {cleanup' : Act W' Empty Unit}
    (h : Onto f act act') (hcleanup : Onto f cleanup cleanup') :
    Onto f (act.ensuring cleanup) (act'.ensuring cleanup') := by
  intro ctx
  unfold Act.ensuring
  rw [h ctx]
  rcases act ctx with ⟨a, ctx₁⟩ | ⟨failure, ctx₁⟩
  · exact (hcleanup.lift.bind (fun _ => onto_pure a)) ctx₁
  · exact (hcleanup.lift.bind (fun _ => onto_throw failure)) ctx₁

end Act

/-! ## Transactions -/

section

open Act

variable [Native W] [Native W'] (hf : Native.Image f)

include hf

/-- A call is answered alike, since that is what makes one world the image of another. -/
theorem Act.onto_call (call : Call) : Onto f (Act.call call) (Act.call call) := by
  intro ctx
  unfold Act.call
  rw [Context.onto, hf.perform]
  cases Native.perform call ctx.world <;> rfl

theorem Context.logged_onto {ctx : Context W} {ctx' : Context W'} {entry : LogEntry}
    (h : ctx' = ctx.onto f) : ctx'.logged entry = (ctx.logged entry).onto f := by
  rw [h, Context.logged, Context.onto, hf.log]
  rfl

theorem Act.onto_log (entry : LogEntry) :
    Onto f (Act.log entry : Act W ε Unit) (Act.log entry) := by
  intro ctx
  rw [Act.log_eq, Act.log_eq, Context.logged_onto hf rfl]
  rfl

namespace Transaction

variable (t : Transaction)

omit [Native W] [Native W'] hf in
theorem onto_shared : Onto f (t.shared : Act W ε Shared) t.shared :=
  fun _ => rfl

omit [Native W] [Native W'] hf in
theorem onto_update (g : Shared → Shared) :
    Onto f (modify (Context.updateShared t g) : Act W ε Unit)
      (modify (Context.updateShared t g)) :=
  fun _ => rfl

theorem onto_create (timeout : Duration) (description : Option String) :
    Onto f (Transaction.create timeout description) (Transaction.create timeout description) := by
  rw [Policy.create_eq, Policy.create_eq]
  simp only []
  cases timeout.wholeMillis? with
  | none => exact onto_throw _
  | some millis =>
    refine ((onto_call hf _).mapError _).bind (fun handle => ?_)
    exact (onto_log hf _).bind (fun _ _ => rfl)

theorem onto_query : Onto f t.query t.query := by
  refine t.onto_shared.bind (fun shared => ?_)
  cases shared.closed with
  | true => exact onto_pure _
  | false =>
    refine (onto_call hf _).attempt.bind (fun answer => ?_)
    cases answer with
    | ok outcome =>
      simp only []
      cases TransactionStatus.ofOutcome? outcome with
      | none => exact onto_pure _
      | some status => exact onto_pure _
    | error e =>
      simp only []
      split
      · exact onto_pure _
      · exact onto_throw _

theorem onto_status : Onto f t.status t.status := by
  refine (t.onto_query hf).bind (fun answer => ?_)
  cases answer with
  | ok status => exact onto_pure _
  | error outcome => exact onto_throw _

theorem onto_commit : Onto f t.commit t.commit := by
  -- A transaction that is closed is closed on both sides, since the state of clones is the same.
  have hopen : Onto f (t.requireOpen "CommitTransaction") (t.requireOpen "CommitTransaction") := by
    refine t.onto_shared.bind (fun shared => ?_)
    cases shared.closed with
    | true => exact onto_throw _
    | false => exact onto_pure _
  exact hopen.bind (fun _ => ((onto_call hf _).mapError _).bind (fun _ => onto_log hf _))

theorem onto_close : Onto f t.close t.close := by
  refine t.onto_shared.bind (fun shared => ?_)
  cases shared.closed with
  | true => exact onto_log hf _
  | false =>
    refine (t.onto_update _).bind (fun _ => ?_)
    exact ((onto_call hf _).mapError _).bind (fun _ => onto_log hf _)

theorem onto_release : Onto f (t.release : Act W ε Unit) t.release := by
  refine t.onto_shared.bind (fun before => (t.onto_update _).bind (fun _ => ?_))
  -- Whether this was the last clone is read off the state of clones, which is the same.
  split
  · refine (onto_log hf _).bind (fun _ => (onto_call hf _).attempt.bind (fun answer => ?_))
    cases answer with
    | ok _ => exact onto_pure _
    | error e => exact onto_log hf _
  · exact onto_pure _

end Transaction

/-! ## Policies -/

theorem Ambient.onto_leave : Onto f (Ambient.leave : Act W ε Unit) Ambient.leave := by
  intro ctx
  -- The entry that is taken off is the same on both sides.
  have hrelease : Onto f ((Ambient.top ctx.ambient).forM Transaction.release : Act W ε PUnit)
      ((Ambient.top ctx.ambient).forM Transaction.release) := by
    cases Ambient.top ctx.ambient with
    | none => exact onto_pure _
    | some t => exact t.onto_release hf
  have htail : Onto f (modify fun ctx => { ctx with ambient := ctx.ambient.tail } : Act W ε Unit)
      (modify fun ctx => { ctx with ambient := ctx.ambient.tail }) := fun _ => rfl
  exact (htail.bind (fun _ => (onto_log hf _).bind (fun _ => hrelease))) ctx

theorem Ambient.onto_within (entry : Option Transaction) {act : Act W ε α} {act' : Act W' ε α}
    (h : Onto f act act') : Onto f (Ambient.within entry act) (Ambient.within entry act') := by
  have hretain : Onto f (entry.forM Transaction.retain : Act W ε PUnit)
      (entry.forM Transaction.retain) := by
    cases entry with
    | none => exact onto_pure _
    | some t => exact t.onto_update _
  have henter : Onto f (Ambient.enter entry : Act W ε Unit) (Ambient.enter entry) :=
    hretain.bind (fun _ => (onto_log hf _).bind (fun _ _ => rfl))
  exact henter.bind (fun _ => h.ensuring (Ambient.onto_leave hf))

namespace Policy

/-- Settling goes by the status and by the flag of the clones, which are alike. -/
theorem onto_settle (t : Transaction) : Onto f (settle t) (settle t) := by
  refine (t.onto_status hf).bind (fun status => ?_)
  cases status with
  | active =>
    refine t.onto_shared.bind (fun shared => ?_)
    cases shared.autoCommit with
    | true => exact t.onto_commit hf
    | false => exact onto_log hf _
  | _ => exact onto_log hf _

theorem onto_closeOnUnwind (t : Transaction) :
    Onto f (closeOnUnwind t : Act W ε Unit) (closeOnUnwind t) := by
  refine (onto_log hf _).bind (fun _ => (t.onto_close hf).attempt.bind (fun closed => ?_))
  cases closed with
  | ok _ => exact t.onto_release hf
  | error e => exact (onto_log hf _).bind (fun _ => t.onto_release hf)

theorem onto_finishing (t : Transaction) {act : Act W ε α} {act' : Act W' ε α}
    (h : Onto f act act') : Onto f (finishing t act) (finishing t act') := by
  -- The work is attempted, so that its errors come before the transaction is closed.
  have hsettle : Onto f (actAndSettle t act) (actAndSettle t act') := by
    refine h.attempt.bind (fun result => ?_)
    cases result with
    | ok a => exact (onto_settle hf t).attempt.bind (fun settled => onto_pure _)
    | error e => exact onto_pure _
  refine (hsettle.onPanic (onto_closeOnUnwind hf t)).lift.bind ?_
  rintro ⟨result, settled⟩
  refine (t.onto_close hf).attempt.bind (fun closed => ?_)
  exact (t.onto_release hf).bind (fun _ => onto_ofExcept _)

theorem onto_inNewTransaction (policy : Policy) {act : Act W ε α} {act' : Act W' ε α}
    (h : Onto f act act') :
    Onto f (policy.inNewTransaction act) (policy.inNewTransaction act') := by
  refine ((Transaction.onto_create hf _ _).mapError _).bind (fun t => ?_)
  refine (onto_log hf _).bind (fun _ => ?_)
  exact Ambient.onto_within hf _ (onto_finishing hf t h)

/-- A policy does on the image what it does on the world, if its work does. -/
theorem onto_call (policy : Policy) {act : Act W ε α} {act' : Act W' ε α} (h : Onto f act act') :
    Onto f (policy.call act) (policy.call act') := by
  have hcurrent : Onto f (Ambient.current : Act W (PropagationError ε) _) Ambient.current :=
    fun _ => rfl
  -- Both sides find the same transaction current, so both do the same of the three things.
  refine hcurrent.bind (fun current => (onto_log hf _).bind (fun _ => ?_))
  have hplain : Onto f (plainly act) (plainly act') := h.mapError _
  have hnew := onto_inNewTransaction hf policy h
  cases policy.propagation <;> cases current
  case mandatory.none => exact onto_throw _
  case never.some => exact onto_throw _
  case notSupported.some => exact Ambient.onto_within hf none hplain
  case required.none => exact hnew
  case requiresNew.none => exact hnew
  case requiresNew.some => exact Ambient.onto_within hf none hnew
  all_goals exact hplain

end Policy

/-! ## Operations on keys -/

/-- An operation runs on a world and on its image, which stays the image. -/
def Native.Image.passage (stack : List (Option Transaction)) :
    Passage W W' ((Ambient.top stack).map (·.handle)) where
  Idle ctx ctx' := ctx.ambient = stack ∧ ctx' = ctx.onto f
  Open _ ctx ctx' := ctx' = ctx.onto f
  Over ctx ctx' := ctx' = ctx.onto f
  current := by
    rintro ctx _ ⟨hambient, rfl⟩
    rw [Context.onto, hambient]
    exact ⟨rfl, rfl⟩
  finished_of_idle _ _ h := h.2
  idle_logged ctx _ entry h := ⟨h.1, Context.logged_onto hf h.2⟩
  open_logged _ _ _ entry h := Context.logged_onto hf h
  over_logged _ _ entry h := Context.logged_onto hf h
  byPath call _ :=
    ((onto_call hf call).together.whatever_opened (fun _ _ _ h => h) (fun _ _ h => h)
      (fun _ _ h => h)).mono_pre (fun _ _ h => h.2)
  through _ call _ := (onto_call hf call).together
  close key := Registry.agrees_closeKey
    ((onto_call hf (.closeKey key)).together.mono_ok (fun _ _ _ _ h => h.2))
    (fun _ _ _ h => Context.logged_onto hf h)

theorem KeyOperation.onto_act (l : Location) (operation : KeyOperation) :
    Onto f (operation.act l) (operation.act l) := by
  intro ctx
  exact ((hf.passage ctx.ambient).keyOperation l operation).imageOf_eq ⟨rfl, rfl⟩

end

/-! ## Routines -/

/-- The operations on keys, as a vocabulary. -/
def Vocabulary.keys (W : Type) [Native W] : Vocabulary W where
  Step := Location × KeyOperation
  Error _ := RegistryError
  Answer step := step.2.Answer
  act step := step.2.act step.1
  ambient step ctx :=
    ((Context.steady_stacked ctx.ambient).calm.keeps_operation step.1 step.2).endState rfl

variable [Native W] [Native W']

/-- The same routine, to be run on another world. -/
def Routine.onto (W' : Type) [Native W'] {ε α : Type} :
    Routine (Vocabulary.keys W) ε α → Routine (Vocabulary.keys W') ε α
  | done ending => .done ending
  | step s next =>
    .step (v := Vocabulary.keys W') s (fun ending => (next ending).onto W')
  | under policy body next => .under policy (body.onto W') (fun ending => (next ending).onto W')

/-- A routine does on the image what it does on the world. -/
theorem Routine.onto_act (hf : Native.Image f) {ε α : Type}
    (routine : Routine (Vocabulary.keys W) ε α) : Act.Onto f routine.act (routine.onto W').act := by
  -- Every step ends alike on both sides, so the routines go on by the same branch.
  induction routine with
  | done ending => cases ending <;> exact fun _ => rfl
  | step s next ih => exact (s.2.onto_act hf s.1).caught.bind ih
  | under policy body next ihbody ih => exact (policy.onto_call hf ihbody).caught.bind ih

end TransactionalRegistry
