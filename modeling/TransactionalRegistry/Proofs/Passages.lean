import TransactionalRegistry.Proofs.Dialogues

/-!
# The same operation in two worlds

One operation on a key runs in two worlds, from contexts that have something in common. In both it
makes the same calls as long as these are answered alike, and in both it goes through the same
phases: it is idle until it makes its first call, that call may open a key, and once the key is
closed, or none was opened, it makes no further call and is over.

A passage tells the phases apart. It says what the two contexts have in common in each of them, and
its rules check this for the few calls that an operation may make in a phase. What the two contexts
have in common when an operation is over may be much less than before: then nothing is asked of the
worlds any more. That a passage holds for every operation follows from the dialogue that the
operation is.

## Main definitions

* `Act.Together`: Two acts that end alike, with equal answers.
* `Passage`: What two contexts have in common in each phase of an operation.
* `Passage.Carries`: Acts that make a whole operation.

## Theorems

* `Passage.together_held`: A dialogue that goes through the phases in their order.
* `Passage.keyOperation`: Every operation on a key ends alike in the two worlds.
* `Session.keyOperation`: An operation that starts idle ends idle.
-/

namespace TransactionalRegistry

variable {W₁ W₂ ε ε' α β : Type}

/-! ## Acts that end alike -/

/-- Runs from contexts that are related by `P` end alike, and if they end with a value, with the
    same. -/
def Act.Together (P : Context W₁ → Context W₂ → Prop) (act₁ : Act W₁ ε α) (act₂ : Act W₂ ε α)
    (Q : α → Context W₁ → Context W₂ → Prop) (E : Context W₁ → Context W₂ → Prop) : Prop :=
  Agrees (fun _ => False) P act₁ act₂ (fun a b ctx₁ ctx₂ => a = b ∧ Q a ctx₁ ctx₂) E

section

open Act

variable {P R E : Context W₁ → Context W₂ → Prop} {Q : α → Context W₁ → Context W₂ → Prop}
  {act₁ : Act W₁ ε α} {act₂ : Act W₂ ε α}

theorem Act.together_of_alike (h : ∀ ctx₁ ctx₂, P ctx₁ ctx₂ →
    Alike (fun a b ctx₁' ctx₂' => a = b ∧ Q a ctx₁' ctx₂') E (act₁ ctx₁) (act₂ ctx₂)) :
    Together P act₁ act₂ Q E :=
  ⟨fun _ hnever => hnever.elim, fun ctx₁ ctx₂ hP => Or.inr (h ctx₁ ctx₂ hP)⟩

theorem Act.Together.alike (h : Together P act₁ act₂ Q E) {ctx₁ : Context W₁} {ctx₂ : Context W₂}
    (hP : P ctx₁ ctx₂) :
    Alike (fun a b ctx₁' ctx₂' => a = b ∧ Q a ctx₁' ctx₂') E (act₁ ctx₁) (act₂ ctx₂) :=
  (h.run ctx₁ ctx₂ hP).resolve_left (fun hnever => hnever)

/-- Acts that end alike have one outcome. -/
theorem Act.Together.outcome_eq (h : Together P act₁ act₂ Q E) {ctx₁ : Context W₁}
    {ctx₂ : Context W₂} (hP : P ctx₁ ctx₂) : outcome act₁ ctx₁ = outcome act₂ ctx₂ := by
  have halike := h.alike hP
  unfold outcome
  generalize act₁ ctx₁ = r₁ at halike
  generalize act₂ ctx₂ = r₂ at halike
  cases halike with
  | ok hends => exact congrArg Except.ok hends.1
  | error _ => rfl

/-- What they have in common at the end, if it does not depend on how they end. -/
theorem Act.Together.endStates (h : Together P act₁ act₂ (fun _ => E) E) {ctx₁ : Context W₁}
    {ctx₂ : Context W₂} (hP : P ctx₁ ctx₂) : E (endState act₁ ctx₁) (endState act₂ ctx₂) := by
  have halike := h.alike hP
  unfold endState
  generalize act₁ ctx₁ = r₁ at halike
  generalize act₂ ctx₂ = r₂ at halike
  cases halike with
  | ok hends => exact hends.2
  | error hends => exact hends

theorem Act.together_pure (a : α) (h : ∀ ctx₁ ctx₂, P ctx₁ ctx₂ → Q a ctx₁ ctx₂) :
    Together P (pure a : Act W₁ ε α) (pure a) Q E :=
  agrees_pure (fun ctx₁ ctx₂ hP => ⟨rfl, h ctx₁ ctx₂ hP⟩)

variable [Native W₁] [Native W₂]

theorem Act.together_log {R : Context W₁ → Context W₂ → Prop} (entry : LogEntry)
    (h : ∀ ctx₁ ctx₂, P ctx₁ ctx₂ → R (ctx₁.logged entry) (ctx₂.logged entry)) :
    Together P (log entry : Act W₁ ε Unit) (log entry) (fun _ => R) E :=
  together_of_alike (fun ctx₁ ctx₂ hP => .ok ⟨rfl, h ctx₁ ctx₂ hP⟩)

/-- A call that is answered alike is answered alike if its errors are answers, since no call
    panics. -/
theorem Act.Together.answered {E' : Context W₁ → Context W₂ → Prop} {route : Route} {call : Call}
    {Q : call.Answer → Context W₁ → Context W₂ → Prop}
    (h : Together P (callBy route call) (callBy route call) Q E) :
    Together P ((callBy route call).attempt : Act W₁ ε _) (callBy route call).attempt
      (fun result => match result with
        | .ok answer => Q answer
        | .error _ => E) E' := by
  refine together_of_alike (fun ctx₁ ctx₂ hP => ?_)
  have halike := h.alike hP
  -- No call panics, so a failure of both is an error of both, and the same one.
  have hends := Act.ends_callBy route call ctx₁
  generalize hrun₁ : callBy route call ctx₁ = r₁ at halike
  generalize hrun₂ : callBy route call ctx₂ = r₂ at halike
  cases halike with
  | ok hQ =>
    obtain ⟨rfl, hQ⟩ := hQ
    rw [attempt_of_ok hrun₁, attempt_of_ok hrun₂]
    exact .ok ⟨rfl, hQ⟩
  | error hE =>
    obtain ⟨⟨e, rfl⟩, -⟩ := hends.error hrun₁
    rw [attempt_of_error hrun₁, attempt_of_error hrun₂]
    exact .ok ⟨rfl, hE⟩

/-- A call after which the contexts have as much in common if it has opened a key as if it has
    not. -/
theorem Act.Together.whatever_opened {call : Call} {S : Context W₁ → Context W₂ → Prop}
    {opened : KeyHandle → Context W₁ → Context W₂ → Prop}
    (h : Together P (Act.call call) (Act.call call) (fun _ => S) E)
    (hopened : ∀ key ctx₁ ctx₂, S ctx₁ ctx₂ → opened key ctx₁ ctx₂)
    (hnone : ∀ ctx₁ ctx₂, S ctx₁ ctx₂ → R ctx₁ ctx₂) (hE : ∀ ctx₁ ctx₂, E ctx₁ ctx₂ → R ctx₁ ctx₂) :
    Together P (Act.call call) (Act.call call)
      (fun answer => match call.handle? answer with
        | some key => opened key
        | none => R)
      R := by
  refine h.mono (fun _ _ hP => hP) (fun answer _ ctx₁ ctx₂ hends => ⟨hends.1, ?_⟩) hE
  dsimp only
  cases call.handle? answer with
  | some key => exact hopened key ctx₁ ctx₂ hends.2
  | none => exact hnone ctx₁ ctx₂ hends.2

/-- A key that is closed by the same call in both worlds. -/
theorem Registry.agrees_closeKey {key : KeyHandle}
    (hclose : Agrees (fun _ => False) P (call (.closeKey key)) (call (.closeKey key))
      (fun _ _ => R) R)
    (hlogged : ∀ ctx₁ ctx₂ entry, R ctx₁ ctx₂ → R (ctx₁.logged entry) (ctx₂.logged entry)) :
    Agrees (fun _ => False) P (closeKey key : Act W₁ Empty Unit) (closeKey key)
      (fun _ _ => R) R := by
  -- Whether closing has failed or not, both contexts go on; a failure is logged in both.
  refine hclose.attempt_bind (fun _ _ => agrees_pure (fun _ _ hR => hR)) (fun e => ?_)
  exact (together_log _ (fun ctx₁ ctx₂ hR => hlogged ctx₁ ctx₂ _ hR)).mono_ok
    (fun _ _ _ _ hends => hends.2)

end

/-! ## Passages -/

/-- What two contexts have in common, with the given transaction current in both, while an operation
    is idle, while it has a key open, and when it is over. -/
structure Passage (W₁ W₂ : Type) [Native W₁] [Native W₂]
    (transaction : Option TransactionHandle) where
  Idle : Context W₁ → Context W₂ → Prop
  Open : KeyHandle → Context W₁ → Context W₂ → Prop
  Over : Context W₁ → Context W₂ → Prop
  current : ∀ ctx₁ ctx₂, Idle ctx₁ ctx₂ →
    (Ambient.top ctx₁.ambient).map (·.handle) = transaction ∧
      (Ambient.top ctx₂.ambient).map (·.handle) = transaction
  finished_of_idle : ∀ ctx₁ ctx₂, Idle ctx₁ ctx₂ → Over ctx₁ ctx₂
  idle_logged : ∀ ctx₁ ctx₂ entry, Idle ctx₁ ctx₂ → Idle (ctx₁.logged entry) (ctx₂.logged entry)
  open_logged : ∀ key ctx₁ ctx₂ entry, Open key ctx₁ ctx₂ →
    Open key (ctx₁.logged entry) (ctx₂.logged entry)
  over_logged : ∀ ctx₁ ctx₂ entry, Over ctx₁ ctx₂ → Over (ctx₁.logged entry) (ctx₂.logged entry)
  byPath : ∀ call, call.ByPath transaction → Act.Together Idle (Act.call call) (Act.call call)
    (fun answer => match call.handle? answer with
      | some key => Open key
      | none => Over)
    Over
  through : ∀ key call, call.Through transaction key →
    Act.Together (Open key) (Act.call call) (Act.call call) (fun _ => Open key) (Open key)
  close : ∀ key, Agrees (fun _ => False) (Open key) (Registry.closeKey key : Act W₁ Empty Unit)
    (Registry.closeKey key) (fun _ _ => Over) Over

namespace Passage

open Act

variable [Native W₁] [Native W₂] {transaction : Option TransactionHandle}
  (p : Passage W₁ W₂ transaction) {key : KeyHandle}

/-- Acts that start idle and are over when they end, in whichever way they do. -/
def Carries (act₁ : Act W₁ ε α) (act₂ : Act W₂ ε α) : Prop :=
  Together p.Idle act₁ act₂ (fun _ => p.Over) p.Over

/-- What the two contexts have in common in a phase. -/
def During : Phase → Context W₁ → Context W₂ → Prop
  | .idle => p.Idle
  | .holding key => p.Open key
  | .finished => p.Over

theorem during_logged {phase : Phase} {ctx₁ : Context W₁} {ctx₂ : Context W₂} (entry : LogEntry)
    (h : p.During phase ctx₁ ctx₂) : p.During phase (ctx₁.logged entry) (ctx₂.logged entry) := by
  cases phase with
  | idle => exact p.idle_logged ctx₁ ctx₂ entry h
  | holding key => exact p.open_logged key ctx₁ ctx₂ entry h
  | finished => exact p.over_logged ctx₁ ctx₂ entry h

theorem over_of_reaches {phase : Phase} (h : phase.Reaches .finished) {ctx₁ : Context W₁}
    {ctx₂ : Context W₂} (hduring : p.During phase ctx₁ ctx₂) : p.Over ctx₁ ctx₂ := by
  -- An operation that has not started has as much in common as one that is over.
  cases h with
  | refl => exact hduring
  | finished_of_idle => exact p.finished_of_idle ctx₁ ctx₂ hduring

/-- A call by path leads to the phase that its answer determines. -/
theorem together_byPath {call : Call} (h : call.ByPath none) :
    Together p.Idle (callBy ⟨transaction⟩ call) (callBy ⟨transaction⟩ call)
      (fun answer => p.During (Phase.after call (.ok answer))) p.Over := by
  cases h with
  | openKey root subKey access => exact p.byPath _ (.openKey root subKey access)
  | createKey root subKey access => exact p.byPath _ (.createKey root subKey access)
  | deleteKey root subKey => exact p.byPath _ (.deleteKey root subKey)
  | renameKey root subKey newName => exact p.byPath _ (.renameKey root subKey newName)

/-- A call through an open key leaves it open. -/
theorem together_through {call : Call} {key : KeyHandle} (h : call.Through none key) :
    Together (p.Open key) (callBy ⟨transaction⟩ call) (callBy ⟨transaction⟩ call)
      (fun _ => p.Open key) (p.Open key) := by
  cases h with
  | queryInfo => exact p.through key _ .queryInfo
  | enumKey index => exact p.through key _ (.enumKey index)
  | enumValue index => exact p.through key _ (.enumValue index)
  | getValue name => exact p.through key _ (.getValue name)
  | setValue name data => exact p.through key _ (.setValue name data)
  | deleteValue name => exact p.through key _ (.deleteValue name)

/-- A dialogue that goes through the phases in their order ends alike in the two worlds. -/
theorem together_held {d : Dialogue ε α} {phase : Phase}
    (h : d.Ordered (fun _ => .finished) .finished phase) :
    Together (p.During phase) (d.held ⟨transaction⟩) (d.held ⟨transaction⟩) (fun _ => p.Over)
      p.Over := by
  induction h with
  | @done phase ending hreaches =>
    cases ending with
    | ok a => exact together_pure a (fun _ _ => p.over_of_reaches hreaches)
    | error failure => exact agrees_throw (fun _ _ => p.over_of_reaches hreaches)
  | note _ ih => exact (together_log _ (fun _ _ => p.during_logged _)).bind_eq (fun _ => ih)
  | byPath hpath _ ih =>
    refine (p.together_byPath hpath).answered.bind_eq (fun result => (ih result).mono_pre ?_)
    cases result <;> exact fun _ _ h => h
  | through hthrough _ ih =>
    refine (p.together_through hthrough).answered.bind_eq (fun result => (ih result).mono_pre ?_)
    cases result <;> exact fun _ _ h => h
  | close _ ih => exact ((p.close _).mapError Empty.elim).bind_unit ih

/-- Every operation on a key ends alike in the two worlds. -/
theorem keyOperation (l : Location) (operation : KeyOperation) :
    p.Carries (operation.act l) (operation.act l) := by
  obtain ⟨d, hordered, hact⟩ := operation.spoken l
  refine together_of_alike (fun ctx₁ ctx₂ hidle => ?_)
  obtain ⟨htop₁, htop₂⟩ := p.current ctx₁ ctx₂ hidle
  have hroute₁ : ctx₁.route = ⟨transaction⟩ := congrArg Route.mk htop₁
  have hroute₂ : ctx₂.route = ⟨transaction⟩ := congrArg Route.mk htop₂
  have hrun₁ : operation.act l ctx₁ = d.held ctx₁.route ctx₁ := hact W₁ ctx₁
  have hrun₂ : operation.act l ctx₂ = d.held ctx₂.route ctx₂ := hact W₂ ctx₂
  rw [hrun₁, hrun₂, hroute₁, hroute₂]
  exact (p.together_held hordered).alike hidle

end Passage

/-! ## Sessions -/

section

variable {W : Type}

/-- An act ends alike if it is run twice. -/
theorem Act.together_self {P E : Context W → Prop} {Q : α → Context W → Prop} {act : Act W ε α}
    (h : ∀ ctx, P ctx → Ends act ctx Q (fun _ => E)) :
    Together (fun ctx ctx' => ctx = ctx' ∧ P ctx) act act (fun a ctx ctx' => ctx = ctx' ∧ Q a ctx)
      (fun ctx ctx' => ctx = ctx' ∧ E ctx) := by
  refine together_of_alike ?_
  rintro ctx _ ⟨rfl, hP⟩
  have hends := h ctx hP
  unfold Ends at hends
  generalize act ctx = r at hends
  cases r with
  | ok a ctx' => exact .ok ⟨rfl, rfl, hends⟩
  | error failure ctx' => exact .error ⟨rfl, hends⟩

variable [Native W] {transaction : Option TransactionHandle}

/-- A session is a passage of a world beside itself. -/
def Session.passage (s : Session W transaction) : Passage W W transaction where
  Idle ctx ctx' := ctx = ctx' ∧ s.Idle ctx
  Open key ctx ctx' := ctx = ctx' ∧ s.Open key ctx
  Over ctx ctx' := ctx = ctx' ∧ s.Idle ctx
  current := by
    rintro ctx _ ⟨rfl, hidle⟩
    exact ⟨s.current ctx hidle, s.current ctx hidle⟩
  finished_of_idle _ _ h := h
  idle_logged := by
    rintro ctx _ entry ⟨rfl, hidle⟩
    exact ⟨rfl, s.idle_logged ctx entry hidle⟩
  open_logged := by
    rintro key ctx _ entry ⟨rfl, hopen⟩
    exact ⟨rfl, s.open_logged key ctx entry hopen⟩
  over_logged := by
    rintro ctx _ entry ⟨rfl, hidle⟩
    exact ⟨rfl, s.idle_logged ctx entry hidle⟩
  byPath call hpath := by
    refine (Act.together_self (s.byPath call hpath)).mono_ok (fun answer _ _ _ h => ⟨h.1, ?_⟩)
    have hanswer := h.2
    dsimp only at hanswer ⊢
    cases hhandle : call.handle? answer with
    | some key => rwa [hhandle] at hanswer
    | none => rwa [hhandle] at hanswer
  through key call hthrough := Act.together_self (s.through key call hthrough)
  close key := by
    refine Registry.agrees_closeKey
      ((Act.together_self (s.close key)).mono_ok (fun _ _ _ _ h => h.2)) ?_
    rintro ctx _ entry ⟨rfl, hidle⟩
    exact ⟨rfl, s.idle_logged ctx entry hidle⟩

/-- An operation that starts idle ends idle, however it ends. -/
theorem Session.keyOperation (s : Session W transaction) (l : Location)
    (operation : KeyOperation) : Keeps s.Idle (operation.act l) :=
  fun _ hidle => ends_of_endState
    ((s.passage.keyOperation l operation).endStates ⟨rfl, hidle⟩).2

end

end TransactionalRegistry
