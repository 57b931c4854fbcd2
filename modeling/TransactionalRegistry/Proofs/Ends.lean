import TransactionalRegistry.Store.Basic

/-!
# How a computation ends

A computation on a state ends with a value or with an error, and leaves a state behind either way.
`Ends` says what holds at the end of a run, with one condition for each of the two ways, and it
composes: a computation made of steps ends as asked if its first step ends in a state from which the
rest ends as asked. What each step of the store does is stated once in this form, and the calls that
are made of those steps are read off their text.

## Main definitions

* `Ends`: What holds at the end of a run from a state.
* `endState`: The state that a run leaves behind.
* `outcome`: The value or the error that a run ends with.

## Theorems

* `Ends.mono`: A weaker condition holds where a stronger one does.
* `Ends.and`: Two conditions that hold at the end hold together.
* `ends_bind`: A computation made of a step and the rest ends as its rest does.
* `Ends.outcome`: What holds at the end of a run holds of its outcome and of the state left behind.
-/

namespace TransactionalRegistry

section

variable {ε σ α β : Type}

/-- What holds at the end of a run of `m` from `s`: `Q` of its value, or `E` of its error, and of
    the state that is left behind. -/
def Ends (m : EStateM ε σ α) (s : σ) (Q : α → σ → Prop) (E : ε → σ → Prop) : Prop :=
  match m s with
  | .ok a s' => Q a s'
  | .error e s' => E e s'

/-- The state that a run of `m` from `s` leaves behind. -/
def endState (m : EStateM ε σ α) (s : σ) : σ :=
  match m s with
  | .ok _ s' => s'
  | .error _ s' => s'

/-- The value or the error that a run of `m` from `s` ends with. -/
def outcome (m : EStateM ε σ α) (s : σ) : Except ε α :=
  match m s with
  | .ok a _ => .ok a
  | .error e _ => .error e

variable {Q Q' : α → σ → Prop} {E E' : ε → σ → Prop} {m : EStateM ε σ α} {s s' : σ}

instance [∀ a s', Decidable (Q a s')] [∀ e s', Decidable (E e s')] : Decidable (Ends m s Q E) :=
  match hm : m s with
  | .ok a s' => decidable_of_iff (Q a s') (by rw [Ends, hm])
  | .error e s' => decidable_of_iff (E e s') (by rw [Ends, hm])

/-- What holds at the end may be weakened. -/
theorem Ends.mono (h : Ends m s Q E) (hQ : ∀ a s', Q a s' → Q' a s')
    (hE : ∀ e s', E e s' → E' e s') : Ends m s Q' E' := by
  -- What is known of a run becomes what is known of its result once that has a name.
  unfold Ends at h ⊢
  cases hm : m s with
  | ok a s' =>
    rw [hm] at h
    exact hQ a s' h
  | error e s' =>
    rw [hm] at h
    exact hE e s' h

/-- Two facts about one run hold together at its end. -/
theorem Ends.and (h : Ends m s Q E) (h' : Ends m s Q' E') :
    Ends m s (fun a s' => Q a s' ∧ Q' a s') (fun e s' => E e s' ∧ E' e s') := by
  unfold Ends at h h' ⊢
  cases hm : m s with
  | ok a s' =>
    rw [hm] at h h'
    exact ⟨h, h'⟩
  | error e s' =>
    rw [hm] at h h'
    exact ⟨h, h'⟩

theorem Ends.ok {a : α} (h : Ends m s Q E) (hm : m s = .ok a s') : Q a s' := by
  unfold Ends at h
  rw [hm] at h
  exact h

theorem Ends.error {e : ε} (h : Ends m s Q E) (hm : m s = .error e s') : E e s' := by
  unfold Ends at h
  rw [hm] at h
  exact h

/-- What holds at the end of every run holds at the end of this one. -/
theorem ends_of_forall (hQ : ∀ a s', Q a s') (hE : ∀ e s', E e s') : Ends m s Q E := by
  unfold Ends
  cases m s with
  | ok a s' => exact hQ a s'
  | error e s' => exact hE e s'

/-- What holds at the end of a run holds of its outcome and of the state left behind. -/
theorem Ends.outcome {P : Except ε α → σ → Prop}
    (h : Ends m s (fun a s' => P (.ok a) s') (fun e s' => P (.error e) s')) :
    P (outcome m s) (endState m s) := by
  unfold Ends at h
  unfold TransactionalRegistry.outcome TransactionalRegistry.endState
  cases hm : m s with
  | ok a s' =>
    rw [hm] at h
    exact h
  | error e s' =>
    rw [hm] at h
    exact h

/-- What holds of the outcome of a run and of the state left behind holds at its end. -/
theorem ends_of_outcome {P : Except ε α → σ → Prop}
    (h : P (TransactionalRegistry.outcome m s) (TransactionalRegistry.endState m s)) :
    Ends m s (fun a s' => P (.ok a) s') (fun e s' => P (.error e) s') := by
  unfold TransactionalRegistry.outcome TransactionalRegistry.endState at h
  unfold Ends
  cases hm : m s with
  | ok a s' =>
    rw [hm] at h
    exact h
  | error e s' =>
    rw [hm] at h
    exact h

/-- A run that can only end with one value does. -/
theorem Ends.outcome_ok {a : α} (h : Ends m s (fun b _ => b = a) (fun _ _ => False)) :
    TransactionalRegistry.outcome m s = .ok a :=
  Ends.outcome (P := fun result _ => result = .ok a)
    (h.mono (fun _ _ hb => congrArg Except.ok hb) (fun _ _ hnever => hnever.elim))

theorem Ends.endState {P : σ → Prop} (h : Ends m s (fun _ => P) (fun _ => P)) :
    P (endState m s) :=
  Ends.outcome (P := fun _ => P) h

theorem ends_of_endState {P : σ → Prop} (h : P (TransactionalRegistry.endState m s)) :
    Ends m s (fun _ => P) (fun _ => P) := by
  unfold TransactionalRegistry.endState at h
  unfold Ends
  cases hm : m s with
  | ok a s' =>
    rw [hm] at h
    exact h
  | error e s' =>
    rw [hm] at h
    exact h

/-- A run that cannot fail. -/
theorem Ends.endState_total {P : σ → Prop} (h : Ends m s (fun _ => P) (fun _ _ => False)) :
    P (TransactionalRegistry.endState m s) :=
  (h.mono (fun _ _ hP => hP) (fun _ _ hnever => hnever.elim)).endState

/-- A run that ends with a value leaves its end state behind. -/
theorem eq_of_outcome {a : α} (h : TransactionalRegistry.outcome m s = .ok a) :
    m s = .ok a (TransactionalRegistry.endState m s) := by
  unfold TransactionalRegistry.outcome at h
  unfold TransactionalRegistry.endState
  cases hm : m s with
  | ok b s' =>
    rw [hm] at h
    exact congrArg (EStateM.Result.ok · s') (Except.ok.inj h)
  | error e s' =>
    rw [hm] at h
    exact absurd h (by simp)

/-- A run that ends with an error leaves its end state behind. -/
theorem eq_of_outcome_error {e : ε} (h : TransactionalRegistry.outcome m s = .error e) :
    m s = .error e (TransactionalRegistry.endState m s) := by
  unfold TransactionalRegistry.outcome at h
  unfold TransactionalRegistry.endState
  cases hm : m s with
  | ok b s' =>
    rw [hm] at h
    exact absurd h (by simp)
  | error e' s' =>
    rw [hm] at h
    exact congrArg (EStateM.Result.error · s') (Except.error.inj h)

theorem ends_pure {a : α} (h : Q a s) : Ends (pure a) s Q E :=
  h

theorem ends_throw {e : ε} (h : E e s) : Ends (throw e : EStateM ε σ α) s Q E :=
  h

theorem ends_get {Q : σ → σ → Prop} (h : Q s s) : Ends (get : EStateM ε σ σ) s Q E :=
  h

theorem ends_modify {Q : PUnit → σ → Prop} {f : σ → σ} (h : Q ⟨⟩ (f s)) :
    Ends (modify f : EStateM ε σ PUnit) s Q E :=
  h

theorem endState_of_ok {a : α} (hm : m s = .ok a s') : endState m s = s' := by
  rw [endState, hm]

theorem endState_of_error {e : ε} (hm : m s = .error e s') : endState m s = s' := by
  rw [endState, hm]

/-- After a value the rest goes on from where the step has left off. -/
theorem bind_of_ok {m : EStateM ε σ β} {f : β → EStateM ε σ α} {b : β} (hm : m s = .ok b s') :
    (m >>= f) s = f b s' := by
  change EStateM.bind m f s = _
  simp only [EStateM.bind, hm]

/-- After an error the rest is not run. -/
theorem bind_of_error {m : EStateM ε σ β} {f : β → EStateM ε σ α} {e : ε}
    (hm : m s = .error e s') : (m >>= f) s = .error e s' := by
  change EStateM.bind m f s = _
  simp only [EStateM.bind, hm]

/-- What is only computed from an answer leaves the state alone. -/
theorem endState_bind_pure (m : EStateM ε σ β) (f : β → α) (s : σ) :
    endState (m >>= fun b => pure (f b)) s = endState m s := by
  cases hm : m s with
  | ok b s' => rw [endState, bind_of_ok hm, endState_of_ok hm]; rfl
  | error e s' => rw [endState, bind_of_error hm, endState_of_error hm]

/-- What comes first decides from where the rest goes on. -/
theorem bind_congr_run {m m' : EStateM ε σ β} {f : β → EStateM ε σ α} (h : m s = m' s') :
    (m >>= f) s = (m' >>= f) s' := by
  change EStateM.bind m f s = EStateM.bind m' f s'
  simp only [EStateM.bind, h]

/-- The rule for a step followed by the rest. An error of the step is the error of the whole. -/
theorem ends_bind {m : EStateM ε σ β} {f : β → EStateM ε σ α}
    (h : Ends m s (fun b s' => Ends (f b) s' Q E) E) : Ends (m >>= f) s Q E := by
  unfold Ends at h
  cases hm : m s with
  | ok b s' =>
    rw [hm] at h
    unfold Ends
    rw [bind_of_ok hm]
    exact h
  | error e s' =>
    rw [hm] at h
    unfold Ends
    rw [bind_of_error hm]
    exact h

/-- The rule for a step followed by the rest, when the step has a lemma of its own. -/
theorem Ends.bind {m : EStateM ε σ β} {f : β → EStateM ε σ α} {R : β → σ → Prop} {F : ε → σ → Prop}
    (h : Ends m s R F) (hf : ∀ b s', R b s' → Ends (f b) s' Q E) (hE : ∀ e s', F e s' → E e s') :
    Ends (m >>= f) s Q E :=
  ends_bind (h.mono hf hE)

end

end TransactionalRegistry
