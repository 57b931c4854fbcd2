import TransactionalRegistry.Proofs.Ends
import TransactionalRegistry.Registry.Route

/-!
# Two computations that agree

Two computations, on states of their own, agree if runs from related states end in the same way,
with related answers or with the same error, and leave related states behind. A computation made of
steps agrees with another one if the steps agree one by one.

The second of the two may come too late, and once it is late it stays late. Then nothing is said
about it any more: whoever uses the agreement knows when the second run was over, and so knows that
it never was late. That is why an agreement says of the second computation alone, from every state,
that it keeps a late state late.

## Main definitions

* `Keeps`: A computation that never leaves a set of states.
* `Alike`: Two ends of the same kind.
* `Agrees`: Two computations that end alike from related states, unless the second comes too late.

## Theorems

* `Keeps.bind`, `Agrees.bind`: Steps followed by the rest.
* `Agrees.bind_eq`, `Agrees.bind_unit`: Steps with equal answers, or with none to speak of.
* `Agrees.mapError`, `Agrees.attempt_bind`, `Agrees.ensuring`, `Registry.agrees_enumerate`: How acts
  are put together.
-/

namespace TransactionalRegistry

section

variable {ε σ σ₁ σ₂ α β : Type}

/-! ## Computations that stay -/

/-- A run from a state in `K` ends in such a state, whichever way it ends. -/
def Keeps (K : σ → Prop) (m : EStateM ε σ α) : Prop :=
  ∀ s, K s → Ends m s (fun _ => K) (fun _ => K)

variable {K : σ → Prop} {m : EStateM ε σ α}

/-- A run that begins in `K` ends in it. -/
theorem Keeps.endState (h : Keeps K m) {s : σ} (hs : K s) : K (endState m s) :=
  (h s hs).endState

/-- An answer by itself leaves the state alone. -/
theorem keeps_pure (a : α) : Keeps K (pure a : EStateM ε σ α) :=
  fun _ h => h

/-- So does a failure. -/
theorem keeps_throw (e : ε) : Keeps K (throw e : EStateM ε σ α) :=
  fun _ h => h

/-- So does reading the state. -/
theorem keeps_get : Keeps K (get : EStateM ε σ σ) :=
  fun _ h => h

/-- A change of the state must keep to `K` by itself. -/
theorem keeps_modify {f : σ → σ} (hf : ∀ s, K s → K (f s)) :
    Keeps K (modify f : EStateM ε σ PUnit) :=
  fun s h => hf s h

/-- Two steps stay if both do. -/
theorem Keeps.bind {m : EStateM ε σ β} {f : β → EStateM ε σ α} (h : Keeps K m)
    (hf : ∀ b, Keeps K (f b)) : Keeps K (m >>= f) :=
  fun s hs => (h s hs).bind (fun b s' hs' => hf b s' hs') (fun _ _ h => h)

/-- What holds after the first step holds after the rest, if the rest keeps it. -/
theorem Keeps.endState_bind {m : EStateM ε σ β} {f : β → EStateM ε σ α} (hf : ∀ b, Keeps K (f b))
    {s : σ} (h : K (TransactionalRegistry.endState m s)) :
    K (TransactionalRegistry.endState (m >>= f) s) := by
  unfold TransactionalRegistry.endState at h ⊢
  cases hm : m s with
  | ok b s' =>
    rw [hm] at h
    rw [bind_of_ok hm]
    exact (hf b).endState h
  | error e s' =>
    rw [hm] at h
    rw [bind_of_error hm]
    exact h

/-! ## Computations that agree -/

/-- Two ends of the same kind: with answers and states that are related by `Q`, or with one error
    and states that are related by `E`. -/
inductive Alike (Q : α → α → σ₁ → σ₂ → Prop) (E : σ₁ → σ₂ → Prop) :
    EStateM.Result ε σ₁ α → EStateM.Result ε σ₂ α → Prop
  | ok {a b : α} {s₁ : σ₁} {s₂ : σ₂} : Q a b s₁ s₂ → Alike Q E (.ok a s₁) (.ok b s₂)
  | error {e : ε} {s₁ : σ₁} {s₂ : σ₂} : E s₁ s₂ → Alike Q E (.error e s₁) (.error e s₂)

/-- Runs from states that are related by `P` end alike, unless the second one is late by then; and
    the second one never comes back from being late. -/
structure Agrees (Late : σ₂ → Prop) (P : σ₁ → σ₂ → Prop) (m₁ : EStateM ε σ₁ α)
    (m₂ : EStateM ε σ₂ α) (Q : α → α → σ₁ → σ₂ → Prop) (E : σ₁ → σ₂ → Prop) : Prop where
  late : Keeps Late m₂
  run : ∀ s₁ s₂, P s₁ s₂ → Late (endState m₂ s₂) ∨ Alike Q E (m₁ s₁) (m₂ s₂)

variable {Late : σ₂ → Prop} {P P' : σ₁ → σ₂ → Prop} {Q Q' : α → α → σ₁ → σ₂ → Prop}
  {E E' : σ₁ → σ₂ → Prop} {m₁ : EStateM ε σ₁ α} {m₂ : EStateM ε σ₂ α}

/-- How two runs end alike may be said in weaker terms. -/
theorem Alike.mono {r₁ : EStateM.Result ε σ₁ α} {r₂ : EStateM.Result ε σ₂ α}
    (h : Alike Q E r₁ r₂) (hQ : ∀ a b s₁ s₂, Q a b s₁ s₂ → Q' a b s₁ s₂)
    (hE : ∀ s₁ s₂, E s₁ s₂ → E' s₁ s₂) : Alike Q' E' r₁ r₂ := by
  cases h with
  | ok h => exact .ok (hQ _ _ _ _ h)
  | error h => exact .error (hE _ _ h)

namespace Agrees

/-- How two computations agree may be said in weaker terms, and of fewer states. -/
theorem mono (h : Agrees Late P m₁ m₂ Q E) (hP : ∀ s₁ s₂, P' s₁ s₂ → P s₁ s₂)
    (hQ : ∀ a b s₁ s₂, Q a b s₁ s₂ → Q' a b s₁ s₂) (hE : ∀ s₁ s₂, E s₁ s₂ → E' s₁ s₂) :
    Agrees Late P' m₁ m₂ Q' E' where
  late := h.late
  run s₁ s₂ hs := (h.run s₁ s₂ (hP s₁ s₂ hs)).imp_right (·.mono hQ hE)

/-- Computations agree on fewer states. -/
theorem mono_pre (h : Agrees Late P m₁ m₂ Q E) (hP : ∀ s₁ s₂, P' s₁ s₂ → P s₁ s₂) :
    Agrees Late P' m₁ m₂ Q E :=
  h.mono hP (fun _ _ _ _ h => h) (fun _ _ h => h)

/-- Answers may be related in weaker terms. -/
theorem mono_ok (h : Agrees Late P m₁ m₂ Q E) (hQ : ∀ a b s₁ s₂, Q a b s₁ s₂ → Q' a b s₁ s₂) :
    Agrees Late P m₁ m₂ Q' E :=
  h.mono (fun _ _ h => h) hQ (fun _ _ h => h)

/-- So may the states after an error. -/
theorem mono_error (h : Agrees Late P m₁ m₂ Q E) (hE : ∀ s₁ s₂, E s₁ s₂ → E' s₁ s₂) :
    Agrees Late P m₁ m₂ Q E' :=
  h.mono (fun _ _ h => h) (fun _ _ _ _ h => h) hE

/-- The rule for a step followed by the rest, when the answers of the step are related by `R` in
    all states. Being late is no reason for answers to differ, so every answer is related to
    itself. -/
theorem bind_of {R : β → β → Prop} {Q : β → β → σ₁ → σ₂ → Prop} {Q' : α → α → σ₁ → σ₂ → Prop}
    {m₁ : EStateM ε σ₁ β} {m₂ : EStateM ε σ₂ β} {f₁ : β → EStateM ε σ₁ α}
    {f₂ : β → EStateM ε σ₂ α} (h : Agrees Late P m₁ m₂ Q E)
    (hR : ∀ a b s₁ s₂, Q a b s₁ s₂ → R a b) (hrefl : ∀ b, R b b)
    (hf : ∀ a b, R a b → Agrees Late (Q a b) (f₁ a) (f₂ b) Q' E) :
    Agrees Late P (m₁ >>= f₁) (m₂ >>= f₂) Q' E where
  late := h.late.bind (fun b => (hf b b (hrefl b)).late)
  run s₁ s₂ hs := by
    rcases h.run s₁ s₂ hs with hlate | halike
    · -- A step that comes too late leaves the rest late, whatever the other run does.
      exact Or.inl (Keeps.endState_bind (fun b => (hf b b (hrefl b)).late) hlate)
    · -- In time both runs of the step have answered, or both have failed and nothing follows.
      generalize h₁ : m₁ s₁ = r₁ at halike
      generalize h₂ : m₂ s₂ = r₂ at halike
      unfold endState
      cases halike with
      | ok hQ =>
        rw [bind_of_ok h₁, bind_of_ok h₂]
        exact (hf _ _ (hR _ _ _ _ hQ)).run _ _ hQ
      | error hE =>
        rw [bind_of_error h₁, bind_of_error h₂]
        exact Or.inr (.error hE)

/-- The rule for a step followed by the rest. -/
theorem bind {Q : β → β → σ₁ → σ₂ → Prop} {Q' : α → α → σ₁ → σ₂ → Prop} {m₁ : EStateM ε σ₁ β}
    {m₂ : EStateM ε σ₂ β} {f₁ : β → EStateM ε σ₁ α} {f₂ : β → EStateM ε σ₂ α}
    (h : Agrees Late P m₁ m₂ Q E) (hf : ∀ a b, Agrees Late (Q a b) (f₁ a) (f₂ b) Q' E) :
    Agrees Late P (m₁ >>= f₁) (m₂ >>= f₂) Q' E :=
  h.bind_of (R := fun _ _ => True) (fun _ _ _ _ _ => trivial) (fun _ => trivial)
    (fun a b _ => hf a b)

/-- The rule for a step with equal answers followed by the rest. -/
theorem bind_eq {R : β → σ₁ → σ₂ → Prop} {Q' : α → α → σ₁ → σ₂ → Prop} {m₁ : EStateM ε σ₁ β}
    {m₂ : EStateM ε σ₂ β} {f₁ : β → EStateM ε σ₁ α} {f₂ : β → EStateM ε σ₂ α}
    (h : Agrees Late P m₁ m₂ (fun a b s₁ s₂ => a = b ∧ R a s₁ s₂) E)
    (hf : ∀ a, Agrees Late (R a) (f₁ a) (f₂ a) Q' E) :
    Agrees Late P (m₁ >>= f₁) (m₂ >>= f₂) Q' E := by
  refine h.bind_of (R := Eq) (fun _ _ _ _ h => h.1) (fun _ => rfl) ?_
  intro a b heq
  subst heq
  exact (hf a).mono_pre (fun _ _ h => h.2)

/-- The rule for a step whose answer says nothing followed by the rest. -/
theorem bind_unit {R : σ₁ → σ₂ → Prop} {m₁ : EStateM ε σ₁ Unit} {m₂ : EStateM ε σ₂ Unit}
    {f₁ : Unit → EStateM ε σ₁ α} {f₂ : Unit → EStateM ε σ₂ α}
    (h : Agrees Late P m₁ m₂ (fun _ _ => R) E)
    (hf : Agrees Late R (f₁ ()) (f₂ ()) Q E) : Agrees Late P (m₁ >>= f₁) (m₂ >>= f₂) Q E :=
  h.bind (fun _ _ => hf)

/-- What is known of the first run alone is kept beside what the runs have in common. -/
theorem and_first {T : σ₁ → Prop} {T' : α → σ₁ → Prop} {F : ε → σ₁ → Prop}
    (h : Agrees Late P m₁ m₂ Q E) (hfirst : ∀ s₁, T s₁ → Ends m₁ s₁ T' F) :
    Agrees Late (fun s₁ s₂ => P s₁ s₂ ∧ T s₁) m₁ m₂
      (fun a b s₁ s₂ => Q a b s₁ s₂ ∧ T' a s₁) E where
  late := h.late
  run s₁ s₂ hs := by
    refine (h.run s₁ s₂ hs.1).imp_right ?_
    intro halike
    have hends := hfirst s₁ hs.2
    unfold Ends at hends
    generalize m₁ s₁ = r₁ at halike hends
    generalize m₂ s₂ = r₂ at halike
    cases halike with
    | ok hQ => exact .ok ⟨hQ, hends⟩
    | error hE => exact .error hE

end Agrees

/-- Two answers agree if they are related. -/
theorem agrees_pure {a b : α} (h : ∀ s₁ s₂, P s₁ s₂ → Q a b s₁ s₂) :
    Agrees Late P (pure a : EStateM ε σ₁ α) (pure b) Q E where
  late := keeps_pure b
  run s₁ s₂ hs := Or.inr (.ok (h s₁ s₂ hs))

/-- The same failure is told by both. -/
theorem agrees_throw {e : ε} (h : ∀ s₁ s₂, P s₁ s₂ → E s₁ s₂) :
    Agrees Late P (throw e : EStateM ε σ₁ α) (throw e) Q E where
  late := keeps_throw e
  run s₁ s₂ hs := Or.inr (.error (h s₁ s₂ hs))

end

/-! ## Acts -/

section

variable {W W₁ W₂ ε ε' α β : Type}

/-! ### How an act ends -/

namespace Ends

variable {act : Act W ε α} {cleanup : Act W Empty Unit} {ctx : Context W}
  {Q Q' : α → Context W → Prop} {K : Context W → Prop}

/-- Errors are told otherwise, and the state stays as it is. -/
theorem mapError (f : ε → ε') (h : Ends act ctx Q (fun _ => K)) :
    Ends (act.mapError f) ctx Q (fun _ => K) := by
  unfold Ends at h ⊢
  unfold Act.mapError
  cases hact : act ctx with
  | ok a ctx' =>
    rw [hact] at h
    exact h
  | error failure ctx' =>
    rw [hact] at h
    cases failure with
    | error e => exact h
    | panic message => exact h

/-- An error becomes an answer that says no more than `K`. -/
theorem attempt (h : Ends act ctx Q (fun _ => K)) :
    Ends (act.attempt : Act W ε' (Except ε α)) ctx
      (fun result ctx' => K ctx' ∨ ∃ a, result = .ok a ∧ Q a ctx') (fun _ => K) := by
  unfold Ends at h ⊢
  unfold Act.attempt
  cases hact : act ctx with
  | ok a ctx' =>
    rw [hact] at h
    exact Or.inr ⟨a, rfl, h⟩
  | error failure ctx' =>
    rw [hact] at h
    cases failure with
    | error e => exact Or.inl h
    | panic message => exact h

/-- The clean-up is run after the value and after every failure. -/
theorem ensuring (h : Ends act ctx Q (fun _ => K)) (hcleanup : Keeps K cleanup)
    (hQ : ∀ a ctx', Q a ctx' → Ends cleanup ctx' (fun _ => Q' a) (fun _ => K)) :
    Ends (act.ensuring cleanup) ctx Q' (fun _ => K) := by
  unfold Ends at h
  unfold Ends Act.ensuring
  cases hact : act ctx with
  | ok a ctx' =>
    rw [hact] at h
    exact ((hQ a ctx' h).mapError Empty.elim).bind (fun _ _ h => h) (fun _ _ h => h)
  | error failure ctx' =>
    rw [hact] at h
    exact ((hcleanup ctx' h).mapError Empty.elim).bind (fun _ _ h => h) (fun _ _ h => h)

/-- The clean-up is run after a panic alone. -/
theorem onPanic (h : Ends act ctx Q (fun _ => K)) (hcleanup : Keeps K cleanup) :
    Ends (act.onPanic cleanup) ctx Q (fun _ => K) := by
  unfold Ends at h
  unfold Ends Act.onPanic
  cases hact : act ctx with
  | ok a ctx' =>
    rw [hact] at h
    exact h
  | error failure ctx' =>
    rw [hact] at h
    cases failure with
    | error e => exact h
    | panic message =>
      exact ((hcleanup ctx' h).mapError Empty.elim).bind (fun _ _ h => h) (fun _ _ h => h)

end Ends

namespace Keeps

variable {K : Context W → Prop} {act : Act W ε α} {cleanup : Act W Empty Unit}

/-- To tell errors otherwise is to leave the state alone. -/
theorem mapError (f : ε → ε') (h : Keeps K act) : Keeps K (act.mapError f) :=
  fun ctx hctx => (h ctx hctx).mapError f

/-- Nor is anything done when an error becomes an answer. -/
theorem attempt (h : Keeps K act) : Keeps K (act.attempt : Act W ε' (Except ε α)) := by
  intro ctx hctx
  refine (h ctx hctx).attempt.mono ?_ (fun _ _ h => h)
  intro result ctx' hends
  rcases hends with hK | ⟨_, _, hK⟩
  · exact hK
  · exact hK

/-- An act stays if it does and its clean-up does. -/
theorem ensuring (h : Keeps K act) (hcleanup : Keeps K cleanup) :
    Keeps K (act.ensuring cleanup) :=
  fun ctx hctx => (h ctx hctx).ensuring hcleanup (fun _ ctx' hK => hcleanup ctx' hK)

end Keeps

/-! ### Acts that agree -/

/-- The state is the same, however the error is told. -/
theorem endState_mapError (f : ε → ε') (act : Act W ε α) (ctx : Context W) :
    endState (act.mapError f) ctx = endState act ctx := by
  unfold endState Act.mapError
  cases act ctx with
  | ok a ctx' => rfl
  | error failure ctx' =>
    cases failure with
    | error e => rfl
    | panic message => rfl

/-- The state is the same if the error is an answer. -/
theorem endState_attempt (act : Act W ε α) (ctx : Context W) :
    endState (act.attempt : Act W ε' (Except ε α)) ctx = endState act ctx := by
  unfold endState Act.attempt
  cases act ctx with
  | ok a ctx' => rfl
  | error failure ctx' =>
    cases failure with
    | error e => rfl
    | panic message => rfl

namespace Agrees

variable {Late : Context W₂ → Prop} {P R R' E : Context W₁ → Context W₂ → Prop}
  {Q : α → α → Context W₁ → Context W₂ → Prop} {act₁ : Act W₁ ε α} {act₂ : Act W₂ ε α}

/-- Two acts that agree still do so when both tell their errors otherwise. -/
theorem mapError (f : ε → ε') (h : Agrees Late P act₁ act₂ Q E) :
    Agrees Late P (act₁.mapError f) (act₂.mapError f) Q E where
  late := h.late.mapError f
  run ctx₁ ctx₂ hctx := by
    rw [endState_mapError]
    refine (h.run ctx₁ ctx₂ hctx).imp_right ?_
    intro halike
    unfold Act.mapError
    generalize act₁ ctx₁ = r₁ at halike
    generalize act₂ ctx₂ = r₂ at halike
    cases halike with
    | ok hQ => exact .ok hQ
    | @error failure _ _ hE =>
      cases failure with
      | error e => exact .error hE
      | panic message => exact .error hE

/-- An error is turned into an answer, and the rest goes on from there. As in `bind_of`, the answers
    are related by `A` in all states. -/
theorem attempt_bind_of {A : α → α → Prop} {f₁ : Except ε α → Act W₁ ε' β}
    {f₂ : Except ε α → Act W₂ ε' β} {Q' : β → β → Context W₁ → Context W₂ → Prop}
    (h : Agrees Late P act₁ act₂ Q E) (hA : ∀ a b ctx₁ ctx₂, Q a b ctx₁ ctx₂ → A a b)
    (hrefl : ∀ b, A b b)
    (hok : ∀ a b, A a b → Agrees Late (Q a b) (f₁ (.ok a)) (f₂ (.ok b)) Q' E)
    (herror : ∀ e, Agrees Late E (f₁ (.error e)) (f₂ (.error e)) Q' E) :
    Agrees Late P (act₁.attempt >>= f₁) (act₂.attempt >>= f₂) Q' E := by
  -- Whatever is answered, the rest does not come back from being late.
  have hlate : ∀ result, Keeps Late (f₂ result) := by
    intro result
    cases result with
    | ok b => exact (hok b b (hrefl b)).late
    | error e => exact (herror e).late
  refine ⟨h.late.attempt.bind hlate, ?_⟩
  intro ctx₁ ctx₂ hctx
  rcases h.run ctx₁ ctx₂ hctx with hover | halike
  · refine Or.inl (Keeps.endState_bind hlate ?_)
    rw [endState_attempt]
    exact hover
  · generalize h₁ : act₁ ctx₁ = r₁ at halike
    generalize h₂ : act₂ ctx₂ = r₂ at halike
    unfold endState
    cases halike with
    | @ok a b s₁ s₂ hQ =>
      have hattempt₁ : (act₁.attempt : Act W₁ ε' _) ctx₁ = .ok (.ok a) s₁ := by
        rw [Act.attempt, h₁]
      have hattempt₂ : (act₂.attempt : Act W₂ ε' _) ctx₂ = .ok (.ok b) s₂ := by
        rw [Act.attempt, h₂]
      rw [bind_of_ok hattempt₁, bind_of_ok hattempt₂]
      exact (hok a b (hA a b s₁ s₂ hQ)).run s₁ s₂ hQ
    | @error failure s₁ s₂ hE =>
      -- Errors become answers, but panics go on.
      cases failure with
      | error e =>
        have hattempt₁ : (act₁.attempt : Act W₁ ε' _) ctx₁ = .ok (.error e) s₁ := by
          rw [Act.attempt, h₁]
        have hattempt₂ : (act₂.attempt : Act W₂ ε' _) ctx₂ = .ok (.error e) s₂ := by
          rw [Act.attempt, h₂]
        rw [bind_of_ok hattempt₁, bind_of_ok hattempt₂]
        exact (herror e).run s₁ s₂ hE
      | panic message =>
        have hattempt₁ : (act₁.attempt : Act W₁ ε' _) ctx₁ = .error (.panic message) s₁ := by
          rw [Act.attempt, h₁]
        have hattempt₂ : (act₂.attempt : Act W₂ ε' _) ctx₂ = .error (.panic message) s₂ := by
          rw [Act.attempt, h₂]
        rw [bind_of_error hattempt₁, bind_of_error hattempt₂]
        exact Or.inr (.error hE)

/-- The same when nothing need be known of how the answers are related. -/
theorem attempt_bind {f₁ : Except ε α → Act W₁ ε' β} {f₂ : Except ε α → Act W₂ ε' β}
    {Q' : β → β → Context W₁ → Context W₂ → Prop} (h : Agrees Late P act₁ act₂ Q E)
    (hok : ∀ a b, Agrees Late (Q a b) (f₁ (.ok a)) (f₂ (.ok b)) Q' E)
    (herror : ∀ e, Agrees Late E (f₁ (.error e)) (f₂ (.error e)) Q' E) :
    Agrees Late P (act₁.attempt >>= f₁) (act₂.attempt >>= f₂) Q' E :=
  h.attempt_bind_of (A := fun _ _ => True) (fun _ _ _ _ _ => trivial) (fun _ => trivial)
    (fun a b _ => hok a b) herror

/-- The same when the answers are equal. -/
theorem attempt_bind_eq {f₁ : Except ε α → Act W₁ ε' β} {f₂ : Except ε α → Act W₂ ε' β}
    {S : α → Context W₁ → Context W₂ → Prop} {Q' : β → β → Context W₁ → Context W₂ → Prop}
    (h : Agrees Late P act₁ act₂ (fun a b ctx₁ ctx₂ => a = b ∧ S a ctx₁ ctx₂) E)
    (hok : ∀ a, Agrees Late (S a) (f₁ (.ok a)) (f₂ (.ok a)) Q' E)
    (herror : ∀ e, Agrees Late E (f₁ (.error e)) (f₂ (.error e)) Q' E) :
    Agrees Late P (act₁.attempt >>= f₁) (act₂.attempt >>= f₂) Q' E := by
  refine h.attempt_bind_of (A := Eq) (fun _ _ _ _ h => h.1) (fun _ => rfl) ?_ herror
  intro a b heq
  subst heq
  exact (hok a).mono_pre (fun _ _ h => h.2)

/-- Two acts with equal answers have them whether or not errors are answers. -/
theorem attempt_eq (h : Agrees Late P act₁ act₂ (fun a b ctx₁ ctx₂ => a = b ∧ R ctx₁ ctx₂) R) :
    Agrees (ε := Failure ε') Late P act₁.attempt act₂.attempt
      (fun a b ctx₁ ctx₂ => a = b ∧ R ctx₁ ctx₂) R := by
  rw [← bind_pure (act₁.attempt : Act W₁ ε' _), ← bind_pure (act₂.attempt : Act W₂ ε' _)]
  refine h.attempt_bind_eq ?_ ?_
  · exact fun a => agrees_pure (fun _ _ hR => ⟨rfl, hR⟩)
  · exact fun e => agrees_pure (fun _ _ hR => ⟨rfl, hR⟩)

/-- Both acts are cleaned up after, whichever way they end. -/
theorem ensuring {cleanup₁ : Act W₁ Empty Unit} {cleanup₂ : Act W₂ Empty Unit}
    {A : α → α → Prop} (h : Agrees Late P act₁ act₂ (fun a b ctx₁ ctx₂ => A a b ∧ R ctx₁ ctx₂) R)
    (hcleanup : Agrees Late R cleanup₁ cleanup₂ (fun _ _ => R') R') :
    Agrees Late P (act₁.ensuring cleanup₁) (act₂.ensuring cleanup₂)
      (fun a b ctx₁ ctx₂ => A a b ∧ R' ctx₁ ctx₂) R' := by
  -- The clean-up is run in both worlds and has no errors of its own.
  have hlift : Agrees Late R (Act.lift cleanup₁ : Act W₁ ε Unit) (Act.lift cleanup₂)
      (fun _ _ => R') R' := hcleanup.mapError Empty.elim
  refine ⟨h.late.ensuring hcleanup.late, ?_⟩
  intro ctx₁ ctx₂ hctx
  have hrun := h.run ctx₁ ctx₂ hctx
  unfold endState at hrun ⊢
  unfold Act.ensuring
  generalize act₁ ctx₁ = r₁ at hrun
  generalize act₂ ctx₂ = r₂ at hrun
  rcases hrun with hover | halike
  · -- A late act is cleaned up late.
    refine Or.inl ?_
    cases r₂ with
    | ok b ctx₂' => exact (hlift.late.bind (fun _ => keeps_pure b)).endState hover
    | error failure ctx₂' => exact (hlift.late.bind (fun _ => keeps_throw failure)).endState hover
  · -- In time both are cleaned up after, and tell what they were to tell.
    cases halike with
    | @ok a b ctx₁' ctx₂' hQ =>
      have hreturn : Agrees Late R (Act.lift cleanup₁ >>= fun _ => pure a)
          (Act.lift cleanup₂ >>= fun _ => pure b)
          (fun a b ctx₁ ctx₂ => A a b ∧ R' ctx₁ ctx₂) R' :=
        hlift.bind_unit (agrees_pure (fun _ _ hR => ⟨hQ.1, hR⟩))
      exact hreturn.run ctx₁' ctx₂' hQ.2
    | @error failure ctx₁' ctx₂' hE =>
      have hthrow : Agrees Late R (Act.lift cleanup₁ >>= fun _ => throw failure)
          (Act.lift cleanup₂ >>= fun _ => throw failure)
          (fun (a b : α) ctx₁ ctx₂ => A a b ∧ R' ctx₁ ctx₂) R' :=
        hlift.bind_unit (agrees_throw (fun _ _ hR => hR))
      exact hthrow.run ctx₁' ctx₂' hE

end Agrees

/-- Enumerations agree if their items do. -/
theorem Registry.agrees_enumerate {Late : Context W₂ → Prop} {P : Context W₁ → Context W₂ → Prop}
    {item₁ : UInt32 → Act W₁ NativeError α} {item₂ : UInt32 → Act W₂ NativeError α}
    (h : ∀ index, Agrees Late P (item₁ index) (item₂ index)
      (fun a b ctx₁ ctx₂ => a = b ∧ P ctx₁ ctx₂) P) :
    Agrees Late P (enumerate item₁) (enumerate item₂)
      (fun as bs ctx₁ ctx₂ => as = bs ∧ P ctx₁ ctx₂) P := by
  have hfrom : ∀ limit index, Agrees Late P (enumerateFrom item₁ limit index)
      (enumerateFrom item₂ limit index) (fun as bs ctx₁ ctx₂ => as = bs ∧ P ctx₁ ctx₂) P := by
    -- The induction is on the limit that enumerations are cut off at.
    intro limit
    induction limit with
    | zero => exact fun _ => agrees_throw (fun _ _ hP => hP)
    | succ limit ih =>
      intro index
      unfold enumerateFrom
      refine (h index).attempt_bind_eq ?_ ?_
      · exact fun a => (ih (index + 1)).bind_eq (fun _ => agrees_pure (fun _ _ hP => ⟨rfl, hP⟩))
      · intro e
        simp only []
        split
        · exact agrees_pure (fun _ _ hP => ⟨rfl, hP⟩)
        · exact agrees_throw (fun _ _ hP => hP)
  exact hfrom _ _

end

end TransactionalRegistry
