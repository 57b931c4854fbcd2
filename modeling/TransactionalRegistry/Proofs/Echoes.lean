import TransactionalRegistry.Proofs.Passages
import TransactionalRegistry.Proofs.Respelling

/-!
# Acts under another spelling

The same piece of work is run twice, given two spellings of one location. Its two runs end alike if
they answer alike, or fail with the same error but for the path text that it reports, or panic
alike. The second run reports the path text as it was spelled for that run, so its error is the
first one's with another path text.

The rules here put such pieces of work together: steps one after the other, errors that are turned
into answers, and keys that are closed whichever way the work with them ends. What the two contexts
have in common at first may be lost by a step; from then on something weaker is kept, up to the end.

## Main definitions

* `RegistryError.withPath`: An error with another path text.
* `Context.Over`: Two contexts with related worlds and nothing else between them.
* `Act.Echo`: Two acts that end alike, the second with a path text of its own.

## Theorems

* `Act.Echo.bind`, `Act.Echo.attempt_bind`: Steps followed by the rest.
* `Act.Echo.mapError`: Calls that end alike.
* `Act.Echo.route`, `Act.Echo.closing`: What operations are made of.
-/

namespace TransactionalRegistry

/-! ## Errors that report a path -/

namespace RegistryError

/-- The error with `path` in place of the path text that it reports. -/
def withPath (path : String) : RegistryError → RegistryError
  | noSuchKey _ => noSuchKey path
  | noSuchValue _ name => noSuchValue path name
  | accessDenied _ => accessDenied path
  | invalidHandle _ => invalidHandle path
  | keyAlreadyExists _ => keyAlreadyExists path
  | rootKeyUnsupported operation _ => rootKeyUnsupported operation path
  | unknownRoot name => unknownRoot name
  | invalidData _ name cause => invalidData path name cause
  | typeMismatch _ name expected actual => typeMismatch path name expected actual
  | native operation error _ => native operation error path
  | transaction error => transaction error

theorem withPath_ofNative (operation path path' : String) (error : NativeError) :
    (ofNative operation path error).withPath path' = ofNative operation path' error := by
  -- Each step of the translation puts the path into the error that it chooses.
  unfold ofNative
  split <;> (try split) <;> (try split) <;> (try split) <;> rfl

theorem withPath_ofNativeValue (operation path path' name : String) (error : NativeError) :
    (ofNativeValue operation path name error).withPath path' =
      ofNativeValue operation path' name error := by
  unfold ofNativeValue
  split
  · rfl
  · exact withPath_ofNative operation path path' error

end RegistryError

/-! ## Acts that end alike -/

/-- Two contexts with worlds that are related by `R`, and nothing else between them. -/
def Context.Over (R : Store → Store → Prop) (ctx₁ ctx₂ : Context Store) : Prop :=
  R ctx₁.world ctx₂.world ∧ ctx₁.ambient = ctx₂.ambient ∧ ctx₁.shared = ctx₂.shared

namespace Act

variable {α β : Type}

/-- Two ends of the same kind: with answers that are related by `A`, with one error but for the path
    text, which is `path` in the second, or with one panic; and with contexts related by `E`. -/
inductive Echoed (path : String) (A : α → α → Prop) (E : Context Store → Context Store → Prop) :
    EStateM.Result (Failure RegistryError) (Context Store) α →
      EStateM.Result (Failure RegistryError) (Context Store) α → Prop
  | ok {a b : α} {ctx₁ ctx₂ : Context Store} : A a b → E ctx₁ ctx₂ →
      Echoed path A E (.ok a ctx₁) (.ok b ctx₂)
  | error {e : RegistryError} {ctx₁ ctx₂ : Context Store} : E ctx₁ ctx₂ →
      Echoed path A E (.error (.error e) ctx₁) (.error (.error (e.withPath path)) ctx₂)
  | panic {message : String} {ctx₁ ctx₂ : Context Store} : E ctx₁ ctx₂ →
      Echoed path A E (.error (.panic message) ctx₁) (.error (.panic message) ctx₂)

/-- Runs from contexts that are related by `P` end alike, with answers that are related by `A` and
    contexts that are related by `E`. -/
def Echo (path : String) (P : Context Store → Context Store → Prop)
    (act₁ act₂ : Act Store RegistryError α) (A : α → α → Prop)
    (E : Context Store → Context Store → Prop) : Prop :=
  ∀ ctx₁ ctx₂, P ctx₁ ctx₂ → Echoed path A E (act₁ ctx₁) (act₂ ctx₂)

section

variable {path : String} {P E E' : Context Store → Context Store → Prop}
  {act₁ act₂ : Act Store RegistryError α} {A A' : α → α → Prop} {B : β → β → Prop}

theorem Echoed.mono {r₁ r₂ : EStateM.Result (Failure RegistryError) (Context Store) α}
    (h : Echoed path A E r₁ r₂) (hA : ∀ a b, A a b → A' a b)
    (hE : ∀ ctx₁ ctx₂, E ctx₁ ctx₂ → E' ctx₁ ctx₂) : Echoed path A' E' r₁ r₂ := by
  cases h with
  | ok hanswers hafter => exact .ok (hA _ _ hanswers) (hE _ _ hafter)
  | error hafter => exact .error (hE _ _ hafter)
  | panic hafter => exact .panic (hE _ _ hafter)

namespace Echo

/-- The rule for a step followed by the rest. -/
theorem bind {f₁ f₂ : α → Act Store RegistryError β} (h : Echo path P act₁ act₂ A E)
    (hf : ∀ a b, A a b → Echo path E (f₁ a) (f₂ b) B E) :
    Echo path P (act₁ >>= f₁) (act₂ >>= f₂) B E := by
  intro ctx₁ ctx₂ hctx
  have hends := h ctx₁ ctx₂ hctx
  -- The results are made variables, so that the cases are the three kinds of ends.
  generalize h₁ : act₁ ctx₁ = r₁ at hends
  generalize h₂ : act₂ ctx₂ = r₂ at hends
  cases hends with
  | ok hanswers hafter =>
    rw [bind_of_ok h₁, bind_of_ok h₂]
    exact hf _ _ hanswers _ _ hafter
  | error hafter =>
    rw [bind_of_error h₁, bind_of_error h₂]
    exact .error hafter
  | panic hafter =>
    rw [bind_of_error h₁, bind_of_error h₂]
    exact .panic hafter

/-- The rule for a step with equal answers followed by the rest. -/
theorem bind_eq {f₁ f₂ : α → Act Store RegistryError β} (h : Echo path P act₁ act₂ Eq E)
    (hf : ∀ a, Echo path E (f₁ a) (f₂ a) B E) : Echo path P (act₁ >>= f₁) (act₂ >>= f₂) B E := by
  refine h.bind (fun a b hanswers => ?_)
  obtain rfl : a = b := hanswers
  exact hf a

/-- An error is turned into an answer, and the rest goes on from there. -/
theorem attempt_bind {f₁ f₂ : Except RegistryError α → Act Store RegistryError β}
    (h : Echo path P act₁ act₂ A E)
    (hok : ∀ a b, A a b → Echo path E (f₁ (.ok a)) (f₂ (.ok b)) B E)
    (herror : ∀ e, Echo path E (f₁ (.error e)) (f₂ (.error (e.withPath path))) B E) :
    Echo path P (act₁.attempt >>= f₁) (act₂.attempt >>= f₂) B E := by
  intro ctx₁ ctx₂ hctx
  have hends := h ctx₁ ctx₂ hctx
  generalize h₁ : act₁ ctx₁ = r₁ at hends
  generalize h₂ : act₂ ctx₂ = r₂ at hends
  cases hends with
  | ok hanswers hafter =>
    rw [bind_of_ok (attempt_of_ok h₁), bind_of_ok (attempt_of_ok h₂)]
    exact hok _ _ hanswers _ _ hafter
  | error hafter =>
    rw [bind_of_ok (attempt_of_error h₁), bind_of_ok (attempt_of_error h₂)]
    exact herror _ _ _ hafter
  | panic hafter =>
    rw [bind_of_error (attempt_of_panic h₁), bind_of_error (attempt_of_panic h₂)]
    exact .panic hafter

theorem pure {a b : α} (h : A a b) (hPE : ∀ ctx₁ ctx₂, P ctx₁ ctx₂ → E ctx₁ ctx₂) :
    Echo path P (Pure.pure a) (Pure.pure b) A E :=
  fun ctx₁ ctx₂ hctx => .ok h (hPE ctx₁ ctx₂ hctx)

theorem fail (e : RegistryError) (hPE : ∀ ctx₁ ctx₂, P ctx₁ ctx₂ → E ctx₁ ctx₂) :
    Echo path P (Act.fail e) (Act.fail (e.withPath path)) A E :=
  fun ctx₁ ctx₂ hctx => .error (hPE ctx₁ ctx₂ hctx)

/-- The result of a computation without calls. -/
theorem ofExcept {result₁ result₂ : Except RegistryError α}
    (h : result₂ = result₁.mapError (RegistryError.withPath path))
    (hPE : ∀ ctx₁ ctx₂, P ctx₁ ctx₂ → E ctx₁ ctx₂) :
    Echo path P (Act.ofExcept result₁) (Act.ofExcept result₂) Eq E := by
  rw [h]
  cases result₁ with
  | ok a => exact pure rfl hPE
  | error e => exact fail e hPE

/-- A call that ends alike, with its errors turned into errors that report a path. -/
theorem mapError {native₁ native₂ : Act Store NativeError α} {f₁ f₂ : NativeError → RegistryError}
    (h : Agrees Never P native₁ native₂ (fun a b ctx₁ ctx₂ => A a b ∧ E ctx₁ ctx₂) E)
    (hf : ∀ e, f₂ e = (f₁ e).withPath path) :
    Echo path P (native₁.mapError f₁) (native₂.mapError f₂) A E := by
  intro ctx₁ ctx₂ hctx
  have halike := (h.run ctx₁ ctx₂ hctx).resolve_left (fun hnever => hnever)
  unfold Act.mapError
  generalize native₁ ctx₁ = r₁ at halike
  generalize native₂ ctx₂ = r₂ at halike
  cases halike with
  | ok hanswers => exact .ok hanswers.1 hanswers.2
  | @error failure ctx₁' ctx₂' hafter =>
    cases failure with
    | error e =>
      simp only [hf e]
      exact .error hafter
    | panic message => exact .panic hafter

end Echo

end

end Act

/-! ## Acts on stores that differ in spelling -/

section

open Store
open Context (Over)

variable {α β : Type} {path : String} {f : Option TransactionHandle → Hives → Hives}
  {P E : Context Store → Context Store → Prop} {A : α → α → Prop} {R R' S : Store → Store → Prop}

/-- A call is answered alike in two contexts if it is on their worlds. -/
theorem Act.over_ofWorld {m₁ m₂ : StoreM α}
    (h : Agrees Never R m₁ m₂ (fun a b s₁ s₂ => A a b ∧ S s₁ s₂) R') :
    Agrees Never (Over R) (Act.ofWorld m₁) (Act.ofWorld m₂)
      (fun a b ctx₁ ctx₂ => A a b ∧ Over S ctx₁ ctx₂) (Over R') := by
  refine ⟨keeps_never, fun ctx₁ ctx₂ hctx => Or.inr ?_⟩
  have halike := (h.run ctx₁.world ctx₂.world hctx.1).resolve_left (fun hnever => hnever)
  unfold Act.ofWorld
  generalize m₁ ctx₁.world = r₁ at halike
  generalize m₂ ctx₂.world = r₂ at halike
  cases halike with
  | ok hends => exact .ok ⟨hends.1, hends.2, hctx.2⟩
  | error hends => exact .error ⟨hends, hctx.2⟩

/-- An entry is logged in both. -/
theorem Act.over_log {ε : Type} (entry : LogEntry)
    (hnote : ∀ s₁ s₂, R s₁ s₂ → R (s₁.note entry) (s₂.note entry)) :
    Agrees (ε := Failure ε) Never (Over R) (Act.log entry) (Act.log entry) (fun _ _ => Over R) E :=
  ⟨keeps_never, fun _ _ hctx => Or.inr (.ok ⟨hnote _ _ hctx.1, hctx.2⟩)⟩

theorem Act.over_closeKey (key : KeyHandle) :
    Agrees Never (Over (SameUnder f)) (Registry.closeKey key : Act Store Empty Unit)
      (Registry.closeKey key) (fun _ _ => Over (SameUnder f)) (Over (SameUnder f)) := by
  refine Registry.agrees_closeKey ?_ (fun _ _ entry h => ⟨h.1.note entry, h.2⟩)
  rw [Act.call_eq]
  refine (Act.over_ofWorld (A := fun _ _ => True) (S := SameUnder f)
    ((respelled_closeKey key).mono_ok (fun _ _ _ _ h => ⟨trivial, h⟩))).mono_ok
    (fun _ _ _ _ h => h.2)

/-- Closing a key never fails, and leaves as much in common as there was before. -/
theorem Act.over_closeKey_run (key : KeyHandle) {ctx₁ ctx₂ : Context Store}
    (h : Over (SameUnder f) ctx₁ ctx₂) :
    ∃ ctx₁' ctx₂', (Registry.closeKey key : Act Store Empty Unit) ctx₁ = .ok () ctx₁' ∧
      (Registry.closeKey key : Act Store Empty Unit) ctx₂ = .ok () ctx₂' ∧
      Over (SameUnder f) ctx₁' ctx₂' := by
  obtain ⟨ctx₁', h₁, -⟩ := Registry.closeKey_run key ctx₁
  obtain ⟨ctx₂', h₂, -⟩ := Registry.closeKey_run key ctx₂
  -- Closing cannot fail, so the two runs can only be alike in what they leave.
  have halike := ((Act.over_closeKey key).run ctx₁ ctx₂ h).resolve_left (fun hnever => hnever)
  rw [h₁, h₂] at halike
  cases halike with
  | ok hafter => exact ⟨ctx₁', ctx₂', h₁, h₂, hafter⟩

namespace Act.Echo

/-- The current transaction is the same in both. -/
theorem route {f₁ f₂ : Route → Act Store RegistryError α}
    (h : ∀ route, Echo path (Over R) (f₁ route) (f₂ route) A E) :
    Echo path (Over R) (Route.current >>= f₁) (Route.current >>= f₂) A E := by
  intro ctx₁ ctx₂ hctx
  have hroute : ∀ ctx : Context Store, (Route.current : Act Store RegistryError Route) ctx =
      .ok ⟨(Ambient.top ctx.ambient).map (·.handle)⟩ ctx := fun _ => rfl
  -- The route is read off the ambient stack, which both contexts share.
  rw [bind_of_ok (hroute ctx₁), bind_of_ok (hroute ctx₂), hctx.2.1]
  exact h _ ctx₁ ctx₂ hctx

theorem log (entry : LogEntry)
    (hnote : ∀ s₁ s₂, R s₁ s₂ → R (s₁.note entry) (s₂.note entry)) :
    Echo path (Over R) (Act.log entry) (Act.log entry) Eq (Over R) :=
  fun _ _ hctx => .ok rfl ⟨hnote _ _ hctx.1, hctx.2⟩

/-- The work with an open key is followed by closing it in both. -/
theorem closing {act₁ act₂ : Act Store RegistryError α} (key : KeyHandle)
    (h : Echo path P act₁ act₂ A (Over (SameUnder f))) :
    Echo path P (Registry.closing key act₁) (Registry.closing key act₂) A (Over (SameUnder f)) := by
  intro ctx₁ ctx₂ hctx
  have hends := h ctx₁ ctx₂ hctx
  unfold Registry.closing Act.ensuring
  generalize act₁ ctx₁ = r₁ at hends
  generalize act₂ ctx₂ = r₂ at hends
  cases hends with
  | ok hanswers hafter =>
    obtain ⟨ctx₁', ctx₂', h₁, h₂, hover⟩ := Act.over_closeKey_run key hafter
    simp only [bind_of_ok (Act.lift_of_ok h₁), bind_of_ok (Act.lift_of_ok h₂)]
    exact .ok hanswers hover
  | error hafter =>
    obtain ⟨ctx₁', ctx₂', h₁, h₂, hover⟩ := Act.over_closeKey_run key hafter
    simp only [bind_of_ok (Act.lift_of_ok h₁), bind_of_ok (Act.lift_of_ok h₂)]
    exact .error hover
  | panic hafter =>
    obtain ⟨ctx₁', ctx₂', h₁, h₂, hover⟩ := Act.over_closeKey_run key hafter
    simp only [bind_of_ok (Act.lift_of_ok h₁), bind_of_ok (Act.lift_of_ok h₂)]
    exact .panic hover

end Act.Echo

end

end TransactionalRegistry
