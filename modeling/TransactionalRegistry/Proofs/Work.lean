import TransactionalRegistry.Proofs.SideBySide
import TransactionalRegistry.Registry.Operations

/-!
# Operations on keys, inside a transaction and outside

An operation on a key finds its transaction on the ambient stack. Run with the transaction current
and run with none, on stores that mirror each other, it ends alike: with the same answer or the same
error. It leaves stores behind that mirror each other, and no handle open.

## Main definitions

* `Surroundings`: What work inside a transaction finds around it.
* `Surroundings.Work`: Two contexts whose stores mirror each other.
* `Surroundings.Transparent`: An act that ends alike inside and outside.

## Theorems

* `Surroundings.agrees_ofWorld`: Computations on the world.
* `Surroundings.agrees_route`: The transaction is found on the ambient stack.
* `Surroundings.agrees_openAt`, `Surroundings.agrees_closing`: What operations are made of.
-/

namespace TransactionalRegistry

/-- A computation on the world of a context, as an act. -/
def Act.ofWorld {W α : Type} (m : EStateM NativeError W α) : Act W NativeError α := fun ctx =>
  match m ctx.world with
  | .ok a world => .ok a { ctx with world := world }
  | .error e world => .error (.error e) { ctx with world := world }

/-- A call of an act is the same call on the store in its context. -/
theorem Act.call_eq (call : Call) :
    (Act.call call : Act Store NativeError call.Answer) = Act.ofWorld (Store.perform call) := by
  funext ctx
  have hperform : Native.perform call ctx.world = Store.perform call ctx.world := rfl
  unfold Act.call Act.ofWorld
  rw [hperform]
  cases Store.perform call ctx.world with
  | ok answer world => rfl
  | error e world => rfl

/-- What work inside a transaction finds around it: the current transaction with its deadline, the
    ambient stack with that transaction on top, and the state that clones share. -/
structure Surroundings where
  handle : TransactionHandle
  deadline : Option Time
  ambient : List (Option Transaction)
  shared : List Shared
  current : (Ambient.top ambient).map (·.handle) = some handle

/-- Handles of any kind. -/
def Handles.Any (_ : Handles) : Prop := True

namespace Surroundings

open Store

variable {α β : Type} {w : Surroundings} {F : Handles → Prop}

/-- The deadline of the current transaction has come. -/
def Late (w : Surroundings) (ctx : Context Store) : Prop :=
  Store.Late w.deadline ctx.world ∧ ctx.ambient = w.ambient ∧ ctx.shared = w.shared

/-- The worlds of two contexts are related by `R`. Nothing is current in the first one; the second
    one has the surroundings `w`. -/
def Around (w : Surroundings) (R : Store → Store → Prop) (ctx₁ ctx₂ : Context Store) : Prop :=
  R ctx₁.world ctx₂.world ∧ Ambient.top ctx₁.ambient = none ∧ ctx₂.ambient = w.ambient ∧
    ctx₂.shared = w.shared

/-- The worlds of two contexts mirror each other, with handles as `F` asks for. -/
def Work (w : Surroundings) (F : Handles → Prop) : Context Store → Context Store → Prop :=
  w.Around (Standing w.handle w.deadline F)

/-- Run inside the transaction and run outside, an act ends with the same answer or the same
    error. -/
def Transparent (w : Surroundings) (act : Act Store RegistryError α) : Prop :=
  Agrees w.Late (w.Work Handles.Room) act act
    (fun a b ctx₁ ctx₂ => a = b ∧ w.Work Handles.Any ctx₁ ctx₂) (w.Work Handles.Any)

theorem Work.any {ctx₁ ctx₂ : Context Store} (h : w.Work F ctx₁ ctx₂) :
    w.Work Handles.Any ctx₁ ctx₂ := by
  rcases h with ⟨⟨hs, _, hmirrors⟩, haround⟩
  exact ⟨⟨hs, trivial, hmirrors⟩, haround⟩

/-! ## What operations are made of -/

/-- Calls that agree on their worlds agree in their contexts. -/
theorem agrees_ofWorld {m₁ m₂ : StoreM α} {R E : Store → Store → Prop}
    {Q : α → α → Store → Store → Prop} (h : Agrees (Store.Late w.deadline) R m₁ m₂ Q E) :
    Agrees w.Late (w.Around R) (Act.ofWorld m₁) (Act.ofWorld m₂)
      (fun a b => w.Around (Q a b)) (w.Around E) where
  late ctx hlate := by
    rcases hlate with ⟨hlate, haround⟩
    -- Work that goes on late stays late, since nothing but the world has changed.
    have hkeeps := h.late ctx.world hlate
    unfold Ends at hkeeps ⊢
    unfold Act.ofWorld
    cases hm : m₂ ctx.world with
    | ok a world =>
      rw [hm] at hkeeps
      exact ⟨hkeeps, haround⟩
    | error e world =>
      rw [hm] at hkeeps
      exact ⟨hkeeps, haround⟩
  run ctx₁ ctx₂ hctx := by
    rcases hctx with ⟨hR, haround⟩
    have hrun := h.run ctx₁.world ctx₂.world hR
    unfold endState at hrun ⊢
    unfold Act.ofWorld
    generalize m₁ ctx₁.world = r₁ at hrun
    generalize m₂ ctx₂.world = r₂ at hrun
    rcases hrun with hlate | halike
    · -- The second run has become late in its world, and so it has in its context.
      refine Or.inl ?_
      cases r₂ with
      | ok a world => exact ⟨hlate, haround.2⟩
      | error e world => exact ⟨hlate, haround.2⟩
    · cases halike with
      | ok hQ => exact Or.inr (.ok ⟨hQ, haround⟩)
      | error hE => exact Or.inr (.error ⟨hE, haround⟩)

/-- What is logged may differ between the two, as nothing reads it. -/
theorem agrees_log {ε : Type} {E : Context Store → Context Store → Prop}
    (entry₁ entry₂ : LogEntry) :
    Agrees (ε := Failure ε) w.Late (w.Work F) (Act.log entry₁) (Act.log entry₂)
      (fun _ _ => w.Work F) E where
  late ctx hlate := hlate
  run ctx₁ ctx₂ hctx := by
    rcases hctx with ⟨⟨hs, hheld, h⟩, haround⟩
    exact Or.inr (.ok ⟨⟨hs, hheld, h.note.note_plain⟩, haround⟩)

/-- The transaction is found on the ambient stack. -/
theorem agrees_route {ε : Type} {f₁ f₂ : Route → Act Store ε α}
    {Q : α → α → Context Store → Context Store → Prop} {E : Context Store → Context Store → Prop}
    (h : Agrees w.Late (w.Work F) (f₁ ⟨none⟩) (f₂ ⟨some w.handle⟩) Q E) :
    Agrees w.Late (w.Work F) (Route.current >>= f₁) (Route.current >>= f₂) Q E := by
  have hinside : ∀ ctx : Context Store, ctx.ambient = w.ambient →
      (Route.current >>= f₂) ctx = f₂ ⟨some w.handle⟩ ctx := by
    intro ctx hambient
    have hroute : (Route.current : Act Store ε Route) ctx = .ok ⟨some w.handle⟩ ctx := by
      change EStateM.Result.ok (Route.mk ((Ambient.top ctx.ambient).map (·.handle))) ctx = _
      rw [hambient, w.current]
    exact bind_of_ok hroute
  refine ⟨?_, ?_⟩
  · -- A late context has the same surroundings, so it takes the same route.
    intro ctx hlate
    have hkeeps := h.late ctx hlate
    unfold Ends at hkeeps ⊢
    rw [hinside ctx hlate.2.1]
    exact hkeeps
  · intro ctx₁ ctx₂ hctx
    have hroute : (Route.current : Act Store ε Route) ctx₁ = .ok ⟨none⟩ ctx₁ := by
      change EStateM.Result.ok (Route.mk ((Ambient.top ctx₁.ambient).map (·.handle))) ctx₁ = _
      rw [hctx.2.1]
      rfl
    unfold endState
    rw [bind_of_ok hroute, hinside ctx₂ hctx.2.2.1]
    exact h.run ctx₁ ctx₂ hctx

theorem agrees_fail {ε : Type} {Q : α → α → Context Store → Context Store → Prop} (e : ε) :
    Agrees w.Late (w.Work F) (Act.fail e : Act Store ε α) (Act.fail e) Q (w.Work Handles.Any) :=
  agrees_throw (fun _ _ h => h.any)

theorem agrees_return {ε : Type} (a : α) :
    Agrees (ε := Failure ε) w.Late (w.Work F) (pure a) (pure a)
      (fun a b ctx₁ ctx₂ => a = b ∧ w.Work Handles.Any ctx₁ ctx₂) (w.Work Handles.Any) :=
  agrees_pure (fun _ _ h => ⟨rfl, h.any⟩)

theorem agrees_ofExcept {ε : Type} (result : Except ε α) :
    Agrees w.Late (w.Work F) (Act.ofExcept result : Act Store ε α) (Act.ofExcept result)
      (fun a b ctx₁ ctx₂ => a = b ∧ w.Work F ctx₁ ctx₂) (w.Work Handles.Any) := by
  cases result with
  | ok a => exact agrees_pure (fun _ _ h => ⟨rfl, h⟩)
  | error e => exact agrees_fail e

/-- Keys are opened side by side, the second one bound to the transaction. -/
theorem agrees_openAt (l : Location) (access : Access) :
    Agrees w.Late (w.Work Handles.Room) (Registry.openAt ⟨none⟩ l access)
      (Registry.openAt ⟨some w.handle⟩ l access)
      (fun a b => w.Work (Handles.Pairs w.handle access a b)) (w.Work Handles.Any) := by
  -- Nothing is current on the plain side, so the key is opened in the live trees there.
  have hperform : Agrees (α := KeyHandle) (Store.Late w.deadline)
      (Standing w.handle w.deadline Handles.Room)
      (perform (.openKey l.root.handle l.path.text access none))
      (perform (.openKey l.root.handle l.path.text access (some w.handle)))
      (fun a b => Standing w.handle w.deadline (Handles.Pairs w.handle access a b))
      (Standing w.handle w.deadline Handles.Room) :=
    agrees_of_standing (perform_keeps_late (.openKey _ _ _ _) rfl)
      (fun hs hroom => (Store.agrees_log _ _).bind_unit (agrees_openKey hroom _ _ _))
  refine Agrees.mapError _ ((agrees_log _ _).bind_unit ?_)
  rw [Act.call_eq, Act.call_eq]
  exact (agrees_ofWorld hperform).mono_error (fun _ _ h => Work.any h)

/-- Handles that were opened side by side are closed, whichever way the work with them ends. -/
theorem agrees_closing {ε : Type} {access : Access} {a b : KeyHandle} {A : α → α → Prop}
    {act₁ act₂ : Act Store ε α}
    (h : Agrees w.Late (w.Work (Handles.Pairs w.handle access a b)) act₁ act₂
      (fun x y ctx₁ ctx₂ => A x y ∧ w.Work (Handles.Pairs w.handle access a b) ctx₁ ctx₂)
      (w.Work (Handles.Pairs w.handle access a b))) :
    Agrees w.Late (w.Work (Handles.Pairs w.handle access a b)) (Registry.closing a act₁)
      (Registry.closing b act₂)
      (fun x y ctx₁ ctx₂ => A x y ∧ w.Work Handles.Any ctx₁ ctx₂) (w.Work Handles.Any) := by
  refine h.ensuring ?_
  -- Both handles are open, so closing them does not fail.
  have hclosed : Agrees w.Late (w.Work (Handles.Pairs w.handle access a b))
      (Act.call (.closeKey a)) (Act.call (.closeKey b)) (fun _ _ => w.Work Handles.Any)
      (w.Work Handles.Any) := by
    rw [Act.call_eq, Act.call_eq]
    exact (agrees_ofWorld agrees_closeKey).mono_error (fun _ _ h => h.1.elim)
  refine Agrees.attempt_bind hclosed ?_ ?_
  · exact fun _ _ => agrees_pure (fun _ _ h => h)
  · exact fun e => agrees_log _ _

end Surroundings

end TransactionalRegistry
