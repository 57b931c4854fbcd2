import TransactionalRegistry.Proofs.Operations
import TransactionalRegistry.Script.Step

/-!
# Programs of operations

A program makes operations on keys one after the other. It goes on from each as it likes, whether
that was answered or failed, and ends with a value or with a failure of its own. So a program is a
tree, with an operation at every node and a branch for every way in which it may end.

A program is told all that an operation answers, except when a key was last written to.

Run inside a transaction, a program gets the same answers and the same errors, step by step, as when
it is run outside, by induction on the tree: the stores mirror each other before every step.

## Main definitions

* `Script.KeyStep.act`: An operation on a key.
* `Program`: Operations on keys, one after the other.
* `Program.act`: The work that a program does, with a record of every step.
* `Program.Throughout`: A property of the stores that the steps of a run start from.

## Theorems

* `Script.KeyStep.transparent`: An operation ends alike inside a transaction and outside.
* `Program.agrees`: So does a program.
-/

namespace TransactionalRegistry

open Script (KeyStep)

variable {W ε α : Type} [Native W]

/-! ## Operations -/

/-- What an operation answers. -/
@[reducible]
def Script.KeyStep.Answer : KeyStep → Type
  | «exists» | createIfMissing | deleteIfExists | valueExists _ | deleteValueIfExists _ => Bool
  | create | delete | set _ _ | deleteValue _ => Unit
  | rename _ => Location
  | info => KeyInfo
  | subKeyNames | valueNames => List String
  | subKeys => List Location
  | values => List (String × Value)
  | get _ => Value
  | getString _ => String
  | getDword _ => UInt32
  | getQword _ => UInt64
  | getMultiString _ => List String
  | getBinary _ => List UInt8

/-- An operation on the key at a location. -/
def Script.KeyStep.act (l : Location) : (step : KeyStep) → Act W RegistryError step.Answer
  | «exists» => Registry.exists l
  | create => Registry.create l
  | createIfMissing => Registry.createIfMissing l
  | delete => Registry.delete l
  | deleteIfExists => Registry.deleteIfExists l
  | rename newName => Registry.rename l newName
  | info => do return { (← Registry.info l) with lastWrite := 0 }
  | subKeyNames => Registry.subKeyNames l
  | subKeys => Registry.subKeys l
  | valueNames => Registry.valueNames l
  | values => Registry.values l
  | get name => Registry.getValue l name
  | valueExists name => Registry.valueExists l name
  | set name value => Registry.setValue l name value
  | deleteValue name => Registry.deleteValue l name
  | deleteValueIfExists name => Registry.deleteValueIfExists l name
  | getString name => Registry.getString l name
  | getDword name => Registry.getDword l name
  | getQword name => Registry.getQword l name
  | getMultiString name => Registry.getMultiString l name
  | getBinary name => Registry.getBinary l name

theorem Script.KeyStep.transparent {w : Surroundings} (l : Location) (step : KeyStep) :
    w.Transparent (step.act l) := by
  cases step with
  | «exists» => exact Surroundings.transparent_exists l
  | create => exact Surroundings.transparent_create l
  | createIfMissing => exact Surroundings.transparent_createIfMissing l
  | delete => exact Surroundings.transparent_delete l
  | deleteIfExists => exact Surroundings.transparent_deleteIfExists l
  | rename newName => exact Surroundings.transparent_rename l newName
  | info =>
    refine (Surroundings.agrees_info l).bind_of (fun _ _ _ _ h => h.1) (fun _ => rfl) ?_
    intro x y hsame
    exact agrees_pure (fun _ _ h => ⟨hsame, h.2⟩)
  | subKeyNames => exact Surroundings.transparent_subKeyNames l
  | subKeys => exact Surroundings.transparent_subKeys l
  | valueNames => exact Surroundings.transparent_valueNames l
  | values => exact Surroundings.transparent_values l
  | get name => exact Surroundings.transparent_getValue l name
  | valueExists name => exact Surroundings.transparent_valueExists l name
  | set name value => exact Surroundings.transparent_setValue l name value
  | deleteValue name => exact Surroundings.transparent_deleteValue l name
  | deleteValueIfExists name => exact Surroundings.transparent_deleteValueIfExists l name
  | getString name => exact Surroundings.transparent_getSelected l name _ _
  | getDword name => exact Surroundings.transparent_getSelected l name _ _
  | getQword name => exact Surroundings.transparent_getSelected l name _ _
  | getMultiString name => exact Surroundings.transparent_getSelected l name _ _
  | getBinary name => exact Surroundings.transparent_getSelected l name _ _

/-! ## Programs -/

/-- The coming handles lie below those of the root keys, also if one more is drawn before them. -/
def Store.HasRoom (s : Store) : Prop :=
  s.nextHandle.toNat + 4 < 0x80000000

/-- Operations on keys, one after the other. -/
inductive Program (ε α : Type) where
  | done (result : Except ε α)
  | step (l : Location) (operation : KeyStep)
      (next : Except RegistryError operation.Answer → Program ε α)

/-- A step that was made, and how it ended. -/
structure Noted where
  location : Location
  operation : KeyStep
  result : Except RegistryError operation.Answer

instance (s : Store) : Decidable s.HasRoom :=
  inferInstanceAs (Decidable (s.nextHandle.toNat + 4 < 0x80000000))

theorem Surroundings.Work.room {w : Surroundings} {F : Handles → Prop} {ctx₁ ctx₂ : Context Store}
    (h : w.Work F ctx₁ ctx₂) (hroom : ctx₁.world.HasRoom) : w.Work Handles.Room ctx₁ ctx₂ := by
  rcases h with ⟨⟨hs, _, hmirrors⟩, haround⟩
  refine ⟨⟨hs, ?_, hmirrors⟩, haround⟩
  unfold Store.HasRoom at hroom
  rw [hmirrors.plain_next] at hroom
  exact hroom

namespace Program

/-- The work that a program does. Its value comes with the steps that led to it. -/
def act : Program ε α → Act W ε (List Noted × α)
  | done result => do return ([], ← Act.ofExcept result)
  | step l operation next => do
    let result ← (operation.act l).attempt
    let (noted, a) ← (next result).act
    return (⟨l, operation, result⟩ :: noted, a)

/-- Every step of a run starts from a store with `P`. -/
def Throughout (P : Store → Prop) : Program ε α → Context Store → Prop
  | done _, _ => True
  | step l operation next, ctx =>
    P ctx.world ∧
      Ends ((operation.act l).attempt : Act Store ε _) ctx
        (fun result => (next result).Throughout P) (fun _ _ => True)

instance decidableThroughout {P : Store → Prop} [DecidablePred P] :
    (program : Program ε α) → (ctx : Context Store) → Decidable (program.Throughout P ctx)
  | done _, _ => .isTrue trivial
  | step l operation next, ctx =>
    have := fun result => decidableThroughout (P := P) (next result)
    inferInstanceAs (Decidable (P ctx.world ∧
      Ends ((operation.act l).attempt : Act Store ε _) ctx
        (fun result => (next result).Throughout P) (fun _ _ => True)))

theorem agrees (w : Surroundings) (program : Program ε α) :
    Agrees w.Late
      (fun ctx₁ ctx₂ => w.Work Handles.Any ctx₁ ctx₂ ∧ program.Throughout Store.HasRoom ctx₁)
      program.act program.act
      (fun x y ctx₁ ctx₂ => x = y ∧ w.Work Handles.Any ctx₁ ctx₂) (w.Work Handles.Any) := by
  -- The stores mirror each other before every step of the tree, and the one outside has room.
  induction program with
  | done result =>
    refine Agrees.bind_eq ?_ (fun a => agrees_pure (fun _ _ h => ⟨rfl, h⟩))
    exact (Surroundings.agrees_ofExcept result).mono_pre (fun _ _ h => h.1)
  | step l operation next ih =>
    -- What the run outside does next is known from how its step ends.
    have hrest : ∀ ctx, (step l operation next).Throughout Store.HasRoom ctx →
        Ends ((operation.act l).attempt : Act Store ε _) ctx
          (fun result => (next result).Throughout Store.HasRoom) (fun _ _ => True) :=
      fun _ h => h.2
    have hstep : Agrees w.Late
        (fun ctx₁ ctx₂ => w.Work Handles.Any ctx₁ ctx₂ ∧
          (step l operation next).Throughout Store.HasRoom ctx₁)
        ((operation.act l).attempt : Act Store ε _) (operation.act l).attempt
        (fun x y ctx₁ ctx₂ => x = y ∧
          (w.Work Handles.Any ctx₁ ctx₂ ∧ (next x).Throughout Store.HasRoom ctx₁))
        (w.Work Handles.Any) := by
      refine ((operation.transparent l).attempt_eq.and_first hrest).mono ?_ ?_ (fun _ _ h => h)
      · exact fun _ _ h => ⟨h.1.room h.2.1, h.2⟩
      · exact fun _ _ _ _ h => ⟨h.1.1, h.1.2, h.2⟩
    refine hstep.bind_eq (fun result => (ih result).bind_eq ?_)
    exact fun ending => agrees_pure (fun _ _ h => ⟨rfl, h⟩)

end Program

end TransactionalRegistry
