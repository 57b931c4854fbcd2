import TransactionalRegistry.Native.Call

/-!
# Injected faults

A faulty world answers as the world inside it does, except for the calls that a fault has been set
for: those fail with a code, or report an outcome, and do not reach the world inside. A fault is set
for all calls of one name; it lets some calls pass first, and may wear off.

## Main definitions

* `Fault`: What happens to the calls of one name.
* `Faulty`: A world with the faults set for it.
* `Faulty.setFault`, `Faulty.clearFaults`: Setting a fault and removing all faults.
-/

namespace TransactionalRegistry

/-- What a fault does to a call. -/
inductive FaultEffect where
  /-- The call fails with a code. -/
  | fail (error : NativeError)
  /-- A query for the outcome of a transaction answers this number. -/
  | report (outcome : Int32)
  deriving DecidableEq, Repr

/-- What happens to the calls of one name: the first `passing` of them go through, the following
    `times`, or all of them, are hit, and after that they go through again. -/
structure Fault where
  effect : FaultEffect
  passing : Nat
  times : Option Nat
  deriving DecidableEq, Repr

namespace Fault

/-- Whether the fault hits the next call of its name, and the fault after that call. -/
def next (fault : Fault) : Bool × Fault :=
  match fault.passing, fault.times with
  | passing + 1, _ => (false, { fault with passing := passing })
  | 0, none => (true, fault)
  | 0, some 0 => (false, fault)
  | 0, some (times + 1) => (true, { fault with times := some times })

end Fault

/-- What a fault answers to a call in place of the world inside, if it applies to such a call. -/
def FaultEffect.answer? : FaultEffect → (call : Call) → Option (Except NativeError call.Answer)
  | fail error, _ => some (.error error)
  | report outcome, .transactionOutcome _ => some (.ok outcome)
  | report _, _ => none

/-- A world with the faults set for it, under the names of calls. -/
structure Faulty (W : Type) where
  world : W
  faults : List (String × Fault)

namespace Faulty

variable {W : Type}

/-- Sets a fault, in place of an earlier one for the same name. -/
def setFault (name : String) (fault : Fault) (f : Faulty W) : Faulty W :=
  { f with faults := (name, fault) :: f.faults.filter (·.1 ≠ name) }

/-- Removes all faults. -/
def clearFaults (f : Faulty W) : Faulty W :=
  { f with faults := [] }

/-- What a fault answers to a call, if one hits it, and the faults after the call. -/
def strike (call : Call) (f : Faulty W) : Option (Except NativeError call.Answer) × Faulty W :=
  match f.faults.lookup call.name with
  | none => (none, f)
  | some fault =>
    let (hit, next) := fault.next
    (if hit then fault.effect.answer? call else none, f.setFault call.name next)

variable [Native W]

/-- The answer of the world inside, unless a fault hits the call. -/
def perform (call : Call) : EStateM NativeError (Faulty W) call.Answer := fun f =>
  match strike call f with
  | (some (.ok answer), f) => .ok answer f
  | (some (.error e), f) => .error e f
  | (none, f) =>
    match Native.perform call f.world with
    | .ok answer world => .ok answer { f with world := world }
    | .error e world => .error e { f with world := world }

/-- A faulty world answers calls that no fault hits, and logs, as the world inside it does. -/
instance : Native (Faulty W) where
  perform := perform
  log entry f := { f with world := Native.log entry f.world }

end Faulty

end TransactionalRegistry
