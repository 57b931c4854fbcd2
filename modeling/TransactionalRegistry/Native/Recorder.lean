import TransactionalRegistry.Native.Call

/-!
# Recording calls

A recorded world answers as the world inside it does and keeps every call with its result, in the
order in which the calls were made.

## Main definitions

* `CallRecord`: A call with its result.
* `Recorded`: A world with the calls made on it so far.
-/

namespace TransactionalRegistry

/-- A call with its result. -/
structure CallRecord where
  call : Call
  result : Except NativeError call.Answer

/-- A world with the calls made on it so far, oldest first. -/
structure Recorded (W : Type) where
  world : W
  calls : List CallRecord

namespace Recorded

variable {W : Type} [Native W]

/-- The answer of the world inside, with the call and its result kept. -/
def perform (call : Call) : EStateM NativeError (Recorded W) call.Answer := fun r =>
  match Native.perform call r.world with
  | .ok answer world => .ok answer ⟨world, r.calls ++ [⟨call, .ok answer⟩]⟩
  | .error e world => .error e ⟨world, r.calls ++ [⟨call, .error e⟩]⟩

/-- A recorded world answers calls and logs as the world inside it does. -/
instance : Native (Recorded W) where
  perform := perform
  log entry r := { r with world := Native.log entry r.world }

end Recorded

end TransactionalRegistry
