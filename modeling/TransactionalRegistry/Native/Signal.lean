import TransactionalRegistry.ErrorCode
import TransactionalRegistry.Handle

/-!
# Signals of failure

A call signals failure in one of three ways: by a status code other than zero; by the answer
`false`, with the code left behind as the last error; or by the invalid handle, with the code left
behind in the same way. Each way is turned into an error here.

The last error is looked at on failure only. A failure that left no last error behind still is one,
so it is given a code of its own.

## Main definitions

* `Signal.checkStatus`: The outcome that a status code signals.
* `Signal.checkBool`: The outcome that a truth value signals.
* `Signal.checkHandle`: The outcome that a handle signals.
-/

namespace TransactionalRegistry

namespace Signal

variable {σ : Type}

/-- A status code, `0` for success, as an outcome. -/
def checkStatus (status : UInt32) : Except NativeError Unit :=
  if status = 0 then .ok () else .error ⟨status⟩

/-- The error that a last error stands for. -/
def lastErrorOf (code : UInt32) : NativeError :=
  if code = 0 then .genFailure else ⟨code⟩

/-- A truth value as an outcome; `lastError` is run on failure only. -/
def checkBool (ok : Bool) (lastError : EStateM NativeError σ UInt32) :
    EStateM NativeError σ Unit :=
  if ok then pure () else do throw (lastErrorOf (← lastError))

/-- A handle as an outcome; `lastError` is run on failure only. -/
def checkHandle (handle : TransactionHandle) (lastError : EStateM NativeError σ UInt32) :
    EStateM NativeError σ TransactionHandle :=
  if handle.isInvalid then do throw (lastErrorOf (← lastError)) else pure handle

end Signal

end TransactionalRegistry
