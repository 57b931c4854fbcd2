import TransactionalRegistry.Location
import TransactionalRegistry.Native.Recorder
import TransactionalRegistry.Propagation
import TransactionalRegistry.Registry.Error

/-!
# Reports

What a script tells about its steps: how each ended, and the calls and log entries made since the
step before it.

## Main definitions

* `Script.Reply`: The answer of a step that succeeded.
* `Script.StepError`: The error of a step that failed.
* `Script.Report`: What is told about a step.
* `Script.Result`: What is told about a script.
-/

namespace TransactionalRegistry

namespace Script

/-- What is open: key handles, transaction handles, and entries of the ambient stack. -/
structure Counts where
  openKeys : Nat
  openTransactions : Nat
  depth : Nat
  deriving DecidableEq, Repr

/-- The answer of a step that succeeded. -/
inductive Reply (V : Type) where
  | nothing
  | flag (b : Bool)
  | text (text : String)
  | texts (texts : List String)
  | number (n : Int)
  | bytes (bytes : List UInt8)
  | value (value : Value)
  | values (values : List (String × Value))
  | keyInfo (info : KeyInfo) (sinceMark : Option Bool)
  | handle (raw : UInt64)
  | createdKey (key : KeyHandle) (disposition : Disposition)
  | data (data : ValueData)
  | namedData (name : String) (data : ValueData)
  | settings (settings : TransactionSettings) (debugText : String)
  | policy (policy : Policy)
  | ambient (current : Option TransactionHandle) (depth : Nat)
  | counts (counts : Counts)
  | listing (keys : List (Location × List (String × ValueData)))
  | transaction (transaction : Transaction) (shared : Shared)
  /-- The answer that work under a policy was to end with. -/
  | answer (v : V)

/-- The error of a step that failed. -/
inductive StepError where
  | native (error : NativeError)
  | transaction (error : TransactionError)
  | registry (error : RegistryError)
  | propagation (error : PropagationError RegistryError)
  deriving DecidableEq, Repr

/-- Calls and log entries, oldest first. -/
structure Activity where
  calls : List CallRecord
  log : List LogEntry

/-- How a step ended. -/
abbrev StepOutcome (V : Type) : Type := Except (Failure StepError) (Reply V)

/-- What is told about a step: how it ended, and what went on since the step before it or, if it has
    steps inside, since the last of those. A step that runs others as the work of a policy tells
    what went on before the first of them as its `entry`, and has none if the work did not run. -/
inductive Report (V : Type) where
  | plain (outcome : StepOutcome V) (activity : Activity)
  | policy (outcome : StepOutcome V) (activity : Activity) (entry : Option Activity)
      (inside : List (Report V))
  | thread (outcome : StepOutcome V) (activity : Activity) (inside : List (Report V))

/-- How the step of a report ended. -/
def Report.outcome {V : Type} : Report V → StepOutcome V
  | plain outcome _ => outcome
  | policy outcome _ _ _ => outcome
  | thread outcome _ _ => outcome

/-- Why the last step of a script was not reached. -/
inductive Stop where
  | error
  | panic
  deriving DecidableEq, Repr

/-- What is told about a script: its steps, whether it stopped before the last one, what was open at
    its end, and what was open and what went on after the transactions it held were given up. -/
structure Result (V : Type) where
  reports : List (Report V)
  stopped : Option Stop
  atEnd : Counts
  afterwards : Counts
  activity : Activity

end Script

end TransactionalRegistry
