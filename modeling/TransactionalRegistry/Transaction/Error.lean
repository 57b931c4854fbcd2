import TransactionalRegistry.Duration
import TransactionalRegistry.ErrorCode

/-!
# Transaction errors

## Main definitions

* `OptionKind`: The kinds of transaction options.
* `TransactionError`: Why a transaction call, or a policy, failed.
* `PropagationError`: Why work under a policy failed.
-/

namespace TransactionalRegistry

/-- The kinds of transaction options. -/
inductive OptionKind where
  | timeout
  | description
  deriving DecidableEq, Repr

/-- The name of an option kind. -/
def OptionKind.name : OptionKind → String
  | timeout => "Timeout"
  | description => "Description"

/-- Why a transaction call, or a policy, failed. -/
inductive TransactionError where
  /-- The policy needs a current transaction and there is none. -/
  | transactionRequired
  /-- The policy refuses a current transaction and there is one. -/
  | transactionNotAllowed
  /-- A call failed. -/
  | native (operation : String) (error : NativeError)
  /-- An option of one kind was given twice. -/
  | duplicateOption (kind : OptionKind)
  /-- The timeout is too long to be expressed. -/
  | invalidTimeout (timeout : Duration)
  deriving DecidableEq, Repr

namespace TransactionError

/-- The text of a transaction error. -/
def message : TransactionError → String
  | transactionRequired => "a transaction is required but none is active"
  | transactionNotAllowed => "a transaction is active but transactions are not allowed here"
  | native operation error => operation ++ " failed: " ++ error.message
  | duplicateOption kind => "transaction option " ++ kind.name ++ " supplied more than once"
  | invalidTimeout timeout =>
    "invalid transaction timeout " ++ timeout.text ++
      ": exceeds the largest finite timeout the transaction manager accepts"

/-- The error code behind a transaction error, if a call failed. -/
def native? : TransactionError → Option NativeError
  | native _ error => some error
  | _ => none

end TransactionError

/-- Why work under a policy failed: the work itself did, or its transaction. The failures that came
    while that one was on its way are kept beside it. -/
inductive PropagationError (ε : Type) where
  | transaction (error : TransactionError) (suppressed : List TransactionError)
  | action (error : ε) (suppressed : List TransactionError)
  deriving DecidableEq, Repr

namespace PropagationError

variable {ε : Type}

/-- A transaction error with nothing beside it. -/
def ofTransaction (error : TransactionError) : PropagationError ε :=
  transaction error []

/-- An error of the work with nothing beside it. -/
def ofAction (error : ε) : PropagationError ε :=
  action error []

/-- The failures that came while the primary one was on its way. -/
def suppressed : PropagationError ε → List TransactionError
  | transaction _ suppressed => suppressed
  | action _ suppressed => suppressed

/-- The primary failure, as an error of the work. -/
def primary (wrap : TransactionError → ε) : PropagationError ε → ε
  | transaction error _ => wrap error
  | action error _ => error

end PropagationError

end TransactionalRegistry
