import TransactionalRegistry.Native.Signal
import TransactionalRegistry.Store.Basic
import TransactionalRegistry.Text.Utf16

/-!
# Transactions of the store

A transaction is active until it is committed or rolled back; it is rolled back on request, by a
commit that does not apply, by its timeout, or by being closed. What it changed is kept aside and
replayed on the live trees when it commits: either every change applies, or none is made and the
commit fails with a conflict.

The calls signal failure by an answer and leave the code behind as the last error.

## Main definitions

* `Store.createTransaction`: Opens a transaction.
* `Store.transactionOutcome`: How far a transaction has come, as a number.
* `Store.commitTransaction`: Makes the changes of a transaction to the live trees.
* `Store.rollbackTransaction`: Gives up the changes of a transaction.
* `Store.closeTransaction`: Closes a transaction; an active one is rolled back.
* `Store.transactionState?`: The state of a transaction that is still open.
-/

namespace TransactionalRegistry

/-- The number that stands for the state of a transaction. -/
def TransactionState.outcome : TransactionState → Int32
  | active => 1
  | committed => 2
  | rolledBack => 3

namespace Store

/-- The longest description of a transaction, in UTF-16 code units. -/
def maxDescriptionLength : Nat := 64

/-- Leaves a code behind and answers that the call failed. -/
def failWith (error : NativeError) : StoreM Bool := do
  modify fun s => { s with lastError := error.code }
  return false

/-- The code that was left behind. -/
def readLastError : StoreM UInt32 :=
  return (← get).lastError

/-- Runs `action` on a transaction as it stands now; an unknown handle is signalled. -/
def withRecord (transaction : TransactionHandle) (action : TransactionRecord → StoreM Bool) :
    StoreM Bool := do
  match Table.find? (← get).transactions transaction with
  | none => failWith .invalidHandle
  | some _ => action (← currentRecord transaction)

/-- Why a transaction that has ended can no longer be decided. -/
def decidedError : TransactionState → Option NativeError
  | .active => none
  | .committed => some .transactionAlreadyCommitted
  | .rolledBack => some .transactionAlreadyAborted

/-! ## Opening -/

/-- Opens a transaction, or signals failure by the invalid handle. -/
def openTransaction (timeoutMillis : UInt32) (description : Option String) :
    StoreM TransactionHandle := do
  if description.any fun text => maxDescriptionLength < Utf16.length text then
    discard (failWith .invalidParameter)
    return .invalid
  let handle : TransactionHandle := ⟨← drawHandle⟩
  putRecord handle (.fresh timeoutMillis description (← readClock))
  log (.debug "transaction created")
  return handle

/-- Opens a transaction. A timeout of zero is none. -/
def createTransaction (timeoutMillis : UInt32) (description : Option String) :
    StoreM TransactionHandle := do
  Signal.checkHandle (← openTransaction timeoutMillis description) readLastError

/-! ## Asking -/

/-- The number that stands for the state of a transaction. -/
def transactionOutcome (transaction : TransactionHandle) : StoreM Int32 := do
  match Table.find? (← get).transactions transaction with
  | none =>
    Signal.checkBool (← failWith .invalidHandle) readLastError
    return 0
  | some _ => return (← currentRecord transaction).state.outcome

/-- The state of a transaction that is still open. -/
def transactionState? (transaction : TransactionHandle) : StoreM (Option TransactionState) := do
  match Table.find? (← get).transactions transaction with
  | none => return none
  | some _ => return some (← currentRecord transaction).state

/-! ## Deciding -/

/-- Makes the changes of an active transaction to the live trees, all or none. -/
def settleActive (transaction : TransactionHandle) (record : TransactionRecord) :
    StoreM Bool := do
  match Mutation.replay (← readClock) (← get).hives record.log with
  | .error _ =>
    log (.debug "commit conflict, transaction rolled back")
    putRecord transaction record.discarded
    failWith .transactionalConflict
  | .ok hives =>
    modify fun s => { s with hives := hives }
    putRecord transaction record.settled
    log (.debug "transaction committed")
    return true

/-- Commits a transaction, or signals failure. -/
def trySettle (transaction : TransactionHandle) : StoreM Bool :=
  withRecord transaction fun record =>
    match decidedError record.state with
    | some error => failWith error
    | none => settleActive transaction record

/-- Commits a transaction. -/
def commitTransaction (transaction : TransactionHandle) : StoreM Unit := do
  Signal.checkBool (← trySettle transaction) readLastError

/-- Rolls a transaction back, or signals failure. -/
def tryDiscard (transaction : TransactionHandle) : StoreM Bool :=
  withRecord transaction fun record =>
    match decidedError record.state with
    | some error => failWith error
    | none => do
      putRecord transaction record.discarded
      log (.debug "transaction rolled back")
      return true

/-- Rolls a transaction back. -/
def rollbackTransaction (transaction : TransactionHandle) : StoreM Unit := do
  Signal.checkBool (← tryDiscard transaction) readLastError

/-! ## Closing -/

/-- Forgets a transaction, or signals failure. The clock is not looked at: whether an active
    transaction was overdue makes no difference any more. -/
def tryClose (transaction : TransactionHandle) : StoreM Bool := do
  match Table.find? (← get).transactions transaction with
  | none => failWith .invalidHandle
  | some record =>
    modify fun s => { s with transactions := Table.erase s.transactions transaction }
    if record.state = .active then log (.debug "transaction closed while active, rolled back")
    else log (.trace "transaction closed")
    return true

/-- Closes a transaction; an active one is rolled back by it. -/
def closeTransaction (transaction : TransactionHandle) : StoreM Unit := do
  Signal.checkBool (← tryClose transaction) readLastError

end Store

end TransactionalRegistry
