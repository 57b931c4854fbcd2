import TransactionalRegistry.Act
import TransactionalRegistry.Text.Quoted
import TransactionalRegistry.Transaction.Error

/-!
# Transactions

A transaction owns one native handle. Its clones share the handle; it is closed once, on request or
when the last clone is given up, and no call is made on it after that.

## Main definitions

* `TransactionStatus`: How far a transaction has come.
* `Transaction.create`: Creates a transaction, with one clone of it.
* `Transaction.retain`, `Transaction.release`: Takes one more clone, and gives one up.
* `Transaction.status`: How far the transaction has come.
* `Transaction.commit`, `Transaction.rollback`, `Transaction.close`: Decides and closes it.
* `Transaction.setAutoCommit`: Says whether a policy that created it commits it.
-/

namespace TransactionalRegistry

/-- How far a transaction has come. `unknown` is for display only. -/
inductive TransactionStatus where
  | active
  | committed
  | rolledBack
  | closed
  | unknown
  deriving DecidableEq, Repr

namespace TransactionStatus

/-- The five statuses. -/
def all : List TransactionStatus :=
  [active, committed, rolledBack, closed, unknown]

/-- The status that an outcome number stands for. -/
def ofOutcome? (outcome : Int32) : Option TransactionStatus :=
  if outcome = 1 then some active
  else if outcome = 2 then some committed
  else if outcome = 3 then some rolledBack
  else none

/-- The name of a status. -/
def name : TransactionStatus → String
  | active => "ACTIVE"
  | committed => "COMMITTED"
  | rolledBack => "ROLLED_BACK"
  | closed => "CLOSED"
  | unknown => "UNKNOWN"

end TransactionStatus

/-- The state that a new transaction starts from. -/
def Shared.fresh : Shared := ⟨true, false, 1⟩

/-- The state of a number that belongs to no transaction: nothing can be done with it. -/
def Shared.absent : Shared := ⟨true, true, 0⟩

namespace Context

variable {W : Type}

/-- The state that the clones of a transaction share. -/
def sharedOf (ctx : Context W) (t : Transaction) : Shared :=
  ctx.shared[t.id]?.getD Shared.absent

/-- The context with the shared state of a transaction changed. -/
def updateShared (t : Transaction) (f : Shared → Shared) (ctx : Context W) : Context W :=
  { ctx with shared := ctx.shared.modify t.id f }

end Context

namespace Transaction

variable {W ε : Type} [Native W]

/-- A failed call as a transaction error. -/
def calling {α : Type} (operation : String) (act : Act W NativeError α) :
    Act W TransactionError α :=
  act.mapError (.native operation)

/-- The state that the clones share. -/
def shared (t : Transaction) : Act W ε Shared :=
  return (← get).sharedOf t

/-- Creates a transaction, with one clone of it. -/
def create (timeout : Duration) (description : Option String) :
    Act W TransactionError Transaction := do
  match timeout.wholeMillis? with
  | none => Act.fail (.invalidTimeout timeout)
  | some millis =>
    let handle ← calling "CreateTransaction" (Act.call (.createTransaction millis description))
    Act.log (.debug "transaction created")
    modifyGet fun ctx =>
      (⟨ctx.shared.length, handle, timeout, description⟩,
        { ctx with shared := ctx.shared ++ [Shared.fresh] })

/-! ## Status -/

/-- What a query says: a status, or an outcome number that stands for none. A closed transaction is
    not queried, since its handle may by now denote something else. -/
def query (t : Transaction) : Act W TransactionError (Except Int32 TransactionStatus) := do
  if (← t.shared).closed then return .ok .closed
  match ← Act.attempt (Act.call (.transactionOutcome t.handle)) with
  | .ok outcome =>
    match TransactionStatus.ofOutcome? outcome with
    | some status => return .ok status
    | none => return .error outcome
  | .error e =>
    if e.isInvalidHandle then return .ok .closed
    Act.fail (.native "GetTransactionInformation" e)

/-- How far the transaction has come. Panics on an outcome number that stands for no status. -/
def status (t : Transaction) : Act W TransactionError TransactionStatus := do
  match ← t.query with
  | .ok status => return status
  | .error outcome =>
    Act.panic ("unsupported transaction outcome " ++ Text.signedDecimal outcome.toInt ++ " for " ++
      t.handle.text)

/-- The status for display: a failed query and an outcome without a status are both unknown. -/
def displayStatus (t : Transaction) : Act W ε TransactionStatus := do
  match ← Act.attempt t.query with
  | .ok (.ok status) => return status
  | _ => return .unknown

/-! ## Deciding and closing -/

/-- Fails if the transaction has been closed. -/
def requireOpen (t : Transaction) (operation : String) : Act W TransactionError Unit := do
  if (← t.shared).closed then Act.fail (.native operation .invalidHandle)

/-- Commits the transaction. -/
def commit (t : Transaction) : Act W TransactionError Unit := do
  t.requireOpen "CommitTransaction"
  calling "CommitTransaction" (Act.call (.commitTransaction t.handle))
  Act.log (.debug "transaction committed")

/-- Rolls the transaction back. -/
def rollback (t : Transaction) : Act W TransactionError Unit := do
  t.requireOpen "RollbackTransaction"
  calling "RollbackTransaction" (Act.call (.rollbackTransaction t.handle))
  Act.log (.debug "transaction rolled back")

/-- Closes the transaction. From then on it is closed, even if the call fails; closing it again does
    nothing. -/
def close (t : Transaction) : Act W TransactionError Unit := do
  if (← t.shared).closed then
    Act.log (.trace "transaction already closed")
  else
    modify (Context.updateShared t fun shared => { shared with closed := true })
    calling "CloseHandle" (Act.call (.closeTransaction t.handle))
    Act.log (.trace "transaction closed")

/-- Says whether a policy that created the transaction commits it when its work succeeds. -/
def setAutoCommit (t : Transaction) (autoCommit : Bool) : Act W ε Unit :=
  modify (Context.updateShared t fun shared => { shared with autoCommit := autoCommit })

/-! ## Clones -/

/-- Takes one more clone of the transaction. -/
def retain (t : Transaction) : Act W ε Unit :=
  modify (Context.updateShared t fun shared => { shared with clones := shared.clones + 1 })

/-- Closes a transaction whose last clone was given up while it was open. -/
def closeAbandoned (t : Transaction) : Act W ε Unit := do
  Act.log (.warn "transaction dropped without close, closing it" [("handle", t.handle.text)])
  match ← Act.attempt (Act.call (.closeTransaction t.handle)) with
  | .ok _ => return ()
  | .error e =>
    Act.log (.warn "failed to close dropped transaction"
      [("handle", t.handle.text), ("error", e.message)])

/-- Gives up one clone of the transaction. With the last one an open transaction is closed. -/
def release (t : Transaction) : Act W ε Unit := do
  let before ← t.shared
  modify (Context.updateShared t fun shared => { shared with clones := shared.clones - 1 })
  if before.clones = 1 ∧ !before.closed then t.closeAbandoned

/-! ## Text -/

/-- A transaction with its current status, as text. -/
def display (t : Transaction) : Act W ε String :=
  return "Transaction[" ++ t.handle.text ++ ", " ++ (← t.displayStatus).name ++ "]"

/-- A truth value as diagnostic text. -/
def boolText (b : Bool) : String :=
  if b then "true" else "false"

/-- A transaction and its shared state as diagnostic text. -/
def debugText (t : Transaction) (shared : Shared) : String :=
  "Transaction \x7b handle: " ++ t.handle.debugText ++ ", timeout: " ++ t.timeout.text ++
    ", description: " ++ Text.quoteOption t.description ++ ", auto_commit: " ++
    boolText shared.autoCommit ++ ", closed: " ++ boolText shared.closed ++ " \x7d"

end Transaction

end TransactionalRegistry
