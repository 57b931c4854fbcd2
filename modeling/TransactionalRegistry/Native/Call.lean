import TransactionalRegistry.Access
import TransactionalRegistry.ErrorCode
import TransactionalRegistry.Handle
import TransactionalRegistry.LogEntry
import TransactionalRegistry.Tree.Node

/-!
# Native calls

The calls that a store answers. Transactions, policies and key operations are written against these
calls alone, so they run on the store of this library, on a store wrapped in a recorder, and on any
other implementation.

A call on a key by its path, or on a value, comes in two variants: plain, and transacted, which
names a transaction. The remaining calls take a handle only; a handle stays bound to the transaction
that it was opened in.

## Main definitions

* `Call`: A call with its arguments.
* `Call.Answer`: The type of a successful answer to a call.
* `Native`: An implementation of the calls over a world of its own.
* `Call.transaction?`: The transaction that a call names.
-/

namespace TransactionalRegistry

/-- Whether a create call made a key or found it. -/
inductive Disposition where
  | createdNew
  | openedExisting
  deriving DecidableEq, Repr

/-- A call with its arguments. Where a call has two variants, `transaction` is the transaction of
    the transacted one and `none` for the plain one. -/
inductive Call where
  | createTransaction (timeoutMillis : UInt32) (description : Option String)
  | transactionOutcome (transaction : TransactionHandle)
  | commitTransaction (transaction : TransactionHandle)
  | rollbackTransaction (transaction : TransactionHandle)
  | closeTransaction (transaction : TransactionHandle)
  | openKey (parent : KeyHandle) (subKey : String) (access : Access)
      (transaction : Option TransactionHandle)
  | createKey (parent : KeyHandle) (subKey : String) (access : Access)
      (transaction : Option TransactionHandle)
  | deleteKey (parent : KeyHandle) (subKey : String) (transaction : Option TransactionHandle)
  | renameKey (parent : KeyHandle) (subKey newName : String)
      (transaction : Option TransactionHandle)
  | closeKey (key : KeyHandle)
  | queryInfo (key : KeyHandle)
  | enumKey (key : KeyHandle) (index : UInt32)
  | enumValue (key : KeyHandle) (index : UInt32)
  | getValue (key : KeyHandle) (name : String) (transaction : Option TransactionHandle)
  | setValue (key : KeyHandle) (name : String) (data : ValueData)
      (transaction : Option TransactionHandle)
  | deleteValue (key : KeyHandle) (name : String) (transaction : Option TransactionHandle)
  deriving DecidableEq, Repr

namespace Call

/-- The type of a successful answer to a call. -/
@[reducible]
def Answer : Call → Type
  | createTransaction .. => TransactionHandle
  | transactionOutcome .. => Int32
  | commitTransaction .. => Unit
  | rollbackTransaction .. => Unit
  | closeTransaction .. => Unit
  | openKey .. => KeyHandle
  | createKey .. => KeyHandle × Disposition
  | deleteKey .. => Unit
  | renameKey .. => Unit
  | closeKey .. => Unit
  | queryInfo .. => KeyInfo
  | enumKey .. => String
  | enumValue .. => String × ValueData
  | getValue .. => ValueData
  | setValue .. => Unit
  | deleteValue .. => Unit

/-- The transaction that the transacted variant of a call names. -/
def transaction? : Call → Option TransactionHandle
  | openKey _ _ _ transaction => transaction
  | createKey _ _ _ transaction => transaction
  | deleteKey _ _ transaction => transaction
  | renameKey _ _ _ transaction => transaction
  | getValue _ _ transaction => transaction
  | setValue _ _ _ transaction => transaction
  | deleteValue _ _ transaction => transaction
  | _ => none

/-- The name of a call without regard to its variant. -/
def plainName : Call → String
  | createTransaction .. => "create_transaction"
  | transactionOutcome .. => "transaction_outcome"
  | commitTransaction .. => "commit_transaction"
  | rollbackTransaction .. => "rollback_transaction"
  | closeTransaction .. => "close_transaction"
  | openKey .. => "open_key"
  | createKey .. => "create_key"
  | deleteKey .. => "delete_key"
  | renameKey .. => "rename_key"
  | closeKey .. => "close_key"
  | queryInfo .. => "query_info"
  | enumKey .. => "enum_key"
  | enumValue .. => "enum_value"
  | getValue .. => "get_value"
  | setValue .. => "set_value"
  | deleteValue .. => "delete_value"

/-- The name of a call in its variant. -/
def name (call : Call) : String :=
  if call.transaction?.isSome then call.plainName ++ "_transacted" else call.plainName

end Call

/-- An implementation of the calls over a world `W` of its own, which also keeps the log. -/
class Native (W : Type) where
  /-- The answer to a call, and the world after it. -/
  perform : (call : Call) → EStateM NativeError W call.Answer
  /-- The world after an entry is logged. -/
  log : LogEntry → W → W

end TransactionalRegistry
