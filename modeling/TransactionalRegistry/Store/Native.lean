import TransactionalRegistry.Store.Keys
import TransactionalRegistry.Store.Transactions

/-!
# The calls on a store

## Main definitions

* `Store.perform`: The answer of a store to a call.
-/

namespace TransactionalRegistry

namespace Store

/-- The word that tells the variants of a call apart in the log. -/
def variantSuffix (transaction : Option TransactionHandle) : String :=
  if transaction.isSome then " transacted" else ""

/-- The answer of a store to a call. Opening and creating keys is logged. -/
def perform : (call : Call) → StoreM call.Answer
  | .createTransaction timeoutMillis description => createTransaction timeoutMillis description
  | .transactionOutcome transaction => transactionOutcome transaction
  | .commitTransaction transaction => commitTransaction transaction
  | .rollbackTransaction transaction => rollbackTransaction transaction
  | .closeTransaction transaction => closeTransaction transaction
  | .openKey parent subKey access transaction => do
    log (.trace ("open key" ++ variantSuffix transaction))
    openKey parent subKey access transaction
  | .createKey parent subKey access transaction => do
    log (.trace ("create key" ++ variantSuffix transaction))
    createKey parent subKey access transaction
  | .deleteKey parent subKey transaction => deleteKey parent subKey transaction
  | .renameKey parent subKey newName transaction => renameKey parent subKey newName transaction
  | .closeKey key => closeKey key
  | .queryInfo key => queryInfo key
  | .enumKey key index => enumKey key index
  | .enumValue key index => enumValue key index
  | .getValue key name transaction => getValue key name transaction
  | .setValue key name data transaction => setValue key name data transaction
  | .deleteValue key name transaction => deleteValue key name transaction

/-- A store answers calls and keeps its log. -/
instance : Native Store where
  perform := perform
  log := note

end Store

end TransactionalRegistry
