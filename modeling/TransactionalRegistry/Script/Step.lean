import TransactionalRegistry.Native.Faults
import TransactionalRegistry.Propagation
import TransactionalRegistry.Value.Basic

/-!
# Scripts

A script is a list of steps that exercise a store: operations on keys, work under policies,
transactions that are held by hand, calls made directly on the store, and faults. Steps nest where a
step runs others as the work of a policy or on a thread of their own.

Scripts keep things under names. A handle saved by a call on the store is kept for the whole script;
a transaction is kept by the thread that holds it.

## Main definitions

* `Script.KeyStep`, `Script.TransactionStep`, `Script.StoreStep`, `Script.PlainStep`: Steps without
  steps inside.
* `Script.Step`: A step of a script.
* `Script.Flow`: Whether a step that fails ends the list that it stands in.
-/

namespace TransactionalRegistry

namespace Script

/-- Which transaction a step is about. -/
inductive TransactionRef where
  | ambient
  | held (name : String)
  deriving DecidableEq, Repr

/-- Which transaction handle a step is about. -/
inductive TransactionHandleRef where
  | saved (name : String)
  | literal (handle : TransactionHandle)
  | of (ref : TransactionRef)
  deriving DecidableEq, Repr

/-- Which key handle a step is about. -/
inductive KeyHandleRef where
  | saved (name : String)
  | literal (handle : KeyHandle)
  | root (root : RootKey)
  deriving DecidableEq, Repr

/-- An operation on the key at a location. -/
inductive KeyStep where
  | exists
  | create
  | createIfMissing
  | delete
  | deleteIfExists
  | rename (newName : String)
  | info
  | subKeyNames
  | subKeys
  | valueNames
  | values
  | get (name : String)
  | valueExists (name : String)
  | set (name : String) (value : Value)
  | deleteValue (name : String)
  | deleteValueIfExists (name : String)
  | getString (name : String)
  | getDword (name : String)
  | getQword (name : String)
  | getMultiString (name : String)
  | getBinary (name : String)
  deriving DecidableEq, Repr

/-- A step on transactions that are held by hand. -/
inductive TransactionStep where
  | create (name : String) (options : List TransactionOption)
  | drop (name : String)
  | same (a b : TransactionRef)
  | hold (ref : TransactionRef) (name : String)
  | status (ref : TransactionRef)
  | commit (ref : TransactionRef)
  | rollback (ref : TransactionRef)
  | close (ref : TransactionRef)
  | setAutoCommit (ref : TransactionRef) (autoCommit : Bool)
  | display (ref : TransactionRef)
  | debugText (ref : TransactionRef)
  | info (ref : TransactionRef)
  deriving DecidableEq, Repr

/-- A call made directly on the store: not recorded, and hit by no fault. -/
inductive StoreStep where
  | createTransaction (timeoutMillis : UInt32) (description : Option String)
      (saveAs : Option String)
  | outcome (transaction : TransactionHandleRef)
  | commit (transaction : TransactionHandleRef)
  | rollback (transaction : TransactionHandleRef)
  | close (transaction : TransactionHandleRef)
  | state (transaction : TransactionHandleRef)
  | openKey (parent : KeyHandleRef) (subKey : String) (access : Access)
      (transaction : Option TransactionHandleRef) (saveAs : Option String)
  | createKey (parent : KeyHandleRef) (subKey : String) (access : Access)
      (transaction : Option TransactionHandleRef) (saveAs : Option String)
  | deleteKey (parent : KeyHandleRef) (subKey : String)
      (transaction : Option TransactionHandleRef)
  | renameKey (parent : KeyHandleRef) (subKey newName : String)
      (transaction : Option TransactionHandleRef)
  | closeKey (key : KeyHandleRef)
  | info (key : KeyHandleRef)
  | enumKey (key : KeyHandleRef) (index : UInt32)
  | enumValue (key : KeyHandleRef) (index : UInt32)
  | get (key : KeyHandleRef) (name : String) (transaction : Option TransactionHandleRef)
  | set (key : KeyHandleRef) (name : String) (data : ValueData)
      (transaction : Option TransactionHandleRef)
  | deleteValue (key : KeyHandleRef) (name : String) (transaction : Option TransactionHandleRef)
  deriving DecidableEq, Repr

/-- A step without steps inside. -/
inductive PlainStep where
  | key (location : String) (step : KeyStep)
  | transaction (step : TransactionStep)
  | store (step : StoreStep)
  /-- Shows how a policy would run. -/
  | policyInfo (propagation : Propagation) (options : List TransactionOption)
  /-- Shows the settings of the manager. -/
  | manager
  /-- Shows the ambient transaction. -/
  | ambient
  /-- Fails with a code. -/
  | fail (error : NativeError)
  | panic (message : String)
  /-- Lets time pass. -/
  | sleep (millis : Nat)
  /-- Remembers the time, later than all writes so far and earlier than all to come. -/
  | mark
  | fault (call : String) (fault : Fault)
  | clearFaults
  /-- Counts what is open. -/
  | counts
  | protect (root : KeyHandleRef) (path : String)
  /-- Lists every key with its values. -/
  | dump (transaction : Option TransactionHandleRef)
  deriving DecidableEq, Repr

/-- What a failure of a step does to the list that it stands in. -/
structure Flow where
  /-- Whether an error ends the list. -/
  stopOnError : Bool
  /-- Whether a panic ends with the step. -/
  catchPanic : Bool
  deriving DecidableEq, Repr

/-- A step of a script. Work under a policy may end with an answer of its own, of type `V`. -/
inductive Step (V : Type) where
  | plain (step : PlainStep) (flow : Flow)
  | policy (propagation : Propagation) (options : List TransactionOption) (answer : Option V)
      (body : List (Step V)) (flow : Flow)
  | thread (body : List (Step V)) (flow : Flow)

/-- What a failure of the step does to the list that it stands in. A step that is there to fail
    always ends it. -/
def Step.flow {V : Type} : Step V → Flow
  | plain (.fail _) flow => { flow with stopOnError := true }
  | plain _ flow => flow
  | policy _ _ _ _ flow => flow
  | thread _ flow => flow

end Script

end TransactionalRegistry
