import TransactionalRegistry.Script.Report
import TransactionalRegistry.Script.Step
import TransactionalRegistry.Store.Native

/-!
# The world of a script

A script runs on a store that records the calls made on it and that faults can be set for. Beside
the store it keeps the handles and the transactions that it has names for, and the time that it has
marked.

## Main definitions

* `Script.World`: What a script runs on.
* `Script.onStore`: Work done directly on the store.
* `Script.drain`: Takes out the calls and log entries made so far.
-/

namespace TransactionalRegistry

namespace Script

/-- What a script runs on. -/
structure World (V : Type) where
  native : Recorded (Faulty Store)
  /-- The handles that the script has saved. -/
  saved : List (String × UInt64)
  /-- The transactions that the running thread holds. -/
  held : Table String Transaction
  /-- The time that was marked last. -/
  marked : Option Time
  /-- What is to be told about the steps that ran last inside another step. -/
  inside : Option (Activity × List (Report V))

namespace World

variable {V : Type}

/-- A fresh store on a clock that stands still. -/
def fresh : World V where
  native := ⟨⟨Store.fresh ⟨0, []⟩, []⟩, []⟩
  saved := []
  held := []
  marked := none
  inside := none

/-- The store itself. -/
def store (w : World V) : Store :=
  w.native.world.world

/-- The world with its store changed. -/
def setStore (w : World V) (s : Store) : World V :=
  { w with native := ⟨⟨s, w.native.world.faults⟩, w.native.calls⟩ }

/-- The answer of the recorded store. -/
def perform (call : Call) : EStateM NativeError (World V) call.Answer := fun w =>
  match Native.perform call w.native with
  | .ok answer native => .ok answer { w with native := native }
  | .error e native => .error e { w with native := native }

/-- The world of a script answers calls and logs as its recorded store does. -/
instance : Native (World V) where
  perform := perform
  log entry w := { w with native := Native.log entry w.native }

end World

variable {V ε : Type}

/-- Work done directly on the store: not recorded, and hit by no fault. -/
def onStore {α : Type} (work : StoreM α) : Act (World V) NativeError α := fun ctx =>
  match work ctx.world.store with
  | .ok a s => .ok a { ctx with world := ctx.world.setStore s }
  | .error e s => .error (.error e) { ctx with world := ctx.world.setStore s }

/-- Changes the store. -/
def changeStore (f : Store → Store) : Act (World V) ε Unit :=
  modify fun ctx => { ctx with world := ctx.world.setStore (f ctx.world.store) }

/-- Changes the world. -/
def changeWorld (f : World V → World V) : Act (World V) ε Unit :=
  modify fun ctx => { ctx with world := f ctx.world }

/-- What is open. -/
def countsOf (ctx : Context (World V)) : Counts :=
  ⟨ctx.world.store.openKeyCount, ctx.world.store.openTransactionCount, ctx.ambient.length⟩

/-- Takes out the calls and log entries made so far. -/
def drain (ctx : Context (World V)) : Activity × Context (World V) :=
  let w := ctx.world
  (⟨w.native.calls, w.store.journal⟩,
    { ctx with
      world := { w with
        native := ⟨⟨{ w.store with journal := [] }, w.native.world.faults⟩, []⟩ } })

/-! ## References -/

/-- The transaction that a reference stands for. -/
def transactionOf (ref : TransactionRef) : Act (World V) ε (Option Transaction) := do
  match ref with
  | .ambient => Ambient.current
  | .held name => return Table.find? (← get).world.held name

/-- The handle saved under a name; zero, which denotes nothing, if there is none. -/
def savedHandle (name : String) : Act (World V) ε UInt64 :=
  return ((← get).world.saved.lookup name).getD 0

/-- The transaction handle that a reference stands for; zero, which denotes nothing, if there is
    none. -/
def transactionHandleOf (ref : TransactionHandleRef) : Act (World V) ε TransactionHandle := do
  match ref with
  | .saved name => return ⟨← savedHandle name⟩
  | .literal handle => return handle
  | .of ref => return ((← transactionOf ref).map (·.handle)).getD ⟨0⟩

/-- The transaction handle that an optional reference stands for. -/
def variantOf (ref : Option TransactionHandleRef) :
    Act (World V) ε (Option TransactionHandle) := do
  match ref with
  | none => return none
  | some ref => return some (← transactionHandleOf ref)

/-- The key handle that a reference stands for. -/
def keyHandleOf (ref : KeyHandleRef) : Act (World V) ε KeyHandle := do
  match ref with
  | .saved name => return ⟨← savedHandle name⟩
  | .literal handle => return handle
  | .root root => return root.handle

/-- Saves a handle under a name, if one is given. -/
def saveHandle (name : Option String) (raw : UInt64) : Act (World V) ε Unit :=
  match name with
  | none => pure ()
  | some name => changeWorld fun w => { w with saved := (name, raw) :: w.saved }

/-- Holds a transaction under a name; the one that was held under it is given up after that. -/
def holdAs (name : String) (t : Transaction) : Act (World V) ε Unit := do
  let before := Table.find? (← get).world.held name
  changeWorld fun w => { w with held := Table.insert w.held name t }
  before.forM Transaction.release

/-- Gives up the transaction held under a name. Answers whether there was one. -/
def dropHeld (name : String) : Act (World V) ε Bool := do
  match Table.find? (← get).world.held name with
  | none => return false
  | some t =>
    changeWorld fun w => { w with held := Table.erase w.held name }
    t.release
    return true

/-- Gives up every transaction held, in the order of their names. -/
def dropAllHeld : Act (World V) ε Unit := do
  let names := (← get).world.held.map Prod.fst
  names.forM fun name => discard (dropHeld name)

end Script

end TransactionalRegistry
