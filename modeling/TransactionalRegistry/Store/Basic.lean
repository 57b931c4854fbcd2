import TransactionalRegistry.Native.Call
import TransactionalRegistry.Tree.Mutation

/-!
# The store

The store holds the live trees, the open transactions, the open key handles and the protected
locations. Handles of both kinds are drawn from one counter and are never drawn twice.

The clock of a store is read whenever a key is written and whenever the deadline of a transaction is
looked at. Time may pass between two readings within one call: `drift` lists how much passes before
each of the coming readings, and once it is used up the clock stands still until someone moves it.
So a statement about all stores is a statement about every clock that never runs backwards.

## Main definitions

* `Clock`: A clock and the time that will pass before its next readings.
* `TransactionState`: Whether a transaction is active and, if not, how it ended.
* `TransactionRecord`: What the store keeps about a transaction.
* `OpenKey`: What the store keeps about an open key handle.
* `Store`: The state of the store.
* `StoreM`: A computation on a store that may fail with an error code.
-/

namespace TransactionalRegistry

/-- A clock. Before the first of the coming readings the first time in `drift` passes, before the
    second the second, and so on. -/
structure Clock where
  now : Time
  drift : List Time
  deriving DecidableEq, Repr

namespace Clock

/-- The clock at its next reading. -/
def read (clock : Clock) : Clock :=
  match clock.drift with
  | [] => clock
  | passed :: rest => ⟨clock.now + passed, rest⟩

/-- The clock after some time has passed. -/
def advance (clock : Clock) (passed : Time) : Clock :=
  { clock with now := clock.now + passed }

end Clock

/-- Whether a transaction is active and, if not, how it ended. -/
inductive TransactionState where
  | active
  | committed
  | rolledBack
  deriving DecidableEq, Repr

/-- What the store keeps about a transaction: its description, when it expires, its state, its
    private copy of the trees, taken when the trees are first looked at, and the changes to be made
    to the live trees when it commits, in order. -/
structure TransactionRecord where
  description : Option String
  deadline : Option Time
  state : TransactionState
  workspace : Option Hives
  log : List Mutation

/-- What the store keeps about an open key handle: where the key is, the rights that it was opened
    with, and the transaction that the handle is bound to. -/
structure OpenKey where
  location : Location
  access : Access
  transaction : Option TransactionHandle
  deriving DecidableEq, Repr

/-- The state of the store. -/
structure Store where
  hives : Hives
  transactions : Table TransactionHandle TransactionRecord
  keys : Table KeyHandle OpenKey
  protectedPlaces : List Location
  nextHandle : UInt64
  clock : Clock
  /-- The code that the last failed transaction call left behind. -/
  lastError : UInt32
  /-- The log, oldest entry first. -/
  journal : List LogEntry

/-- A computation on a store that may fail with an error code. -/
abbrev StoreM (α : Type) : Type := EStateM NativeError Store α

namespace TransactionRecord

/-- An active transaction that has done nothing yet, created at the time `now`. -/
def fresh (timeoutMillis : UInt32) (description : Option String) (now : Time) :
    TransactionRecord where
  description := description
  deadline := if timeoutMillis = 0 then none else some (now + timeoutMillis.toNat * 1000000)
  state := .active
  workspace := none
  log := []

/-- The transaction rolled back, with its private copy and its changes given up. -/
def discarded (record : TransactionRecord) : TransactionRecord :=
  { record with state := .rolledBack, workspace := none, log := [] }

/-- The transaction committed, with its private copy and its changes given up. -/
def settled (record : TransactionRecord) : TransactionRecord :=
  { record with state := .committed, workspace := none, log := [] }

/-- When an active transaction expires, if ever. -/
def pendingDeadline (record : TransactionRecord) : Option Time :=
  if record.state = .active then record.deadline else none

end TransactionRecord

namespace OpenKey

/-- The handle of a root key: it grants every right and is bound to no transaction. -/
def ofRoot (root : RootKey) : OpenKey :=
  ⟨Location.ofRoot root, Access.all, none⟩

end OpenKey

namespace Store

/-- The first handle that is drawn. -/
def firstHandle : UInt64 := 0x1000

/-- The distance between handles that are drawn one after the other. -/
def handleStep : UInt64 := 4

/-- A store with five root keys, nothing below them and nothing open. -/
def fresh (clock : Clock) : Store where
  hives := Hives.empty clock.now
  transactions := []
  keys := []
  protectedPlaces := []
  nextHandle := firstHandle
  clock := clock
  lastError := 0
  journal := []

/-- Adds an entry to the log. -/
def note (entry : LogEntry) (s : Store) : Store :=
  { s with journal := s.journal ++ [entry] }

/-- Makes the key at a location, and all below it, read-only. -/
def protect (l : Location) (s : Store) : Store :=
  { s with protectedPlaces := s.protectedPlaces ++ [l] }

/-- Whether a location is protected or lies below one that is. -/
def isProtected (s : Store) (l : Location) : Bool :=
  s.protectedPlaces.any (l.isWithin ·)

/-- How many key handles are open. -/
def openKeyCount (s : Store) : Nat :=
  s.keys.length

/-- How many transaction handles are open. -/
def openTransactionCount (s : Store) : Nat :=
  s.transactions.length

/-! ## Steps of a computation -/

/-- Reads the clock. -/
def readClock : StoreM Time :=
  modifyGet fun s => let clock := s.clock.read; (clock.now, { s with clock := clock })

/-- Draws a handle. -/
def drawHandle : StoreM UInt64 :=
  modifyGet fun s => (s.nextHandle, { s with nextHandle := s.nextHandle + handleStep })

/-- Logs an entry. -/
def log (entry : LogEntry) : StoreM Unit :=
  modify (note entry)

/-- Replaces what is kept about a transaction. -/
def putRecord (transaction : TransactionHandle) (record : TransactionRecord) : StoreM Unit :=
  modify fun s => { s with transactions := Table.insert s.transactions transaction record }

/-- What is kept about a transaction, after rolling it back if its time is over. -/
def currentRecord (transaction : TransactionHandle) : StoreM TransactionRecord := do
  match Table.find? (← get).transactions transaction with
  | none => throw .invalidHandle
  | some record =>
    match record.pendingDeadline with
    | none => return record
    | some deadline =>
      if (← readClock) < deadline then return record
      log (.debug "transaction timed out")
      putRecord transaction record.discarded
      return record.discarded

/-- The trees that a call looks at: those of its transaction, copied from the live trees at the
    first look, or the live trees. -/
def view : Option TransactionHandle → StoreM Hives
  | none => return (← get).hives
  | some transaction => do
    let record ← currentRecord transaction
    if record.state ≠ .active then throw .transactionNotActive
    match record.workspace with
    | some hives => return hives
    | none =>
      let hives := (← get).hives
      putRecord transaction { record with workspace := some hives }
      return hives

/-- Makes changed trees the trees of a transaction, and keeps the change for its commit; or makes
    them the live trees. -/
def install (transaction : Option TransactionHandle) (hives : Hives) (mutation : Mutation) :
    StoreM Unit :=
  match transaction with
  | none => modify fun s => { s with hives := hives }
  | some transaction => do
    match Table.find? (← get).transactions transaction with
    | none => return ()
    | some record =>
      putRecord transaction
        { record with workspace := some hives, log := record.log ++ [mutation] }

/-- Applies a change to the trees that the call looks at. -/
def mutate (transaction : Option TransactionHandle) (mutation : Mutation) : StoreM Unit := do
  let hives ← view transaction
  match mutation.apply (← readClock) hives with
  | .error e => throw e
  | .ok changed => install transaction changed mutation

end Store

end TransactionalRegistry
