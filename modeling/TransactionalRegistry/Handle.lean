import TransactionalRegistry.RootKey
import TransactionalRegistry.Text.Numeral

/-!
# Handles

The store hands out handles, plain 64-bit words, for open keys and for transactions. The five root
keys have fixed handles that are always open; a transaction handle with all bits set denotes no
transaction.

## Main definitions

* `KeyHandle`: A handle to an open key.
* `TransactionHandle`: A handle to a transaction.
* `RootKey.handle`: The fixed handle of a root key.
* `KeyHandle.root?`: The root key that a handle is fixed to.
-/

namespace TransactionalRegistry

/-- A handle to an open key. -/
structure KeyHandle where
  raw : UInt64
  deriving DecidableEq, Repr

/-- A handle to a transaction. -/
structure TransactionHandle where
  raw : UInt64
  deriving DecidableEq, Repr

/-- Key handles are ordered by their number. -/
instance : LT KeyHandle where
  lt a b := a.raw < b.raw

instance : DecidableLT KeyHandle :=
  fun a b => inferInstanceAs (Decidable (a.raw < b.raw))

/-- Transaction handles are ordered by their number. -/
instance : LT TransactionHandle where
  lt a b := a.raw < b.raw

instance : DecidableLT TransactionHandle :=
  fun a b => inferInstanceAs (Decidable (a.raw < b.raw))

/-- The fixed handle of a root key. -/
def RootKey.handle : RootKey → KeyHandle
  | classesRoot => ⟨0x80000000⟩
  | currentUser => ⟨0x80000001⟩
  | localMachine => ⟨0x80000002⟩
  | users => ⟨0x80000003⟩
  | currentConfig => ⟨0x80000005⟩

namespace KeyHandle

/-- The root key that the handle is fixed to, if any. -/
def root? (key : KeyHandle) : Option RootKey :=
  RootKey.all.find? fun root => root.handle = key

/-- Whether the handle is fixed to a root key. -/
def isPredefined (key : KeyHandle) : Bool :=
  key.root?.isSome

/-- A key handle as text. -/
def text (key : KeyHandle) : String :=
  "key:" ++ Text.hexadecimal key.raw.toNat

end KeyHandle

namespace TransactionHandle

/-- The handle that denotes no transaction. -/
def invalid : TransactionHandle :=
  ⟨0xFFFFFFFFFFFFFFFF⟩

/-- Whether the handle denotes no transaction. -/
def isInvalid (transaction : TransactionHandle) : Bool :=
  transaction = invalid

/-- A transaction handle as text. -/
def text (transaction : TransactionHandle) : String :=
  "tx:" ++ Text.hexadecimal transaction.raw.toNat

/-- A transaction handle as diagnostic text. -/
def debugText (transaction : TransactionHandle) : String :=
  "TransactionHandle(" ++ Text.decimal transaction.raw.toNat ++ ")"

end TransactionHandle

end TransactionalRegistry
