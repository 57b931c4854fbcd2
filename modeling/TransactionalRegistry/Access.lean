/-!
# Access rights

A key is opened with a mask of rights. A mask is any 32-bit word: bits without a name are kept, and
a call checks only the bits that it needs.

## Main definitions

* `Access`: A mask of rights.
* `Access.contains`: Whether a mask grants every right of another.
* `Access.intersects`: Whether two masks share a right.
* `Access.isModifying`: Whether a mask grants a right that changes the key.
* `Access.truncated`: The rights of a mask that have a name.
-/

namespace TransactionalRegistry

/-- A mask of rights on a key. -/
structure Access where
  bits : UInt32
  deriving DecidableEq, Repr

namespace Access

/-- Reading values and asking about the key. -/
def queryValue : Access := ⟨0x1⟩

/-- Writing and deleting values. -/
def setValue : Access := ⟨0x2⟩

/-- Creating keys below the key. -/
def createSubKey : Access := ⟨0x4⟩

/-- Listing the keys below the key. -/
def enumerateSubKeys : Access := ⟨0x8⟩

/-- Being told of changes. -/
def notify : Access := ⟨0x10⟩

/-- Creating links. -/
def createLink : Access := ⟨0x20⟩

/-- Deleting the key. -/
def delete : Access := ⟨0x10000⟩

/-- Reading the security information of the key. -/
def readControl : Access := ⟨0x20000⟩

/-- Writing the access list of the key. -/
def writeDac : Access := ⟨0x40000⟩

/-- Writing the owner of the key. -/
def writeOwner : Access := ⟨0x80000⟩

/-- The rights of either mask. -/
def union (a b : Access) : Access :=
  ⟨a.bits ||| b.bits⟩

/-- The rights of both masks. -/
def inter (a b : Access) : Access :=
  ⟨a.bits &&& b.bits⟩

/-- All rights that read. -/
def read : Access :=
  ((readControl.union queryValue).union enumerateSubKeys).union notify

/-- All rights that write values and create keys. -/
def write : Access :=
  (readControl.union setValue).union createSubKey

/-- Every right that has a name. -/
def all : Access := ⟨0xF003F⟩

/-- Whether `a` grants every right of `b`. -/
def contains (a b : Access) : Bool :=
  a.inter b = b

/-- Whether the masks share a right. -/
def intersects (a b : Access) : Bool :=
  (a.inter b).bits ≠ 0

/-- The rights that change the key, its values or its security information. -/
def modifying : Access :=
  ((((setValue.union createSubKey).union createLink).union delete).union writeDac).union writeOwner

/-- Whether a mask grants a right that changes the key. -/
def isModifying (a : Access) : Bool :=
  a.intersects modifying

/-- The rights of a mask that have a name. -/
def truncated (a : Access) : Access :=
  a.inter all

/-- Whether every bit of a mask is a right that has a name. -/
def isKnown (a : Access) : Bool :=
  a.truncated = a

end Access

end TransactionalRegistry
