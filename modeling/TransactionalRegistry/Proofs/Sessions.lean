import TransactionalRegistry.Proofs.Acts
import TransactionalRegistry.Proofs.Isolation
import TransactionalRegistry.Proofs.Programs

/-!
# The calls of an operation on a key

An operation on a key makes its calls in a session: it is idle, or it has one key open. From being
idle it may make a call by path from a root key, which may open a key; through the open key it reads
and writes; and it closes that key before it goes back to being idle. It makes every one of these
calls by the route of the transaction that is current, and it is idle when it ends, however it ends.

So whatever is to be known of all operations need only be checked for these few calls. A session
says what holds while an operation is idle and what holds while it has a key open; its rules are
those checks.

## Main definitions

* `Call.ByPath`, `Call.Through`: The calls of an operation.
* `Session`: What holds while an operation is idle, and while it has a key open.
* `KeyOperation`: All operations on keys.
* `Session.keeping`: The session of what no call on a key takes away.
-/

namespace TransactionalRegistry

open Script (KeyStep)

/-- The calls by path from a root key. -/
inductive Call.ByPath (transaction : Option TransactionHandle) : Call → Prop
  | openKey (root : RootKey) (subKey : String) (access : Access) :
      ByPath transaction (.openKey root.handle subKey access transaction)
  | createKey (root : RootKey) (subKey : String) (access : Access) :
      ByPath transaction (.createKey root.handle subKey access transaction)
  | deleteKey (root : RootKey) (subKey : String) :
      ByPath transaction (.deleteKey root.handle subKey transaction)
  | renameKey (root : RootKey) (subKey newName : String) :
      ByPath transaction (.renameKey root.handle subKey newName transaction)

/-- The calls through an open key. -/
inductive Call.Through (transaction : Option TransactionHandle) (key : KeyHandle) : Call → Prop
  | queryInfo : Through transaction key (.queryInfo key)
  | enumKey (index : UInt32) : Through transaction key (.enumKey key index)
  | enumValue (index : UInt32) : Through transaction key (.enumValue key index)
  | getValue (name : String) : Through transaction key (.getValue key name transaction)
  | setValue (name : String) (data : ValueData) :
      Through transaction key (.setValue key name data transaction)
  | deleteValue (name : String) : Through transaction key (.deleteValue key name transaction)

/-- What holds while an operation, with the given transaction current, is idle, and what holds while
    it has a key open. -/
structure Session (W : Type) [Native W] (transaction : Option TransactionHandle) where
  Idle : Context W → Prop
  Open : KeyHandle → Context W → Prop
  current : ∀ ctx, Idle ctx → (Ambient.top ctx.ambient).map (·.handle) = transaction
  idle_logged : ∀ ctx entry, Idle ctx → Idle (ctx.logged entry)
  open_logged : ∀ key ctx entry, Open key ctx → Open key (ctx.logged entry)
  byPath : ∀ call, call.ByPath transaction → ∀ ctx, Idle ctx → Ends (Act.call call) ctx
    (fun answer ctx' => match call.handle? answer with
      | some key => Open key ctx'
      | none => Idle ctx')
    (fun _ => Idle)
  through : ∀ key call, call.Through transaction key → Keeps (Open key) (Act.call call)
  close : ∀ key ctx, Open key ctx → Ends (Act.call (.closeKey key)) ctx (fun _ => Idle)
    (fun _ => Idle)

/-- An operation on a key: one that is told all but the time at which the key was last written to,
    or the one that is told all. -/
inductive KeyOperation where
  | scripted (step : KeyStep)
  | fullInfo

namespace KeyOperation

/-- What an operation answers. -/
@[reducible]
def Answer : KeyOperation → Type
  | scripted step => step.Answer
  | fullInfo => KeyInfo

/-- An operation on the key at a location. -/
def act {W : Type} [Native W] (l : Location) :
    (operation : KeyOperation) → Act W RegistryError operation.Answer
  | scripted step => step.act l
  | fullInfo => Registry.info l

end KeyOperation

/-! ## What no operation takes away -/

/-- The session of an operation as far as a property goes that neither an entry in the log nor a
    call on a key takes away. -/
def Session.keeping {W : Type} [Native W] {transaction : Option TransactionHandle}
    (P : Context W → Prop)
    (current : ∀ ctx, P ctx → (Ambient.top ctx.ambient).map (·.handle) = transaction)
    (logged : ∀ ctx entry, P ctx → P (ctx.logged entry))
    (called : ∀ call : Call, call.key?.isSome → Keeps P (Act.call call)) :
    Session W transaction where
  Idle := P
  Open _ := P
  current := current
  idle_logged := logged
  open_logged _ := logged
  byPath call hpath ctx h := by
    have hkey : call.key?.isSome := by cases hpath <;> rfl
    refine (called call hkey ctx h).mono (fun answer _ h => ?_) (fun _ _ h => h)
    split <;> exact h
  through _ call hthrough := called call (by cases hthrough <;> rfl)
  close key := called (.closeKey key) rfl

end TransactionalRegistry
