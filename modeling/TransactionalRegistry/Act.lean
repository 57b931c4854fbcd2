import TransactionalRegistry.Duration
import TransactionalRegistry.Native.Call

/-!
# Acts

An act is a piece of work that makes native calls. It runs in a context: the world that answers the
calls, the ambient stack of the running thread, and the state that the clones of each transaction
share. An act ends with a value, with an error of its own type, or with a panic; whichever it is,
the context goes on from where it ended.

A panic is not an error: nothing here turns it into one. It goes through every enclosing act, each
of which may still clean up on its way.

## Main definitions

* `Transaction`: A transaction, as the work that uses it holds it.
* `Shared`: The state that the clones of a transaction share.
* `Context`: What an act runs in.
* `Failure`: An error or a panic.
* `Act`: A piece of work.
* `Act.call`: Makes a native call.
* `Act.attempt`: Turns an error into an answer.
* `Act.ensuring`: Cleans up whichever way an act ends.
* `Act.onPanic`: Cleans up if an act panics.
-/

namespace TransactionalRegistry

/-- A transaction, as the work that uses it holds it. Two of them are clones of one transaction if
    they have the same number. -/
structure Transaction where
  id : Nat
  handle : TransactionHandle
  timeout : Duration
  description : Option String
  deriving DecidableEq, Repr

/-- The state that the clones of a transaction share: whether a policy that created it commits it,
    whether it has been closed, and how many clones there are. -/
structure Shared where
  autoCommit : Bool
  closed : Bool
  clones : Nat
  deriving DecidableEq, Repr

/-- What an act runs in. -/
structure Context (W : Type) where
  /-- The world that answers native calls. -/
  world : W
  /-- The ambient stack, its top first. An entry `none` hides the entries below it. -/
  ambient : List (Option Transaction)
  /-- The shared state of every transaction so far, in the order of their numbers. -/
  shared : List Shared

/-- A context with nothing ambient and no transaction so far. -/
def Context.ofWorld {W : Type} (world : W) : Context W :=
  ⟨world, [], []⟩

/-- The way in which an act does not end with a value. -/
inductive Failure (ε : Type) where
  | error (e : ε)
  | panic (message : String)
  deriving DecidableEq, Repr

/-- A piece of work over a world `W` that fails with errors `ε`, or panics, or ends with a value. -/
abbrev Act (W ε α : Type) : Type := EStateM (Failure ε) (Context W) α

namespace Act

variable {W ε ε' α : Type}

/-- Fails with an error. -/
def fail (e : ε) : Act W ε α :=
  throw (.error e)

/-- Panics. -/
def panic (message : String) : Act W ε α :=
  throw (.panic message)

/-- Ends as a result says. -/
def ofExcept : Except ε α → Act W ε α
  | .ok a => pure a
  | .error e => fail e

/-- Makes a native call. -/
def call [Native W] (call : Call) : Act W NativeError call.Answer := fun ctx =>
  match Native.perform call ctx.world with
  | .ok answer world => .ok answer { ctx with world := world }
  | .error e world => .error (.error e) { ctx with world := world }

/-- Logs an entry. -/
def log [Native W] (entry : LogEntry) : Act W ε Unit := fun ctx =>
  .ok () { ctx with world := Native.log entry ctx.world }

/-- The act with its errors turned by `f`. -/
def mapError (f : ε → ε') (act : Act W ε α) : Act W ε' α := fun ctx =>
  match act ctx with
  | .ok a ctx => .ok a ctx
  | .error (.error e) ctx => .error (.error (f e)) ctx
  | .error (.panic message) ctx => .error (.panic message) ctx

/-- The act with an error turned into an answer. -/
def attempt (act : Act W ε α) : Act W ε' (Except ε α) := fun ctx =>
  match act ctx with
  | .ok a ctx => .ok (.ok a) ctx
  | .error (.error e) ctx => .ok (.error e) ctx
  | .error (.panic message) ctx => .error (.panic message) ctx

/-- An act that has no errors, among acts that have. -/
def lift (act : Act W Empty α) : Act W ε α :=
  act.mapError Empty.elim

/-- Runs `cleanup` if the act panics, and panics on. -/
def onPanic (act : Act W ε α) (cleanup : Act W Empty Unit) : Act W ε α := fun ctx =>
  match act ctx with
  | .ok a ctx => .ok a ctx
  | .error (.error e) ctx => .error (.error e) ctx
  | .error (.panic message) ctx => (do lift cleanup; panic message : Act W ε α) ctx

/-- Runs `cleanup` after the act, whichever way it ends, and ends that way. -/
def ensuring (act : Act W ε α) (cleanup : Act W Empty Unit) : Act W ε α := fun ctx =>
  match act ctx with
  | .ok a ctx => (do lift cleanup; return a : Act W ε α) ctx
  | .error failure ctx => (do lift cleanup; throw failure : Act W ε α) ctx

end Act

end TransactionalRegistry
