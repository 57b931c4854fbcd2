import TransactionalRegistry.Ambient
import TransactionalRegistry.Transaction.Settings

/-!
# Propagation policies

A policy decides, from the current transaction, how work runs: in that transaction, in a new one, in
none, or not at all. A transaction that a policy creates is current while the work runs, and is
finished before the policy returns: if the work succeeded and the transaction is still active, it is
committed, unless that was turned off; then it is closed, which rolls back what was not committed.
It is closed on every way out, a panic included.

If more than one of the work, the commit and the close fails, the first of them is the failure that
is reported, and a failed close is kept beside it.

## Main definitions

* `Propagation`: The six policies.
* `Policy`: A policy with the settings of the transactions that it creates.
* `Policy.call`: Runs work under a policy.
* `PropagationError.collapse`: Turns the failure of nested work into one of the work around it.
* `Manager`: The settings that policies start from.
-/

namespace TransactionalRegistry

/-- The six policies. -/
inductive Propagation where
  /-- Runs in the current transaction; fails without one. -/
  | mandatory
  /-- Runs in the current transaction, or in a new one without one. -/
  | required
  /-- Runs in a new transaction, and hides the current one. -/
  | requiresNew
  /-- Runs in the current transaction, or in none without one. -/
  | supports
  /-- Runs in no transaction, and hides the current one. -/
  | notSupported
  /-- Runs in no transaction; fails if there is a current one. -/
  | never
  deriving DecidableEq, Repr

namespace Propagation

/-- The six policies. -/
def all : List Propagation :=
  [mandatory, required, requiresNew, supports, notSupported, never]

/-- The name of a policy. -/
def name : Propagation → String
  | mandatory => "MANDATORY"
  | required => "REQUIRED"
  | requiresNew => "REQUIRES_NEW"
  | supports => "SUPPORTS"
  | notSupported => "NOT_SUPPORTED"
  | never => "NEVER"

/-- The word for a policy in diagnostic text. -/
def debugText : Propagation → String
  | mandatory => "Mandatory"
  | required => "Required"
  | requiresNew => "RequiresNew"
  | supports => "Supports"
  | notSupported => "NotSupported"
  | never => "Never"

/-- Whether a policy may create a transaction and so takes options. -/
def acceptsOptions : Propagation → Bool
  | required | requiresNew => true
  | _ => false

end Propagation

/-- A policy with the settings of the transactions that it creates. -/
structure Policy where
  propagation : Propagation
  settings : TransactionSettings
  deriving DecidableEq, Repr

namespace Policy

variable {W ε α : Type}

/-- Work that runs as it is; its error is the failure, with nothing beside it. -/
def plainly (act : Act W ε α) : Act W (PropagationError ε) α :=
  act.mapError .ofAction

variable [Native W]

/-- Commits a transaction that is still active, unless that was turned off. -/
def settle (t : Transaction) : Act W TransactionError Unit := do
  match ← t.status with
  | .active =>
    if (← t.shared).autoCommit then t.commit
    else Act.log (.debug "auto-commit off, closing uncommitted")
  | _ => Act.log (.trace "transaction already settled")

/-- Closes the transaction of work that panicked. -/
def closeOnUnwind (t : Transaction) : Act W ε Unit := do
  Act.log (.debug "closing transaction on unwind")
  match ← Act.attempt t.close with
  | .ok _ => pure ()
  | .error e => Act.log (.warn "failed to close transaction on unwind" [("error", e.message)])
  t.release

/-- The failure, or the value, that the ends of the work, of the commit and of the close make up. -/
def combine (result : Except ε α) (settled closed : Except TransactionError Unit) :
    Except (PropagationError ε) α :=
  let suppressed := match closed with
    | .ok _ => []
    | .error e => [e]
  match result, settled, closed with
  | .error e, _, _ => .error (.action e suppressed)
  | .ok _, .error e, _ => .error (.transaction e suppressed)
  | .ok _, .ok _, .error e => .error (.ofTransaction e)
  | .ok a, .ok _, .ok _ => .ok a

/-- Runs work and, if it succeeds, settles its transaction. -/
def actAndSettle (t : Transaction) (act : Act W ε α) :
    Act W Empty (Except ε α × Except TransactionError Unit) := do
  let result ← act.attempt
  match result with
  | .ok _ => return (result, ← (settle t).attempt)
  | .error _ => return (result, .ok ())

/-- Runs work in a transaction, and finishes the transaction afterwards. -/
def finishing (t : Transaction) (act : Act W ε α) : Act W (PropagationError ε) α := do
  let (result, settled) ← ((actAndSettle t act).onPanic (closeOnUnwind t)).lift
  let closed ← t.close.attempt
  t.release
  Act.ofExcept (combine result settled closed)

/-- Runs work in a new transaction. -/
def inNewTransaction (policy : Policy) (act : Act W ε α) : Act W (PropagationError ε) α := do
  let settings := policy.settings
  let t ← (Transaction.create settings.timeout settings.description).mapError .ofTransaction
  Act.log (.debug "running in new transaction")
  Ambient.within (some t) (finishing t act)

/-- Runs work under a policy. -/
def call (policy : Policy) (act : Act W ε α) : Act W (PropagationError ε) α := do
  let current ← Ambient.current
  Act.log (.trace "propagation policy entered")
  match policy.propagation, current with
  | .mandatory, none => Act.fail (.ofTransaction .transactionRequired)
  | .never, some _ => Act.fail (.ofTransaction .transactionNotAllowed)
  | .mandatory, some _ | .required, some _ | .supports, some _ => plainly act
  | .supports, none | .notSupported, none | .never, none => plainly act
  | .notSupported, some _ => Ambient.within none (plainly act)
  | .required, none | .requiresNew, none => policy.inNewTransaction act
  | .requiresNew, some _ => Ambient.within none (policy.inNewTransaction act)

/-- A policy as diagnostic text. -/
def debugText (policy : Policy) : String :=
  "TransactionalState \x7b propagation: " ++ policy.propagation.debugText ++ ", settings: " ++
    policy.settings.debugText ++ ", .. \x7d"

end Policy

/-- The primary failure as an error of the work; the failures kept beside it are logged. -/
def PropagationError.collapse {W ε ε' : Type} [Native W] (wrap : TransactionError → ε)
    (error : PropagationError ε) : Act W ε' ε := do
  error.suppressed.forM fun failure =>
    Act.log (.warn "suppressed transaction failure" [("failure", failure.message)])
  return error.primary wrap

/-- The settings that policies and transactions start from. -/
structure Manager where
  defaults : TransactionSettings
  deriving DecidableEq, Repr

namespace Manager

/-- A policy with the given options; a policy that creates no transaction takes none. -/
def policy (manager : Manager) (propagation : Propagation) (options : List TransactionOption) :
    Except TransactionError Policy :=
  if propagation.acceptsOptions then
    (manager.defaults.withOptions options).map fun settings => ⟨propagation, settings⟩
  else .ok ⟨propagation, manager.defaults⟩

/-- Creates a transaction outside any policy. It is not made current. -/
def createTransaction {W : Type} [Native W] (manager : Manager)
    (options : List TransactionOption) : Act W TransactionError Transaction := do
  let settings ← Act.ofExcept (manager.defaults.withOptions options)
  Transaction.create settings.timeout settings.description

/-- A manager as diagnostic text. -/
def debugText (manager : Manager) : String :=
  "TransactionManager \x7b defaults: " ++ manager.defaults.debugText ++ ", .. \x7d"

end Manager

end TransactionalRegistry
