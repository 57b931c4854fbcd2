import TransactionalRegistry.Registry.Operations
import TransactionalRegistry.Script.World

/-!
# Running scripts

The steps of a list run one after the other. A step that fails ends the list if it says so, and its
error becomes the error of the list; a panic ends the list unless the step keeps it to itself. A
list inside a step ends that step in the same way.

What a step did is told right after it: the calls and log entries made since they were last taken
out. What is logged when a failure is passed on comes after that, and is told with the next step.

## Main definitions

* `Script.runPlain`: Runs a step without steps inside.
* `Script.runSteps`: Runs a list of steps.
* `Script.run`: Runs a script on a fresh store.
-/

namespace TransactionalRegistry

namespace Script

variable {V : Type}

/-! ## Keys -/

/-- Whether a time is later than the mark; `none` without a mark. -/
def sinceMark (time : Time) : Act (World V) StepError (Option Bool) :=
  return (← get).world.marked.map fun mark => mark < time

/-- Runs an operation on the key at a location. -/
def runKeyOn (l : Location) : KeyStep → Act (World V) RegistryError (Reply V)
  | .exists => return .flag (← Registry.exists l)
  | .create => do Registry.create l; return .nothing
  | .createIfMissing => return .flag (← Registry.createIfMissing l)
  | .delete => do Registry.delete l; return .nothing
  | .deleteIfExists => return .flag (← Registry.deleteIfExists l)
  | .rename newName => return .text (← Registry.rename l newName).text
  | .info => return .keyInfo (← Registry.info l) none
  | .subKeyNames => return .texts (← Registry.subKeyNames l)
  | .subKeys => return .texts ((← Registry.subKeys l).map Location.text)
  | .valueNames => return .texts (← Registry.valueNames l)
  | .values => return .values (← Registry.values l)
  | .get name => return .value (← Registry.getValue l name)
  | .valueExists name => return .flag (← Registry.valueExists l name)
  | .set name value => do Registry.setValue l name value; return .nothing
  | .deleteValue name => do Registry.deleteValue l name; return .nothing
  | .deleteValueIfExists name => return .flag (← Registry.deleteValueIfExists l name)
  | .getString name => return .text (← Registry.getString l name)
  | .getDword name => return .number (← Registry.getDword l name).toNat
  | .getQword name => return .text (Text.decimal (← Registry.getQword l name).toNat)
  | .getMultiString name => return .texts (← Registry.getMultiString l name)
  | .getBinary name => return .bytes (← Registry.getBinary l name)

/-- The answer with what the mark says about it. -/
def withMark : Reply V → Act (World V) StepError (Reply V)
  | .keyInfo info _ => return .keyInfo info (← sinceMark info.lastWrite)
  | reply => return reply

/-- Runs an operation on the key at the location that a text spells. -/
def runKey (text : String) (step : KeyStep) : Act (World V) StepError (Reply V) := do
  let l ← (Act.ofExcept (Registry.parse text)).mapError .registry
  withMark (← (runKeyOn l step).mapError .registry)

/-! ## Transactions -/

/-- Runs `action` on the transaction that a reference stands for; answers `"none"` if there is
    none. -/
def onTransaction (ref : TransactionRef)
    (action : Transaction → Act (World V) TransactionError (Reply V)) :
    Act (World V) TransactionError (Reply V) := do
  match ← transactionOf ref with
  | none => return .text "none"
  | some t => action t

/-- Whether two references stand for clones of one transaction, or both for none. -/
def sameTransaction (a b : TransactionRef) : Act (World V) TransactionError Bool := do
  return (← transactionOf a).map (·.id) = (← transactionOf b).map (·.id)

/-- Runs a step on transactions that are held by hand. -/
def runTransaction (manager : Manager) :
    TransactionStep → Act (World V) TransactionError (Reply V)
  | .create name options => do
    let t ← manager.createTransaction options
    holdAs name t
    return .text t.handle.text
  | .drop name => return .flag (← dropHeld name)
  | .same a b => return .flag (← sameTransaction a b)
  | .hold ref name => onTransaction ref fun t => do
    t.retain
    holdAs name t
    return .text t.handle.text
  | .status ref => onTransaction ref fun t => return .text (← t.status).name
  | .commit ref => onTransaction ref fun t => do t.commit; return .nothing
  | .rollback ref => onTransaction ref fun t => do t.rollback; return .nothing
  | .close ref => onTransaction ref fun t => do t.close; return .nothing
  | .setAutoCommit ref autoCommit => onTransaction ref fun t => do
    t.setAutoCommit autoCommit
    return .flag (← t.shared).autoCommit
  | .display ref => onTransaction ref fun t => return .text (← t.display)
  | .debugText ref => onTransaction ref fun t => return .text (t.debugText (← t.shared))
  | .info ref => onTransaction ref fun t => return .transaction t (← t.shared)

/-! ## Calls on the store -/

/-- Makes a call directly on the store. -/
def direct (call : Call) : Act (World V) NativeError call.Answer :=
  onStore (Store.perform call)

/-- The word for the state of a transaction. -/
def stateText : Option TransactionState → String
  | some .active => "active"
  | some .committed => "committed"
  | some .rolledBack => "rolled_back"
  | none => "none"

/-- Makes a call directly on the store. -/
def runStore : StoreStep → Act (World V) NativeError (Reply V)
  | .createTransaction timeoutMillis description saveAs => do
    let handle ← direct (.createTransaction timeoutMillis description)
    saveHandle saveAs handle.raw
    return .handle handle.raw
  | .outcome ref => do
    let outcome ← direct (.transactionOutcome (← transactionHandleOf ref))
    return .number outcome.toInt
  | .commit ref => do
    direct (.commitTransaction (← transactionHandleOf ref))
    return .nothing
  | .rollback ref => do
    direct (.rollbackTransaction (← transactionHandleOf ref))
    return .nothing
  | .close ref => do
    direct (.closeTransaction (← transactionHandleOf ref))
    return .nothing
  | .state ref => do
    return .text (stateText (← onStore (Store.transactionState? (← transactionHandleOf ref))))
  | .openKey parent subKey access ref saveAs => do
    let key ← direct (.openKey (← keyHandleOf parent) subKey access (← variantOf ref))
    saveHandle saveAs key.raw
    return .handle key.raw
  | .createKey parent subKey access ref saveAs => do
    let (key, disposition) ←
      direct (.createKey (← keyHandleOf parent) subKey access (← variantOf ref))
    saveHandle saveAs key.raw
    return .createdKey key disposition
  | .deleteKey parent subKey ref => do
    direct (.deleteKey (← keyHandleOf parent) subKey (← variantOf ref))
    return .nothing
  | .renameKey parent subKey newName ref => do
    direct (.renameKey (← keyHandleOf parent) subKey newName (← variantOf ref))
    return .nothing
  | .closeKey key => do
    direct (.closeKey (← keyHandleOf key))
    return .nothing
  | .info key => return .keyInfo (← direct (.queryInfo (← keyHandleOf key))) none
  | .enumKey key index => return .text (← direct (.enumKey (← keyHandleOf key) index))
  | .enumValue key index => do
    let (name, data) ← direct (.enumValue (← keyHandleOf key) index)
    return .namedData name data
  | .get key name ref => do
    return .data (← direct (.getValue (← keyHandleOf key) name (← variantOf ref)))
  | .set key name data ref => do
    direct (.setValue (← keyHandleOf key) name data (← variantOf ref))
    return .nothing
  | .deleteValue key name ref => do
    direct (.deleteValue (← keyHandleOf key) name (← variantOf ref))
    return .nothing

/-! ## Listings -/

/-- The trees that a transaction will look at. -/
def comingView (transaction : Option TransactionHandle) (s : Store) : Hives :=
  ((transaction.bind (Table.find? s.transactions)).bind (·.workspace)).getD s.hives

/-- The values of the key at a location, read through a handle that is opened for that. -/
def valuesAt (transaction : Option TransactionHandle) (l : Location) :
    Act (World V) NativeError (List (String × ValueData)) := do
  let key ← direct (.openKey l.root.handle l.path.text .read transaction)
  let values ← onStore (Store.withNode key .queryValue none fun n =>
    .ok (n.values.map fun entry => (entry.2.name, entry.2.data)))
  direct (.closeKey key)
  return values

/-- Every key of the trees that a transaction looks at, with its values. A root key is listed only
    if it has values. -/
def listing (transaction : Option TransactionHandle) :
    Act (World V) NativeError (List (Location × List (String × ValueData))) := do
  let locations := (comingView transaction (← get).world.store).listing
  let keys ← locations.mapM fun l => return (l, ← valuesAt transaction l)
  return keys.filter fun entry => !(entry.1.isRoot && entry.2.isEmpty)

/-! ## Steps without steps inside -/

/-- Lets time pass. -/
def passTime (nanos : Time) : Act (World V) StepError Unit :=
  changeStore fun s => { s with clock := s.clock.advance nanos }

/-- Runs a step without steps inside. -/
def runPlain (manager : Manager) : PlainStep → Act (World V) StepError (Reply V)
  | .key text step => runKey text step
  | .transaction step => (runTransaction manager step).mapError .transaction
  | .store step => do withMark (← (runStore step).mapError .native)
  | .policyInfo propagation options => do
    let policy ← (Act.ofExcept (manager.policy propagation options)).mapError .transaction
    return .policy policy
  | .manager => return .settings manager.defaults manager.debugText
  | .ambient => return .ambient ((← Ambient.current).map (·.handle)) (← Ambient.depth)
  | .fail error => Act.fail (.registry (.ofNative "Forced" "forced" error))
  | .panic message => Act.panic message
  | .sleep millis => do passTime (millis * 1000000); return .nothing
  | .mark => do
    passTime 1
    changeWorld fun w => { w with marked := some w.store.clock.now }
    passTime 1
    return .nothing
  | .fault call fault => do
    changeWorld fun w => { w with
      native := ⟨w.native.world.setFault call fault, w.native.calls⟩ }
    return .nothing
  | .clearFaults => do
    changeWorld fun w => { w with native := ⟨w.native.world.clearFaults, w.native.calls⟩ }
    return .nothing
  | .counts => return .counts (countsOf (← get))
  | .protect root path => do
    match (← keyHandleOf root).root? with
    | some root => changeStore (Store.protect ((Location.ofRoot root).below path))
    | none => pure ()
    return .nothing
  | .dump ref => do
    return .listing (← (listing (← variantOf ref)).mapError .native)

/-! ## Lists of steps -/

/-- How an act ended, and the context after it. -/
def observe {ε α : Type} (act : Act (World V) ε α) (ctx : Context (World V)) :
    Except (Failure ε) α × Context (World V) :=
  match act ctx with
  | .ok a ctx => (.ok a, ctx)
  | .error failure ctx => (.error failure, ctx)

/-- The error of a step as the error of the list that it ends. -/
def passOn : StepError → Act (World V) Empty RegistryError
  | .native error => return .ofNative "RawCall" "RAW" error
  | .transaction error => return .transaction error
  | .registry error => return error
  | .propagation error => error.collapse .transaction

/-- What a list of steps came to. -/
structure Run (V : Type) where
  reports : List (Report V)
  ending : Except (Failure RegistryError) Unit
  context : Context (World V)

/-- A list of steps as work under a policy. What is to be told about the steps is put aside. -/
def asWork (answer : Option V) (run : Context (World V) → Run V) :
    Act (World V) RegistryError (Reply V) := fun ctx =>
  let (entry, ctx) := drain ctx
  let steps := run ctx
  let ctx := { steps.context with
    world := { steps.context.world with inside := some (entry, steps.reports) } }
  match steps.ending with
  | .ok _ => .ok (match answer with | some v => .answer v | none => .nothing) ctx
  | .error failure => .error failure ctx

/-- Takes out what was put aside about the steps inside a step. -/
def takeInside (ctx : Context (World V)) :
    Option (Activity × List (Report V)) × Context (World V) :=
  (ctx.world.inside, { ctx with world := { ctx.world with inside := none } })

/-- Runs a list of steps on a thread of its own: nothing is ambient there, and what the thread holds
    is given up at its end. -/
def onThread (run : Context (World V) → Run V) (ctx : Context (World V)) : Run V :=
  let steps := run { ctx with ambient := [], world := { ctx.world with held := [] } }
  let after := (observe (ε := Empty) dropAllHeld steps.context).2
  { steps with
    context := { after with
      ambient := ctx.ambient, world := { after.world with held := ctx.world.held } } }

/-- How the steps on a thread make the step end that runs them. -/
def threadOutcome : Except (Failure RegistryError) Unit → StepOutcome V
  | .ok _ => .ok .nothing
  | .error (.error e) => .error (.error (.registry e))
  | .error (.panic message) => .error (.panic message)

/-- The failure that ends the list after a step, if it does, and the context after passing it on. -/
def ending (flow : Flow) (outcome : StepOutcome V) (ctx : Context (World V)) :
    Option (Failure RegistryError) × Context (World V) :=
  match outcome with
  | .ok _ => (none, ctx)
  | .error (.panic message) => (if flow.catchPanic then none else some (.panic message), ctx)
  | .error (.error e) =>
    if flow.stopOnError then
      match passOn e ctx with
      | .ok error ctx => (some (.error error), ctx)
      | .error _ ctx => (none, ctx)
    else (none, ctx)

mutual

/-- Runs a step. -/
def runStep (manager : Manager) : Step V → Context (World V) → Report V × Context (World V)
  | .plain step _, ctx =>
    let (outcome, ctx) := observe (runPlain manager step) ctx
    let (activity, ctx) := drain ctx
    (.plain outcome activity, ctx)
  | .policy propagation options answer body _, ctx =>
    match manager.policy propagation options with
    | .error e =>
      let (activity, ctx) := drain ctx
      (.plain (.error (.error (.transaction e))) activity, ctx)
    | .ok policy =>
      let work := asWork answer (runSteps manager body)
      let (outcome, ctx) := observe ((policy.call work).mapError .propagation) ctx
      let (inside, ctx) := takeInside ctx
      let (activity, ctx) := drain ctx
      (.policy outcome activity (inside.map Prod.fst) ((inside.map Prod.snd).getD []), ctx)
  | .thread body _, ctx =>
    let steps := onThread (runSteps manager body) ctx
    let (activity, ctx) := drain steps.context
    (.thread (threadOutcome steps.ending) activity steps.reports, ctx)

/-- Runs a list of steps. -/
def runSteps (manager : Manager) : List (Step V) → Context (World V) → Run V
  | [], ctx => ⟨[], .ok (), ctx⟩
  | step :: rest, ctx =>
    let (report, ctx) := runStep manager step ctx
    match ending step.flow report.outcome ctx with
    | (some failure, ctx) => ⟨[report], .error failure, ctx⟩
    | (none, ctx) =>
      let more := runSteps manager rest ctx
      { more with reports := report :: more.reports }

end

/-- Runs a script on a fresh store, and gives up what it holds at its end. -/
def run (manager : Manager) (steps : List (Step V)) : Result V :=
  let steps := runSteps manager steps (Context.ofWorld World.fresh)
  let (activity, after) := drain (observe (ε := Empty) dropAllHeld steps.context).2
  { reports := steps.reports
    stopped := match steps.ending with
      | .ok _ => none
      | .error (.error _) => some .error
      | .error (.panic _) => some .panic
    atEnd := countsOf steps.context
    afterwards := countsOf after
    activity := activity }

end Script

end TransactionalRegistry
