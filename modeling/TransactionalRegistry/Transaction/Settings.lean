import TransactionalRegistry.Text.Quoted
import TransactionalRegistry.Transaction.Error

/-!
# Transaction settings

A transaction is created with a timeout and a description. A manager has settings that its
transactions start from; options override them field by field, and an option of one kind may be
given once.

## Main definitions

* `TransactionSettings`: A timeout and a description.
* `TransactionOption`: An override of one field.
* `TransactionSettings.withOptions`: The settings with options applied.
-/

namespace TransactionalRegistry

/-- The timeout and the description of a transaction. A timeout of zero is none. -/
structure TransactionSettings where
  timeout : Duration
  description : Option String
  deriving DecidableEq, Repr

/-- An override of one field of the settings. -/
inductive TransactionOption where
  | timeout (duration : Duration)
  | description (text : String)
  deriving DecidableEq, Repr

/-- The kind of an option. -/
def TransactionOption.kind : TransactionOption → OptionKind
  | timeout _ => .timeout
  | description _ => .description

/-- The fields that options have given so far. -/
structure GivenOptions where
  timeout : Option Duration
  description : Option String
  deriving DecidableEq, Repr

namespace GivenOptions

/-- No field given. -/
def none : GivenOptions := ⟨Option.none, Option.none⟩

/-- The fields after one more option; an option whose field was given before is refused. -/
def add (given : GivenOptions) : TransactionOption → Except TransactionError GivenOptions
  | .timeout duration =>
    if given.timeout.isSome then .error (.duplicateOption .timeout)
    else .ok { given with timeout := some duration }
  | .description text =>
    if given.description.isSome then .error (.duplicateOption .description)
    else .ok { given with description := some text }

/-- The fields after some more options. -/
def addAll (given : GivenOptions) : List TransactionOption → Except TransactionError GivenOptions
  | [] => .ok given
  | option :: rest => (given.add option).bind (addAll · rest)

end GivenOptions

namespace TransactionSettings

/-- No timeout and no description. -/
def default : TransactionSettings := ⟨Duration.zero, none⟩

/-- The settings with the given fields in place of their own. -/
def override (settings : TransactionSettings) (given : GivenOptions) : TransactionSettings where
  timeout := given.timeout.getD settings.timeout
  description := given.description.or settings.description

/-- The settings with options applied; the first option that repeats a kind is refused. -/
def withOptions (settings : TransactionSettings) (options : List TransactionOption) :
    Except TransactionError TransactionSettings :=
  (GivenOptions.none.addAll options).map settings.override

/-- The settings as diagnostic text. -/
def debugText (settings : TransactionSettings) : String :=
  "TransactionDefaults \x7b timeout: " ++ settings.timeout.text ++ ", description: " ++
    Text.quoteOption settings.description ++ " \x7d"

end TransactionSettings

end TransactionalRegistry
