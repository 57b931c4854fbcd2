/-!
# Log entries

The library logs what it does, at three levels. A warning carries the fields that say what it is
about; at the lower levels the message alone is kept.

## Main definitions

* `LogLevel`: How much an entry matters.
* `LogEntry`: An entry of the log.
* `LogEntry.isVisibleAt`: Whether an entry is shown when entries from a level upwards are.
-/

namespace TransactionalRegistry

/-- How much a log entry matters. -/
inductive LogLevel where
  | trace
  | debug
  | warn
  deriving DecidableEq, Repr

namespace LogLevel

/-- The rank of a level: the higher, the more it matters. -/
def rank : LogLevel → Nat
  | trace => 0
  | debug => 1
  | warn => 2

/-- The name of a level in a printed log. -/
def name : LogLevel → String
  | trace => "TRACE"
  | debug => "DEBUG"
  | warn => "WARN"

end LogLevel

/-- An entry of the log: its level, its message and the named texts that go with it. -/
structure LogEntry where
  level : LogLevel
  message : String
  fields : List (String × String)
  deriving DecidableEq, Repr

namespace LogEntry

/-- An entry about a single step. -/
def trace (message : String) : LogEntry := ⟨.trace, message, []⟩

/-- An entry about something that was done. -/
def debug (message : String) : LogEntry := ⟨.debug, message, []⟩

/-- An entry about something that went wrong, with what it is about. -/
def warn (message : String) (fields : List (String × String)) : LogEntry := ⟨.warn, message, fields⟩

/-- Whether an entry is shown when entries from `level` upwards are. -/
def isVisibleAt (level : LogLevel) (entry : LogEntry) : Bool :=
  level.rank ≤ entry.level.rank

end LogEntry

end TransactionalRegistry
