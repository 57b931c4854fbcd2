import TransactionalRegistry.Transaction.Basic

/-!
# The ambient transaction

Work runs in the transaction on top of the ambient stack of its thread, without being given it. A
scope puts an entry on the stack, runs work, and takes the top entry off again, whichever way the
work ends. An entry without a transaction hides those below it.

An entry with a transaction is a clone of it: taking it off the stack may close the transaction.

## Main definitions

* `Ambient.current`: The transaction that work runs in.
* `Ambient.depth`: How many entries the stack has.
* `Ambient.within`: Runs work with one more entry on the stack.
-/

namespace TransactionalRegistry

namespace Ambient

variable {W ε α : Type}

/-- The transaction on top of a stack. -/
def top (stack : List (Option Transaction)) : Option Transaction :=
  stack.head?.join

/-- The transaction that work runs in. -/
def current : Act W ε (Option Transaction) :=
  return top (← get).ambient

/-- How many entries the stack has. -/
def depth : Act W ε Nat :=
  return (← get).ambient.length

variable [Native W]

/-- Puts an entry on the stack. -/
def enter (entry : Option Transaction) : Act W ε Unit := do
  entry.forM Transaction.retain
  Act.log (.trace "enter ambient scope")
  modify fun ctx => { ctx with ambient := entry :: ctx.ambient }

/-- Takes the top entry off the stack. -/
def leave : Act W ε Unit := do
  let entry := top (← get).ambient
  modify fun ctx => { ctx with ambient := ctx.ambient.tail }
  Act.log (.trace "leave ambient scope")
  entry.forM Transaction.release

/-- Runs work with one more entry on the stack. -/
def within (entry : Option Transaction) (act : Act W ε α) : Act W ε α := do
  enter entry
  act.ensuring leave

end Ambient

end TransactionalRegistry
