import UtxoScript.Machine.Run

/-!
# Sessions

A session keeps a stack and a context while commands push and take items, replace the context, and
run scripts.
-/

namespace UtxoScript

/-- What a session keeps between commands. -/
structure Session where
  /-- The stack. -/
  stack : Stack
  /-- The context for the scripts that are run. -/
  context : Option Context

/-- A command to a session. -/
inductive Command
  /-- Push an item. -/
  | push (item : Bytes)
  /-- Take the top item off. -/
  | pop
  /-- Look at the top item. -/
  | top
  /-- Drop every item. -/
  | clear
  /-- Replace the context. -/
  | context (ctx : Option Context)
  /-- Run a script on the stack. -/
  | run (script : Script)

/-- What a command answers. -/
inductive Reply
  /-- Nothing but the new stack. -/
  | done
  /-- The item taken off. -/
  | popped (item : Option Bytes)
  /-- The item on top. -/
  | top (item : Option Bytes)
  /-- How many items were dropped. -/
  | dropped (count : Nat)
  /-- The run. -/
  | ran (r : Run)

/-- Carries out a command. -/
def Session.apply (s : Session) : Command → Session × Reply
  | .push item => ({ s with stack := item :: s.stack }, .done)
  | .pop => ({ s with stack := s.stack.tail }, .popped s.stack.head?)
  | .top => (s, .top s.stack.head?)
  | .clear => ({ s with stack := [] }, .dropped s.stack.length)
  | .context ctx => ({ s with context := ctx }, .done)
  | .run script =>
    let r := UtxoScript.run s.context script s.stack
    ({ s with stack := r.stack }, .ran r)

end UtxoScript
