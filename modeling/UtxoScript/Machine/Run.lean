import UtxoScript.Inspect
import UtxoScript.Machine.Step

/-!
# Runs

A run takes the elements of a script one after another and stops at the first that rejects. It
leaves a stack, the questions asked, a trace with one entry for every element started, and the
rejection if there was one. A spend runs two scripts on one stack and accepts if both run and the
item on top of the stack is true.

`runFrom` says what a run is, by recursion on the script. `run` arrives at the same in one pass that
carries the depth of the stack along and keeps what has been collected with the last item first, so
that a step takes no longer on a deep stack or late in a long script; `run_eq_runFrom` says that
they agree.
-/

namespace UtxoScript

/-- The start of an element. -/
structure TraceEntry where
  /-- The position of the element in its script. -/
  position : Nat
  /-- The depth of the stack before it. -/
  depth : Nat
  /-- The element. -/
  element : Element
  deriving DecidableEq

/-- The wording of a trace entry. -/
def TraceEntry.message (entry : TraceEntry) : String :=
  "pc=" ++ toString entry.position ++ " depth=" ++ toString entry.depth ++ " element="
    ++ entry.element.inspect

/-- What a run leaves. -/
structure Run where
  /-- The stack, as it was when the run ended. -/
  stack : Stack
  /-- The questions asked, in order. -/
  calls : List Call
  /-- The elements started, in order. -/
  trace : List TraceEntry
  /-- Why the run stopped before the end of the script, if it did. -/
  rejection : Option Rejection
  deriving DecidableEq

/-- Whether the run reached the end of its script. -/
def Run.completed (r : Run) : Bool := r.rejection.isNone

/-- The reports made during a run: the rejection, if there was one. -/
def Run.log (r : Run) : List String := (r.rejection.map Rejection.message).toList

/-- Runs the part of a script that begins at the given position. -/
def runFrom (ctx : Option Context) (position : Nat) : Script → Stack → Run
  | [], stack => ⟨stack, [], [], none⟩
  | element :: rest, stack =>
    let entry : TraceEntry := ⟨position, stack.length, element⟩
    let outcome := step ctx position element stack
    match outcome.rejection? with
    | some rejection => ⟨outcome.onto stack, outcome.calls, [entry], some rejection⟩
    | none =>
      let later := runFrom ctx (position + 1) rest (outcome.onto stack)
      ⟨later.stack, outcome.calls ++ later.calls, entry :: later.trace, later.rejection⟩

namespace Run

/-- How far a run has come. -/
structure Progress where
  /-- The position of the next element. -/
  position : Nat
  /-- The stack. -/
  stack : Stack
  /-- The depth of the stack. -/
  depth : Nat
  /-- The questions asked so far, the last first. -/
  calls : List Call
  /-- The elements started so far, the last first. -/
  trace : List TraceEntry
  /-- The depth is that of the stack. -/
  depth_eq : depth = stack.length

namespace Progress

/-- A run that begins on the given stack. -/
def start (stack : Stack) : Progress := ⟨0, stack, stack.length, [], [], rfl⟩

/-- The progress once the next element is done. -/
def after (p : Progress) (element : Element) (outcome : Outcome) : Progress :=
  { position := p.position + 1
    stack := outcome.onto p.stack
    depth := outcome.depthOnto p.depth
    calls := outcome.calls.reverse ++ p.calls
    trace := ⟨p.position, p.depth, element⟩ :: p.trace
    depth_eq := by rw [p.depth_eq, Outcome.length_onto] }

/-- The run that ends here. -/
def ended (p : Progress) (rejection : Option Rejection) : Run :=
  ⟨p.stack, p.calls.reverse, p.trace.reverse, rejection⟩

/-- The whole run, when the elements that are left have been run too. -/
def finish (ctx : Option Context) : Script → Progress → Run
  | [], p => p.ended none
  | element :: rest, p =>
    let outcome := step ctx p.position element p.stack
    match outcome.rejection? with
    | some rejection => (p.after element outcome).ended (some rejection)
    | none => finish ctx rest (p.after element outcome)

/-- The elements that are left run as they would by themselves, and what they add stands behind what
has been collected. -/
theorem finish_eq (ctx : Option Context) (script : Script) (p : Progress) :
    p.finish ctx script =
      let later := runFrom ctx p.position script p.stack
      ⟨later.stack, p.calls.reverse ++ later.calls, p.trace.reverse ++ later.trace,
        later.rejection⟩ := by
  induction script generalizing p with
  | nil => simp [finish, runFrom, ended]
  | cons element rest ih =>
    unfold finish runFrom
    cases h : (step ctx p.position element p.stack).rejection? with
    | some rejection => simp [h, ended, after, p.depth_eq]
    | none => simp [h, ih, after, p.depth_eq]

end Progress

end Run

/-- Runs a script. -/
def run (ctx : Option Context) (script : Script) (stack : Stack) : Run :=
  (Run.Progress.start stack).finish ctx script

/-- A run is that of the part of the script that begins at its start. -/
theorem run_eq_runFrom (ctx : Option Context) (script : Script) (stack : Stack) :
    run ctx script stack = runFrom ctx 0 script stack := by
  simp [run, Run.Progress.finish_eq, Run.Progress.start]

/-- Runs each element as a script of its own on the stack that the one before left, up to the first
that rejects, and puts the runs already made, of which the last is given first, before them. -/
def runEachAfter (ctx : Option Context) (made : List Run) : Script → Stack → List Run
  | [], _ => made.reverse
  | element :: rest, stack =>
    let r := run ctx [element] stack
    if r.completed then runEachAfter ctx (r :: made) rest r.stack else (r :: made).reverse

/-- Runs each element as a script of its own on the stack that the one before left, up to the first
that rejects. -/
def runEach (ctx : Option Context) (script : Script) (stack : Stack) : List Run :=
  runEachAfter ctx [] script stack

/-- The runs already made stand before the others. -/
theorem runEachAfter_eq (ctx : Option Context) (made : List Run) (script : Script)
    (stack : Stack) :
    runEachAfter ctx made script stack = made.reverse ++ runEach ctx script stack := by
  induction script generalizing made stack with
  | nil => simp [runEach, runEachAfter]
  | cons element rest ih =>
    rw [runEach, runEachAfter, runEachAfter]
    cases h : (run ctx [element] stack).completed with
    | false => simp
    | true => simp [ih (_ :: _)]

/-- The first element runs alone, and the others run on its stack if it completes. -/
theorem runEach_cons (ctx : Option Context) (element : Element) (rest : Script) (stack : Stack) :
    runEach ctx (element :: rest) stack =
      let r := run ctx [element] stack
      r :: if r.completed then runEach ctx rest r.stack else [] := by
  rw [runEach, runEachAfter]
  cases h : (run ctx [element] stack).completed with
  | false => simp [h]
  | true => simp [h, runEachAfter_eq]

/-- How a spend was judged. -/
structure Spend where
  /-- Whether it is accepted. -/
  accepted : Bool
  /-- The questions asked, in order. -/
  calls : List Call
  /-- Why one of the two runs stopped early, if one did. -/
  rejection : Option Rejection
  deriving DecidableEq

/-- The reports made while a spend was judged. -/
def Spend.log (s : Spend) : List String := (s.rejection.map Rejection.message).toList

/-- Judges the spend of an output: runs the unlocking script on an empty stack and the locking
script on what that leaves. -/
def spend (ctx : Option Context) (unlocking locking : Script) : Spend :=
  let first := run ctx unlocking []
  match first.rejection with
  | some rejection => ⟨false, first.calls, some rejection⟩
  | none =>
    let second := run ctx locking first.stack
    let accepted := second.completed && second.stack.head?.any Bytes.isTrue
    ⟨accepted, first.calls ++ second.calls, second.rejection⟩

end UtxoScript
