import UtxoScript.Proofs.Machine.Stopping

/-!
# Running in pieces

A script may be run at once or in pieces, each on the stack that the one before left, and nobody
can tell which it was, but that a piece counts positions from its own start. `Run.behind` counts
them from the start of the whole, and `run_append` says that a script in two parts is run as the
first part and then, unless that was stopped, the second part behind it.

The main statement, `run_in_pieces`, draws the consequences. A spend is accepted if the two scripts
written one behind the other run to the end as one script and leave a true item on top, so where
the script is divided makes no difference; and running the elements one at a time, each as a script
of its own, amounts to running the whole.
-/

namespace UtxoScript

/-! ## Positions -/

/-- The rejection, told from the start of a script in which `n` elements stand before. -/
def Rejection.behind (n : Nat) : Rejection → Rejection
  | .smallInteger k position => .smallInteger k (position + n)
  | .unnamedByte byte position => .unnamedByte byte (position + n)
  | .opcode op cause => .opcode op cause

/-- The trace entry, told from the start of a script in which `n` elements stand before. -/
def TraceEntry.behind (n : Nat) (entry : TraceEntry) : TraceEntry :=
  { entry with position := entry.position + n }

/-- The outcome, told from the start of a script in which `n` elements stand before. -/
def Outcome.behind (n : Nat) (outcome : Outcome) : Outcome :=
  { outcome with result := outcome.result.mapError (·.behind n) }

/-- The run, told from the start of a script in which `n` elements stand before. -/
def Run.behind (n : Nat) (r : Run) : Run :=
  { r with
    trace := r.trace.map (·.behind n)
    rejection := r.rejection.map (·.behind n) }

namespace Outcome

/-- Where an outcome is told from makes no difference to what is asked. -/
@[simp] theorem calls_behind (n : Nat) (outcome : Outcome) :
    (outcome.behind n).calls = outcome.calls := rfl

/-- Where an outcome is told from makes no difference to the stack. -/
@[simp] theorem onto_behind (n : Nat) (outcome : Outcome) (stack : Stack) :
    (outcome.behind n).onto stack = outcome.onto stack := by
  obtain ⟨taken, calls, result⟩ := outcome
  cases result <;> rfl

/-- A rejection is told from where its outcome is. -/
@[simp] theorem rejection?_behind (n : Nat) (outcome : Outcome) :
    (outcome.behind n).rejection? = outcome.rejection?.map (·.behind n) := by
  obtain ⟨taken, calls, result⟩ := outcome
  cases result <;> rfl

end Outcome

/-- An element does the same further on, and a rejection names the position there. -/
theorem step_add (ctx? : Option Context) (position n : Nat) (element : Element) (stack : Stack) :
    step ctx? (position + n) element stack = (step ctx? position element stack).behind n := by
  cases element with
  | data bytes => rfl
  | number k => rfl
  | raw byte => rfl
  | op opcode =>
    show stepOpcode ctx? opcode stack = (stepOpcode ctx? opcode stack).behind n
    -- The rejections of opcodes name no position.
    have hreport := @exists_cause_of_stepOpcode ctx? opcode stack
    generalize stepOpcode ctx? opcode stack = outcome at hreport ⊢
    obtain ⟨taken, calls, result⟩ := outcome
    cases result with
    | ok item => rfl
    | error rejection =>
      obtain ⟨cause, rfl⟩ := hreport rfl
      rfl

/-- A part of a script is run further on as it is run here, and its positions are those there. -/
theorem runFrom_add (ctx? : Option Context) (position n : Nat) (script : Script) (stack : Stack) :
    runFrom ctx? (position + n) script stack = (runFrom ctx? position script stack).behind n := by
  induction script generalizing position stack with
  | nil => rfl
  | cons element rest ih =>
    have hnext : position + n + 1 = position + 1 + n := by omega
    rw [runFrom, runFrom, step_add, hnext]
    simp only [Outcome.calls_behind, Outcome.onto_behind, Outcome.rejection?_behind, ih]
    cases (step ctx? position element stack).rejection? with
    | some rejection => rfl
    | none => rfl

/-! ## Two pieces -/

/-- The items that count as true are those that are not empty. -/
theorem Bytes.isTrue_iff {item : Bytes} : item.isTrue = true ↔ item ≠ [] := by
  cases item <;> simp [isTrue]

namespace Run

/-- Where a run is told from makes no difference to whether it reached the end of its script. -/
@[simp] theorem completed_behind (n : Nat) (r : Run) : (r.behind n).completed = r.completed :=
  Option.isNone_map

/-- A run that reached its end makes no report. -/
theorem log_of_completed {r : Run} (h : r.completed = true) : r.log = [] := by
  unfold completed at h
  unfold log
  rw [Option.isNone_iff_eq_none.1 h]
  rfl

/-- What follows a run is only run on the stack that the run leaves. -/
theorem andThen_congr {r : Run} {next next' : Stack → Run} (h : next r.stack = next' r.stack) :
    r.andThen next = r.andThen next' := by
  unfold andThen
  rw [h]

/-- A run that was stopped is followed by nothing. -/
theorem andThen_of_stopped {r : Run} (h : r.completed = false) (next : Stack → Run) :
    r.andThen next = r := by
  unfold completed at h
  unfold andThen
  cases hr : r.rejection with
  | none =>
    rw [hr] at h
    contradiction
  | some rejection => rfl

/-- A run that reached its end is followed by the next one. -/
theorem andThen_of_completed {r : Run} (h : r.completed = true) (next : Stack → Run) :
    r.andThen next =
      let later := next r.stack
      ⟨later.stack, r.calls ++ later.calls, r.trace ++ later.trace, later.rejection⟩ := by
  unfold completed at h
  unfold andThen
  rw [Option.isNone_iff_eq_none.1 h]

end Run

/-- A script is run one part after the other, and the second part stands behind the first. -/
theorem run_append (ctx? : Option Context) (first second : Script) (stack : Stack) :
    run ctx? (first ++ second) stack =
      (run ctx? first stack).andThen fun left => (run ctx? second left).behind first.length := by
  have hsecond (left : Stack) : runFrom ctx? (0 + first.length) second left =
      (run ctx? second left).behind first.length := by
    rw [runFrom_add, run_eq_runFrom]
  rw [run_eq_runFrom, runFrom_append, ← run_eq_runFrom]
  exact congrArg _ (funext hsecond)

/-- A spend is accepted if the two scripts pass as one, on a stack that is empty at the start. -/
theorem spend_accepted_iff_passes {ctx? : Option Context} {unlocking locking : Script} :
    (spend ctx? unlocking locking).accepted = true ↔ Passes ctx? (unlocking ++ locking) [] := by
  rw [spend_accepted_iff]
  unfold Passes
  constructor
  · rintro ⟨hcompleted, item, below, hlocking, htrue⟩
    exact ⟨item, below, executes_append.2 ⟨_, ⟨hcompleted, rfl⟩, hlocking⟩, htrue⟩
  · rintro ⟨item, below, hboth, htrue⟩
    obtain ⟨mid, ⟨hcompleted, rfl⟩, hlocking⟩ := executes_append.1 hboth
    exact ⟨hcompleted, item, below, hlocking, htrue⟩

/-- A spend asks what the run of the two scripts as one asks. -/
theorem calls_spend (ctx? : Option Context) (unlocking locking : Script) :
    (spend ctx? unlocking locking).calls = (run ctx? (unlocking ++ locking) []).calls := by
  rw [spend, run_append, Run.andThen]
  cases (run ctx? unlocking []).rejection <;> rfl

/-! ## One element at a time -/

namespace Run

/-- What runs made one after another on one stack come to as a single run. The position is that of
the first, and each of the others stands one further on than the one before. -/
def join (position : Nat) (stack : Stack) (pieces : List Run) : Run where
  stack := (pieces.getLast?.map Run.stack).getD stack
  calls := pieces.flatMap Run.calls
  trace := (pieces.zipIdx position).flatMap fun piece => (piece.1.behind piece.2).trace
  rejection := (pieces.zipIdx position).findSome? fun piece => (piece.1.behind piece.2).rejection

/-- A single run is what it comes to. -/
theorem join_singleton (position : Nat) (stack : Stack) (r : Run) :
    join position stack [r] = r.behind position := by
  simp [join, behind]

/-- A run that reached its end is followed by what the others come to. -/
theorem join_cons {r : Run} (h : r.completed = true) (position : Nat) (stack : Stack)
    (pieces : List Run) :
    join position stack (r :: pieces) =
      (r.behind position).andThen fun left => join (position + 1) left pieces := by
  have hbehind : (r.behind position).completed = true := (completed_behind position r).trans h
  have hnone : (r.behind position).rejection = none := Option.isNone_iff_eq_none.1 hbehind
  -- The last run is the first where there is no other.
  have hlast : ((r :: pieces).getLast?.map Run.stack).getD stack =
      (pieces.getLast?.map Run.stack).getD r.stack := by
    rw [List.getLast?_cons, Option.map_some, Option.getD_some, Option.getD_map]
  rw [andThen_of_completed hbehind, join, join, hlast]
  simp only [List.flatMap_cons, List.zipIdx_cons, List.findSome?_cons, hnone]
  rfl

/-- Runs come to one that reaches its end if each of them does. -/
theorem completed_join_iff {position : Nat} {stack : Stack} {pieces : List Run} :
    (join position stack pieces).completed = true ↔ ∀ r ∈ pieces, r.completed = true := by
  induction pieces generalizing position stack with
  | nil => simp [join, completed]
  | cons r pieces ih =>
    have hrest := @ih (position + 1) stack
    rw [List.forall_mem_cons, ← hrest]
    simp only [join, completed, List.zipIdx_cons, List.findSome?_cons]
    cases hr : r.rejection with
    | none => simp [behind, hr]
    | some rejection => simp [behind, hr]

end Run

/-- A part of a script is run as its elements are one at a time. -/
theorem runFrom_eq_join (ctx? : Option Context) (position : Nat) (script : Script)
    (stack : Stack) :
    runFrom ctx? position script stack = Run.join position stack (runEach ctx? script stack) := by
  induction script generalizing position stack with
  | nil => rfl
  | cons element rest ih =>
    -- The first element runs by itself, and the others behind it.
    have hfirst : runFrom ctx? position [element] stack =
        (run ctx? [element] stack).behind position := by
      rw [← Nat.zero_add position, runFrom_add, run_eq_runFrom, Nat.zero_add]
    have hsplit := runFrom_append ctx? position [element] rest stack
    rw [List.singleton_append, hfirst, List.length_singleton] at hsplit
    rw [hsplit, runEach_cons]
    dsimp only
    generalize run ctx? [element] stack = r
    cases hcompleted : r.completed with
    | false =>
      have hstopped : (r.behind position).completed = false :=
        (Run.completed_behind position r).trans hcompleted
      rw [Run.andThen_of_stopped hstopped, if_neg Bool.false_ne_true, Run.join_singleton]
    | true =>
      rw [if_pos rfl, Run.join_cons hcompleted]
      exact Run.andThen_congr (ih (position + 1) r.stack)

/-! ## Pieces and the whole -/

/-- A run in pieces amounts to the run of the whole.

A script in two parts is run like its first part where that is stopped, and otherwise like the
second part on the stack that the first leaves: the calls, the reports and the trace entries are
those of the first part and then those of the second, with positions told from the start of the
whole. So the two scripts of a spend may as well be run as one on an empty stack, which has to leave
an item on top that is not empty, and it makes no difference to a spend where the one ends and the
other begins. The elements may also be run one at a time. -/
theorem run_in_pieces (ctx? : Option Context) :
    (∀ (first second : Script) (stack : Stack),
      let before := run ctx? first stack
      let whole := run ctx? (first ++ second) stack
      (before.completed = false → whole = before) ∧
      (before.completed = true →
        let after := run ctx? second before.stack
        whole.completed = after.completed ∧
        whole.stack = after.stack ∧
        whole.calls = before.calls ++ after.calls ∧
        whole.log = before.log ++ (after.behind first.length).log ∧
        whole.trace = before.trace ++ (after.behind first.length).trace)) ∧
    (∀ unlocking locking : Script,
      let whole := run ctx? (unlocking ++ locking) []
      ((spend ctx? unlocking locking).accepted = true ↔
        whole.completed = true ∧ ∃ top below, whole.stack = top :: below ∧ top ≠ []) ∧
      (spend ctx? unlocking locking).calls = whole.calls) ∧
    (∀ unlocking locking unlocking' locking' : Script,
      unlocking ++ locking = unlocking' ++ locking' →
        (spend ctx? unlocking locking).accepted = (spend ctx? unlocking' locking').accepted) ∧
    ∀ (script : Script) (stack : Stack),
      let whole := run ctx? script stack
      let pieces := runEach ctx? script stack
      whole = Run.join 0 stack pieces ∧
      (whole.completed = true ↔ ∀ piece ∈ pieces, piece.completed = true) := by
  refine ⟨fun first second stack => ⟨fun hstopped => ?_, fun hcompleted => ?_⟩,
    fun unlocking locking => ⟨?_, calls_spend ctx? unlocking locking⟩,
    fun unlocking locking unlocking' locking' hsame => ?_, fun script stack => ?_⟩
  · rw [run_append, Run.andThen_of_stopped hstopped]
  · have hwhole := run_append ctx? first second stack
    rw [Run.andThen_of_completed hcompleted] at hwhole
    rw [hwhole, Run.log_of_completed hcompleted]
    exact ⟨Run.completed_behind _ _, rfl, rfl, rfl, rfl⟩
  · rw [spend_accepted_iff_passes]
    constructor
    · rintro ⟨top, below, ⟨hcompleted, hstack⟩, htrue⟩
      exact ⟨hcompleted, top, below, hstack, Bytes.isTrue_iff.1 htrue⟩
    · rintro ⟨hcompleted, top, below, hstack, hne⟩
      exact ⟨top, below, ⟨hcompleted, hstack⟩, Bytes.isTrue_iff.2 hne⟩
  · rw [Bool.eq_iff_iff, spend_accepted_iff_passes, spend_accepted_iff_passes, hsame]
  · have hjoin : run ctx? script stack = Run.join 0 stack (runEach ctx? script stack) := by
      rw [run_eq_runFrom, runFrom_eq_join]
    refine ⟨hjoin, ?_⟩
    rw [hjoin]
    exact Run.completed_join_iff

/-- A small integer in the second of two parts: its position is told from the start of the whole.
Behind a duplication that finds nothing the second part has no effect, and a spend of the two
elements before the integer is the same wherever it is divided. -/
theorem run_in_pieces_smallInteger :
    let five : SmallInt := ⟨5, by decide, by decide⟩
    let second : Script := [.data [2], .number five]
    (run none [.data [1], .op .dup] []).completed = true ∧
      (run none ([.data [1], .op .dup] ++ second) []).log =
        ["small integer 5 at pc=3 is not executable"] ∧
      run none ([.op .dup] ++ second) [] = run none [.op .dup] [] ∧
      (spend none [.data [1], .op .dup] []).accepted =
        (spend none [.data [1]] [.op .dup]).accepted := by
  intro five second
  obtain ⟨parts, -, splits, -⟩ := run_in_pieces none
  have hcompleted : (run none [.data [1], .op .dup] []).completed = true := rfl
  obtain ⟨-, -, -, hlog, -⟩ := (parts [.data [1], .op .dup] second []).2 hcompleted
  refine ⟨hcompleted, ?_, (parts [.op .dup] second []).1 rfl, splits _ _ _ _ rfl⟩
  rw [hlog]
  decide

end UtxoScript
