import Mathlib.Data.List.Induction
import UtxoScript.Proofs.Machine.Execution

/-!
# Where a run stops

A run either reaches the end of its script or is stopped by one element. `StopsAt` says which: the
elements before it are executed, and on what they leave it rejects (`exists_stopsAt`). Such a run is
given by that element and what stands before it (`StopsAt.run_self`), and what stands behind has no
effect (`StopsAt.run_take_append`).

A run of a script in two parts is a run of the first part and, unless that was stopped, a run of the
second on what the first left (`runFrom_append`). So a run that is stopped is that of the elements
up to the one that rejects (`StopsAt.run_eq`), and as it has one trace entry more than elements
before that one, no other element can have stopped it (`StopsAt.position_unique`).
-/

namespace UtxoScript

/-! ## Runs in two parts -/

/-- A run, and another on the stack that it leaves unless it was stopped. -/
def Run.andThen (r : Run) (next : Stack → Run) : Run :=
  match r.rejection with
  | some _ => r
  | none =>
    let later := next r.stack
    ⟨later.stack, r.calls ++ later.calls, r.trace ++ later.trace, later.rejection⟩

/-- A script is run one part after the other. -/
theorem runFrom_append (ctx? : Option Context) (position : Nat) (first second : Script)
    (stack : Stack) :
    runFrom ctx? position (first ++ second) stack =
      (runFrom ctx? position first stack).andThen
        (runFrom ctx? (position + first.length) second) := by
  induction first generalizing position stack with
  | nil => simp [runFrom, Run.andThen]
  | cons element rest ih =>
    rw [List.cons_append, runFrom, runFrom]
    cases hstep : (step ctx? position element stack).rejection? with
    | some rejection => simp [Run.andThen]
    | none =>
      -- The position of the second part is counted from behind the first element.
      have hposition : position + 1 + rest.length = position + (element :: rest).length := by
        rw [List.length_cons]
        omega
      simp only [ih, hposition]
      generalize runFrom ctx? (position + 1) rest _ = r
      unfold Run.andThen
      cases hr : r.rejection with
      | some rejection => simp [hr]
      | none => simp

/-- A run that reaches its end is followed by the rest of the script. -/
theorem run_append_of_executes {ctx? : Option Context} {before : Script} {stack found : Stack}
    (h : Executes ctx? before stack found) (rest : Script) :
    run ctx? (before ++ rest) stack =
      let later := runFrom ctx? before.length rest found
      ⟨later.stack, (run ctx? before stack).calls ++ later.calls,
        (run ctx? before stack).trace ++ later.trace, later.rejection⟩ := by
  obtain ⟨hcompleted, rfl⟩ := h
  unfold Run.completed at hcompleted
  rw [run_eq_runFrom, runFrom_append, Nat.zero_add, ← run_eq_runFrom, Run.andThen,
    Option.isNone_iff_eq_none.1 hcompleted]

/-! ## Traces -/

/-- A run that reaches its end makes one trace entry for each element. -/
theorem length_trace_runFrom {ctx? : Option Context} {position : Nat} {script : Script}
    {stack : Stack} (h : (runFrom ctx? position script stack).completed = true) :
    (runFrom ctx? position script stack).trace.length = script.length := by
  induction script generalizing position stack with
  | nil => rfl
  | cons element rest ih =>
    rw [runFrom] at h ⊢
    cases hstep : (step ctx? position element stack).rejection? with
    | some rejection =>
      rw [hstep] at h
      contradiction
    | none =>
      rw [hstep] at h
      exact congrArg (· + 1) (ih h)

/-- A script that is executed makes one trace entry for each element. -/
theorem Executes.length_trace {ctx? : Option Context} {script : Script} {stack left : Stack}
    (h : Executes ctx? script stack left) :
    (run ctx? script stack).trace.length = script.length := by
  obtain ⟨hcompleted, -⟩ := h
  rw [run_eq_runFrom] at hcompleted ⊢
  exact length_trace_runFrom hcompleted

/-- The first trace entry is about the first element and the stack that it finds. -/
theorem head?_trace_runFrom (ctx? : Option Context) (position : Nat) (element : Element)
    (rest : Script) (stack : Stack) :
    (runFrom ctx? position (element :: rest) stack).trace.head? =
      some ⟨position, stack.length, element⟩ := by
  rw [runFrom]
  cases (step ctx? position element stack).rejection? <;> rfl

/-- An element splits its script into what stands before it and what stands behind. -/
theorem eq_take_append_cons_drop {script : Script} {i : Nat} {element : Element}
    (h : script[i]? = some element) :
    script = script.take i ++ element :: script.drop (i + 1) := by
  obtain ⟨hi, rfl⟩ := List.getElem?_eq_some_iff.1 h
  rw [← List.drop_eq_getElem_cons hi, List.take_append_drop]

/-- An element that is reached has a trace entry in its place, with its position and the depth of
the stack that it finds. -/
theorem trace_getElem? {ctx? : Option Context} {script : Script} {stack found : Stack} {j : Nat}
    {element : Element} (hat : script[j]? = some element)
    (hfound : Executes ctx? (script.take j) stack found) :
    (run ctx? script stack).trace[j]? = some ⟨j, found.length, element⟩ := by
  obtain ⟨hj, -⟩ := List.getElem?_eq_some_iff.1 hat
  have hlength : (script.take j).length = j := List.length_take_of_le (Nat.le_of_lt hj)
  have hrun := run_append_of_executes hfound (element :: script.drop (j + 1))
  rw [← eq_take_append_cons_drop hat, hlength] at hrun
  have hbefore : (run ctx? (script.take j) stack).trace.length = j := by
    rw [hfound.length_trace, hlength]
  have hhead := head?_trace_runFrom ctx? j element (script.drop (j + 1)) found
  rw [hrun]
  show (_ ++ _)[j]? = _
  rw [List.getElem?_append_right (Nat.le_of_eq hbefore), hbefore, Nat.sub_self,
    ← List.head?_eq_getElem?]
  exact hhead

/-- Where the first `n` elements are executed, each of them and the one behind has its trace entry,
if it is there at all. -/
theorem exists_trace_entry {ctx? : Option Context} {script : Script} {stack found : Stack}
    {n j : Nat} (h : Executes ctx? (script.take n) stack found) (hj : j ≤ n)
    (hlt : j < script.length) :
    ∃ e before, script[j]? = some e ∧ Executes ctx? (script.take j) stack before ∧
      (run ctx? script stack).trace[j]? = some ⟨j, before.length, e⟩ := by
  have hat : script[j]? = some script[j] := List.getElem?_eq_getElem hlt
  have hsplit := List.take_append_drop j (script.take n)
  rw [List.take_take, Nat.min_eq_left hj] at hsplit
  rw [← hsplit, executes_append] at h
  obtain ⟨before, hbefore, -⟩ := h
  exact ⟨script[j], before, hat, hbefore, trace_getElem? hat hbefore⟩

/-! ## Stopping -/

/-- The run of a script on `stack` is stopped at position `i`: the elements before are executed and
leave `found`, and on that the element there rejects. -/
structure StopsAt (ctx? : Option Context) (script : Script) (stack : Stack) (i : Nat)
    (element : Element) (found : Stack) (rejection : Rejection) : Prop where
  /-- The element stands at the position. -/
  element_at : script[i]? = some element
  /-- What stands before it is executed. -/
  executes : Executes ctx? (script.take i) stack found
  /-- It rejects what that leaves. -/
  rejects : (step ctx? i element found).rejection? = some rejection

/-- What a rejection says of the element that rejects, and of the position of an element that is
none the machine could run anywhere. -/
def Rejection.Reports (element : Element) (position : Nat) : Rejection → Prop
  | .smallInteger n p => element = .number n ∧ p = position
  | .unnamedByte byte p => element = .raw byte ∧ p = position
  | .opcode op _ => element = .op op

/-- An opcode reports its own rejection. -/
theorem exists_cause_of_stepOpcode {ctx? : Option Context} {op : Opcode} {stack : Stack}
    {rejection : Rejection} (h : (stepOpcode ctx? op stack).rejection? = some rejection) :
    ∃ cause, rejection = .opcode op cause := by
  have hrefused (cause : Cause) (taken : Nat)
      (h : (Outcome.refused op cause taken).rejection? = some rejection) :
      ∃ cause, rejection = .opcode op cause :=
    ⟨cause, (Option.some.inj h).symm⟩
  have hconclude (check : Check) (form : Form)
      (h : (check.conclude op form).rejection? = some rejection) :
      ∃ cause, rejection = .opcode op cause := by
    match check, form, h with
    | .refused refusal, _, h => exact hrefused refusal.cause refusal.taken h
    | .judged false _ _, .verify, h => exact ⟨.verificationFailed, (Option.some.inj h).symm⟩
  obtain rfl | rfl | ⟨check, form, -, hop⟩ | hop := stepOpcode_cases op
  · match stack, h with
    | [], h => exact hrefused _ _ h
  · match stack, h with
    | [], h => exact hrefused _ _ h
  · rw [hop] at h
    exact hconclude _ _ h
  · rw [hop] at h
    exact hrefused _ _ h

/-- A rejection is about the element that rejects and its position. -/
theorem reports_of_step {ctx? : Option Context} {position : Nat} {element : Element}
    {stack : Stack} {rejection : Rejection}
    (h : (step ctx? position element stack).rejection? = some rejection) :
    rejection.Reports element position := by
  cases element with
  | data bytes => contradiction
  | number n =>
    cases h
    exact ⟨rfl, rfl⟩
  | raw byte =>
    cases h
    exact ⟨rfl, rfl⟩
  | op opcode =>
    obtain ⟨cause, rfl⟩ := exists_cause_of_stepOpcode h
    rfl

/-- An element that rejects leaves a bottom part of the stack that it finds. -/
theorem bottomFirst_onto_prefix {outcome : Outcome} {rejection : Rejection}
    (h : outcome.rejection? = some rejection) (stack : Stack) :
    (outcome.onto stack).bottomFirst <+: stack.bottomFirst := by
  have hitem : outcome.item? = none := by
    unfold Outcome.rejection? at h
    unfold Outcome.item?
    cases hresult : outcome.result with
    | error rejection => rfl
    | ok item =>
      rw [hresult] at h
      contradiction
  have honto : outcome.onto stack = stack.drop outcome.taken := by
    unfold Outcome.onto
    rw [hitem]
  rw [honto]
  exact List.reverse_prefix.2 (List.drop_suffix _ _)

namespace StopsAt

variable {ctx? : Option Context} {script : Script} {stack found : Stack} {i : Nat}
  {element : Element} {rejection : Rejection}

/-- The position is one of the script. -/
theorem lt_length (h : StopsAt ctx? script stack i element found rejection) :
    i < script.length :=
  (List.getElem?_eq_some_iff.1 h.element_at).1

/-- The run is that of the elements before the position and a last step that rejects, whatever
stands behind. -/
theorem run_eq (h : StopsAt ctx? script stack i element found rejection) (rest : Script) :
    run ctx? (script.take i ++ element :: rest) stack =
      let outcome := step ctx? i element found
      ⟨outcome.onto found, (run ctx? (script.take i) stack).calls ++ outcome.calls,
        (run ctx? (script.take i) stack).trace ++ [⟨i, found.length, element⟩],
        some rejection⟩ := by
  have hlength : (script.take i).length = i := List.length_take_of_le (Nat.le_of_lt h.lt_length)
  rw [run_append_of_executes h.executes, hlength, runFrom, h.rejects]

/-- The run of the script itself. -/
theorem run_self (h : StopsAt ctx? script stack i element found rejection) :
    run ctx? script stack =
      let outcome := step ctx? i element found
      ⟨outcome.onto found, (run ctx? (script.take i) stack).calls ++ outcome.calls,
        (run ctx? (script.take i) stack).trace ++ [⟨i, found.length, element⟩],
        some rejection⟩ := by
  rw [← h.run_eq (script.drop (i + 1)), ← eq_take_append_cons_drop h.element_at]

/-- There is one trace entry for each element up to the one that rejects. -/
theorem length_trace (h : StopsAt ctx? script stack i element found rejection) :
    (run ctx? script stack).trace.length = i + 1 := by
  rw [h.run_self]
  show (_ ++ [_]).length = _
  rw [List.length_append, h.executes.length_trace,
    List.length_take_of_le (Nat.le_of_lt h.lt_length), List.length_singleton]

/-- What stands behind the element that rejects has no effect. -/
theorem run_take_append (h : StopsAt ctx? script stack i element found rejection)
    (rest : Script) : run ctx? (script.take (i + 1) ++ rest) stack = run ctx? script stack := by
  obtain ⟨hi, rfl⟩ := List.getElem?_eq_some_iff.1 h.element_at
  rw [← List.take_append_getElem hi, List.append_assoc, List.singleton_append, h.run_eq,
    h.run_self]

/-- No other element stops the run: the length of the trace says which one did. -/
theorem position_unique (h : StopsAt ctx? script stack i element found rejection) {j : Nat}
    {e : Element} {f : Stack} {q : Rejection} (hj : StopsAt ctx? script stack j e f q) : j = i := by
  have hlength := hj.length_trace
  rw [h.length_trace] at hlength
  omega

end StopsAt

/-- A run that does not reach its end is stopped somewhere. -/
theorem exists_stopsAt {ctx? : Option Context} {script : Script} {stack : Stack}
    (h : (run ctx? script stack).completed = false) :
    ∃ i element found rejection, StopsAt ctx? script stack i element found rejection := by
  -- An element is added at the end, so that positions stay as they are.
  induction script using List.reverseRecOn with
  | nil => contradiction
  | append_singleton script last ih =>
    cases hcompleted : (run ctx? script stack).completed with
    | false =>
      obtain ⟨i, element, found, rejection, hstops⟩ := ih hcompleted
      refine ⟨i, element, found, rejection, ?_, ?_, hstops.rejects⟩
      · rw [List.getElem?_append_left hstops.lt_length]
        exact hstops.element_at
      · rw [List.take_append_of_le_length (Nat.le_of_lt hstops.lt_length)]
        exact hstops.executes
    | true =>
      have hexecutes : Executes ctx? script stack (run ctx? script stack).stack :=
        ⟨hcompleted, rfl⟩
      have hrun := run_append_of_executes hexecutes [last]
      rw [runFrom] at hrun
      cases hstep : (step ctx? script.length last (run ctx? script stack).stack).rejection? with
      | none =>
        rw [hrun, hstep] at h
        contradiction
      | some rejection =>
        refine ⟨script.length, last, _, rejection, ?_, ?_, hstep⟩
        · exact List.getElem?_concat_length
        · rw [List.take_left]
          exact hexecutes

end UtxoScript
