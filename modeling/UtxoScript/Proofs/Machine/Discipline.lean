import UtxoScript.Proofs.Machine.InPlace
import UtxoScript.Proofs.Machine.Stopping

/-!
# Reports and notes of an execution

Where a script is executed in place, nothing but what its elements do keeps them from pushing before
they reject, or from reporting twice. `executeElement_discipline` says that none does: an element
that goes on writes nothing, and one that does not pops some items and writes one report. The main
statement, `execute_rejection_discipline`, says what that comes to for a whole script. Either no
report is written, or one element stops the execution, and then the only report is about that
element and what is left is a bottom part of the stack that it found. The notes say which elements
were started, and on stacks of which depths.

An execution is stopped where the run is (`stoppedAt_iff`), so what there is to know of a run that
is stopped is known of it too.
-/

namespace UtxoScript

namespace Machine

/-- The execution of a script that begins on the machine `begun` is stopped at position `i`: the
elements before are executed and leave the machine `found`, and on that the element there does not
go on. -/
structure StoppedAt (ctx? : Option Context) (script : Script) (begun : Machine) (i : Nat)
    (element : Element) (found : Machine) : Prop where
  /-- The element stands at the position. -/
  element_at : script[i]? = some element
  /-- What stands before it is executed. -/
  executes : (execute ctx? (script.take i)).run begun = (true, found)
  /-- It does not go on. -/
  rejects : ((executeElement ctx? i element).run found).1 = false

/-- The texts are notes of the first `n` elements of a script that is executed from the machine
`begun` on. -/
structure Notes (ctx? : Option Context) (script : Script) (begun : Machine) (n : Nat)
    (texts : List String) : Prop where
  /-- There is one for each element. -/
  length : texts.length = n
  /-- The `j`-th tells the position `j`, the depth of the stack that the elements before leave, and
  the element. -/
  text : ∀ j < n, ∃ element before, script[j]? = some element ∧
    (execute ctx? (script.take j)).run begun = (true, before) ∧
    texts[j]? = some (TraceEntry.message ⟨j, before.stack.length, element⟩)

section

variable {ctx? : Option Context} {script : Script} {stack : Stack}

/-- A script is executed in place as it is run. -/
theorem run_execute_start (ctx? : Option Context) (script : Script) (stack : Stack) :
    (execute ctx? script).run (start stack) =
      ((run ctx? script stack).completed, (start stack).following (run ctx? script stack)) :=
  run_execute ctx? script (start stack)

/-- A script is executed to its end in place where its run reaches the end. -/
theorem execute_start_eq_true_iff {ended : Machine} :
    (execute ctx? script).run (start stack) = (true, ended) ↔
      Executes ctx? script stack ended.stack ∧
        ended = (start stack).following (run ctx? script stack) := by
  rw [run_execute_start, Prod.mk.injEq, Executes, Run.Leaves]
  constructor
  · rintro ⟨hcompleted, rfl⟩
    exact ⟨⟨hcompleted, rfl⟩, rfl⟩
  · rintro ⟨⟨hcompleted, -⟩, rfl⟩
    exact ⟨hcompleted, rfl⟩

/-- An element goes on in place where its step goes on. -/
theorem executeElement_eq_false_iff {position : Nat} {element : Element} {m : Machine} :
    ((executeElement ctx? position element).run m).1 = false ↔
      ∃ rejection, (step ctx? position element m.stack).rejection? = some rejection := by
  rw [run_executeElement]
  exact Option.isNone_eq_false_iff.trans Option.isSome_iff_exists

/-- What an element does to the messages and the stack. If it goes on, it has written nothing. If it
does not, it has written one report, which is about the element, and of the stack it has popped some
items. -/
theorem executeElement_discipline (ctx? : Option Context) (position : Nat) (element : Element)
    (m : Machine) :
    let goesOn := ((executeElement ctx? position element).run m).1
    let left := ((executeElement ctx? position element).run m).2
    (goesOn = true → left.messages = m.messages) ∧
    (goesOn = false → ∃ (rejection : Rejection) (taken : Nat), rejection.Reports element position ∧
      left.messages = m.messages ++ [⟨.debug, rejection.message⟩] ∧
      left.stack = m.stack.drop taken) := by
  rw [run_executeElement]
  cases hstep : step ctx? position element m.stack with
  | mk taken calls result =>
    cases result with
    | ok item? =>
      rw [does_ok]
      exact ⟨fun _ => rfl, fun h => by contradiction⟩
    | error rejection =>
      have hreports : rejection.Reports element position := by
        apply reports_of_step
        rw [hstep]
        rfl
      rw [does_error]
      exact ⟨fun h => by contradiction, fun _ => ⟨rejection, taken, hreports, rfl, rfl⟩⟩

/-- An execution is stopped where the run is, and the machine is what the run of the elements before
leaves. -/
theorem stoppedAt_iff {i : Nat} {element : Element} {found : Machine} :
    StoppedAt ctx? script (start stack) i element found ↔
      (∃ rejection, StopsAt ctx? script stack i element found.stack rejection) ∧
        found = (start stack).following (run ctx? (script.take i) stack) := by
  constructor
  · rintro ⟨hat, hexecutes, hrejects⟩
    obtain ⟨hbefore, hfound⟩ := execute_start_eq_true_iff.1 hexecutes
    obtain ⟨rejection, hrejection⟩ := executeElement_eq_false_iff.1 hrejects
    exact ⟨⟨rejection, hat, hbefore, hrejection⟩, hfound⟩
  · rintro ⟨⟨rejection, hat, hbefore, hrejection⟩, hfound⟩
    exact ⟨hat, execute_start_eq_true_iff.2 ⟨hbefore, hfound⟩,
      executeElement_eq_false_iff.2 ⟨rejection, hrejection⟩⟩

/-- Where the first elements are executed, the notes of a run are notes of as many elements as there
are entries in its trace. -/
theorem notes_trace {left : Stack} {n k : Nat} (h : Executes ctx? (script.take k) stack left)
    (hlength : (run ctx? script stack).trace.length = n) (hn : n ≤ k + 1)
    (hscript : n ≤ script.length) :
    Notes ctx? script (start stack) n ((run ctx? script stack).trace.map TraceEntry.message) where
  length := (List.length_map _).trans hlength
  text j hj := by
    obtain ⟨element, before, hat, hbefore, hentry⟩ :=
      exists_trace_entry h (Nat.le_of_lt_succ (Nat.lt_of_lt_of_le hj hn))
        (Nat.lt_of_lt_of_le hj hscript)
    have hstack : ((start stack).following (run ctx? (script.take j) stack)).stack = before :=
      hbefore.2
    refine ⟨element, (start stack).following (run ctx? (script.take j) stack), hat, ?_, ?_⟩
    · refine execute_start_eq_true_iff.2 ⟨?_, rfl⟩
      rw [hstack]
      exact hbefore
    · rw [hstack, List.getElem?_map, hentry]
      rfl

end

/-- What there is to see of an execution. If it reaches the end of its script, no report is written,
and one note for each element. If not, it is stopped by one element: the only report is about that
element, and there is one note for each element up to that one. What is left is a bottom part of the
stack that the element found, and nothing that stands behind the element has any effect. -/
theorem execute_rejection_discipline (ctx? : Option Context) (script : Script) (stack : Stack) :
    let completed := ((execute ctx? script).run (start stack)).1
    let ended := ((execute ctx? script).run (start stack)).2
    (completed = true →
      ended.messagesAt .debug = [] ∧
        Notes ctx? script (start stack) script.length (ended.messagesAt .trace)) ∧
    (completed = false →
      ∃ i element found, StoppedAt ctx? script (start stack) i element found ∧
        (∀ j e f, StoppedAt ctx? script (start stack) j e f → j = i) ∧
        (∃ rejection : Rejection, ended.messagesAt .debug = [rejection.message] ∧
          rejection.Reports element i) ∧
        Notes ctx? script (start stack) (i + 1) (ended.messagesAt .trace) ∧
        ended.stack.bottomFirst <+: found.stack.bottomFirst ∧
        ∀ rest, (execute ctx? (script.take (i + 1) ++ rest)).run (start stack) =
          (false, ended)) := by
  intro completed ended
  obtain ⟨hcompleted, hended⟩ : completed = _ ∧ ended = _ :=
    Prod.mk.inj (run_execute_start ctx? script stack)
  have hreports : ended.messagesAt .debug = (run ctx? script stack).log := by
    rw [hended]
    exact messagesAt_debug_following _ _
  have hnotes : ended.messagesAt .trace =
      (run ctx? script stack).trace.map TraceEntry.message := by
    rw [hended]
    exact messagesAt_trace_following _ _
  rw [hcompleted, hreports, hnotes]
  refine ⟨fun hreached => ⟨?_, ?_⟩, fun hstopped => ?_⟩
  · rw [Run.log, Option.isNone_iff_eq_none.1 hreached]
    rfl
  · have hexecutes : Executes ctx? (script.take script.length) stack
        (run ctx? script stack).stack := by
      rw [List.take_length]
      exact ⟨hreached, rfl⟩
    have hlength : (run ctx? script stack).trace.length = script.length := by
      rw [run_eq_runFrom] at hreached ⊢
      exact length_trace_runFrom hreached
    exact notes_trace hexecutes hlength (Nat.le_succ _) (Nat.le_refl _)
  · obtain ⟨i, element, t, rejection, h⟩ := exists_stopsAt hstopped
    have hfound : ((start stack).following (run ctx? (script.take i) stack)).stack = t :=
      h.executes.2
    subst hfound
    refine ⟨i, element, _, stoppedAt_iff.2 ⟨⟨rejection, h⟩, rfl⟩, ?_,
      ⟨rejection, ?_, reports_of_step h.rejects⟩, ?_, ?_, ?_⟩
    · intro j e f hj
      obtain ⟨⟨q, hq⟩, -⟩ := stoppedAt_iff.1 hj
      exact h.position_unique hq
    · rw [h.run_self]
      rfl
    · exact notes_trace h.executes h.length_trace (Nat.le_refl _) h.lt_length
    · rw [hended]
      show (run ctx? script stack).stack.bottomFirst <+: _
      rw [h.run_self]
      exact bottomFirst_onto_prefix h.rejects _
    · intro rest
      rw [run_execute_start, h.run_take_append, hstopped, hended]

/-- An execution that reaches its end, and one that is stopped by a multisig check with four of its
operands popped: the signature does not end in the sighash byte. What stands behind the check is not
noted. -/
theorem execute_checkMultiSig_discipline :
    let going : Script := [.data [1], .op .dup]
    let stopping : Script := [.data [7], .data [], .data [5], .data [1],
      .data (List.replicate 33 2), .data [1], .op .checkMultiSig, .op .dup]
    let ended := ((execute (some .permissive) stopping).run (start [])).2
    ((execute none going).run (start [])).2.messagesAt .debug = [] ∧
      ∃ found, StoppedAt (some .permissive) stopping (start []) 6 (.op .checkMultiSig) found ∧
        (∃ rejection : Rejection, ended.messagesAt .debug = [rejection.message]) ∧
        (ended.messagesAt .trace).length = 7 ∧
        ended.stack.bottomFirst <+: found.stack.bottomFirst := by
  intro going stopping ended
  obtain ⟨hgoing, -⟩ := (execute_rejection_discipline none going []).1 rfl
  obtain ⟨i, element, found, hstops, honly, ⟨rejection, hreport, -⟩, hnotes, hstack, -⟩ :=
    (execute_rejection_discipline (some .permissive) stopping []).2 rfl
  have hcheck : StoppedAt (some .permissive) stopping (start []) 6 (.op .checkMultiSig) _ :=
    ⟨rfl, rfl, rfl⟩
  obtain rfl := honly _ _ _ hcheck
  obtain rfl : .op .checkMultiSig = element := Option.some.inj hstops.element_at
  exact ⟨hgoing, found, hstops, ⟨rejection, hreport⟩, hnotes.length, hstack⟩

/-- The one report, and what the check has not popped. -/
example :
    let ended := ((execute (some .permissive) [.data [7], .data [], .data [5], .data [1],
      .data (List.replicate 33 2), .data [1], .op .checkMultiSig]).run (start [])).2
    ended.messagesAt .debug =
        ["OP_CHECKMULTISIG rejected: sighash type is not SIGHASH_ALL"] ∧
      ended.stack.bottomFirst = [[7], []] := by
  decide

end Machine

end UtxoScript
