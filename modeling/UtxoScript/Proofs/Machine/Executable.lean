import UtxoScript.Proofs.Machine.Multisig
import UtxoScript.Proofs.Template

/-!
# What can be run

The machine runs pushes and eight opcodes (`Element.Executable`), and without a context it runs the
four of them that check no signature. Any other element rejects on every stack, so a run that
reaches its end has met none of them, at whatever position. The main statement,
`only_executable_elements_run`, draws the consequences for runs and for spends: in particular
nothing spends an output whose script is a multisig lock or carries data, because the one begins
with a small integer and the other with `OP_RETURN`.

A context can only be missed by the elements that ask it. So a run that reaches its end without a
context is the same run in every context (`run_eq_of_completed_none`).
-/

namespace UtxoScript

/-- The opcodes that the machine runs. -/
def Opcode.executed : List Opcode :=
  [.dup, .hash160, .equal, .equalVerify, .checkSig, .checkSigVerify, .checkMultiSig,
   .checkMultiSigVerify]

/-- The element is one that the machine runs: a push, or one of the eight opcodes. -/
def Element.Executable : Element → Prop
  | .data _ => True
  | .op opcode => opcode ∈ Opcode.executed
  | .number _ => False
  | .raw _ => False

/-- It can be decided whether the machine runs an element. -/
instance : DecidablePred Element.Executable
  | .data _ => inferInstanceAs (Decidable True)
  | .op opcode => inferInstanceAs (Decidable (opcode ∈ Opcode.executed))
  | .number _ => inferInstanceAs (Decidable False)
  | .raw _ => inferInstanceAs (Decidable False)

/-! ## Steps -/

section

variable {position : Nat} {element : Element} {stack left : Stack}

/-- The other opcodes are refused, whatever is on the stack. -/
theorem stepOpcode_of_not_executed {op : Opcode} (h : op ∉ Opcode.executed)
    (ctx? : Option Context) (stack : Stack) :
    stepOpcode ctx? op stack = .refused op .unsupported 0 := by
  cases op with
  | dup | hash160 | equal | equalVerify => exact absurd (by decide) h
  | checkSig | checkSigVerify | checkMultiSig | checkMultiSigVerify => exact absurd (by decide) h
  | _ => rfl

/-- An opcode that checks signatures is refused where there is no context. -/
theorem stepOpcode_none_of_isSignatureCheck {op : Opcode} (h : op.isSignatureCheck = true)
    (stack : Stack) : stepOpcode none op stack = .refused op .noContext 0 := by
  cases op with
  | checkSig | checkSigVerify | checkMultiSig | checkMultiSigVerify => rfl
  | _ => contradiction

/-- An element that goes on is one that the machine runs. -/
theorem executable_of_leaves {ctx? : Option Context}
    (h : (step ctx? position element stack).Leaves stack left) : element.Executable := by
  cases element with
  | data bytes => exact trivial
  | number n =>
    obtain ⟨hgoes, -⟩ := h
    contradiction
  | raw byte =>
    obtain ⟨hgoes, -⟩ := h
    contradiction
  | op opcode =>
    by_contra hother
    rw [step, stepOpcode_of_not_executed hother] at h
    exact not_leaves_refused h

/-- An element that goes on without a context checks no signature. -/
theorem isSignatureCheck_eq_false_of_leaves_none
    (h : (step none position element stack).Leaves stack left) :
    element.isSignatureCheck = false := by
  cases element with
  | data bytes => rfl
  | number n => rfl
  | raw byte => rfl
  | op opcode =>
    by_contra hcheck
    rw [step, stepOpcode_none_of_isSignatureCheck (Bool.eq_true_of_not_eq_false hcheck)] at h
    exact not_leaves_refused h

/-- Without a context a check either has none to ask or needs none. -/
theorem IsCheck.none_cases {check : Option Context → Stack → Check} (hcheck : IsCheck check)
    (stack : Stack) :
    check none stack = .refused ⟨.noContext, 0⟩ ∨
      (check none stack).calls = [] ∧ ∀ ctx?, check ctx? stack = check none stack := by
  cases hcheck with
  | equal =>
    refine .inr ⟨?_, fun _ => rfl⟩
    match stack with
    | [] => rfl
    | [_] => rfl
    | _ :: _ :: _ => rfl
  | signature => exact .inl rfl
  | signatures => exact .inl rfl

/-- An opcode asks nothing where there is no context. -/
theorem calls_stepOpcode_none (op : Opcode) (stack : Stack) :
    (stepOpcode none op stack).calls = [] := by
  obtain rfl | rfl | ⟨check, form, hcheck, hop⟩ | hop := stepOpcode_cases op
  · cases stack <;> rfl
  · cases stack <;> rfl
  · rw [hop, calls_conclude]
    obtain hrefused | ⟨hcalls, -⟩ := hcheck.none_cases stack
    · rw [hrefused]
      rfl
    · exact hcalls
  · rw [hop]
    rfl

/-- An element asks nothing where there is no context. -/
theorem calls_step_none (position : Nat) (element : Element) (stack : Stack) :
    (step none position element stack).calls = [] := by
  cases element with
  | data bytes => rfl
  | number n => rfl
  | raw byte => rfl
  | op opcode => exact calls_stepOpcode_none opcode stack

/-- An opcode that goes on without a context does the same in every context. -/
theorem stepOpcode_eq_of_leaves_none {op : Opcode}
    (h : (stepOpcode none op stack).Leaves stack left) (ctx? : Option Context) :
    stepOpcode ctx? op stack = stepOpcode none op stack := by
  obtain rfl | rfl | ⟨check, form, hcheck, hop⟩ | hop := stepOpcode_cases op
  · rfl
  · rfl
  · rw [hop] at h
    obtain hrefused | ⟨-, hsame⟩ := hcheck.none_cases stack
    · rw [hrefused] at h
      exact absurd h not_leaves_refused
    · rw [hop, hop, hsame]
  · rw [hop, hop]

/-- An element that goes on without a context does the same in every context. -/
theorem step_eq_of_leaves_none (h : (step none position element stack).Leaves stack left)
    (ctx? : Option Context) :
    step ctx? position element stack = step none position element stack := by
  cases element with
  | data bytes => rfl
  | number n => rfl
  | raw byte => rfl
  | op opcode => exact stepOpcode_eq_of_leaves_none h ctx?

end

/-! ## Runs -/

/-- What holds of every element that goes on holds of all elements of a script that is executed. -/
theorem Executes.forall_mem {ctx? : Option Context} {script : Script} {stack left : Stack}
    {P : Element → Prop}
    (hstep : ∀ {element stack mid}, (step ctx? 0 element stack).Leaves stack mid → P element)
    (h : Executes ctx? script stack left) : ∀ element ∈ script, P element := by
  induction script generalizing stack with
  | nil => exact List.forall_mem_nil P
  | cons element rest ih =>
    obtain ⟨mid, helement, hrest⟩ := executes_cons.1 h
    exact List.forall_mem_cons.2 ⟨hstep helement, ih hrest⟩

/-- Without a context nothing is asked, whether or not the run reaches its end. -/
theorem calls_runFrom_none (position : Nat) (script : Script) (stack : Stack) :
    (runFrom none position script stack).calls = [] := by
  induction script generalizing position stack with
  | nil => rfl
  | cons element rest ih =>
    have hcalls := calls_step_none position element stack
    rw [runFrom]
    cases (step none position element stack).rejection? with
    | some rejection => exact hcalls
    | none => simp only [hcalls, ih, List.append_nil]

/-- A run that reaches its end without a context is the same in every context. -/
theorem runFrom_eq_of_leaves_none {position : Nat} {script : Script} {stack left : Stack}
    (h : (runFrom none position script stack).Leaves left) (ctx? : Option Context) :
    runFrom ctx? position script stack = runFrom none position script stack := by
  induction script generalizing position stack with
  | nil => rfl
  | cons element rest ih =>
    obtain ⟨mid, helement, hrest⟩ := runFrom_cons_leaves.1 h
    obtain ⟨hgoes, hmid⟩ := helement
    have hsame := step_eq_of_leaves_none ⟨hgoes, hmid⟩ ctx?
    -- The rest starts from the same stack in both.
    rw [runFrom, runFrom, hsame, hgoes, hmid, ih hrest]

/-- A run that reaches its end without a context is the same in every context. -/
theorem run_eq_of_completed_none {script : Script} {stack : Stack}
    (h : (run none script stack).completed = true) (ctx? : Option Context) :
    run ctx? script stack = run none script stack := by
  rw [run_eq_runFrom] at h
  rw [run_eq_runFrom, run_eq_runFrom]
  exact runFrom_eq_of_leaves_none ⟨h, rfl⟩ ctx?

/-! ## Spends -/

/-- The two scripts of a spend that is accepted hold nothing that the machine does not run. -/
theorem executable_of_accepted {ctx? : Option Context} {unlocking locking : Script}
    (h : (spend ctx? unlocking locking).accepted = true) :
    (∀ element ∈ unlocking, element.Executable) ∧ ∀ element ∈ locking, element.Executable := by
  obtain ⟨hcompleted, item, below, hlocking, -⟩ := spend_accepted_iff.1 h
  have hunlocking : Executes ctx? unlocking [] _ := ⟨hcompleted, rfl⟩
  exact ⟨hunlocking.forall_mem executable_of_leaves, hlocking.forall_mem executable_of_leaves⟩

/-- A multisig lock begins with a small integer, and an output that carries data with `OP_RETURN`:
the machine runs neither. -/
theorem exists_not_executable {script : Script}
    (h : (Multisig.ofScript? script).isSome ∨ (Template.nullData? script).isSome) :
    ∃ element ∈ script, ¬ element.Executable := by
  obtain hlock | hdata := h
  · obtain ⟨lock, hlock⟩ := Option.isSome_iff_exists.1 hlock
    rw [multisig_ofScript?_eq_some hlock, Multisig.script, List.cons_append]
    exact ⟨.number lock.required, List.mem_cons_self, id⟩
  · obtain ⟨payload, hdata⟩ := Option.isSome_iff_exists.1 hdata
    rw [(nullData?_eq_some_iff.1 hdata).1]
    exact ⟨.op .opReturn, List.mem_cons_self, by decide⟩

/-- **Only pushes and eight opcodes can be run.** A script that runs to its end holds nothing else,
and no opcode that checks signatures where there is no context. A run that reaches its end without
a context is the same run in every context and asks it nothing. So no spend is accepted in which
either script holds another element, such as a multisig lock or an output that carries data. -/
theorem only_executable_elements_run :
    (∀ (ctx? : Option Context) (script : Script) (stack : Stack),
      (run ctx? script stack).completed = true →
        (∀ element ∈ script, element.Executable) ∧
          (ctx? = none → ∀ element ∈ script, element.isSignatureCheck = false)) ∧
    (∀ (script : Script) (stack : Stack), (run none script stack).completed = true →
      ∀ ctx : Context, run (some ctx) script stack = run none script stack ∧
        (run (some ctx) script stack).calls = []) ∧
    ∀ script : Script,
      (∃ element ∈ script, ¬ element.Executable) ∨
          (Multisig.ofScript? script).isSome ∨ (Template.nullData? script).isSome →
        ∀ (ctx? : Option Context) (other : Script),
          (spend ctx? script other).accepted = false ∧
            (spend ctx? other script).accepted = false := by
  refine ⟨fun ctx? script stack h => ?_, fun script stack h ctx => ?_,
    fun script h ctx? other => ?_⟩
  · have hexecutes : Executes ctx? script stack _ := ⟨h, rfl⟩
    refine ⟨hexecutes.forall_mem executable_of_leaves, ?_⟩
    rintro rfl
    exact hexecutes.forall_mem isSignatureCheck_eq_false_of_leaves_none
  · have hsame := run_eq_of_completed_none h (some ctx)
    refine ⟨hsame, ?_⟩
    rw [hsame, run_eq_runFrom]
    exact calls_runFrom_none 0 script stack
  · obtain ⟨element, hmem, hnot⟩ := h.elim id exists_not_executable
    constructor <;> rw [Bool.eq_false_iff]
    · intro haccepted
      exact hnot ((executable_of_accepted haccepted).1 element hmem)
    · intro haccepted
      exact hnot ((executable_of_accepted haccepted).2 element hmem)

/-- A signature check that runs in a context, a comparison that runs without one, and an output that
carries data, which no spend of a true item opens and which opens nothing itself. -/
theorem only_executable_elements_run_checks :
    let checking : Script := [.data [0x01], .data [0x02], .op .checkSigVerify]
    let comparing : Script := [.data [0xaa], .op .dup, .op .equal]
    let carrying : Script := [.op .opReturn, .data [0xaa]]
    ((run (some .permissive) checking []).completed = true ∧
      ∀ element ∈ checking, element.Executable) ∧
    ((run none comparing []).completed = true ∧
      (∀ element ∈ comparing, element.isSignatureCheck = false) ∧
      run (some .permissive) comparing [] = run none comparing []) ∧
    (Template.nullData? carrying).isSome ∧
      (spend none carrying [.data [1]]).accepted = false ∧
      (spend none [.data [1]] carrying).accepted = false := by
  intro checking comparing carrying
  obtain ⟨runs, contexts, spends⟩ := only_executable_elements_run
  have hchecking : (run (some .permissive) checking []).completed = true := rfl
  have hcomparing : (run none comparing []).completed = true := rfl
  have hcarrying : (Template.nullData? carrying).isSome := rfl
  exact ⟨⟨hchecking, (runs _ _ _ hchecking).1⟩,
    ⟨hcomparing, (runs _ _ _ hcomparing).2 rfl, (contexts _ _ hcomparing .permissive).1⟩,
    hcarrying, spends carrying (.inr (.inr hcarrying)) none [.data [1]]⟩

end UtxoScript
