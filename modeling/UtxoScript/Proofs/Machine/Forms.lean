import UtxoScript.Proofs.Machine.Refusals

/-!
# The two forms of a check

Each of the three checks is made by two opcodes: the plain form pushes the verdict, and the verify
form rejects unless it is true. The main statement, `forms_agree`, says that this is all that tells
the two apart, on every stack and in every context. The plain form pushes true where the verify form
goes on and false where the verify form reports that the verdict is false; where one of them refuses
the operands the other does, for the same reason; what is left of the stack and what was asked is the
same in each case.

So a verdict that is false is never mistaken for operands that are refused. For the check of several
signatures, whose operands are refused for seven reasons, this is read off what it can be stopped by
(`FirstObstacle`).
-/

namespace UtxoScript

/-- The run was stopped by the opcode, which rejected for the cause, and left `left`. -/
def Run.Rejects (r : Run) (op : Opcode) (cause : Cause) (left : Stack) : Prop :=
  r.rejection = some (.opcode op cause) ∧ r.stack = left

namespace CheckKind

variable {kind : CheckKind} {ctx? : Option Context} {stack : Stack}

/-- An opcode that checks something, as a script of its own, concludes from its check. -/
theorem run_opcode (kind : CheckKind) (form : Form) (ctx? : Option Context) (stack : Stack) :
    run ctx? [.op (kind.opcode form)] stack =
      let outcome := (kind.check ctx? stack).conclude (kind.opcode form) form
      ⟨outcome.onto stack, outcome.calls, [⟨0, stack.length, .op (kind.opcode form)⟩],
        outcome.rejection?⟩ := by
  rw [run_singleton, step, stepOpcode_opcode]

/-- Where operands are refused, both forms reject. -/
theorem run_opcode_of_refused {refusal : Refusal} (h : kind.check ctx? stack = .refused refusal)
    (form : Form) :
    run ctx? [.op (kind.opcode form)] stack =
      ⟨stack.drop refusal.taken, [], [⟨0, stack.length, .op (kind.opcode form)⟩],
        some (.opcode (kind.opcode form) refusal.cause)⟩ := by
  rw [run_opcode, h]
  rfl

/-- Where there is a verdict, the plain form pushes it. -/
theorem run_push_of_judged {verdict : Bool} {calls : List Call} {operands : Nat}
    (h : kind.check ctx? stack = .judged verdict calls operands) :
    run ctx? [.op (kind.opcode .push)] stack =
      ⟨Bytes.ofBool verdict :: stack.drop operands, calls,
        [⟨0, stack.length, .op (kind.opcode .push)⟩], none⟩ := by
  rw [run_opcode, h]
  rfl

/-- Where there is a verdict, the verify form rejects unless it is true. -/
theorem run_verify_of_judged {verdict : Bool} {calls : List Call} {operands : Nat}
    (h : kind.check ctx? stack = .judged verdict calls operands) :
    run ctx? [.op (kind.opcode .verify)] stack =
      ⟨stack.drop operands, calls, [⟨0, stack.length, .op (kind.opcode .verify)⟩],
        if verdict then none else some (.opcode (kind.opcode .verify) .verificationFailed)⟩ := by
  rw [run_opcode, h]
  cases verdict <;> rfl

end CheckKind

/-- Two items are refused for nothing but their number. -/
theorem cause_ne_of_checkEqual {stack : Stack} {refusal : Refusal}
    (h : checkEqual stack = .refused refusal) : refusal.cause ≠ .verificationFailed := by
  match stack, h with
  | [], h =>
    cases h
    decide
  | [_], h =>
    cases h
    decide

/-- A signature and a key are refused for what they are, and not for the verdict. -/
theorem cause_ne_of_checkSignature {ctx? : Option Context} {stack : Stack} {refusal : Refusal}
    (h : checkSignature ctx? stack = .refused refusal) : refusal.cause ≠ .verificationFailed := by
  match ctx?, stack, h with
  | none, _, h =>
    cases h
    decide
  | some _, [], h =>
    cases h
    decide
  | some _, [_], h =>
    cases h
    decide
  | some ctx, key :: signature :: _, h =>
    rw [checkSignature] at h
    cases hbody : signatureBody? signature with
    | none =>
      rw [hbody] at h
      cases h
      decide
    | some body =>
      rw [hbody] at h
      contradiction

/-- Signatures and keys are refused for what they are, and not for the verdict. -/
theorem cause_ne_of_checkSignatures {ctx? : Option Context} {stack : Stack} {refusal : Refusal}
    (h : checkSignatures ctx? stack = .refused refusal) : refusal.cause ≠ .verificationFailed := by
  -- The plain form rejects then, and the verdict is nothing that it could reject for.
  have hstep : stepOpcode ctx? .checkMultiSig stack =
      .refused .checkMultiSig refusal.cause refusal.taken := by
    rw [stepOpcode, h]
    rfl
  have hcases : (∃ cause taken, FirstObstacle ctx? .push stack cause taken) ∨
      ∀ cause, Clear ctx? .push stack cause := exists_firstObstacle
  obtain ⟨cause, taken, hfirst⟩ | hclear := hcases
  · obtain ⟨-, calls, -, hrefused⟩ := hfirst.stepOpcode_eq
    have hrejection := congrArg Outcome.rejection? (hstep.symm.trans hrefused)
    have hcause : refusal.cause = cause := by
      cases hrejection
      rfl
    intro hverdict
    rw [← hcause, hverdict] at hfirst
    cases hfirst.obstacle with
    | verificationFailed _ hform _ _ _ => contradiction
  · have hgoes := rejection?_eq_none_of_clear hclear
    rw [CheckKind.opcode, hstep] at hgoes
    contradiction

namespace CheckKind

/-- Operands are never refused for the verdict. -/
theorem cause_ne_verificationFailed {kind : CheckKind} {ctx? : Option Context} {stack : Stack}
    {refusal : Refusal} (h : kind.check ctx? stack = .refused refusal) :
    refusal.cause ≠ .verificationFailed := by
  cases kind with
  | equal => exact cause_ne_of_checkEqual h
  | signature => exact cause_ne_of_checkSignature h
  | signatures => exact cause_ne_of_checkSignatures h

end CheckKind

/-- The two forms of a check agree on every stack and in every context, but for what they make of
the verdict. The plain form pushes true where the verify form goes on, on the same stack, and it
pushes false where the verify form rejects for the verdict. It rejects where the verify form rejects
for anything else, for the same cause and leaving the same. It goes on only to push a verdict, and
both forms ask the same. -/
theorem forms_agree (kind : CheckKind) (ctx? : Option Context) (stack : Stack) :
    let plain := run ctx? [.op (kind.opcode .push)] stack
    let verify := run ctx? [.op (kind.opcode .verify)] stack
    (∀ left : Stack, plain.Leaves ([1] :: left) ↔ verify.Leaves left) ∧
    (∀ left : Stack, plain.Leaves ([] :: left) ↔
      verify.Rejects (kind.opcode .verify) .verificationFailed left) ∧
    (∀ (cause : Cause) (left : Stack), plain.Rejects (kind.opcode .push) cause left ↔
      cause ≠ .verificationFailed ∧ verify.Rejects (kind.opcode .verify) cause left) ∧
    (plain.completed = true → ∃ left, plain.stack = [1] :: left ∨ plain.stack = [] :: left) ∧
    (plain.completed = false → ∃ cause left, plain.Rejects (kind.opcode .push) cause left) ∧
    plain.calls = verify.calls := by
  intro plain verify
  cases hcheck : kind.check ctx? stack with
  | refused refusal =>
    have hplain : plain = _ := CheckKind.run_opcode_of_refused hcheck .push
    have hverify : verify = _ := CheckKind.run_opcode_of_refused hcheck .verify
    have hcause := CheckKind.cause_ne_verificationFailed hcheck
    rw [hplain, hverify]
    refine ⟨fun left => ?_, fun left => ?_, fun cause left => ?_, ?_, fun _ => ?_, rfl⟩
    · simp [Run.Leaves, Run.completed]
    · simp [Run.Leaves, Run.completed, Run.Rejects, hcause]
    · -- Operands are refused for the same cause in both forms, and it is never the verdict.
      constructor
      · rintro ⟨hrejection, hleft⟩
        cases hrejection
        exact ⟨hcause, rfl, hleft⟩
      · rintro ⟨-, hrejection, hleft⟩
        cases hrejection
        exact ⟨rfl, hleft⟩
    · simp [Run.completed]
    · exact ⟨refusal.cause, _, rfl, rfl⟩
  | judged verdict calls operands =>
    have hplain : plain = _ := CheckKind.run_push_of_judged hcheck
    have hverify : verify = _ := CheckKind.run_verify_of_judged hcheck
    rw [hplain, hverify]
    cases verdict with
    | true =>
      refine ⟨fun left => ?_, fun left => ?_, fun cause left => ?_, fun _ => ⟨_, .inl rfl⟩, ?_, rfl⟩
      · simp [Run.Leaves, Run.completed, Bytes.ofBool]
      · simp [Run.Leaves, Run.Rejects, Bytes.ofBool]
      · simp [Run.Rejects]
      · simp [Run.completed]
    | false =>
      refine ⟨fun left => ?_, fun left => ?_, fun cause left => ?_, fun _ => ⟨_, .inr rfl⟩, ?_, rfl⟩
      · simp [Run.Leaves, Run.completed, Bytes.ofBool]
      · simp [Run.Leaves, Run.completed, Run.Rejects, Bytes.ofBool]
      · -- The verify form rejects, but for the verdict.
        refine iff_of_false (by simp [Run.Rejects]) ?_
        rintro ⟨hcause, hrejection, -⟩
        cases hrejection
        exact hcause rfl
      · simp [Run.completed]

end UtxoScript
