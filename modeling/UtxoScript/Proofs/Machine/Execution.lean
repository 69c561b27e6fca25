import UtxoScript.Machine.Run

/-!
# Executions

`Executes ctx? script stack left` says that a run of `script` on `stack` reaches its end and leaves
`left`. An execution of a script is one step after another (`executes_cons`), whatever the
position that the steps are told, and what one step does is said here opcode by opcode: from which
stacks it goes on, and what it leaves. So a run is taken apart with these equivalences and without
unfolding the machine.

The opcodes that check something are covered by `Check.Judges`, which says that a check comes to a
verdict and what lies below its operands. The two forms of such an opcode differ only in what they
make of the verdict (`leaves_conclude_push`, `leaves_conclude_verify`), and where a script ends in
the plain form the verdict decides whether it passes (`passes_concat_check`).
-/

namespace UtxoScript

/-! ## Stacks, bottom first -/

namespace Stack

/-- A stack is the one whose items are given bottom first. -/
theorem bottomFirst_eq_iff {stack : Stack} {items : List Bytes} :
    stack.bottomFirst = items ↔ stack = ofBottomFirst items :=
  List.reverse_eq_iff

/-- Items on top of a stack come last, bottom first. -/
theorem bottomFirst_append (items : List Bytes) (below : Stack) :
    bottomFirst (ofBottomFirst items ++ below) = below.bottomFirst ++ items := by
  rw [bottomFirst, List.reverse_append, ofBottomFirst, List.reverse_reverse]
  rfl

/-- What comes last, bottom first, is on top. -/
theorem bottomFirst_eq_append_iff {stack : Stack} {below items : List Bytes} :
    stack.bottomFirst = below ++ items ↔ stack = ofBottomFirst items ++ ofBottomFirst below := by
  rw [bottomFirst_eq_iff, ofBottomFirst, List.reverse_append]
  rfl

end Stack

/-! ## Steps -/

/-- The element goes on from `stack` and leaves `left`. -/
def Outcome.Leaves (outcome : Outcome) (stack left : Stack) : Prop :=
  outcome.rejection? = none ∧ outcome.onto stack = left

/-- An element goes on if it leaves something. -/
theorem rejection?_eq_none_iff {outcome : Outcome} (stack : Stack) :
    outcome.rejection? = none ↔ ∃ left, outcome.Leaves stack left := by
  constructor
  · intro h
    exact ⟨outcome.onto stack, h, rfl⟩
  · rintro ⟨_, h, -⟩
    exact h

/-- The check comes to the verdict, and `below` lies below the operands that it takes. -/
def Check.Judges (check : Check) (stack : Stack) (verdict : Bool) (below : Stack) : Prop :=
  ∃ calls operands, check = .judged verdict calls operands ∧ stack.drop operands = below

/-- The questions that a check asks. -/
def Check.calls : Check → List Call
  | .refused _ => []
  | .judged _ calls _ => calls

/-- A check that asks something comes to a verdict. -/
theorem exists_judged_of_mem_calls {check : Check} {call : Call} (h : call ∈ check.calls) :
    ∃ verdict calls operands, check = .judged verdict calls operands ∧ call ∈ calls := by
  cases check with
  | refused refusal => contradiction
  | judged verdict calls operands => exact ⟨verdict, calls, operands, rfl, h⟩

/-- Both forms of an opcode ask what its check asks. -/
@[simp] theorem calls_conclude (check : Check) (op : Opcode) (form : Form) :
    (check.conclude op form).calls = check.calls := by
  cases check with
  | refused refusal => rfl
  | judged verdict calls operands => cases form <;> cases verdict <;> rfl

/-- The checks that opcodes conclude from. -/
inductive IsCheck : (Option Context → Stack → Check) → Prop
  /-- Two items are compared. -/
  | equal : IsCheck fun _ => checkEqual
  /-- A signature is checked against a key. -/
  | signature : IsCheck checkSignature
  /-- Several signatures are checked against several keys. -/
  | signatures : IsCheck checkSignatures

/-- What there is to check. -/
inductive CheckKind
  /-- Whether two items are equal. -/
  | equal
  /-- Whether a signature is good. -/
  | signature
  /-- Whether several signatures are good. -/
  | signatures

namespace CheckKind

/-- The check. -/
def check : CheckKind → Option Context → Stack → Check
  | equal => fun _ => checkEqual
  | signature => checkSignature
  | signatures => checkSignatures

/-- The opcode that concludes from the check in the given form. -/
def opcode : CheckKind → Form → Opcode
  | equal, .push => .equal
  | equal, .verify => .equalVerify
  | signature, .push => .checkSig
  | signature, .verify => .checkSigVerify
  | signatures, .push => .checkMultiSig
  | signatures, .verify => .checkMultiSigVerify

/-- The opcode does what its form makes of the check. -/
theorem stepOpcode_opcode (kind : CheckKind) (form : Form) (ctx? : Option Context)
    (stack : Stack) :
    stepOpcode ctx? (kind.opcode form) stack =
      (kind.check ctx? stack).conclude (kind.opcode form) form := by
  cases kind <;> cases form <;> rfl

end CheckKind

/-- What there is to know of an opcode: it is one of the two that need an item on top, or it
concludes from a check, or the machine does not run it. -/
theorem stepOpcode_cases (op : Opcode) :
    op = .dup ∨ op = .hash160 ∨
      (∃ check form, IsCheck check ∧
        ∀ ctx? stack, stepOpcode ctx? op stack = (check ctx? stack).conclude op form) ∨
      ∀ ctx? stack, stepOpcode ctx? op stack = .refused op .unsupported 0 := by
  cases op with
  | dup => exact .inl rfl
  | hash160 => exact .inr (.inl rfl)
  | equal => exact .inr (.inr (.inl ⟨_, .push, .equal, fun _ _ => rfl⟩))
  | equalVerify => exact .inr (.inr (.inl ⟨_, .verify, .equal, fun _ _ => rfl⟩))
  | checkSig => exact .inr (.inr (.inl ⟨_, .push, .signature, fun _ _ => rfl⟩))
  | checkSigVerify => exact .inr (.inr (.inl ⟨_, .verify, .signature, fun _ _ => rfl⟩))
  | checkMultiSig => exact .inr (.inr (.inl ⟨_, .push, .signatures, fun _ _ => rfl⟩))
  | checkMultiSigVerify => exact .inr (.inr (.inl ⟨_, .verify, .signatures, fun _ _ => rfl⟩))
  | _ => exact .inr (.inr (.inr fun _ _ => rfl))

/-- An element that pushes goes on. -/
theorem leaves_pushed {taken : Nat} {item : Bytes} {stack left : Stack} :
    (Outcome.pushed taken item).Leaves stack left ↔ item :: stack.drop taken = left :=
  and_iff_right rfl

/-- An opcode that rejects leaves nothing. -/
theorem not_leaves_refused {op : Opcode} {cause : Cause} {taken : Nat} {stack left : Stack} :
    ¬ (Outcome.refused op cause taken).Leaves stack left := by
  rintro ⟨h, -⟩
  contradiction

/-- An opcode that needs an item goes on from the stacks that have one on top. -/
theorem leaves_top_iff {outcome : Stack → Outcome} {f : Bytes → Stack → Stack} {stack left : Stack}
    (hnil : ¬ (outcome []).Leaves [] left)
    (hcons : ∀ item below,
      (outcome (item :: below)).Leaves (item :: below) left ↔ f item below = left) :
    (outcome stack).Leaves stack left ↔
      ∃ item below, stack = item :: below ∧ left = f item below := by
  cases stack with
  | nil =>
    refine iff_of_false hnil ?_
    rintro ⟨_, _, h, _⟩
    contradiction
  | cons item below =>
    rw [hcons]
    constructor
    · rintro rfl
      exact ⟨item, below, rfl, rfl⟩
    · rintro ⟨_, _, h, rfl⟩
      cases h
      rfl

/-- The plain form of a check pushes the verdict. -/
theorem leaves_conclude_push {op : Opcode} {check : Check} {stack left : Stack} :
    (check.conclude op .push).Leaves stack left ↔
      ∃ verdict below, check.Judges stack verdict below ∧ left = Bytes.ofBool verdict :: below := by
  cases check with
  | refused refusal =>
    refine iff_of_false not_leaves_refused ?_
    rintro ⟨_, _, ⟨_, _, h, _⟩, _⟩
    contradiction
  | judged verdict calls operands =>
    constructor
    · rintro ⟨-, rfl⟩
      exact ⟨verdict, _, ⟨calls, operands, rfl, rfl⟩, rfl⟩
    · rintro ⟨_, _, ⟨_, _, h, rfl⟩, rfl⟩
      cases h
      exact ⟨rfl, rfl⟩

/-- The verify form of a check goes on if the verdict is true, and pushes nothing. -/
theorem leaves_conclude_verify {op : Opcode} {check : Check} {stack left : Stack} :
    (check.conclude op .verify).Leaves stack left ↔ check.Judges stack true left := by
  cases check with
  | refused refusal =>
    refine iff_of_false not_leaves_refused ?_
    rintro ⟨_, _, h, _⟩
    contradiction
  | judged verdict calls operands =>
    cases verdict with
    | false =>
      refine iff_of_false ?_ ?_
      · rintro ⟨h, -⟩
        contradiction
      · rintro ⟨_, _, h, _⟩
        cases h
    | true =>
      constructor
      · rintro ⟨-, h⟩
        exact ⟨calls, operands, rfl, h⟩
      · rintro ⟨_, _, h, hbelow⟩
        cases h
        exact ⟨rfl, hbelow⟩

/-- Two items are compared. -/
theorem checkEqual_judges {stack below : Stack} {verdict : Bool} :
    (checkEqual stack).Judges stack verdict below ↔
      ∃ a b, stack = a :: b :: below ∧ verdict = (a == b) := by
  constructor
  · rintro ⟨calls, operands, h, hbelow⟩
    match stack, h with
    | a :: b :: rest, h =>
      cases h
      subst hbelow
      exact ⟨a, b, rfl, rfl⟩
  · rintro ⟨a, b, rfl, rfl⟩
    exact ⟨[], 2, rfl, rfl⟩

/-- A signature body is what stands before the sighash byte. -/
theorem signatureBody?_eq_some {signature body : Bytes} :
    signatureBody? signature = some body ↔
      signature.getLast? = some 0x01 ∧ signature.dropLast = body := by
  unfold signatureBody?
  split
  · next h => exact ⟨fun hb => ⟨h, Option.some.inj hb⟩, fun hb => congrArg some hb.2⟩
  · next h => exact iff_of_false (by simp) fun hb => h hb.1

/-- A signature check comes to a verdict in a context, by asking it about the key on top and what
stands before the sighash byte of the signature below. -/
theorem checkSignature_eq_judged {ctx? : Option Context} {stack : Stack} {verdict : Bool}
    {calls : List Call} {operands : Nat}
    (h : checkSignature ctx? stack = .judged verdict calls operands) :
    ∃ ctx key signature below, ctx? = some ctx ∧ stack = key :: signature :: below ∧
      signature.getLast? = some 0x01 ∧ calls = [ctx.ask signature.dropLast key] ∧
      verdict = (ctx.ask signature.dropLast key).accepted ∧ operands = 2 := by
  match ctx?, stack, h with
  | some ctx, key :: signature :: below, h =>
    cases hbody : signatureBody? signature with
    | none =>
      rw [checkSignature, hbody] at h
      contradiction
    | some body =>
      rw [checkSignature, hbody] at h
      obtain ⟨hlast, rfl⟩ := signatureBody?_eq_some.1 hbody
      cases h
      exact ⟨ctx, key, signature, below, rfl, rfl, hlast, rfl, rfl, rfl⟩

/-- A signature is checked in a context, against the key above it. -/
theorem checkSignature_judges {ctx? : Option Context} {stack below : Stack} {verdict : Bool} :
    (checkSignature ctx? stack).Judges stack verdict below ↔
      ∃ ctx key signature, ctx? = some ctx ∧ stack = key :: signature :: below ∧
        signature.getLast? = some 0x01 ∧
        verdict = ctx.verifier ctx.digest signature.dropLast key := by
  constructor
  · rintro ⟨calls, operands, h, hbelow⟩
    obtain ⟨ctx, key, signature, rest, hctx, rfl, hlast, -, hverdict, rfl⟩ :=
      checkSignature_eq_judged h
    subst hbelow
    exact ⟨ctx, key, signature, hctx, rfl, hlast, hverdict⟩
  · rintro ⟨ctx, key, signature, rfl, rfl, hlast, rfl⟩
    have hbody := signatureBody?_eq_some.2 ⟨hlast, rfl⟩
    exact ⟨_, 2, by rw [checkSignature, hbody]; rfl, rfl⟩

/-! ## Elements -/

section

variable {ctx? : Option Context} {position : Nat} {stack left : Stack}

/-- A push goes on from every stack. -/
theorem step_data_leaves {bytes : Bytes} :
    (step ctx? position (.data bytes) stack).Leaves stack left ↔ left = bytes :: stack := by
  rw [step, leaves_pushed, List.drop_zero, eq_comm]

/-- `OP_DUP` needs an item and pushes it again. -/
theorem step_dup_leaves :
    (step ctx? position (.op .dup) stack).Leaves stack left ↔
      ∃ item below, stack = item :: below ∧ left = item :: item :: below :=
  leaves_top_iff not_leaves_refused fun _ _ => leaves_pushed

/-- `OP_HASH160` replaces an item with its digest. -/
theorem step_hash160_leaves :
    (step ctx? position (.op .hash160) stack).Leaves stack left ↔
      ∃ item below, stack = item :: below ∧ left = hash160 item :: below :=
  leaves_top_iff not_leaves_refused fun _ _ => leaves_pushed

/-- `OP_EQUALVERIFY` needs two equal items and takes both. -/
theorem step_equalVerify_leaves :
    (step ctx? position (.op .equalVerify) stack).Leaves stack left ↔
      ∃ a, stack = a :: a :: left := by
  refine leaves_conclude_verify.trans ?_
  rw [checkEqual_judges]
  constructor
  · rintro ⟨a, b, rfl, h⟩
    rw [eq_of_beq h.symm]
    exact ⟨b, rfl⟩
  · rintro ⟨a, rfl⟩
    exact ⟨a, a, rfl, (beq_self_eq_true a).symm⟩

end

/-- Where an element stands makes no difference to whether it goes on and what it leaves. -/
theorem step_leaves_position {ctx? : Option Context} (p q : Nat) {element : Element}
    {stack left : Stack} :
    (step ctx? p element stack).Leaves stack left ↔
      (step ctx? q element stack).Leaves stack left := by
  cases element with
  | data bytes => rfl
  | op opcode => rfl
  | number n =>
    refine iff_of_false ?_ ?_ <;>
    · rintro ⟨h, -⟩
      contradiction
  | raw byte =>
    refine iff_of_false ?_ ?_ <;>
    · rintro ⟨h, -⟩
      contradiction

/-! ## Scripts -/

/-- The run reached the end of its script and left `left`. -/
def Run.Leaves (r : Run) (left : Stack) : Prop := r.completed = true ∧ r.stack = left

/-- A run of the script on `stack` reaches its end and leaves `left`. -/
def Executes (ctx? : Option Context) (script : Script) (stack left : Stack) : Prop :=
  (run ctx? script stack).Leaves left

/-- A run reaches its end if its first step goes on and what follows reaches it. -/
theorem runFrom_cons_leaves {ctx? : Option Context} {position : Nat} {element : Element}
    {rest : Script} {stack left : Stack} :
    (runFrom ctx? position (element :: rest) stack).Leaves left ↔
      ∃ mid, (step ctx? position element stack).Leaves stack mid ∧
        (runFrom ctx? (position + 1) rest mid).Leaves left := by
  rw [runFrom]
  unfold Outcome.Leaves
  cases h : (step ctx? position element stack).rejection? with
  | some rejection => simp [Run.Leaves, Run.completed]
  | none => simp [Run.Leaves, Run.completed]

/-- The position at which a run begins makes no difference to whether it reaches the end and what
it leaves. -/
theorem runFrom_leaves_position {ctx? : Option Context} (p q : Nat) {script : Script}
    {stack left : Stack} :
    (runFrom ctx? p script stack).Leaves left ↔ (runFrom ctx? q script stack).Leaves left := by
  induction script generalizing p q stack with
  | nil => rfl
  | cons element rest ih =>
    rw [runFrom_cons_leaves, runFrom_cons_leaves]
    refine exists_congr fun mid => and_congr ?_ (ih (p + 1) (q + 1))
    exact step_leaves_position p q

/-- The empty script leaves the stack as it is. -/
theorem executes_nil {ctx? : Option Context} {stack left : Stack} :
    Executes ctx? [] stack left ↔ left = stack := by
  rw [Executes, run_eq_runFrom, eq_comm]
  exact and_iff_right rfl

/-- A script is executed one element after another. -/
theorem executes_cons {ctx? : Option Context} {element : Element} {rest : Script}
    {stack left : Stack} :
    Executes ctx? (element :: rest) stack left ↔
      ∃ mid, (step ctx? 0 element stack).Leaves stack mid ∧ Executes ctx? rest mid left := by
  simp only [Executes, run_eq_runFrom]
  rw [runFrom_cons_leaves]
  -- The rest runs from position one here and from position zero by itself.
  exact exists_congr fun mid => and_congr_right fun _ => runFrom_leaves_position (0 + 1) 0

/-- The run of a single element is its step. -/
theorem run_singleton (ctx? : Option Context) (element : Element) (stack : Stack) :
    run ctx? [element] stack =
      let outcome := step ctx? 0 element stack
      ⟨outcome.onto stack, outcome.calls, [⟨0, stack.length, element⟩], outcome.rejection?⟩ := by
  rw [run_eq_runFrom, runFrom]
  cases hrejection : (step ctx? 0 element stack).rejection? with
  | some rejection => simp [hrejection]
  | none => simp [hrejection, runFrom]

/-- A script is executed one part after the other. -/
theorem executes_append {ctx? : Option Context} {first second : Script} {stack left : Stack} :
    Executes ctx? (first ++ second) stack left ↔
      ∃ mid, Executes ctx? first stack mid ∧ Executes ctx? second mid left := by
  induction first generalizing stack with
  | nil => simp [executes_nil]
  | cons element rest ih =>
    simp only [List.cons_append, executes_cons, ih]
    constructor
    · rintro ⟨mid, hstep, mid', hrest, hsecond⟩
      exact ⟨mid', ⟨mid, hstep, hrest⟩, hsecond⟩
    · rintro ⟨mid', ⟨mid, hstep, hrest⟩, hsecond⟩
      exact ⟨mid, hstep, mid', hrest, hsecond⟩

/-- Pushes put their payloads on the stack, the last on top. -/
theorem executes_pushes {ctx? : Option Context} {payloads : List Bytes} {stack left : Stack} :
    Executes ctx? (payloads.map .data) stack left ↔ left = payloads.reverse ++ stack := by
  induction payloads generalizing stack with
  | nil => exact executes_nil
  | cons payload rest ih => simp [executes_cons, step_data_leaves, ih]

/-! ## Spends -/

/-- The script is executed on the stack and leaves a true item on top. -/
def Passes (ctx? : Option Context) (script : Script) (stack : Stack) : Prop :=
  ∃ item below, Executes ctx? script stack (item :: below) ∧ item.isTrue = true

/-- A script that ends in the plain form of a check passes if the rest of it leaves a stack on which
the check comes to the verdict true. -/
theorem passes_concat_check {ctx? : Option Context} {stack : Stack} {op : Opcode} (script : Script)
    (check : Stack → Check) (hop : ∀ mid, stepOpcode ctx? op mid = (check mid).conclude op .push) :
    Passes ctx? (script ++ [.op op]) stack ↔
      ∃ mid below, Executes ctx? script stack mid ∧ (check mid).Judges mid true below := by
  unfold Passes
  simp only [executes_append, executes_cons, executes_nil, step, hop, leaves_conclude_push]
  constructor
  · rintro ⟨_, _, ⟨mid, hscript, _, ⟨verdict, below, hjudges, rfl⟩, hleft⟩, htrue⟩
    cases hleft
    rw [Bytes.isTrue_ofBool] at htrue
    subst htrue
    exact ⟨mid, _, hscript, hjudges⟩
  · rintro ⟨mid, below, hscript, hjudges⟩
    exact ⟨_, below, ⟨mid, hscript, _, ⟨true, below, hjudges, rfl⟩, rfl⟩, rfl⟩

/-- A spend is accepted if the unlocking script reaches its end and the locking script passes on
what it left. -/
theorem spend_accepted_iff {ctx? : Option Context} {unlocking locking : Script} :
    (spend ctx? unlocking locking).accepted = true ↔
      (run ctx? unlocking []).completed = true ∧
        Passes ctx? locking (run ctx? unlocking []).stack := by
  rw [spend, Run.completed]
  -- The locking script is run only if the unlocking script was not rejected.
  cases h : (run ctx? unlocking []).rejection with
  | some rejection => simp
  | none =>
    rw [Option.isNone_none, eq_self, true_and, Bool.and_eq_true]
    unfold Passes Executes Run.Leaves
    cases (run ctx? locking (run ctx? unlocking []).stack).stack with
    | nil => simp
    | cons item below =>
      constructor
      · rintro ⟨hcompleted, htrue⟩
        exact ⟨item, below, ⟨hcompleted, rfl⟩, htrue⟩
      · rintro ⟨_, _, ⟨hcompleted, h⟩, htrue⟩
        cases h
        exact ⟨hcompleted, htrue⟩

end UtxoScript
