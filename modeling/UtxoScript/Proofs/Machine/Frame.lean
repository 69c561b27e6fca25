import UtxoScript.Proofs.Machine.Multisig

/-!
# What lies below is out of reach

An opcode reads and takes only the items whose presence it has made sure of. So where a run reaches
its end, it does the same on every stack that has more items below: it leaves these items where they
were, and it asks the same questions. The main statement is `run_frame`.

The argument is made once for each of the three checks (`Check.IsLocal`) and passed on to both forms
of the opcodes that conclude from them. For a multisig check, whose operands are counted by the
data, it is that the items below the operands are a part of the layout that the check does not look
at.
-/

namespace UtxoScript

/-! ## Checks -/

/-- Where the check comes to a verdict, its operands are on the stack, and more items below make no
difference to it. -/
def Check.IsLocal (check : Stack → Check) : Prop :=
  ∀ (stack : Stack) (verdict : Bool) (calls : List Call) (operands : Nat),
    check stack = .judged verdict calls operands →
      operands ≤ stack.length ∧
        ∀ below : Stack, check (stack ++ below) = .judged verdict calls operands

/-- The comparison of two items is local. -/
theorem checkEqual_isLocal : Check.IsLocal checkEqual := by
  intro stack verdict calls operands h
  match stack, h with
  | a :: b :: rest, h =>
    cases h
    exact ⟨by simp, fun _ => rfl⟩

/-- The check of one signature is local. -/
theorem checkSignature_isLocal (ctx? : Option Context) : Check.IsLocal (checkSignature ctx?) := by
  intro stack verdict calls operands h
  match ctx?, stack, h with
  | some ctx, key :: signature :: rest, h =>
    cases hbody : signatureBody? signature with
    | none =>
      rw [checkSignature, hbody] at h
      contradiction
    | some body =>
      rw [checkSignature, hbody] at h
      cases h
      refine ⟨by simp, fun below => ?_⟩
      rw [List.cons_append, List.cons_append, checkSignature, hbody]

/-- More items below the operands of a layout. -/
def MultisigLayout.above (layout : MultisigLayout) (items : List Bytes) : MultisigLayout :=
  { layout with below := items ++ layout.below }

/-- Items put below the stack of a layout stand below its operands. -/
theorem ofBottomFirst_items_append (layout : MultisigLayout) (below : Stack) :
    Stack.ofBottomFirst layout.items ++ below =
      Stack.ofBottomFirst (layout.above below.bottomFirst).items := by
  unfold MultisigLayout.above MultisigLayout.items Stack.ofBottomFirst Stack.bottomFirst
  simp

/-- The operands of a layout are on its stack. -/
theorem depth_operands_le (layout : MultisigLayout) :
    layout.operands.depth ≤ (Stack.ofBottomFirst layout.items).length := by
  rw [layout.ofBottomFirst_items]
  unfold MultisigLayout.operands MultisigOperands.depth
  simp only [List.length_cons, List.length_append, List.length_reverse, List.length_map]
  omega

/-- The check of several signatures is local. -/
theorem checkSignatures_isLocal (ctx? : Option Context) : Check.IsLocal (checkSignatures ctx?) := by
  intro stack verdict calls operands h
  match ctx?, h with
  | some ctx, h =>
    cases htake : takeOperands stack with
    | error refusal =>
      rw [checkSignatures, htake] at h
      contradiction
    | ok taken =>
      rw [checkSignatures, htake] at h
      cases h
      obtain ⟨layout, rfl, rfl⟩ := takeOperands_eq_ok_iff.1 htake
      refine ⟨depth_operands_le layout, fun below => ?_⟩
      -- The operands do not depend on what the layout has below them.
      have habove : takeOperands (Stack.ofBottomFirst layout.items ++ below) =
          .ok layout.operands := by
        rw [ofBottomFirst_items_append]
        exact takeOperands_items (layout.above below.bottomFirst)
      rw [checkSignatures, habove]

/-- Every check is local. -/
theorem IsCheck.isLocal {check : Option Context → Stack → Check} (h : IsCheck check)
    (ctx? : Option Context) : Check.IsLocal (check ctx?) := by
  cases h with
  | equal => exact checkEqual_isLocal
  | signature => exact checkSignature_isLocal ctx?
  | signatures => exact checkSignatures_isLocal ctx?

/-! ## Steps -/

/-- Where the element goes on, what it takes is on the stack, and more items below make no
difference to it. -/
def Outcome.IsLocal (outcome : Stack → Outcome) : Prop :=
  ∀ stack : Stack, (outcome stack).rejection? = none →
    (outcome stack).taken ≤ stack.length ∧ ∀ below : Stack, outcome (stack ++ below) = outcome stack

/-- An opcode that concludes from a local check is local, in either form. -/
theorem Check.IsLocal.conclude {check : Stack → Check} (h : Check.IsLocal check) (op : Opcode)
    (form : Form) : Outcome.IsLocal fun stack => (check stack).conclude op form := by
  intro stack hgoes
  dsimp only at hgoes ⊢
  cases hcheck : check stack with
  | refused refusal =>
    rw [hcheck] at hgoes
    contradiction
  | judged verdict calls operands =>
    obtain ⟨hle, hbelow⟩ := h _ _ _ _ hcheck
    have htaken : ((Check.judged verdict calls operands).conclude op form).taken = operands := by
      cases form <;> cases verdict <;> rfl
    refine ⟨?_, fun below => ?_⟩
    · rw [htaken]
      exact hle
    · rw [hbelow below]

/-- Every opcode is local. -/
theorem stepOpcode_isLocal (ctx? : Option Context) (op : Opcode) :
    Outcome.IsLocal (stepOpcode ctx? op) := by
  intro stack h
  obtain rfl | rfl | ⟨check, form, hcheck, hop⟩ | hop := stepOpcode_cases op
  · -- `OP_DUP` looks at one item.
    match stack, h with
    | item :: rest, _ => exact ⟨Nat.zero_le _, fun _ => rfl⟩
  · -- `OP_HASH160` takes one.
    match stack, h with
    | item :: rest, _ => exact ⟨by simp [stepOpcode, Outcome.pushed], fun _ => rfl⟩
  · simp only [hop] at h ⊢
    exact (hcheck.isLocal ctx?).conclude op form stack h
  · rw [hop] at h
    contradiction

/-- Every element is local. -/
theorem step_isLocal (ctx? : Option Context) (position : Nat) (element : Element) :
    Outcome.IsLocal (step ctx? position element) := by
  intro stack h
  cases element with
  | data bytes => exact ⟨Nat.zero_le _, fun _ => rfl⟩
  | number n => contradiction
  | raw byte => contradiction
  | op opcode => exact stepOpcode_isLocal ctx? opcode stack h

/-- What an element leaves stands on what lies below the items that it takes. -/
theorem onto_append {outcome : Outcome} {stack : Stack} (h : outcome.taken ≤ stack.length)
    (below : Stack) : outcome.onto (stack ++ below) = outcome.onto stack ++ below := by
  unfold Outcome.onto
  rw [List.drop_append_of_le_length h]
  cases outcome.item? <;> rfl

/-! ## Runs -/

/-- A run with more items below its stack. -/
def Run.above (r : Run) (below : Stack) : Run :=
  { r with
    stack := r.stack ++ below
    trace := r.trace.map fun entry => { entry with depth := entry.depth + below.length } }

/-- A run that reaches its end is the same with more items below its stack. -/
theorem runFrom_append_below {ctx? : Option Context} {position : Nat} {script : Script}
    {stack : Stack} (h : (runFrom ctx? position script stack).completed = true) (below : Stack) :
    runFrom ctx? position script (stack ++ below) =
      (runFrom ctx? position script stack).above below := by
  induction script generalizing position stack with
  | nil => rfl
  | cons element rest ih =>
    unfold runFrom at h ⊢
    cases hstep : (step ctx? position element stack).rejection? with
    | some rejection =>
      simp only [hstep] at h
      contradiction
    | none =>
      simp only [hstep] at h ⊢
      obtain ⟨hle, hbelow⟩ := step_isLocal ctx? position element stack hstep
      rw [hbelow below, onto_append hle, ih h]
      simp [hstep, Run.above]

/-- Whatever lies below the items that a run starts from, a run that reaches its end leaves there,
and it asks the same questions. -/
theorem run_frame (ctx? : Option Context) (script : Script) (below items left : List Bytes)
    (h : (run ctx? script (.ofBottomFirst items)).Leaves (.ofBottomFirst left)) :
    (run ctx? script (.ofBottomFirst (below ++ items))).Leaves (.ofBottomFirst (below ++ left)) ∧
      (run ctx? script (.ofBottomFirst (below ++ items))).calls =
        (run ctx? script (.ofBottomFirst items)).calls := by
  obtain ⟨hcompleted, hstack⟩ := h
  rw [run_eq_runFrom] at hcompleted hstack
  rw [run_eq_runFrom, run_eq_runFrom]
  have happend (as bs : List Bytes) :
      Stack.ofBottomFirst (as ++ bs) = Stack.ofBottomFirst bs ++ Stack.ofBottomFirst as :=
    List.reverse_append
  rw [happend, happend, runFrom_append_below hcompleted]
  refine ⟨⟨hcompleted, ?_⟩, rfl⟩
  rw [← hstack]
  rfl

/-- A multisig check of two signatures and three keys, with an item below that it leaves alone: the
signatures match the keys in one order and do not in the other. -/
theorem run_checkMultiSig_frame :
    let script : Script := [.data [2], .data (List.replicate 33 2), .data (List.replicate 33 3),
      .data (List.replicate 33 4), .data [3], .op .checkMultiSig]
    let r := fun items => run (some .byFirstByte) script (.ofBottomFirst items)
    (r [[], [2, 0x01], [4, 0x01]]).Leaves (.ofBottomFirst [[1]]) ∧
      (r [[7], [], [2, 0x01], [4, 0x01]]).Leaves (.ofBottomFirst [[7], [1]]) ∧
      (r [[], [4, 0x01], [2, 0x01]]).Leaves (.ofBottomFirst [[]]) ∧
      (r [[7], [], [4, 0x01], [2, 0x01]]).Leaves (.ofBottomFirst [[7], []]) ∧
      (r [[7], [], [4, 0x01], [2, 0x01]]).calls = (r [[], [4, 0x01], [2, 0x01]]).calls := by
  intro script r
  have hinOrder : (r [[], [2, 0x01], [4, 0x01]]).Leaves (.ofBottomFirst [[1]]) := ⟨rfl, rfl⟩
  have hcrossed : (r [[], [4, 0x01], [2, 0x01]]).Leaves (.ofBottomFirst [[]]) := ⟨rfl, rfl⟩
  obtain ⟨habove, -⟩ := run_frame _ _ [[7]] _ _ hinOrder
  exact ⟨hinOrder, habove, hcrossed, run_frame _ _ [[7]] _ _ hcrossed⟩

end UtxoScript
