import UtxoScript.Proofs.Machine.Frame
import UtxoScript.Proofs.Machine.Pieces

/-!
# Where the items of a run come from

The machine makes up nothing. An item on its stack was there at the start, or was pushed by the
script, or is the verdict of a check, or is the digest of such an item (`Obtainable`); no item is
ever cut or put together from others. What a verifier is asked about are such items too: a key as it
stands, and a signature that has lost the sighash byte, which was the one that covers everything.
The stack grows by at most one item with each push and each duplication, and by none with any other
element. The main statement is `run_stack_invariants`. The points of a run are in it the runs of the
first so many elements, which the whole run begins with (`run_append`).

What one element does to the stack is said in two lemmas, on the item that it may push
(`item?_step`) and on the depth that it leaves (`length_onto_step_le`), and what it asks in a third
(`mem_stack_of_mem_calls_step`). Runs follow by induction on the script.
-/

namespace UtxoScript

/-- The least set of items that holds those of the stack, the payloads of the script and the two
verdicts, and with each item its digest. -/
inductive Obtainable (script : Script) (stack : Stack) : Bytes → Prop
  /-- The item is on the stack at the start. -/
  | initial {item : Bytes} (h : item ∈ stack) : Obtainable script stack item
  /-- The script pushes the item. -/
  | payload {item : Bytes} (h : Element.data item ∈ script) : Obtainable script stack item
  /-- The verdict false. -/
  | empty : Obtainable script stack []
  /-- The verdict true. -/
  | one : Obtainable script stack [1]
  /-- The digest of an item. -/
  | digest {item : Bytes} (h : Obtainable script stack item) :
    Obtainable script stack (hash160 item)

/-- Both verdicts are obtainable. -/
theorem Obtainable.ofBool {script : Script} {stack : Stack} (verdict : Bool) :
    Obtainable script stack (Bytes.ofBool verdict) := by
  cases verdict with
  | false => exact .empty
  | true => exact .one

/-- The elements that leave one item more than they find. -/
def Element.adds : Element → Bool
  | .data _ => true
  | .op .dup => true
  | _ => false

/-- The elements that a run carried out. The one that stopped it is not among them. -/
def Run.carriedOut (r : Run) : List Element :=
  (if r.completed then r.trace else r.trace.dropLast).map TraceEntry.element

/-- In the run of the script on the stack, an occurrence of the element makes the call. -/
def Asks (ctx? : Option Context) (script : Script) (stack : Stack) (element : Element)
    (call : Call) : Prop :=
  ∃ before rest found, script = before ++ element :: rest ∧ Executes ctx? before stack found ∧
    call ∈ (step ctx? before.length element found).calls

/-! ## What an element pushes -/

/-- An opcode that concludes from a check pushes its verdict, if anything. -/
theorem item?_conclude {check : Check} {op : Opcode} {form : Form} {item : Bytes}
    (h : (check.conclude op form).item? = some item) : ∃ verdict, item = Bytes.ofBool verdict := by
  match check, form, h with
  | .judged verdict _ _, .push, h => exact ⟨verdict, (Option.some.inj h).symm⟩
  | .judged true _ _, .verify, h => contradiction
  | .judged false _ _, .verify, h => contradiction
  | .refused _, _, h => contradiction

/-- An opcode pushes an item that it finds, the digest of one, or a verdict, if anything. -/
theorem item?_stepOpcode {ctx? : Option Context} {op : Opcode} {stack : Stack} {item : Bytes}
    (h : (stepOpcode ctx? op stack).item? = some item) :
    item ∈ stack ∨ (∃ top ∈ stack, item = hash160 top) ∨
      ∃ verdict, item = Bytes.ofBool verdict := by
  obtain rfl | rfl | ⟨check, form, -, hop⟩ | hop := stepOpcode_cases op
  · match stack, h with
    | top :: below, h =>
      cases h
      exact .inl List.mem_cons_self
  · match stack, h with
    | top :: below, h =>
      cases h
      exact .inr (.inl ⟨top, List.mem_cons_self, rfl⟩)
  · rw [hop] at h
    exact .inr (.inr (item?_conclude h))
  · rw [hop] at h
    contradiction

/-- An element pushes its payload, an item that it finds, the digest of one, or a verdict, if
anything. -/
theorem item?_step {ctx? : Option Context} {position : Nat} {element : Element} {stack : Stack}
    {item : Bytes} (h : (step ctx? position element stack).item? = some item) :
    element = .data item ∨ item ∈ stack ∨ (∃ top ∈ stack, item = hash160 top) ∨
      ∃ verdict, item = Bytes.ofBool verdict := by
  cases element with
  | data bytes =>
    cases h
    exact .inl rfl
  | number n => contradiction
  | raw byte => contradiction
  | op opcode => exact .inr (item?_stepOpcode h)

/-- What is on the stack that an element leaves was pushed by it or was on the stack before. -/
theorem mem_onto {outcome : Outcome} {stack : Stack} {item : Bytes}
    (h : item ∈ outcome.onto stack) : outcome.item? = some item ∨ item ∈ stack := by
  unfold Outcome.onto at h
  cases hitem : outcome.item? with
  | none =>
    rw [hitem] at h
    exact .inr (List.mem_of_mem_drop h)
  | some pushed =>
    rw [hitem] at h
    rcases List.mem_cons.1 h with rfl | hdrop
    · exact .inl rfl
    · exact .inr (List.mem_of_mem_drop hdrop)

/-- An element of the script leaves obtainable items where it finds such. -/
theorem obtainable_of_mem_onto (ctx? : Option Context) (position : Nat) {element : Element}
    {script : Script} {initial stack : Stack} (helement : element ∈ script)
    (hstack : ∀ item ∈ stack, Obtainable script initial item) :
    ∀ item ∈ (step ctx? position element stack).onto stack, Obtainable script initial item := by
  intro item hitem
  rcases mem_onto hitem with hpushed | hmem
  · obtain rfl | hmem | ⟨top, htop, rfl⟩ | ⟨verdict, rfl⟩ := item?_step hpushed
    · exact .payload helement
    · exact hstack item hmem
    · exact .digest (hstack top htop)
    · exact .ofBool verdict
  · exact hstack item hmem

/-! ## How deep the stack gets -/

/-- A check that comes to a verdict has operands. -/
theorem IsCheck.one_le_operands {check : Option Context → Stack → Check} (h : IsCheck check)
    {ctx? : Option Context} {stack : Stack} {verdict : Bool} {calls : List Call} {operands : Nat}
    (hjudged : check ctx? stack = .judged verdict calls operands) : 1 ≤ operands := by
  cases h with
  | equal =>
    match stack, hjudged with
    | _ :: _ :: _, hjudged =>
      cases hjudged
      decide
  | signature =>
    obtain ⟨-, -, -, -, -, -, -, -, -, rfl⟩ := checkSignature_eq_judged hjudged
    decide
  | signatures =>
    obtain ⟨-, layout, -, -, -, -, rfl⟩ := checkSignatures_eq_judged hjudged
    exact Nat.le_add_left 1 _

/-- An element that rejects leaves a stack that is no deeper. -/
theorem length_onto_le_of_rejection {outcome : Outcome} {rejection : Rejection}
    (h : outcome.rejection? = some rejection) (stack : Stack) :
    (outcome.onto stack).length ≤ stack.length := by
  have hbottom : (outcome.onto stack).bottomFirst <+: stack.bottomFirst :=
    bottomFirst_onto_prefix h stack
  have hle := hbottom.length_le
  unfold Stack.bottomFirst at hle
  rwa [List.length_reverse, List.length_reverse] at hle

/-- An opcode that concludes from a check leaves a stack that is no deeper: it takes operands off
before it pushes the verdict. -/
theorem length_onto_conclude_le {check : Option Context → Stack → Check} (hcheck : IsCheck check)
    (ctx? : Option Context) (op : Opcode) (form : Form) (stack : Stack) :
    (((check ctx? stack).conclude op form).onto stack).length ≤ stack.length := by
  cases hjudged : check ctx? stack with
  | refused refusal => exact length_onto_le_of_rejection rfl stack
  | judged verdict calls operands =>
    have hpos : 1 ≤ operands := hcheck.one_le_operands hjudged
    have hle : operands ≤ stack.length := (hcheck.isLocal ctx? _ _ _ _ hjudged).1
    have hdrop : (stack.drop operands).length = stack.length - operands := List.length_drop
    cases form with
    | push =>
      show (Bytes.ofBool verdict :: stack.drop operands).length ≤ stack.length
      rw [List.length_cons]
      omega
    | verify =>
      have honto : ((Check.judged verdict calls operands).conclude op .verify).onto stack =
          stack.drop operands := by
        cases verdict <;> rfl
      rw [honto]
      omega

/-- An opcode leaves a stack that is no deeper, except that a duplication adds an item. -/
theorem length_onto_stepOpcode_le (ctx? : Option Context) (op : Opcode) (stack : Stack) :
    ((stepOpcode ctx? op stack).onto stack).length ≤
      stack.length + if (Element.op op).adds then 1 else 0 := by
  obtain rfl | rfl | ⟨check, form, hcheck, hop⟩ | hop := stepOpcode_cases op
  · cases stack with
    | nil => exact Nat.zero_le _
    | cons top below => exact le_rfl
  · cases stack with
    | nil => exact Nat.zero_le _
    | cons top below => exact le_rfl
  · rw [hop]
    exact (length_onto_conclude_le hcheck ctx? op form stack).trans (Nat.le_add_right _ _)
  · rw [hop]
    exact (length_onto_le_of_rejection rfl stack).trans (Nat.le_add_right _ _)

/-- An element leaves a stack that is no deeper, except that a push and a duplication add an
item. -/
theorem length_onto_step_le (ctx? : Option Context) (position : Nat) (element : Element)
    (stack : Stack) :
    ((step ctx? position element stack).onto stack).length ≤
      stack.length + if element.adds then 1 else 0 := by
  cases element with
  | data bytes => exact le_rfl
  | number n => exact le_rfl
  | raw byte => exact le_rfl
  | op opcode => exact length_onto_stepOpcode_le ctx? opcode stack

/-! ## What an element asks -/

/-- A signature is its body and the sighash byte behind it. -/
theorem dropLast_append_sighash {signature : Bytes} (h : signature.getLast? = some 0x01) :
    signature.dropLast ++ [0x01] = signature :=
  List.dropLast_append_getLast? 0x01 h

/-- Offers are made of the signatures and keys that are to be matched. -/
theorem mem_of_mem_offers {ctx : Context} {signatures keys : List Bytes} {call : Call}
    (h : call ∈ offers ctx signatures keys) :
    call.signature ∈ signatures ∧ call.publicKey ∈ keys := by
  induction keys generalizing signatures with
  | nil => cases signatures <;> contradiction
  | cons key keys ih =>
    cases signatures with
    | nil => contradiction
    | cons signature signatures =>
      rw [offers] at h
      rcases List.mem_cons.1 h with rfl | hlater
      · exact ⟨List.mem_cons_self, List.mem_cons_self⟩
      · obtain ⟨hsignature, hkey⟩ := ih hlater
        refine ⟨?_, List.mem_cons_of_mem _ hkey⟩
        -- The signatures that are left are all of them or all but the first.
        split at hsignature
        · exact List.mem_cons_of_mem _ hsignature
        · exact hsignature

/-- A multisig check asks about signatures and keys on the stack, and the keys have a length that
public keys have. -/
theorem mem_stack_of_mem_calls_checkSignatures {ctx? : Option Context} {stack : Stack} {call : Call}
    (h : call ∈ (checkSignatures ctx? stack).calls) :
    call.signature ++ [0x01] ∈ stack ∧ call.publicKey ∈ stack ∧
      33 ≤ call.publicKey.length ∧ call.publicKey.length ≤ 65 := by
  obtain ⟨verdict, calls, operands, hjudged, hcall⟩ := exists_judged_of_mem_calls h
  obtain ⟨ctx, layout, -, rfl, rfl, -, -⟩ := checkSignatures_eq_judged hjudged
  obtain ⟨hbody, hkey⟩ := mem_of_mem_offers hcall
  have hkey : call.publicKey ∈ layout.keys := List.mem_reverse.1 hkey
  obtain ⟨signature, hsignature, hdrop⟩ := List.mem_map.1 (List.mem_reverse.1 hbody)
  have hwhole : call.signature ++ [0x01] = signature := by
    rw [← hdrop]
    exact dropLast_append_sighash (layout.sighash signature hsignature)
  rw [hwhole]
  refine ⟨?_, ?_, layout.length_key _ hkey⟩
  · simp [Stack.ofBottomFirst, MultisigLayout.items, hsignature]
  · simp [Stack.ofBottomFirst, MultisigLayout.items, hkey]

/-- A check asks about a signature and a key on the stack. -/
theorem IsCheck.mem_stack_of_mem_calls {check : Option Context → Stack → Check}
    (hcheck : IsCheck check) {ctx? : Option Context} {stack : Stack} {call : Call}
    (h : call ∈ (check ctx? stack).calls) :
    call.signature ++ [0x01] ∈ stack ∧ call.publicKey ∈ stack := by
  cases hcheck with
  | equal =>
    -- Comparing items asks nothing.
    match stack, h with
    | [], h => contradiction
    | [_], h => contradiction
    | _ :: _ :: _, h => contradiction
  | signature =>
    obtain ⟨verdict, calls, operands, hjudged, hcall⟩ := exists_judged_of_mem_calls h
    obtain ⟨ctx, key, signature, below, -, rfl, hlast, rfl, -, -⟩ :=
      checkSignature_eq_judged hjudged
    rw [List.mem_singleton.1 hcall]
    show signature.dropLast ++ [0x01] ∈ _ ∧ key ∈ _
    rw [dropLast_append_sighash hlast]
    exact ⟨List.mem_cons_of_mem _ List.mem_cons_self, List.mem_cons_self⟩
  | signatures =>
    obtain ⟨hsignature, hkey, -⟩ := mem_stack_of_mem_calls_checkSignatures h
    exact ⟨hsignature, hkey⟩

/-- An opcode asks about a signature and a key on the stack. -/
theorem mem_stack_of_mem_calls_stepOpcode {ctx? : Option Context} {op : Opcode} {stack : Stack}
    {call : Call} (h : call ∈ (stepOpcode ctx? op stack).calls) :
    call.signature ++ [0x01] ∈ stack ∧ call.publicKey ∈ stack := by
  obtain rfl | rfl | ⟨check, form, hcheck, hop⟩ | hop := stepOpcode_cases op
  · cases stack <;> contradiction
  · cases stack <;> contradiction
  · rw [hop, calls_conclude] at h
    exact hcheck.mem_stack_of_mem_calls h
  · rw [hop] at h
    contradiction

/-- An element asks about a signature and a key on the stack. -/
theorem mem_stack_of_mem_calls_step {ctx? : Option Context} {position : Nat} {element : Element}
    {stack : Stack} {call : Call} (h : call ∈ (step ctx? position element stack).calls) :
    call.signature ++ [0x01] ∈ stack ∧ call.publicKey ∈ stack := by
  cases element with
  | data bytes => contradiction
  | number n => contradiction
  | raw byte => contradiction
  | op opcode => exact mem_stack_of_mem_calls_stepOpcode h

/-! ## Runs -/

/-- A part of the script leaves obtainable items where it finds such. -/
theorem obtainable_of_mem_runFrom {ctx? : Option Context} {position : Nat} {part script : Script}
    {initial stack : Stack} (hpart : ∀ element ∈ part, element ∈ script)
    (hstack : ∀ item ∈ stack, Obtainable script initial item) :
    ∀ item ∈ (runFrom ctx? position part stack).stack, Obtainable script initial item := by
  induction part generalizing position stack with
  | nil => exact hstack
  | cons element rest ih =>
    have helement : element ∈ script := hpart element List.mem_cons_self
    have hrest : ∀ e ∈ rest, e ∈ script := fun e he => hpart e (List.mem_cons_of_mem _ he)
    have honto := obtainable_of_mem_onto ctx? position helement hstack
    rw [runFrom]
    cases (step ctx? position element stack).rejection? with
    | some rejection => exact honto
    | none => exact ih hrest honto

/-- A run that was stopped started an element. -/
theorem trace_ne_nil_of_stopped {ctx? : Option Context} {position : Nat} {script : Script}
    {stack : Stack} (h : (runFrom ctx? position script stack).completed = false) :
    (runFrom ctx? position script stack).trace ≠ [] := by
  cases script with
  | nil => contradiction
  | cons element rest =>
    intro hnil
    have hhead := head?_trace_runFrom ctx? position element rest stack
    rw [hnil] at hhead
    contradiction

/-- An element that goes on is carried out, and then those that are carried out behind it. -/
theorem carriedOut_cons {ctx? : Option Context} {position : Nat} {element : Element} {rest : Script}
    {stack : Stack} (h : (step ctx? position element stack).rejection? = none) :
    (runFrom ctx? position (element :: rest) stack).carriedOut =
      element :: (runFrom ctx? (position + 1) rest
        ((step ctx? position element stack).onto stack)).carriedOut := by
  rw [runFrom, h]
  generalize hleft : (step ctx? position element stack).onto stack = left
  have hstarted := @trace_ne_nil_of_stopped ctx? (position + 1) rest left
  dsimp only
  generalize runFrom ctx? (position + 1) rest left = r at hstarted ⊢
  unfold Run.carriedOut Run.completed at *
  cases hrejection : r.rejection with
  | none => rfl
  | some rejection =>
    -- The entry that is left out is one of the later ones.
    have hne : r.trace ≠ [] := hstarted (by rw [hrejection]; rfl)
    exact congrArg (List.map TraceEntry.element) (List.dropLast_cons_of_ne_nil hne)

/-- A part of a script leaves a stack that is deeper by no more than the elements that add an item
and were carried out. -/
theorem length_runFrom_le (ctx? : Option Context) (position : Nat) (script : Script)
    (stack : Stack) :
    (runFrom ctx? position script stack).stack.length ≤
      stack.length + (runFrom ctx? position script stack).carriedOut.countP Element.adds := by
  induction script generalizing position stack with
  | nil => exact le_rfl
  | cons element rest ih =>
    cases hstep : (step ctx? position element stack).rejection? with
    | some rejection =>
      have hstack : (runFrom ctx? position (element :: rest) stack).stack =
          (step ctx? position element stack).onto stack := by
        rw [runFrom, hstep]
      rw [hstack]
      exact (length_onto_le_of_rejection hstep stack).trans (Nat.le_add_right _ _)
    | none =>
      have hstack : (runFrom ctx? position (element :: rest) stack).stack =
          (runFrom ctx? (position + 1) rest
            ((step ctx? position element stack).onto stack)).stack := by
        rw [runFrom, hstep]
      have hfirst := length_onto_step_le ctx? position element stack
      have hlater := ih (position + 1) ((step ctx? position element stack).onto stack)
      rw [hstack, carriedOut_cons hstep, List.countP_cons]
      omega

/-- A run asks what its first element asks, and then, unless that rejects, what the others ask on
the stack that it leaves. -/
theorem calls_run_cons (ctx? : Option Context) (element : Element) (rest : Script)
    (stack : Stack) :
    (run ctx? (element :: rest) stack).calls =
      (step ctx? 0 element stack).calls ++
        match (step ctx? 0 element stack).rejection? with
        | some _ => []
        | none => (run ctx? rest ((step ctx? 0 element stack).onto stack)).calls := by
  rw [run_eq_runFrom, runFrom]
  cases (step ctx? 0 element stack).rejection? with
  | some rejection => exact (List.append_nil _).symm
  | none =>
    dsimp only
    rw [runFrom_add, run_eq_runFrom]
    rfl

/-- Every call of a run is made by an element that the run reaches. -/
theorem mem_calls_run_iff {ctx? : Option Context} {script : Script} {stack : Stack} {call : Call} :
    call ∈ (run ctx? script stack).calls ↔ ∃ element, Asks ctx? script stack element call := by
  induction script generalizing stack with
  | nil =>
    refine iff_of_false List.not_mem_nil ?_
    rintro ⟨_, before, rest, _, hsplit, -⟩
    exact absurd hsplit.symm (List.append_ne_nil_of_right_ne_nil before (List.cons_ne_nil _ rest))
  | cons element rest ih =>
    rw [calls_run_cons, List.mem_append]
    constructor
    · rintro (hfirst | hlater)
      · exact ⟨element, [], rest, stack, rfl, executes_nil.2 rfl, hfirst⟩
      · cases hstep : (step ctx? 0 element stack).rejection? with
        | some rejection =>
          rw [hstep] at hlater
          contradiction
        | none =>
          rw [hstep] at hlater
          obtain ⟨asking, before, rest', found, rfl, hexecutes, hcall⟩ := ih.1 hlater
          refine ⟨asking, element :: before, rest', found, rfl, ?_, ?_⟩
          · exact executes_cons.2 ⟨_, ⟨hstep, rfl⟩, hexecutes⟩
          · rw [List.length_cons, step_add]
            exact hcall
    · rintro ⟨asking, before, rest', found, hsplit, hexecutes, hcall⟩
      cases before with
      | nil =>
        obtain ⟨rfl, rfl⟩ := List.cons.inj hsplit
        rw [executes_nil.1 hexecutes] at hcall
        exact .inl hcall
      | cons first before =>
        obtain ⟨rfl, rfl⟩ := List.cons.inj hsplit
        obtain ⟨mid, ⟨hstep, rfl⟩, hexecutes⟩ := executes_cons.1 hexecutes
        rw [List.length_cons, step_add] at hcall
        rw [hstep]
        exact .inr (ih.2 ⟨asking, before, rest', found, rfl, hexecutes, hcall⟩)

/-- What an element asks about is obtainable: the key, and the signature with the sighash byte that
it has lost. -/
theorem obtainable_of_asks {ctx? : Option Context} {script : Script} {stack : Stack}
    {element : Element} {call : Call} (h : Asks ctx? script stack element call) :
    Obtainable script stack (call.signature ++ [0x01]) ∧
      Obtainable script stack call.publicKey := by
  obtain ⟨before, rest, found, rfl, ⟨-, rfl⟩, hcall⟩ := h
  have hfound : ∀ item ∈ (run ctx? before stack).stack,
      Obtainable (before ++ element :: rest) stack item := by
    rw [run_eq_runFrom]
    refine obtainable_of_mem_runFrom ?_ fun item hitem => .initial hitem
    exact fun e he => List.mem_append_left _ he
  obtain ⟨hsignature, hkey⟩ := mem_stack_of_mem_calls_step hcall
  exact ⟨hfound _ hsignature, hfound _ hkey⟩

/-- The keys that a multisig check offers have a length that public keys have. -/
theorem length_key_of_asks {ctx? : Option Context} {script : Script} {stack : Stack} {op : Opcode}
    {call : Call} (hop : op = .checkMultiSig ∨ op = .checkMultiSigVerify)
    (h : Asks ctx? script stack (.op op) call) :
    33 ≤ call.publicKey.length ∧ call.publicKey.length ≤ 65 := by
  obtain ⟨before, rest, found, -, -, hcall⟩ := h
  have hcheck : call ∈ (checkSignatures ctx? found).calls := by
    rcases hop with rfl | rfl
    · exact calls_conclude (checkSignatures ctx? found) .checkMultiSig .push ▸ hcall
    · exact calls_conclude (checkSignatures ctx? found) .checkMultiSigVerify .verify ▸ hcall
  exact (mem_stack_of_mem_calls_checkSignatures hcheck).2.2

/-- What holds at every point of a run, that is of the run of its first elements, however many they
are and whether it was stopped by then: the items on the stack are obtainable, and the stack is
deeper than at the start by no more than the elements that add an item and were carried out. The
calls of a run are those that its elements make, and each is about an obtainable key, of a length
that public keys have where a multisig check asks, and an obtainable signature that has lost the
sighash byte that covers everything. -/
theorem run_stack_invariants (ctx? : Option Context) (script : Script) (stack : Stack) :
    (∀ k : Nat,
      let r := run ctx? (script.take k) stack
      (∀ item ∈ r.stack, Obtainable script stack item) ∧
      r.stack.length ≤ stack.length + r.carriedOut.countP Element.adds) ∧
    (∀ call : Call,
      call ∈ (run ctx? script stack).calls ↔ ∃ element, Asks ctx? script stack element call) ∧
    ∀ (element : Element) (call : Call), Asks ctx? script stack element call →
      Obtainable script stack (call.signature ++ [0x01]) ∧
      Obtainable script stack call.publicKey ∧
      (element = .op .checkMultiSig ∨ element = .op .checkMultiSigVerify →
        33 ≤ call.publicKey.length ∧ call.publicKey.length ≤ 65) := by
  refine ⟨fun k => ?_, fun call => mem_calls_run_iff, fun element call hasks => ?_⟩
  · dsimp only
    rw [run_eq_runFrom]
    refine ⟨?_, length_runFrom_le ctx? 0 (script.take k) stack⟩
    refine obtainable_of_mem_runFrom ?_ fun item hitem => .initial hitem
    exact fun element helement => List.mem_of_mem_take helement
  · obtain ⟨hsignature, hkey⟩ := obtainable_of_asks hasks
    refine ⟨hsignature, hkey, ?_⟩
    rintro (rfl | rfl)
    · exact length_key_of_asks (.inl rfl) hasks
    · exact length_key_of_asks (.inr rfl) hasks

/-- A multisig check of two signatures in the other order than their keys. What it asks first is
answered in the negative and is about items that were pushed all the same, and the stack is no
deeper than the eight pushes before it. -/
theorem run_checkMultiSig_invariants :
    let key (first : UInt8) : Bytes := List.replicate 33 first
    let pushes : Script := [.data [], .data [4, 0x01], .data [2, 0x01], .data [2], .data (key 2),
      .data (key 3), .data (key 4), .data [3]]
    let script := pushes ++ [.op .checkMultiSig]
    let call : Call := ⟨[2], key 4, false⟩
    Asks (some .byFirstByte) script [] (.op .checkMultiSig) call ∧
      Obtainable script [] (call.signature ++ [0x01]) ∧ Obtainable script [] call.publicKey ∧
      33 ≤ call.publicKey.length ∧ (run (some .byFirstByte) script []).stack.length ≤ 8 := by
  intro key pushes script call
  have hasks : Asks (some .byFirstByte) script [] (.op .checkMultiSig) call :=
    ⟨pushes, [], [[3], key 4, key 3, key 2, [2], [2, 0x01], [4, 0x01], []], rfl, ⟨rfl, rfl⟩,
      List.mem_cons_self⟩
  obtain ⟨points, -, calls⟩ := run_stack_invariants (some .byFirstByte) script []
  obtain ⟨hsignature, hkey, hlength⟩ := calls _ call hasks
  have hdepth := (points 9).2
  exact ⟨hasks, hsignature, hkey, (hlength (.inl rfl)).1, hdepth⟩

end UtxoScript
