import UtxoScript.Machine.InPlace
import UtxoScript.Proofs.Machine.Offers
import UtxoScript.Proofs.Machine.Refusals

/-!
# What the machine does in place

`Machine.execute` pops and pushes one item at a time and reports where it rejects. `run` puts a run
together from steps, each of which says how many items it takes and what comes of them. The main
statement, `run_execute`, says that both come to the same: whether the script is executed to its
end, the stack, the questions, and the messages. `judge_eq_spend` says the same of spends.

An element does to the machine what its step says (`run_executeElement`). For most elements that is
seen by looking at the top of the stack. A multisig check pops four times and looks at the depth in
between, and may reject each time. `Handles` is carried through: with some number of items off the
stack, what is left to do on the machine is what is left to take by `takeOperands`. A refusal is
handled only if it counts the items that are off the stack by then (`Handles.reject`), and so the
counts that are written into `takeOperands` are the numbers of items that have been popped
(`run_executeCheckMultiSig_of_refused`).
-/

namespace UtxoScript

/-- The messages that an element writes itself: a report if it rejects. -/
def Outcome.reports (outcome : Outcome) : List Message :=
  (outcome.rejection?.map fun rejection => ⟨.debug, rejection.message⟩).toList

/-- The messages of a run: a note for each element started, and the report if one rejected. -/
def Run.messages (r : Run) : List Message :=
  r.trace.map (fun entry => ⟨.trace, entry.message⟩) ++ r.log.map fun report => ⟨.debug, report⟩

namespace Machine

/-! ## States on the way -/

/-- The machine when `taken` items are off the stack. -/
def dropped (m : Machine) (taken : Nat) : Machine := { m with stack := m.stack.drop taken }

/-- The machine when more questions have been asked. -/
def asked (m : Machine) (calls : List Call) : Machine := { m with calls := m.calls ++ calls }

/-- The machine when an element has done what the outcome says. -/
def after (m : Machine) (outcome : Outcome) : Machine :=
  ⟨outcome.onto m.stack, m.calls ++ outcome.calls, m.messages ++ outcome.reports⟩

/-- What comes of work that does what the outcome says: whether the script goes on, and the
machine. -/
def does (m : Machine) (outcome : Outcome) : Bool × Machine :=
  (outcome.rejection?.isNone, m.after outcome)

/-- The machine when a script has been executed as the run says. -/
def following (m : Machine) (r : Run) : Machine :=
  ⟨r.stack, m.calls ++ r.calls, m.messages ++ r.messages⟩

/-- When no more questions have been asked, the machine is the same. -/
theorem asked_nil (m : Machine) : m.asked [] = m := by
  rw [asked, List.append_nil]

/-- Questions are asked one after another. -/
theorem asked_asked (m : Machine) (first second : List Call) :
    (m.asked first).asked second = m.asked (first ++ second) := by
  rw [asked, asked, asked, List.append_assoc]

/-- What an element does that rejects. -/
theorem does_error (m : Machine) (taken : Nat) (calls : List Call) (rejection : Rejection) :
    m.does ⟨taken, calls, .error rejection⟩ =
      (false, ⟨m.stack.drop taken, m.calls ++ calls,
        m.messages ++ [⟨.debug, rejection.message⟩]⟩) :=
  rfl

/-- What an element does that goes on. -/
theorem does_ok (m : Machine) (taken : Nat) (calls : List Call) (item? : Option Bytes) :
    m.does ⟨taken, calls, .ok item?⟩ =
      (true, ⟨item?.toList ++ m.stack.drop taken, m.calls ++ calls, m.messages⟩) := by
  have hreports : m.messages ++ Outcome.reports ⟨taken, calls, .ok item?⟩ = m.messages :=
    List.append_nil m.messages
  rw [does, after, hreports]
  cases item? <;> rfl

/-! ## Single works -/

variable {m : Machine}

/-- Work is done one part after another. -/
theorem run_bind {α β : Type} (work : Work α) (next : α → Work β) :
    (work >>= next).run m = (next (work.run m).1).run (work.run m).2 :=
  rfl

/-- Where nothing is done, the machine stays as it is. -/
theorem run_pure {α : Type} (a : α) : (pure a : Work α).run m = (a, m) :=
  rfl

/-- Popping takes one item more off the stack. -/
theorem run_pop (taken : Nat) :
    pop.run (m.dropped taken) = ((m.stack.drop taken).head?, m.dropped (taken + 1)) := by
  show ((m.stack.drop taken).head?, { m with stack := (m.stack.drop taken).tail }) = _
  rw [List.tail_drop]
  rfl

/-- Popping takes the item that is on top. -/
theorem run_pop_cons (item : Bytes) (below : Stack) (calls : List Call)
    (messages : List Message) :
    pop.run ⟨item :: below, calls, messages⟩ = (some item, ⟨below, calls, messages⟩) :=
  rfl

/-- The depth is looked at. -/
theorem run_depth : depth.run m = (m.stack.length, m) :=
  rfl

/-- A question is answered as the context answers it. -/
theorem run_ask (ctx : Context) (signature key : Bytes) :
    (ask ctx signature key).run m =
      ((ctx.ask signature key).accepted, m.asked [ctx.ask signature key]) :=
  rfl

/-- An item is pushed and the script goes on. -/
theorem run_push (m : Machine) (item : Bytes) (taken : Nat) :
    (do push item; return true : Work Bool).run (m.dropped taken) =
      m.does (.pushed taken item) := by
  rw [Outcome.pushed, does_ok, List.append_nil]
  rfl

/-- A rejection is reported, and what is off the stack stays off. -/
theorem run_report (m : Machine) (rejection : Rejection) (taken : Nat) :
    (do write .debug rejection.message; return false : Work Bool).run (m.dropped taken) =
      m.does ⟨taken, [], .error rejection⟩ := by
  rw [does_error, List.append_nil]
  rfl

/-- An opcode rejects with the items off the stack that are off by then. -/
theorem run_reject (m : Machine) (op : Opcode) (cause : Cause) (taken : Nat) :
    (reject op cause).run (m.dropped taken) = m.does (.refused op cause taken) :=
  run_report m (.opcode op cause) taken

/-- What a form makes of a verdict, once the operands are gone and the questions asked. -/
theorem run_finish (m : Machine) (op : Opcode) (form : Form) (verdict : Bool)
    (calls : List Call) (operands : Nat) :
    (finish op form verdict).run ((m.dropped operands).asked calls) =
      m.does ((Check.judged verdict calls operands).conclude op form) := by
  cases form with
  | push =>
    rw [Check.conclude, does_ok]
    rfl
  | verify =>
    cases verdict with
    | true =>
      rw [Check.conclude, does_ok]
      rfl
    | false =>
      rw [Check.conclude, does_error]
      rfl

/-! ## Matching -/

/-- Offering keys to one signature asks what `offerUntilAccepted` says. -/
theorem run_offerEach (ctx : Context) (signature : Bytes) (keys : List Bytes) :
    (offerEach ctx signature keys).run m =
      (((offerUntilAccepted ctx signature keys).found,
        (offerUntilAccepted ctx signature keys).keysLeft),
        m.asked (offerUntilAccepted ctx signature keys).calls) := by
  induction keys generalizing m with
  | nil => rw [offerEach, run_pure, offerUntilAccepted, asked_nil]
  | cons key keys ih =>
    rw [offerEach, run_bind, run_ask, offerUntilAccepted]
    dsimp only
    split
    · rfl
    · rw [ih, asked_asked]
      rfl

/-- Going through the signatures asks and counts what `matchInTurn` says. -/
theorem run_countMatched (ctx : Context) (signatures keys : List Bytes) :
    (countMatched ctx signatures keys).run m =
      ((matchInTurn ctx signatures keys).verified,
        m.asked (matchInTurn ctx signatures keys).calls) := by
  induction signatures generalizing keys m with
  | nil => rw [countMatched, run_pure, matchInTurn, asked_nil]
  | cons signature signatures ih =>
    rw [countMatched, run_bind, run_offerEach, matchInTurn]
    dsimp only
    rw [run_bind, ih, asked_asked, run_pure]
    cases (offerUntilAccepted ctx signature keys).found <;> rfl

/-! ## Operands -/

/-- Where the stack has come to its end, popping leaves the machine as it is. -/
theorem dropped_succ_of_nil {taken : Nat} (h : m.stack.drop taken = []) :
    m.dropped (taken + 1) = m.dropped taken := by
  rw [dropped, ← List.tail_drop, h, dropped, h]
  rfl

/-- Popping an item leaves what is below it. -/
theorem drop_succ_of_cons {taken : Nat} {stack below : Stack} {item : Bytes}
    (h : stack.drop taken = item :: below) : stack.drop (taken + 1) = below := by
  rw [← List.tail_drop, h]
  rfl

/-- Items are popped as `takeItems` takes them, and where it refuses them they are rejected with the
items off the stack that it has counted. -/
theorem run_popEach {α : Type} (op : Opcode) (read? : Bytes → Option α) (missing bad : Cause)
    (n taken : Nat) :
    (popEach op read? missing bad n).run (m.dropped taken) =
      match takeItems read? missing bad taken n (m.stack.drop taken) with
      | .ok (as, _) => (some as, m.dropped (taken + n))
      | .error refusal => (none, m.after (.refused op refusal.cause refusal.taken)) := by
  induction n generalizing taken with
  | zero => rfl
  | succ n ih =>
    rw [popEach, run_bind, run_pop]
    cases h : m.stack.drop taken with
    | nil =>
      rw [dropped_succ_of_nil h, takeItems]
      dsimp only [List.head?_nil]
      rw [run_bind, run_reject]
      rfl
    | cons item below =>
      rw [takeItems]
      dsimp only [List.head?_cons]
      cases read? item with
      | none =>
        dsimp only
        rw [run_bind, run_reject]
        rfl
      | some a =>
        dsimp only
        rw [run_bind, ih, drop_succ_of_cons h]
        cases takeItems read? missing bad (taken + 1) n below with
        | error refusal => rfl
        | ok r =>
          dsimp only [Except.map]
          rw [Nat.add_assoc, Nat.add_comm 1 n]
          rfl

/-- What a multisig check makes of operands that are taken or refused. -/
def checkOperands (ctx : Context) : Except Refusal MultisigOperands → Check
  | .error refusal => .refused refusal
  | .ok operands =>
    let calls := offers ctx operands.signatures operands.keys
    .judged (allMatched operands.signatures calls) calls operands.depth

/-- In a context a multisig check is what it makes of the operands on the stack. -/
theorem checkSignatures_some (ctx : Context) (stack : Stack) :
    checkSignatures (some ctx) stack = checkOperands ctx (takeOperands stack) := by
  rw [checkSignatures]
  cases takeOperands stack <;> rfl

/-- With `taken` items off the stack, the work does what a multisig check makes of the operands. -/
def Handles (ctx : Context) (op : Opcode) (form : Form) (m : Machine) (taken : Nat)
    (work : Work Bool) (operands : Except Refusal MultisigOperands) : Prop :=
  work.run (m.dropped taken) = m.does ((checkOperands ctx operands).conclude op form)

namespace Handles

variable {ctx : Context} {op : Opcode} {form : Form} {taken n : Nat} {cause : Cause}

/-- A refusal is handled by rejecting if it counts the items that are off the stack. -/
theorem reject : Handles ctx op form m taken (reject op cause) (.error ⟨cause, taken⟩) :=
  run_reject m op cause taken

/-- The depth is looked at where it is required. -/
theorem depth {rest : Work Bool} {next : Unit → Except Refusal MultisigOperands}
    (hrest : Handles ctx op form m taken rest (next ())) :
    Handles ctx op form m taken
      (Machine.depth >>= fun depth => if depth < n then Machine.reject op cause else rest)
      (requireDepth n cause taken (m.stack.drop taken) >>= next) := by
  have hlt : (m.dropped taken).stack.length < n ↔
      ¬ Stack.reaches n (m.stack.drop taken) = true := by
    rw [Stack.reaches_iff, Nat.not_le]
    rfl
  unfold Handles
  rw [run_bind, run_depth, requireDepth]
  dsimp only
  by_cases hreaches : Stack.reaches n (m.stack.drop taken) = true
  · rw [if_neg (fun h => hlt.1 h hreaches), if_pos hreaches]
    exact hrest
  · rw [if_pos (hlt.2 hreaches), if_neg hreaches]
    exact reject

/-- A count is popped where it is taken. -/
theorem popCount {rest : Option Nat → Work Bool}
    {next : Nat × Stack → Except Refusal MultisigOperands}
    (hnone : rest none = Machine.reject op cause)
    (hsome : ∀ k, Handles ctx op form m (taken + 1) (rest (some k))
      (next (k, m.stack.drop (taken + 1)))) :
    Handles ctx op form m taken (Machine.popCount n >>= rest)
      (takeCount n cause taken (m.stack.drop taken) >>= next) := by
  unfold Handles Machine.popCount
  rw [run_bind, run_bind, run_pop]
  cases h : m.stack.drop taken with
  | nil =>
    dsimp only [List.head?_nil]
    rw [run_pure, hnone, dropped_succ_of_nil h]
    exact reject
  | cons item below =>
    dsimp only [List.head?_cons]
    rw [run_pure, takeCount]
    dsimp only
    cases count? n item with
    | none =>
      rw [hnone]
      exact reject
    | some k =>
      have hrest := hsome k
      rw [drop_succ_of_cons h] at hrest
      exact hrest

/-- Items are popped where they are taken. -/
theorem popEach {α : Type} {read? : Bytes → Option α} {missing bad : Cause}
    {rest : Option (List α) → Work Bool}
    {next : List α × Stack → Except Refusal MultisigOperands}
    (hnone : rest none = pure false)
    (hsome : ∀ as, as.length = n → Handles ctx op form m (n + taken) (rest (some as))
      (next (as, m.stack.drop (n + taken)))) :
    Handles ctx op form m taken (Machine.popEach op read? missing bad n >>= rest)
      (takeItems read? missing bad taken n (m.stack.drop taken) >>= next) := by
  unfold Handles
  rw [run_bind, run_popEach]
  cases htake : takeItems read? missing bad taken n (m.stack.drop taken) with
  | error refusal =>
    dsimp only
    rw [hnone]
    rfl
  | ok r =>
    obtain ⟨as, left⟩ := r
    obtain ⟨items, hstack, hlength, hread⟩ := takeItems_eq_ok_iff.1 htake
    have hleft : m.stack.drop (n + taken) = left := by
      rw [Nat.add_comm, ← List.drop_drop, hstack, ← hlength, ← hread.length_eq, List.drop_left]
    have hrest := hsome as hlength
    rw [hleft, Nat.add_comm] at hrest
    exact hrest

/-- Once the counts, the keys and the signatures are off the stack, the item below them is popped
and the signatures are matched. -/
theorem matched {keys signatures : List Bytes}
    (h : signatures.length + keys.length + 2 = taken) :
    Handles ctx op form m taken
      (do
        let _ ← pop
        let verified ← countMatched ctx signatures keys
        finish op form (signatures.length ≤ verified))
      (.ok ⟨keys, signatures⟩) := by
  have hdepth : taken + 1 = MultisigOperands.depth ⟨keys, signatures⟩ := by
    show taken + 1 = keys.length + signatures.length + 3
    omega
  unfold Handles
  rw [run_bind, run_pop, run_bind, run_countMatched, matchInTurn_eq]
  dsimp only
  rw [run_finish, hdepth]
  rfl

end Handles

/-! ## Opcodes and elements -/

/-- A multisig check comes in place to what it comes to as a step. -/
theorem run_executeCheckMultiSig (op : Opcode) (form : Form) (ctx? : Option Context) :
    (executeCheckMultiSig op form ctx?).run m =
      m.does ((checkSignatures ctx? m.stack).conclude op form) := by
  cases ctx? with
  | none => exact run_reject m op .noContext 0
  | some ctx =>
    have hwork : Handles ctx op form m 0 (executeCheckMultiSig op form (some ctx))
        (takeOperands m.stack) := by
      unfold executeCheckMultiSig takeOperands
      refine .depth ?_
      refine .popCount rfl fun n => ?_
      refine .depth ?_
      refine .popEach rfl fun keys hkeys => ?_
      refine .popCount rfl fun k => ?_
      refine .depth ?_
      refine .popEach rfl fun signatures hsignatures => ?_
      subst hkeys hsignatures
      exact .matched rfl
    rw [checkSignatures_some]
    exact hwork

/-- Where operands are refused, the items that the refusal counts are those that have been popped:
they were there, and the stack has lost them and no others. -/
theorem run_executeCheckMultiSig_of_refused {refusal : Refusal} (op : Opcode) (form : Form)
    (ctx : Context) (h : takeOperands m.stack = .error refusal) :
    refusal.taken ≤ m.stack.length ∧
      (executeCheckMultiSig op form (some ctx)).run m =
        (false, ⟨m.stack.drop refusal.taken, m.calls,
          m.messages ++ [⟨.debug, (Rejection.opcode op refusal.cause).message⟩]⟩) := by
  refine ⟨(firstObstacle_of_refused ctx h).2, ?_⟩
  rw [run_executeCheckMultiSig, checkSignatures, h]
  show m.does (.refused op refusal.cause refusal.taken) = _
  rw [Outcome.refused, does_error, List.append_nil]

/-- A comparison comes in place to what it comes to as a step. -/
theorem run_executeEqual (op : Opcode) (form : Form) :
    (executeEqual op form).run m = m.does ((checkEqual m.stack).conclude op form) := by
  obtain ⟨stack, calls, messages⟩ := m
  match stack with
  | [] => exact run_reject ⟨[], calls, messages⟩ op .fewerThanTwo 0
  | [a] => exact run_reject ⟨[a], calls, messages⟩ op .fewerThanTwo 1
  | a :: b :: below =>
    have hfinish := run_finish ⟨a :: b :: below, calls, messages⟩ op form (a == b) [] 2
    rw [asked_nil] at hfinish
    exact hfinish

/-- A signature check comes in place to what it comes to as a step. -/
theorem run_executeCheckSig (op : Opcode) (form : Form) (ctx? : Option Context) :
    (executeCheckSig op form ctx?).run m =
      m.does ((checkSignature ctx? m.stack).conclude op form) := by
  obtain ⟨stack, calls, messages⟩ := m
  match ctx?, stack with
  | none, stack => exact run_reject ⟨stack, calls, messages⟩ op .noContext 0
  | some ctx, [] => exact run_reject ⟨[], calls, messages⟩ op .fewerThanTwo 0
  | some ctx, [key] => exact run_reject ⟨[key], calls, messages⟩ op .fewerThanTwo 0
  | some ctx, key :: signature :: below =>
    have hdepth : ¬ (key :: signature :: below).length < 2 := Nat.not_lt.2 (Nat.le_add_left 2 _)
    unfold executeCheckSig
    dsimp only
    rw [run_bind, run_depth]
    dsimp only
    -- Both operands are popped before the signature is looked at.
    rw [if_neg hdepth, run_bind, run_pop_cons, run_bind, run_pop_cons, checkSignature]
    dsimp only
    cases signatureBody? signature with
    | none => exact run_reject ⟨key :: signature :: below, calls, messages⟩ op .sighashType 2
    | some body =>
      exact run_finish ⟨key :: signature :: below, calls, messages⟩ op form
        (ctx.ask body key).accepted [ctx.ask body key] 2

/-- An opcode does in place what its step says. -/
theorem run_executeOpcode (ctx? : Option Context) (op : Opcode) :
    (executeOpcode ctx? op).run m = m.does (stepOpcode ctx? op m.stack) := by
  cases op with
  | dup =>
    obtain ⟨stack, calls, messages⟩ := m
    match stack with
    | [] => exact run_reject ⟨[], calls, messages⟩ .dup .emptyStack 0
    | item :: below => exact run_push ⟨item :: below, calls, messages⟩ item 0
  | hash160 =>
    obtain ⟨stack, calls, messages⟩ := m
    match stack with
    | [] => exact run_reject ⟨[], calls, messages⟩ .hash160 .emptyStack 0
    | item :: below => exact run_push ⟨item :: below, calls, messages⟩ (hash160 item) 1
  | equal => exact run_executeEqual .equal .push
  | equalVerify => exact run_executeEqual .equalVerify .verify
  | checkSig => exact run_executeCheckSig .checkSig .push ctx?
  | checkSigVerify => exact run_executeCheckSig .checkSigVerify .verify ctx?
  | checkMultiSig => exact run_executeCheckMultiSig .checkMultiSig .push ctx?
  | checkMultiSigVerify => exact run_executeCheckMultiSig .checkMultiSigVerify .verify ctx?
  | _ => exact run_reject m _ .unsupported 0

/-- An element does in place what its step says. -/
theorem run_executeElement (ctx? : Option Context) (position : Nat) (element : Element) :
    (executeElement ctx? position element).run m =
      m.does (step ctx? position element m.stack) := by
  cases element with
  | data bytes => exact run_push m bytes 0
  | number n => exact run_report m (.smallInteger n position) 0
  | raw byte => exact run_report m (.unnamedByte byte position) 0
  | op opcode => exact run_executeOpcode ctx? opcode

/-! ## Scripts -/

/-- The part of a script that begins at a position is executed as it is run. -/
theorem run_executeFrom (ctx? : Option Context) (position : Nat) (script : Script) :
    (executeFrom ctx? position script).run m =
      ((runFrom ctx? position script m.stack).completed,
        m.following (runFrom ctx? position script m.stack)) := by
  induction script generalizing position m with
  | nil =>
    show (true, m) = (true, ⟨m.stack, m.calls ++ [], m.messages ++ []⟩)
    rw [List.append_nil, List.append_nil]
  | cons element rest ih =>
    -- The element is noted before it is executed, and its step is that from the same stack.
    let note : Message := ⟨.trace, TraceEntry.message ⟨position, m.stack.length, element⟩⟩
    let noted : Machine := { m with messages := m.messages ++ [note] }
    have hnoted : (executeFrom ctx? position (element :: rest)).run m =
        (do
          if ← executeElement ctx? position element then
            executeFrom ctx? (position + 1) rest
          else
            return false : Work Bool).run noted :=
      rfl
    have hstack : noted.stack = m.stack := rfl
    rw [hnoted, run_bind, run_executeElement, runFrom, does, hstack]
    generalize step ctx? position element m.stack = outcome
    have hafter : noted.after outcome =
        ⟨outcome.onto m.stack, m.calls ++ outcome.calls,
          m.messages ++ note :: outcome.reports⟩ := by
      simp [after, noted]
    rw [hafter, Outcome.reports]
    cases outcome.rejection? with
    | some rejection => rfl
    | none =>
      dsimp only
      rw [Option.isNone_none, if_pos rfl, ih]
      simp [following, Run.messages, Run.log, Run.completed, note]

/-- A script is executed in place as it is run: to its end or not, with the same stack, the same
questions, and messages that are the notes of the elements started and the report of the run. -/
theorem run_execute (ctx? : Option Context) (script : Script) (m : Machine) :
    (execute ctx? script).run m =
      ((run ctx? script m.stack).completed, m.following (run ctx? script m.stack)) := by
  rw [execute, run_executeFrom, run_eq_runFrom]

/-! ## Messages by level -/

/-- The reports of a run are its log. -/
theorem messagesAt_debug_following (m : Machine) (r : Run) :
    (m.following r).messagesAt .debug = m.messagesAt .debug ++ r.log := by
  simp [messagesAt, following, Run.messages, List.filter_map, Function.comp_def]

/-- The notes of a run are its trace. -/
theorem messagesAt_trace_following (m : Machine) (r : Run) :
    (m.following r).messagesAt .trace = m.messagesAt .trace ++ r.trace.map TraceEntry.message := by
  simp [messagesAt, following, Run.messages, List.filter_map, Function.comp_def]

/-- A spend is judged in place by executing its scripts, the second if the first is executed to its
end. -/
theorem run_judge (ctx? : Option Context) (unlocking locking : Script) (m : Machine) :
    (judge ctx? unlocking locking).run m =
      let first := run ctx? unlocking m.stack
      let second := run ctx? locking first.stack
      if first.completed then
        (second.completed && second.stack.head?.any Bytes.isTrue,
          (m.following first).following second)
      else (false, m.following first) := by
  rw [judge, run_bind, run_execute]
  dsimp only
  cases (run ctx? unlocking m.stack).completed with
  | false => rfl
  | true =>
    rw [if_pos rfl, Bool.not_true, if_neg Bool.false_ne_true, run_bind, run_execute]
    dsimp only
    have hstack : (m.following (run ctx? unlocking m.stack)).stack =
        (run ctx? unlocking m.stack).stack :=
      rfl
    rw [hstack]
    cases (run ctx? locking (run ctx? unlocking m.stack).stack).completed <;> rfl

/-- A spend is judged in place as it is judged by its runs, with the same questions and reports. -/
theorem judge_eq_spend (ctx? : Option Context) (unlocking locking : Script) :
    ∃ ended, (judge ctx? unlocking locking).run (start []) =
        ((spend ctx? unlocking locking).accepted, ended) ∧
      ended.calls = (spend ctx? unlocking locking).calls ∧
      ended.messagesAt .debug = (spend ctx? unlocking locking).log := by
  have hstack : (start []).stack = [] := rfl
  rw [run_judge, hstack, spend]
  dsimp only
  cases hfirst : (run ctx? unlocking []).rejection with
  | some rejection =>
    have hstopped : (run ctx? unlocking []).completed = false := by
      rw [Run.completed, hfirst]
      rfl
    rw [hstopped]
    refine ⟨(start []).following (run ctx? unlocking []), rfl, rfl, ?_⟩
    rw [messagesAt_debug_following, Run.log, hfirst]
    rfl
  | none =>
    have hcompleted : (run ctx? unlocking []).completed = true := by
      rw [Run.completed, hfirst]
      rfl
    rw [hcompleted]
    refine ⟨_, rfl, rfl, ?_⟩
    rw [messagesAt_debug_following, messagesAt_debug_following, Run.log, hfirst]
    rfl

end Machine

end UtxoScript
