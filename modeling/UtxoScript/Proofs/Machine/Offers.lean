import UtxoScript.Proofs.Machine.Forms

/-!
# The offers of a multisig check

`matchInTurn` goes through the signatures: each is offered the keys that the ones before it have
left, one after another, until one is accepted, and the signatures that found a key are counted.
`matchInTurn_eq` says that the questions asked on the way are the offers of `offers`, and that the
count is the number of those that were accepted.

The main statement, `checkMultiSig_offers_in_turn`, says what the questions are. The `i`-th is about
the `i`-th key, so that no key is offered twice, and about the signature in the place that is given
by the number of keys accepted before, so that a key that was not accepted is lost for every
signature. The questions end where all signatures are matched or all keys have been offered, and not
before. For a check this decides the verdict: it is true if as many questions as there are
signatures were answered in the affirmative.

Places are counted from zero.
-/

namespace UtxoScript

/-! ## One signature after another -/

/-- What comes of offering keys to one signature. -/
structure Offered where
  /-- The questions asked. -/
  calls : List Call
  /-- The keys that were not offered. -/
  keysLeft : List Bytes
  /-- Whether a key was accepted. -/
  found : Bool

/-- Offers keys to a signature, one after another, until one is accepted. -/
def offerUntilAccepted (ctx : Context) (signature : Bytes) : List Bytes → Offered
  | [] => ⟨[], [], false⟩
  | key :: keys =>
    let call := ctx.ask signature key
    if call.accepted then ⟨[call], keys, true⟩
    else
      let later := offerUntilAccepted ctx signature keys
      { later with calls := call :: later.calls }

/-- What comes of offering keys to several signatures. -/
structure Matched where
  /-- The questions asked. -/
  calls : List Call
  /-- How many signatures found a key. -/
  verified : Nat

/-- Goes through the signatures, each of which is offered the keys that the ones before have left. -/
def matchInTurn (ctx : Context) : (signatures keys : List Bytes) → Matched
  | [], _ => ⟨[], 0⟩
  | signature :: signatures, keys =>
    let offered := offerUntilAccepted ctx signature keys
    let later := matchInTurn ctx signatures offered.keysLeft
    ⟨offered.calls ++ later.calls, later.verified + offered.found.toNat⟩

section

variable {ctx : Context}

/-- Where no keys are left, nothing is asked and no signature finds a key. -/
theorem matchInTurn_nil (signatures : List Bytes) : matchInTurn ctx signatures [] = ⟨[], 0⟩ := by
  induction signatures with
  | nil => rfl
  | cons signature signatures ih =>
    rw [matchInTurn, offerUntilAccepted]
    dsimp only
    rw [ih]
    rfl

/-- A key that is accepted goes with the signature that it was offered to. -/
theorem matchInTurn_of_accepts {signature key : Bytes} (h : ctx.Accepts signature key)
    (signatures keys : List Bytes) :
    matchInTurn ctx (signature :: signatures) (key :: keys) =
      let later := matchInTurn ctx signatures keys
      ⟨ctx.ask signature key :: later.calls, later.verified + 1⟩ := by
  rw [matchInTurn, offerUntilAccepted]
  simp [h.accepted]

/-- A key that is not accepted goes alone. -/
theorem matchInTurn_of_not_accepts {signature key : Bytes} (h : ¬ ctx.Accepts signature key)
    (signatures keys : List Bytes) :
    matchInTurn ctx (signature :: signatures) (key :: keys) =
      let later := matchInTurn ctx (signature :: signatures) keys
      ⟨ctx.ask signature key :: later.calls, later.verified⟩ := by
  rw [matchInTurn, offerUntilAccepted, matchInTurn]
  simp [Context.not_accepted h]

/-- Going through the signatures asks what going through the keys asks, and the signatures that
found a key are as many as the offers that were accepted. -/
theorem matchInTurn_eq (signatures keys : List Bytes) :
    matchInTurn ctx signatures keys =
      ⟨offers ctx signatures keys, (offers ctx signatures keys).countP (·.accepted)⟩ := by
  induction signatures, keys using offers_induction ctx with
  | noSignatures keys =>
    rw [offers_nil]
    rfl
  | noKeys signature signatures =>
    rw [matchInTurn_nil]
    rfl
  | accepted signature signatures key keys h ih =>
    rw [matchInTurn_of_accepts h, offers_of_accepts h, ih, List.countP_cons_of_pos h.accepted]
  | refused signature signatures key keys h ih =>
    rw [matchInTurn_of_not_accepts h, offers_of_not_accepts h, ih,
      List.countP_cons_of_neg (Context.not_accepted h)]

/-! ## The questions by their places -/

/-- How many of the first `i` questions were answered in the affirmative. -/
def acceptedBefore (calls : List Call) (i : Nat) : Nat := (calls.take i).countP (·.accepted)

/-- The count goes on with the answer to the next question. -/
theorem acceptedBefore_succ {calls : List Call} {i : Nat} {call : Call}
    (h : calls[i]? = some call) :
    acceptedBefore calls (i + 1) =
      if call.accepted then acceptedBefore calls i + 1 else acceptedBefore calls i := by
  obtain ⟨hi, rfl⟩ := List.getElem?_eq_some_iff.1 h
  unfold acceptedBefore
  rw [← List.take_append_getElem hi, List.countP_append, List.countP_singleton]
  split <;> rfl

/-- Behind a first question that was answered in the affirmative the count is one more. -/
theorem acceptedBefore_cons_of_accepted {call : Call} (h : call.accepted = true)
    (calls : List Call) (i : Nat) :
    acceptedBefore (call :: calls) (i + 1) = acceptedBefore calls i + 1 := by
  unfold acceptedBefore
  rw [List.take_succ_cons, List.countP_cons_of_pos h]

/-- Behind any other first question the count is the same. -/
theorem acceptedBefore_cons_of_not_accepted {call : Call} (h : ¬ call.accepted = true)
    (calls : List Call) (i : Nat) :
    acceptedBefore (call :: calls) (i + 1) = acceptedBefore calls i := by
  unfold acceptedBefore
  rw [List.take_succ_cons, List.countP_cons_of_neg h]

/-- The `i`-th question is about the `i`-th key and the signature whose place is the number of keys
accepted before. -/
theorem offers_getElem? {signatures keys : List Bytes} {i : Nat} {call : Call}
    (h : (offers ctx signatures keys)[i]? = some call) :
    ∃ signature key,
      signatures[acceptedBefore (offers ctx signatures keys) i]? = some signature ∧
        keys[i]? = some key ∧ call = ctx.ask signature key := by
  induction signatures, keys using offers_induction ctx generalizing i with
  | noSignatures keys => simp [offers] at h
  | noKeys signature signatures => simp [offers] at h
  | accepted signature signatures key keys haccepts ih =>
    rw [offers_of_accepts haccepts] at h ⊢
    cases i with
    | zero => exact ⟨signature, key, rfl, rfl, (Option.some.inj h).symm⟩
    | succ i =>
      rw [acceptedBefore_cons_of_accepted haccepts.accepted]
      exact ih h
  | refused signature signatures key keys haccepts ih =>
    rw [offers_of_not_accepts haccepts] at h ⊢
    cases i with
    | zero => exact ⟨signature, key, rfl, rfl, (Option.some.inj h).symm⟩
    | succ i =>
      rw [acceptedBefore_cons_of_not_accepted (Context.not_accepted haccepts)]
      exact ih h

/-- The questions end where all signatures are matched or all keys have been offered, and not
before. -/
theorem offers_end_iff {signatures keys : List Bytes} {i : Nat}
    (hi : i ≤ (offers ctx signatures keys).length) :
    acceptedBefore (offers ctx signatures keys) i = signatures.length ∨ i = keys.length ↔
      i = (offers ctx signatures keys).length := by
  induction signatures, keys using offers_induction ctx generalizing i with
  | noSignatures keys =>
    rw [offers_nil] at hi ⊢
    have hzero : i = 0 := Nat.le_zero.1 hi
    subst hzero
    exact iff_of_true (.inl rfl) rfl
  | noKeys signature signatures => exact or_iff_right_of_imp fun _ => Nat.le_zero.1 hi
  | accepted signature signatures key keys haccepts ih =>
    rw [offers_of_accepts haccepts] at hi ⊢
    cases i with
    | zero => simp [acceptedBefore]
    | succ i =>
      rw [acceptedBefore_cons_of_accepted haccepts.accepted]
      simpa using ih (Nat.le_of_succ_le_succ hi)
  | refused signature signatures key keys haccepts ih =>
    rw [offers_of_not_accepts haccepts] at hi ⊢
    cases i with
    | zero => simp [acceptedBefore]
    | succ i =>
      rw [acceptedBefore_cons_of_not_accepted (Context.not_accepted haccepts)]
      simpa using ih (Nat.le_of_succ_le_succ hi)

/-- What there is to know of the questions asked while signatures are matched with keys, when
`place i` is the place of the first signature that is not matched before the `i`-th question. -/
structure AskedInTurn (ctx : Context) (signatures keys : List Bytes) (calls : List Call)
    (place : Nat → Nat) : Prop where
  /-- The first question is about the first signature. -/
  start : place 0 = 0
  /-- The `i`-th question is about the `i`-th key. -/
  asked : ∀ (i : Nat) (call : Call), calls[i]? = some call →
    ∃ signature key, signatures[place i]? = some signature ∧ keys[i]? = some key ∧
      call = ctx.ask signature key
  /-- The next question is about the next signature if the answer was yes, and else about the
  same. -/
  next : ∀ (i : Nat) (call : Call), calls[i]? = some call →
    place (i + 1) = if call.accepted then place i + 1 else place i
  /-- The questions end where the signatures or the keys do, and not before. -/
  ends : ∀ i ≤ calls.length, place i = signatures.length ∨ i = keys.length ↔ i = calls.length

/-- The offers are asked in turn. -/
theorem offers_askedInTurn (signatures keys : List Bytes) :
    AskedInTurn ctx signatures keys (offers ctx signatures keys)
      (acceptedBefore (offers ctx signatures keys)) where
  start := rfl
  asked _ _ h := offers_getElem? h
  next _ _ h := acceptedBefore_succ h
  ends _ h := offers_end_iff h

/-! ## The verdict -/

/-- No more offers are accepted than there are signatures. -/
theorem countP_accepted_offers_le (signatures keys : List Bytes) :
    (offers ctx signatures keys).countP (·.accepted) ≤ signatures.length := by
  induction signatures, keys using offers_induction ctx with
  | noSignatures keys =>
    rw [offers_nil]
    exact Nat.le_refl 0
  | noKeys signature signatures => exact Nat.zero_le _
  | accepted signature signatures key keys h ih =>
    rw [offers_of_accepts h, List.countP_cons_of_pos h.accepted]
    exact Nat.succ_le_succ ih
  | refused signature signatures key keys h ih =>
    rw [offers_of_not_accepts h, List.countP_cons_of_neg (Context.not_accepted h)]
    exact ih

/-- All signatures are matched if as many offers were accepted as there are signatures. -/
theorem allMatched_offers_iff_countP {signatures keys : List Bytes} :
    allMatched signatures (offers ctx signatures keys) = true ↔
      (offers ctx signatures keys).countP (·.accepted) = signatures.length := by
  have hle : (offers ctx signatures keys).countP (·.accepted) ≤ signatures.length :=
    countP_accepted_offers_le signatures keys
  rw [allMatched, decide_eq_true_iff]
  omega

/-- Several signatures are checked by offering the keys of a layout to them. -/
theorem checkSignatures_items (ctx : Context) (layout : MultisigLayout) :
    let calls := offers ctx layout.operands.signatures layout.operands.keys
    CheckKind.signatures.check (some ctx) (Stack.ofBottomFirst layout.items) =
      .judged (allMatched layout.operands.signatures calls) calls layout.operands.depth := by
  intro calls
  rw [CheckKind.check, checkSignatures, takeOperands_items]

end

/-- The questions of a multisig match, for any signatures and keys, and what comes of them. They are
asked in turn, and there are no more of them than keys. They are what is asked by going through the
signatures, which finds keys for as many signatures as offers are accepted, and all signatures are
matched if that is as many as there are. On the stacks from which a multisig check takes its operands
this is what is asked, and it decides what either form of the opcode does. -/
theorem checkMultiSig_offers_in_turn (ctx : Context) :
    (∀ signatures keys : List Bytes,
      let calls := offers ctx signatures keys
      let verified := calls.countP (·.accepted)
      (∃ place, AskedInTurn ctx signatures keys calls place) ∧ calls.length ≤ keys.length ∧
      matchInTurn ctx signatures keys = ⟨calls, verified⟩ ∧
      (allMatched signatures calls = true ↔ verified = signatures.length)) ∧
    ∀ layout : MultisigLayout,
      let calls := offers ctx layout.operands.signatures layout.operands.keys
      let succeeds := calls.countP (·.accepted) = layout.signatures.length
      let below := Stack.ofBottomFirst layout.below
      let r := fun form =>
        run (some ctx) [.op (CheckKind.signatures.opcode form)] (Stack.ofBottomFirst layout.items)
      (∀ form, (r form).calls = calls) ∧
      ((r .push).Leaves ([1] :: below) ↔ succeeds) ∧
      ((r .push).Leaves ([] :: below) ↔ ¬ succeeds) ∧
      ((r .verify).Leaves below ↔ succeeds) ∧ ((r .verify).completed = true ↔ succeeds) := by
  refine ⟨fun signatures keys => ?_, fun layout => ?_⟩
  · exact ⟨⟨_, offers_askedInTurn signatures keys⟩, length_offers_le ctx signatures keys,
      matchInTurn_eq signatures keys, allMatched_offers_iff_countP⟩
  · intro calls succeeds below r
    have hpush := CheckKind.run_push_of_judged (checkSignatures_items ctx layout)
    have hverify := CheckKind.run_verify_of_judged (checkSignatures_items ctx layout)
    rw [drop_depth_operands] at hpush hverify
    have hverdict : allMatched layout.operands.signatures calls = true ↔ succeeds := by
      have hlen : layout.operands.signatures.length = layout.signatures.length := by
        simp [MultisigLayout.operands]
      rw [allMatched_offers_iff_countP, hlen]
    refine ⟨fun form => ?_, ?_⟩
    · cases form with
      | push => exact congrArg Run.calls hpush
      | verify => exact congrArg Run.calls hverify
    · have hplain : r .push = _ := hpush
      have hverifies : r .verify = _ := hverify
      rw [hplain, hverifies, ← hverdict]
      -- What is left is what the two forms make of either verdict.
      cases allMatched layout.operands.signatures calls <;>
        simp [Run.Leaves, Run.completed, Bytes.ofBool, below]

/-- A key that was refused is lost: signatures that stand in the other order than their keys are not
all matched. -/
example :
    matchInTurn ⟨Context.permissive.digest, fun _ signature key => signature == key⟩
      [[1], [2]] [[2], [1]] = ⟨[⟨[1], [2], false⟩, ⟨[1], [1], true⟩], 1⟩ :=
  rfl

end UtxoScript
