import UtxoScript.Proofs.Machine.Multisig

/-!
# Why a multisig check rejects

A multisig check rejects for one of nine causes (`multisigCauses`). `Obstacle` says for each of them,
in terms of the stack that the check finds and of nothing that it does, when the cause is there and
how many items are off the stack when it is given. The cause that is given is the first that is
there, in the order in which they are listed: this is the main statement,
`run_checkMultiSig_rejected`, and with the number of items it fixes the stack that is left.

The conditions overlap, since what stands where a key is expected may be malformed on a stack that
has too few items as well. What is shown is that a check gets past each condition that is not met
(the lemmas on `Clear`) and is stopped by the first that is (`FirstObstacle.stepOpcode_eq`). A
condition that is met always has a first one before it or is the first itself, so there is nothing
else for a check to be stopped by (`exists_firstObstacle`).
-/

namespace UtxoScript

/-! ## Conditions -/

/-- The item, which may be missing, announces `n` items: it is the single byte `n`, and there have
to be at least one and at most `most`. -/
def Announces (most : Nat) (item? : Option Bytes) (n : Nat) : Prop :=
  item? = some [UInt8.ofNat n] ∧ 1 ≤ n ∧ n ≤ most

/-- The item in place `i`, counted from one, is the first that is not `Good`. -/
def FirstBad (Good : Bytes → Prop) (items : List Bytes) (i : Nat) : Prop :=
  ∃ before item after, items = before ++ item :: after ∧ i = before.length + 1 ∧
    (∀ earlier ∈ before, Good earlier) ∧ ¬ Good item

/-- The item has a length that public keys have. -/
def IsKeyLong (item : Bytes) : Prop := 33 ≤ item.length ∧ item.length ≤ 65

/-- The item ends in the sighash byte that covers everything. -/
def CoversAll (item : Bytes) : Prop := item.getLast? = some 0x01

/-- What can be in the way of a multisig check of the given form: a cause for which it may reject,
and the number of items that are off the stack when it rejects for that. -/
inductive Obstacle (ctx? : Option Context) (form : Form) (stack : Stack) : Cause → Nat → Prop
  /-- There is no context to ask. -/
  | noContext (h : ctx? = none) : Obstacle ctx? form stack .noContext 0
  /-- There are fewer than three items. -/
  | fewerThanThree (h : stack.length < 3) : Obstacle ctx? form stack .fewerThanThree 0
  /-- The item on top announces no number of keys. -/
  | keyCount (h : ∀ n, ¬ Announces 3 stack[0]? n) : Obstacle ctx? form stack .keyCount 1
  /-- Behind the number of keys there are not that many items and one more. -/
  | missingKeys {n : Nat} (hn : Announces 3 stack[0]? n) (h : stack.length < n + 2) :
    Obstacle ctx? form stack .missingKeys 1
  /-- The `i`-th key is the first of a length that no public key has. -/
  | malformedKey {n i : Nat} (hn : Announces 3 stack[0]? n)
    (h : FirstBad IsKeyLong ((stack.drop 1).take n) i) :
    Obstacle ctx? form stack .malformedKey (1 + i)
  /-- The item behind the keys announces no number of signatures. -/
  | signatureCount {n : Nat} (hn : Announces 3 stack[0]? n)
    (h : ∀ m, ¬ Announces n stack[n + 1]? m) : Obstacle ctx? form stack .signatureCount (n + 2)
  /-- Behind the number of signatures there are not that many items and one more. -/
  | missingSignatures {n m : Nat} (hn : Announces 3 stack[0]? n)
    (hm : Announces n stack[n + 1]? m) (h : stack.length < n + m + 3) :
    Obstacle ctx? form stack .missingSignatures (n + 2)
  /-- The `j`-th signature is the first that does not end in the sighash byte. -/
  | sighashType {n m j : Nat} (hn : Announces 3 stack[0]? n) (hm : Announces n stack[n + 1]? m)
    (h : FirstBad CoversAll ((stack.drop (n + 2)).take m) j) :
    Obstacle ctx? form stack .sighashType (n + 2 + j)
  /-- The verdict has to be true, and the signatures cannot be assigned to keys. -/
  | verificationFailed {ctx : Context} {n m : Nat} (hctx : ctx? = some ctx)
    (hform : form = .verify) (hn : Announces 3 stack[0]? n) (hm : Announces n stack[n + 1]? m)
    (h : ¬ Assignable (fun signature key => ctx.Accepts signature.dropLast key)
      ((stack.drop (n + 2)).take m) ((stack.drop 1).take n)) :
    Obstacle ctx? form stack .verificationFailed (n + m + 3)

/-- The causes for which a multisig check rejects, in the order in which they are looked for. -/
def multisigCauses : List Cause :=
  [.noContext, .fewerThanThree, .keyCount, .missingKeys, .malformedKey, .signatureCount,
   .missingSignatures, .sighashType, .verificationFailed]

/-- The cause is not in the way. -/
def Clear (ctx? : Option Context) (form : Form) (stack : Stack) (cause : Cause) : Prop :=
  ∀ taken, ¬ Obstacle ctx? form stack cause taken

/-- The obstacle is there, and none that is looked for before it is. -/
structure FirstObstacle (ctx? : Option Context) (form : Form) (stack : Stack) (cause : Cause)
    (taken : Nat) : Prop where
  /-- The obstacle is there. -/
  obstacle : Obstacle ctx? form stack cause taken
  /-- No cause that is looked for earlier is. -/
  clear : ∀ earlier ∈ multisigCauses.takeWhile (· ≠ cause), Clear ctx? form stack earlier

/-! ## Firsts -/

/-- If some item is bad, one is the first. -/
theorem exists_firstBad {Good : Bytes → Prop} {items : List Bytes}
    (h : ¬ ∀ item ∈ items, Good item) : ∃ i, FirstBad Good items i := by
  induction items with
  | nil => exact absurd (List.forall_mem_nil Good) h
  | cons item rest ih =>
    by_cases hitem : Good item
    · have hrest : ¬ ∀ item ∈ rest, Good item := fun hall =>
        h (List.forall_mem_cons.2 ⟨hitem, hall⟩)
      obtain ⟨i, before, bad, after, rfl, rfl, hbefore, hbad⟩ := ih hrest
      exact ⟨_, item :: before, bad, after, rfl, rfl, List.forall_mem_cons.2 ⟨hitem, hbefore⟩, hbad⟩
    · exact ⟨1, [], item, rest, rfl, rfl, List.forall_mem_nil Good, hitem⟩

/-- The first bad item is one of the items. -/
theorem FirstBad.le_length {Good : Bytes → Prop} {items : List Bytes} {i : Nat}
    (h : FirstBad Good items i) : i ≤ items.length := by
  obtain ⟨before, item, after, rfl, rfl, -, -⟩ := h
  rw [List.length_append, List.length_cons]
  omega

/-- If some cause of a list is there, one is the first, in the order of the list. -/
theorem exists_first_or_none (P : Cause → Prop) (causes : List Cause) :
    (∃ cause, P cause ∧ ∀ earlier ∈ causes.takeWhile (· ≠ cause), ¬ P earlier) ∨
      ∀ cause ∈ causes, ¬ P cause := by
  induction causes with
  | nil => exact .inr (List.forall_mem_nil _)
  | cons first rest ih =>
    by_cases hfirst : P first
    · refine .inl ⟨first, hfirst, ?_⟩
      rw [List.takeWhile_cons_of_neg (by simp)]
      exact List.forall_mem_nil _
    · obtain ⟨cause, hcause, hearlier⟩ | hnone := ih
      · refine .inl ⟨cause, hcause, ?_⟩
        have hne : first ≠ cause := fun heq => hfirst (heq ▸ hcause)
        rw [List.takeWhile_cons_of_pos (by simpa using hne)]
        exact List.forall_mem_cons.2 ⟨hfirst, hearlier⟩
      · exact .inr (List.forall_mem_cons.2 ⟨hfirst, hnone⟩)

section

variable {ctx? : Option Context} {form : Form} {stack : Stack}

/-- There are no causes but those that are looked for. -/
theorem Obstacle.mem_multisigCauses {cause : Cause} {taken : Nat}
    (h : Obstacle ctx? form stack cause taken) : cause ∈ multisigCauses := by
  cases h <;> decide

/-- If no obstacle is the first, there is none. -/
theorem exists_firstObstacle :
    (∃ cause taken, FirstObstacle ctx? form stack cause taken) ∨
      ∀ cause, Clear ctx? form stack cause := by
  obtain ⟨cause, ⟨taken, hobstacle⟩, hearlier⟩ | hnone :=
    exists_first_or_none (fun cause => ∃ taken, Obstacle ctx? form stack cause taken) multisigCauses
  · exact .inl ⟨cause, taken, hobstacle, fun earlier hmem k h => hearlier earlier hmem ⟨k, h⟩⟩
  · exact .inr fun cause taken h => hnone cause h.mem_multisigCauses ⟨taken, h⟩

/-! ## Reading -/

/-- A computation fails where its first part does. -/
theorem bind_error_of_error {ε α β : Type} {x : Except ε α} {f : α → Except ε β} {e : ε}
    (h : x = .error e) : x >>= f = .error e := by
  rw [h]
  rfl

/-- A computation whose first part gives a result goes on with it. -/
theorem bind_eq_of_ok {ε α β : Type} {x : Except ε α} {f : α → Except ε β} {a : α}
    (h : x = .ok a) : x >>= f = f a := by
  rw [h]
  rfl

/-- A depth that is reached below `k` items is granted there. -/
theorem requireDepth_drop_eq_ok {k depth taken : Nat} {cause : Cause}
    (h : k + depth ≤ stack.length) : requireDepth depth cause taken (stack.drop k) = .ok () := by
  rw [requireDepth_eq_ok_iff, List.length_drop]
  omega

/-- A depth that is not reached below `k` items is refused there. -/
theorem requireDepth_drop_eq_error {k depth taken : Nat} {cause : Cause} (hk : k ≤ stack.length)
    (h : stack.length < k + depth) :
    requireDepth depth cause taken (stack.drop k) = .error ⟨cause, taken⟩ := by
  have hnot : ¬ Stack.reaches depth (stack.drop k) = true := by
    rw [Stack.reaches_iff, List.length_drop]
    omega
  rw [requireDepth, if_neg hnot]

/-- A count that is announced is taken. -/
theorem takeCount_drop_of_announces {k most n taken : Nat} {cause : Cause} (hmost : most < 256)
    (h : Announces most stack[k]? n) :
    takeCount most cause taken (stack.drop k) = .ok (n, stack.drop (k + 1)) := by
  obtain ⟨hitem, hn⟩ := h
  obtain ⟨hk, heq⟩ := List.getElem?_eq_some_iff.1 hitem
  rw [takeCount_eq_ok_iff hmost, List.drop_eq_getElem_cons hk, heq]
  exact ⟨rfl, hn⟩

/-- An item that announces no count is refused, and it is gone then. -/
theorem takeCount_drop_of_not_announces {k most taken : Nat} {cause : Cause} (hmost : most < 256)
    (hk : k < stack.length) (h : ∀ n, ¬ Announces most stack[k]? n) :
    takeCount most cause taken (stack.drop k) = .error ⟨cause, taken + 1⟩ := by
  have hcount : count? most stack[k] = none := by
    rw [Option.eq_none_iff_forall_ne_some]
    intro n hn
    obtain ⟨hitem, hle⟩ := (count?_eq_some_iff hmost).1 hn
    exact h n ⟨List.getElem?_eq_some_iff.2 ⟨hk, hitem⟩, hle⟩
  rw [List.drop_eq_getElem_cons hk, takeCount, hcount]

/-- Items that can all be read are taken. -/
theorem takeItems_drop_eq_ok {α : Type} {read? : Bytes → Option α} {f : Bytes → α}
    {missing bad : Cause} {k n taken : Nat} (hlen : k + n ≤ stack.length)
    (hread : ∀ item ∈ (stack.drop k).take n, read? item = some (f item)) :
    takeItems read? missing bad taken n (stack.drop k) =
      .ok (((stack.drop k).take n).map f, stack.drop (k + n)) := by
  refine takeItems_eq_ok_iff.2 ⟨(stack.drop k).take n, ?_, ?_, ?_⟩
  · rw [← List.drop_drop, List.take_append_drop]
  · rw [List.length_map, List.length_take, List.length_drop]
    omega
  · exact List.forall₂_map_right_iff.2 (List.forall₂_same.2 hread)

/-- The first item that cannot be read is refused, and it is gone then. -/
theorem takeItems_append_cons {α : Type} {read? : Bytes → Option α} {missing bad : Cause}
    {before : List Bytes} {item : Bytes} {below : Stack} {n taken : Nat}
    (hlt : before.length < n) (hbefore : ∀ earlier ∈ before, read? earlier ≠ none)
    (hitem : read? item = none) :
    takeItems read? missing bad taken n (before ++ item :: below) =
      .error ⟨bad, taken + (before.length + 1)⟩ := by
  induction before generalizing n taken with
  | nil =>
    obtain ⟨n, rfl⟩ : ∃ k, n = k + 1 := ⟨n - 1, by simp at hlt; omega⟩
    rw [List.nil_append, takeItems, hitem]
    rfl
  | cons first rest ih =>
    obtain ⟨n, rfl⟩ : ∃ k, n = k + 1 := ⟨n - 1, by simp at hlt; omega⟩
    rw [List.forall_mem_cons] at hbefore
    obtain ⟨a, ha⟩ := Option.ne_none_iff_exists'.1 hbefore.1
    rw [List.cons_append, takeItems, ha, ih (Nat.lt_of_succ_lt_succ hlt) hbefore.2]
    simp only [Except.map, List.length_cons]
    congr 2
    omega

/-- The first of the items that cannot be read is refused, and it is gone then. -/
theorem takeItems_of_firstBad {α : Type} {read? : Bytes → Option α} {Good : Bytes → Prop}
    {missing bad : Cause} {i n taken : Nat} (hread : ∀ item, read? item = none ↔ ¬ Good item)
    (h : FirstBad Good (stack.take n) i) :
    takeItems read? missing bad taken n stack = .error ⟨bad, taken + i⟩ := by
  obtain ⟨before, item, after, htake, rfl, hbefore, hitem⟩ := h
  have hlt : before.length < n := by
    have hlen := congrArg List.length htake
    rw [List.length_take, List.length_append, List.length_cons] at hlen
    omega
  rw [← List.take_append_drop n stack, htake, List.append_assoc, List.cons_append]
  refine takeItems_append_cons hlt (fun earlier hmem hnone => ?_) ((hread item).2 hitem)
  exact (hread earlier).1 hnone (hbefore earlier hmem)

/-- Public keys are refused for their lengths. -/
theorem publicKey?_eq_none_iff (item : Bytes) : publicKey? item = none ↔ ¬ IsKeyLong item := by
  rw [Option.eq_none_iff_forall_ne_some]
  simp [publicKey?_eq_some_iff, IsKeyLong]

/-- Signatures are refused for their last bytes. -/
theorem signatureBody?_eq_none_iff (item : Bytes) :
    signatureBody? item = none ↔ ¬ CoversAll item := by
  rw [Option.eq_none_iff_forall_ne_some]
  simp [signatureBody?_eq_some, CoversAll]

/-! ## Getting past conditions -/

namespace Clear

variable {n m : Nat}

/-- There is a context. -/
theorem exists_context (h : Clear ctx? form stack .noContext) : ∃ ctx, ctx? = some ctx := by
  by_contra hnone
  refine h 0 (.noContext ?_)
  rw [Option.eq_none_iff_forall_ne_some]
  exact not_exists.1 hnone

/-- There are three items. -/
theorem three_le (h : Clear ctx? form stack .fewerThanThree) : 3 ≤ stack.length := by
  by_contra hlt
  exact h 0 (.fewerThanThree (by omega))

/-- The number of keys is announced. -/
theorem exists_keyCount (h : Clear ctx? form stack .keyCount) :
    ∃ n, Announces 3 stack[0]? n := by
  by_contra hnone
  exact h 1 (.keyCount (not_exists.1 hnone))

/-- There are the keys and one more item. -/
theorem keys_le (h : Clear ctx? form stack .missingKeys) (hn : Announces 3 stack[0]? n) :
    n + 2 ≤ stack.length := by
  by_contra hlt
  exact h 1 (.missingKeys hn (by omega))

/-- The keys have lengths that public keys have. -/
theorem isKeyLong (h : Clear ctx? form stack .malformedKey) (hn : Announces 3 stack[0]? n) :
    ∀ key ∈ (stack.drop 1).take n, IsKeyLong key := by
  by_contra hbad
  obtain ⟨i, hi⟩ := exists_firstBad hbad
  exact h _ (.malformedKey hn hi)

/-- The number of signatures is announced. -/
theorem exists_signatureCount (h : Clear ctx? form stack .signatureCount)
    (hn : Announces 3 stack[0]? n) : ∃ m, Announces n stack[n + 1]? m := by
  by_contra hnone
  exact h _ (.signatureCount hn (not_exists.1 hnone))

/-- There are the signatures and one more item. -/
theorem signatures_le (h : Clear ctx? form stack .missingSignatures)
    (hn : Announces 3 stack[0]? n) (hm : Announces n stack[n + 1]? m) :
    n + m + 3 ≤ stack.length := by
  by_contra hlt
  exact h _ (.missingSignatures hn hm (by omega))

/-- The signatures end in the sighash byte. -/
theorem coversAll (h : Clear ctx? form stack .sighashType) (hn : Announces 3 stack[0]? n)
    (hm : Announces n stack[n + 1]? m) :
    ∀ signature ∈ (stack.drop (n + 2)).take m, CoversAll signature := by
  by_contra hbad
  obtain ⟨j, hj⟩ := exists_firstBad hbad
  exact h _ (.sighashType hn hm hj)

end Clear

/-! ## Taking operands in parts -/

/-- Takes `m` signatures, when `n` keys and the two counts have gone. -/
def takeBodies (n m : Nat) (keys : List Bytes) (stack : Stack) :
    Except Refusal MultisigOperands := do
  requireDepth (m + 1) .missingSignatures (n + 2) stack
  let (signatures, _) ← takeItems signatureBody? .missingSignatures .sighashType (n + 2) m stack
  return ⟨keys, signatures⟩

/-- Takes the number of signatures and the signatures, when `n` keys and their number have gone. -/
def takeSignatures (n : Nat) (keys : List Bytes) (stack : Stack) :
    Except Refusal MultisigOperands := do
  let (m, stack) ← takeCount n .signatureCount (n + 1) stack
  takeBodies n m keys stack

/-- Takes `n` keys and then the signatures, when the number of keys has gone. -/
def takeKeys (n : Nat) (stack : Stack) : Except Refusal MultisigOperands := do
  requireDepth (n + 1) .missingKeys 1 stack
  let (keys, stack) ← takeItems publicKey? .malformedKey .malformedKey 1 n stack
  takeSignatures n keys stack

section

variable {n m : Nat} {keys : List Bytes}

/-- Where the number of keys is announced, it is taken, and the keys come next. -/
theorem takeOperands_eq_takeKeys (h3 : 3 ≤ stack.length) (hn : Announces 3 stack[0]? n) :
    takeOperands stack = takeKeys n (stack.drop 1) := by
  have hdepth : requireDepth 3 .fewerThanThree 0 stack = .ok () := requireDepth_eq_ok_iff.2 h3
  have hcount : takeCount maxKeys .keyCount 0 stack = .ok (n, stack.drop 1) :=
    takeCount_drop_of_announces (k := 0) (by decide) hn
  exact (bind_eq_of_ok hdepth).trans (bind_eq_of_ok hcount)

/-- Where there is nothing against the keys, they are taken, and the signatures come next. -/
theorem takeKeys_eq_takeSignatures (hle : n + 2 ≤ stack.length)
    (hkeys : ∀ key ∈ (stack.drop 1).take n, IsKeyLong key) :
    takeKeys n (stack.drop 1) =
      takeSignatures n ((stack.drop 1).take n) (stack.drop (n + 1)) := by
  have hbehind : requireDepth (n + 1) .missingKeys 1 (stack.drop 1) = .ok () :=
    requireDepth_drop_eq_ok (by omega)
  have htake : takeItems publicKey? .malformedKey .malformedKey 1 n (stack.drop 1) =
      .ok (((stack.drop 1).take n).map id, stack.drop (1 + n)) :=
    takeItems_drop_eq_ok (by omega) fun key hkey =>
      publicKey?_eq_some_iff.2 ⟨rfl, hkeys key hkey⟩
  rw [List.map_id, Nat.add_comm 1 n] at htake
  exact (bind_eq_of_ok hbehind).trans (bind_eq_of_ok htake)

/-- Where the number of signatures is announced, it is taken, and the signatures come next. -/
theorem takeSignatures_eq_takeBodies (hmost : n ≤ 3) (hm : Announces n stack[n + 1]? m) :
    takeSignatures n keys (stack.drop (n + 1)) = takeBodies n m keys (stack.drop (n + 2)) := by
  have hcount : takeCount n .signatureCount (n + 1) (stack.drop (n + 1)) =
      .ok (m, stack.drop (n + 2)) :=
    takeCount_drop_of_announces (by omega) hm
  exact bind_eq_of_ok hcount

/-- Where there is nothing against the signatures either, the operands are complete. -/
theorem takeBodies_eq_ok (hle : n + m + 3 ≤ stack.length)
    (hsignatures : ∀ signature ∈ (stack.drop (n + 2)).take m, CoversAll signature) :
    takeBodies n m keys (stack.drop (n + 2)) =
      .ok ⟨keys, ((stack.drop (n + 2)).take m).map List.dropLast⟩ := by
  have hbehind : requireDepth (m + 1) .missingSignatures (n + 2) (stack.drop (n + 2)) = .ok () :=
    requireDepth_drop_eq_ok (by omega)
  have htake : takeItems signatureBody? .missingSignatures .sighashType (n + 2) m
      (stack.drop (n + 2)) =
      .ok (((stack.drop (n + 2)).take m).map List.dropLast, stack.drop (n + 2 + m)) :=
    takeItems_drop_eq_ok (by omega) fun signature hmem =>
      signatureBody?_eq_some.2 ⟨hsignatures signature hmem, rfl⟩
  exact (bind_eq_of_ok hbehind).trans (bind_eq_of_ok htake)

/-- Where nothing that is looked for before the signatures is in the way, they come next. -/
theorem takeOperands_eq_takeSignatures (hthree : Clear ctx? form stack .fewerThanThree)
    (hmissing : Clear ctx? form stack .missingKeys)
    (hmalformed : Clear ctx? form stack .malformedKey) (hn : Announces 3 stack[0]? n) :
    takeOperands stack = takeSignatures n ((stack.drop 1).take n) (stack.drop (n + 1)) := by
  rw [takeOperands_eq_takeKeys hthree.three_le hn,
    takeKeys_eq_takeSignatures (hmissing.keys_le hn) (hmalformed.isKeyLong hn)]

/-- Where nothing is in the way of the operands, they are taken. -/
theorem takeOperands_eq_ok (hthree : Clear ctx? form stack .fewerThanThree)
    (hmissing : Clear ctx? form stack .missingKeys)
    (hmalformed : Clear ctx? form stack .malformedKey)
    (hsignatures : Clear ctx? form stack .missingSignatures)
    (hsighash : Clear ctx? form stack .sighashType) (hn : Announces 3 stack[0]? n)
    (hm : Announces n stack[n + 1]? m) :
    takeOperands stack =
      .ok ⟨(stack.drop 1).take n, ((stack.drop (n + 2)).take m).map List.dropLast⟩ := by
  rw [takeOperands_eq_takeSignatures hthree hmissing hmalformed hn,
    takeSignatures_eq_takeBodies hn.2.2 hm]
  exact takeBodies_eq_ok (hsignatures.signatures_le hn hm) (hsighash.coversAll hn hm)

end

/-! ## Being stopped -/

/-- Operands are refused for the first obstacle. -/
theorem FirstObstacle.takeOperands_eq {cause : Cause} {taken : Nat}
    (h : FirstObstacle ctx? form stack cause taken) (hcontext : cause ≠ .noContext)
    (hverdict : cause ≠ .verificationFailed) :
    takeOperands stack = .error ⟨cause, taken⟩ ∧ taken ≤ stack.length := by
  obtain ⟨hobstacle, hclear⟩ := h
  cases hobstacle with
  | noContext _ => contradiction
  | verificationFailed _ _ _ _ _ => contradiction
  | fewerThanThree hlt =>
    have hdepth : requireDepth 3 .fewerThanThree 0 stack = .error ⟨.fewerThanThree, 0⟩ :=
      requireDepth_drop_eq_error (k := 0) (Nat.zero_le _) (by omega)
    exact ⟨bind_error_of_error hdepth, Nat.zero_le _⟩
  | keyCount hnone =>
    have h3 := (hclear .fewerThanThree (by decide)).three_le
    have hdepth : requireDepth 3 .fewerThanThree 0 stack = .ok () := requireDepth_eq_ok_iff.2 h3
    have hcount : takeCount maxKeys .keyCount 0 stack = .error ⟨.keyCount, 1⟩ :=
      takeCount_drop_of_not_announces (k := 0) (by decide) (by omega) hnone
    exact ⟨(bind_eq_of_ok hdepth).trans (bind_error_of_error hcount), by omega⟩
  | @missingKeys n hn hlt =>
    have h3 := (hclear .fewerThanThree (by decide)).three_le
    rw [takeOperands_eq_takeKeys h3 hn]
    have hbehind : requireDepth (n + 1) .missingKeys 1 (stack.drop 1) =
        .error ⟨.missingKeys, 1⟩ :=
      requireDepth_drop_eq_error (by omega) (by omega)
    exact ⟨bind_error_of_error hbehind, by omega⟩
  | @malformedKey n i hn hfirst =>
    have h3 := (hclear .fewerThanThree (by decide)).three_le
    have hle := (hclear .missingKeys (by decide)).keys_le hn
    have hi := hfirst.le_length
    rw [List.length_take] at hi
    rw [takeOperands_eq_takeKeys h3 hn]
    have hbehind : requireDepth (n + 1) .missingKeys 1 (stack.drop 1) = .ok () :=
      requireDepth_drop_eq_ok (by omega)
    have htake : takeItems publicKey? .malformedKey .malformedKey 1 n (stack.drop 1) =
        .error ⟨.malformedKey, 1 + i⟩ :=
      takeItems_of_firstBad publicKey?_eq_none_iff hfirst
    exact ⟨(bind_eq_of_ok hbehind).trans (bind_error_of_error htake), by omega⟩
  | @signatureCount n hn hnone =>
    have hle := (hclear .missingKeys (by decide)).keys_le hn
    have hmost := hn.2.2
    rw [takeOperands_eq_takeSignatures (hclear .fewerThanThree (by decide))
      (hclear .missingKeys (by decide)) (hclear .malformedKey (by decide)) hn]
    have hcount : takeCount n .signatureCount (n + 1) (stack.drop (n + 1)) =
        .error ⟨.signatureCount, n + 2⟩ :=
      takeCount_drop_of_not_announces (by omega) (by omega) hnone
    exact ⟨bind_error_of_error hcount, hle⟩
  | @missingSignatures n m hn hm hlt =>
    have hle := (hclear .missingKeys (by decide)).keys_le hn
    rw [takeOperands_eq_takeSignatures (hclear .fewerThanThree (by decide))
      (hclear .missingKeys (by decide)) (hclear .malformedKey (by decide)) hn,
      takeSignatures_eq_takeBodies hn.2.2 hm]
    have hbehind : requireDepth (m + 1) .missingSignatures (n + 2) (stack.drop (n + 2)) =
        .error ⟨.missingSignatures, n + 2⟩ :=
      requireDepth_drop_eq_error hle (by omega)
    exact ⟨bind_error_of_error hbehind, hle⟩
  | @sighashType n m j hn hm hfirst =>
    have hle := (hclear .missingSignatures (by decide)).signatures_le hn hm
    have hj := hfirst.le_length
    rw [List.length_take] at hj
    rw [takeOperands_eq_takeSignatures (hclear .fewerThanThree (by decide))
      (hclear .missingKeys (by decide)) (hclear .malformedKey (by decide)) hn,
      takeSignatures_eq_takeBodies hn.2.2 hm]
    have hbehind : requireDepth (m + 1) .missingSignatures (n + 2) (stack.drop (n + 2)) =
        .ok () :=
      requireDepth_drop_eq_ok (by omega)
    have htake : takeItems signatureBody? .missingSignatures .sighashType (n + 2) m
        (stack.drop (n + 2)) = .error ⟨.sighashType, n + 2 + j⟩ :=
      takeItems_of_firstBad signatureBody?_eq_none_iff hfirst
    exact ⟨(bind_eq_of_ok hbehind).trans (bind_error_of_error htake), by omega⟩

/-- Operands that are refused are refused for the first obstacle, in whatever context. -/
theorem firstObstacle_of_refused (ctx : Context) {refusal : Refusal}
    (h : takeOperands stack = .error refusal) :
    FirstObstacle (some ctx) .push stack refusal.cause refusal.taken ∧
      refusal.taken ≤ stack.length := by
  have hcases : (∃ cause taken, FirstObstacle (some ctx) .push stack cause taken) ∨
      ∀ cause, Clear (some ctx) .push stack cause := exists_firstObstacle
  obtain ⟨cause, taken, hfirst⟩ | hclear := hcases
  · -- There is a context, and the plain form rejects for no verdict.
    have hcontext : cause ≠ .noContext := by
      rintro rfl
      cases hfirst.obstacle with
      | noContext hnone => contradiction
    have hverdict : cause ≠ .verificationFailed := by
      rintro rfl
      cases hfirst.obstacle with
      | verificationFailed _ hform _ _ _ => contradiction
    obtain ⟨htake, hle⟩ := hfirst.takeOperands_eq hcontext hverdict
    rw [htake] at h
    cases h
    exact ⟨hfirst, hle⟩
  · obtain ⟨n, hn⟩ := (hclear .keyCount).exists_keyCount
    obtain ⟨m, hm⟩ := (hclear .signatureCount).exists_signatureCount hn
    have htake := takeOperands_eq_ok (hclear .fewerThanThree) (hclear .missingKeys)
      (hclear .malformedKey) (hclear .missingSignatures) (hclear .sighashType) hn hm
    rw [htake] at h
    contradiction

/-- The verdict is true exactly if the signatures, each without its sighash byte, can be assigned to
keys. -/
theorem allMatched_bodies_iff {ctx : Context} {signatures keys : List Bytes} :
    allMatched (signatures.map List.dropLast) (offers ctx (signatures.map List.dropLast) keys) =
        true ↔
      Assignable (fun signature key => ctx.Accepts signature.dropLast key) signatures keys := by
  rw [allMatched_offers_iff, Assignable.map_left_iff]

/-- The operands that are counted off a stack take up their own items, the two counts and the item
that is dropped. -/
theorem depth_take {n m : Nat} (hle : n + m + 3 ≤ stack.length) :
    MultisigOperands.depth
      ⟨(stack.drop 1).take n, ((stack.drop (n + 2)).take m).map List.dropLast⟩ = n + m + 3 := by
  unfold MultisigOperands.depth
  simp only [List.length_take, List.length_drop, List.length_map]
  omega

/-- A multisig check rejects for the first obstacle. It has asked nothing then, unless what it
rejects for is the verdict. -/
theorem FirstObstacle.stepOpcode_eq {cause : Cause} {taken : Nat}
    (h : FirstObstacle ctx? form stack cause taken) :
    taken ≤ stack.length ∧ ∃ calls, (cause ≠ .verificationFailed → calls = []) ∧
      stepOpcode ctx? (CheckKind.signatures.opcode form) stack =
        ⟨taken, calls, .error (.opcode (CheckKind.signatures.opcode form) cause)⟩ := by
  rw [CheckKind.stepOpcode_opcode, CheckKind.check]
  by_cases hcontext : cause = .noContext
  · subst hcontext
    cases h.obstacle with
    | noContext hctx =>
      subst hctx
      exact ⟨Nat.zero_le _, [], fun _ => rfl, rfl⟩
  · by_cases hverdict : cause = .verificationFailed
    · subst hverdict
      obtain ⟨hobstacle, hclear⟩ := h
      cases hobstacle with
      | @verificationFailed ctx n m hctx hform hn hm hnot =>
        subst hctx hform
        have hle := (hclear .missingSignatures (by decide)).signatures_le hn hm
        have hoperands := takeOperands_eq_ok (hclear .fewerThanThree (by decide))
          (hclear .missingKeys (by decide)) (hclear .malformedKey (by decide))
          (hclear .missingSignatures (by decide)) (hclear .sighashType (by decide)) hn hm
        rw [← allMatched_bodies_iff, Bool.not_eq_true] at hnot
        rw [checkSignatures, hoperands]
        dsimp only
        rw [hnot, depth_take hle]
        exact ⟨hle, _, fun hne => absurd rfl hne, rfl⟩
    · obtain ⟨htake, hle⟩ := h.takeOperands_eq hcontext hverdict
      have hearlier : .noContext ∈ multisigCauses.takeWhile (· ≠ cause) := by
        rw [multisigCauses, List.takeWhile_cons_of_pos (by simpa using Ne.symm hcontext)]
        exact List.mem_cons_self
      obtain ⟨ctx, rfl⟩ := (h.clear .noContext hearlier).exists_context
      rw [checkSignatures, htake]
      exact ⟨hle, [], fun _ => rfl, rfl⟩

/-- A multisig check with nothing in its way goes on. -/
theorem rejection?_eq_none_of_clear (h : ∀ cause, Clear ctx? form stack cause) :
    (stepOpcode ctx? (CheckKind.signatures.opcode form) stack).rejection? = none := by
  rw [CheckKind.stepOpcode_opcode, CheckKind.check]
  obtain ⟨ctx, rfl⟩ := (h .noContext).exists_context
  obtain ⟨n, hn⟩ := (h .keyCount).exists_keyCount
  obtain ⟨m, hm⟩ := (h .signatureCount).exists_signatureCount hn
  have hoperands := takeOperands_eq_ok (h .fewerThanThree) (h .missingKeys) (h .malformedKey)
    (h .missingSignatures) (h .sighashType) hn hm
  rw [checkSignatures, hoperands]
  cases form with
  | push => rfl
  | verify =>
    have hmatched : Assignable (fun signature key => ctx.Accepts signature.dropLast key)
        ((stack.drop (n + 2)).take m) ((stack.drop 1).take n) := by
      by_contra hnot
      exact h .verificationFailed _ (.verificationFailed rfl rfl hn hm hnot)
    rw [← allMatched_bodies_iff] at hmatched
    dsimp only
    rw [hmatched]
    rfl

end

/-- What a multisig check of either form leaves behind where it rejects. If it rejects, something was
in its way, and of what is in its way it reports what is looked for first. That fixes how many items
are off the top of the stack, and the context has been asked nothing, unless it is the verdict that
is reported. -/
theorem run_checkMultiSig_rejected (ctx? : Option Context) (form : Form) (stack : Stack) :
    let op := CheckKind.signatures.opcode form
    let r := run ctx? [.op op] stack
    (r.completed = false → ∃ cause taken, FirstObstacle ctx? form stack cause taken) ∧
    ∀ cause taken, FirstObstacle ctx? form stack cause taken →
      r.completed = false ∧ r.log = [op.mnemonic ++ " rejected: " ++ cause.message] ∧
        taken ≤ stack.length ∧ r.stack = stack.drop taken ∧
        (cause ≠ .verificationFailed → r.calls = []) := by
  intro op r
  have hrun : r = _ := run_singleton ctx? (.op op) stack
  rw [hrun, step]
  refine ⟨fun hstopped => ?_, fun cause taken hfirst => ?_⟩
  · refine exists_firstObstacle.resolve_right fun hclear => ?_
    have hgoes : (stepOpcode ctx? op stack).rejection? = none := rejection?_eq_none_of_clear hclear
    simp only [Run.completed, hgoes] at hstopped
    contradiction
  · obtain ⟨hle, calls, hcalls, hstep⟩ := hfirst.stepOpcode_eq
    rw [hstep]
    exact ⟨rfl, rfl, hle, rfl, hcalls⟩

/-- Three keys are announced on a stack that has neither so many nor any that is well formed. That
there are too few is looked for first and reported, and the number of keys is gone. Signatures in
the other order than their keys have something in their way too, in the verify form. -/
theorem run_checkMultiSig_missing_keys :
    let stack : Stack := [[3], [2], []]
    let crossed : Stack := .ofBottomFirst (MultisigLayout.twoOfThree 4 2).items
    let r := run (some .byFirstByte) [.op .checkMultiSig] stack
    FirstObstacle (some .byFirstByte) .push stack .missingKeys 1 ∧
      r.log = ["OP_CHECKMULTISIG rejected: not enough keys on stack"] ∧ r.stack = [[2], []] ∧
      r.calls = [] ∧
      ∃ cause taken, FirstObstacle (some .byFirstByte) .verify crossed cause taken := by
  intro stack crossed r
  have hannounces : Announces 3 stack[0]? 3 := ⟨rfl, by decide⟩
  have hfirst : FirstObstacle (some .byFirstByte) .push stack .missingKeys 1 := by
    refine ⟨.missingKeys hannounces (by decide), fun earlier hearlier => ?_⟩
    have hcauses : multisigCauses.takeWhile (· ≠ .missingKeys) =
        [.noContext, .fewerThanThree, .keyCount] := rfl
    rw [hcauses] at hearlier
    obtain rfl | rfl | rfl : earlier = .noContext ∨ earlier = .fewerThanThree ∨
        earlier = .keyCount := by
      simpa using hearlier
    · intro taken h
      cases h with
      | noContext hnone => contradiction
    · intro taken h
      cases h with
      | fewerThanThree hlt => exact absurd hlt (by decide)
    · intro taken h
      cases h with
      | keyCount hnone => exact hnone 3 hannounces
  obtain ⟨-, hrejected⟩ := run_checkMultiSig_rejected (some .byFirstByte) .push stack
  obtain ⟨-, hlog, -, hstack, hcalls⟩ := hrejected .missingKeys 1 hfirst
  obtain ⟨hexists, -⟩ := run_checkMultiSig_rejected (some .byFirstByte) .verify crossed
  exact ⟨hfirst, hlog, hstack, hcalls (by decide), hexists rfl⟩

end UtxoScript
