import UtxoScript.Proofs.Machine.Execution
import UtxoScript.Proofs.Machine.Matching

/-!
# The contract of the multisig checks

`MultisigLayout` is the form that a stack must have for a multisig check to come to a verdict:
bottom first, an item that is dropped unread, the signatures, their number, the keys, and their
number. `takeOperands_eq_ok_iff` says that the operands are taken from the stacks of this form and
from no others; that the verdict is whether the signatures can be assigned to keys in increasing
order is `allMatched_offers_iff`. The main statement, `checkMultiSig_contract`, puts the two
together for both forms of the opcode.

The operands are popped, so they come last first. That changes nothing about the verdict, since an
increasing assignment read backwards is one of the reversed lists (`Assignable.reverse_iff`).
-/

namespace UtxoScript

/-! ## Layouts -/

/-- What a multisig check finds on a stack from which it takes its operands. Lists are bottom
first. -/
structure MultisigLayout where
  /-- The items below the operands. -/
  below : List Bytes
  /-- The item that is dropped unread. -/
  dummy : Bytes
  /-- The signatures with their sighash bytes. -/
  signatures : List Bytes
  /-- The keys. -/
  keys : List Bytes
  /-- There is a signature. -/
  one_le : 1 ≤ signatures.length
  /-- There are no more signatures than keys. -/
  length_signatures_le : signatures.length ≤ keys.length
  /-- There are at most three keys. -/
  length_keys_le : keys.length ≤ 3
  /-- Each signature ends in the sighash byte that covers everything. -/
  sighash : ∀ signature ∈ signatures, signature.getLast? = some 0x01
  /-- Each key has a length that public keys have. -/
  length_key : ∀ key ∈ keys, 33 ≤ key.length ∧ key.length ≤ 65

namespace MultisigLayout

/-- The items of the stack, bottom first. -/
def items (layout : MultisigLayout) : List Bytes :=
  layout.below ++ [layout.dummy] ++ layout.signatures ++ [[UInt8.ofNat layout.signatures.length]] ++
    layout.keys ++ [[UInt8.ofNat layout.keys.length]]

/-- The operands, the topmost first and the signatures without their sighash bytes. -/
def operands (layout : MultisigLayout) : MultisigOperands :=
  ⟨layout.keys.reverse, (layout.signatures.map List.dropLast).reverse⟩

/-- The signatures can be assigned to keys in increasing order, each to one that the context accepts
for it once its sighash byte is gone. -/
def Matches (ctx : Context) (layout : MultisigLayout) : Prop :=
  Assignable (fun signature key => ctx.Accepts signature.dropLast key) layout.signatures layout.keys

/-- The stack, top first. -/
theorem ofBottomFirst_items (layout : MultisigLayout) :
    Stack.ofBottomFirst layout.items =
      [UInt8.ofNat layout.keys.length] :: (layout.keys.reverse ++
        ([UInt8.ofNat layout.signatures.length] :: (layout.signatures.reverse ++
          (layout.dummy :: layout.below.reverse)))) := by
  simp [Stack.ofBottomFirst, items]

end MultisigLayout

/-! ## Taking operands -/

/-- A computation that may fail gives a result if its first part gives one on which the rest does
too. -/
theorem bind_eq_ok_iff {ε α β : Type} {x : Except ε α} {f : α → Except ε β} {b : β} :
    x >>= f = .ok b ↔ ∃ a, x = .ok a ∧ f a = .ok b := by
  cases x with
  | error e =>
    refine iff_of_false (fun h => by cases h) ?_
    rintro ⟨_, h, _⟩
    cases h
  | ok a =>
    constructor
    · intro h
      exact ⟨a, rfl, h⟩
    · rintro ⟨_, h, hf⟩
      cases h
      exact hf

/-- A result that was mapped is there before. -/
theorem exists_of_map_eq_ok {ε α β : Type} {x : Except ε α} {f : α → β} {b : β}
    (h : x.map f = .ok b) : ∃ a, x = .ok a ∧ f a = b := by
  cases x with
  | error e => cases h
  | ok a =>
    cases h
    exact ⟨a, rfl, rfl⟩

/-- A depth is granted to the stacks that reach it. -/
theorem requireDepth_eq_ok_iff {depth taken : Nat} {cause : Cause} {stack : Stack} {u : Unit} :
    requireDepth depth cause taken stack = .ok u ↔ depth ≤ stack.length := by
  rw [← Stack.reaches_iff, requireDepth]
  split <;> simp_all

/-- A count is a single byte in range. -/
theorem count?_eq_some_iff {most n : Nat} (hmost : most < 256) {item : Bytes} :
    count? most item = some n ↔ item = [UInt8.ofNat n] ∧ 1 ≤ n ∧ n ≤ most := by
  constructor
  · intro h
    match item, h with
    | [b], h =>
      rw [count?] at h
      split at h
      · next hn =>
        cases h
        rw [UInt8.ofNat_toNat]
        exact ⟨rfl, hn⟩
      · contradiction
  · rintro ⟨rfl, hn⟩
    have hb : (UInt8.ofNat n).toNat = n := by
      rw [UInt8.toNat_ofNat']
      omega
    rw [count?, hb, if_pos hn]

/-- A count is taken off the top. -/
theorem takeCount_eq_ok_iff {most taken n : Nat} (hmost : most < 256) {cause : Cause}
    {stack below : Stack} :
    takeCount most cause taken stack = .ok (n, below) ↔
      stack = [UInt8.ofNat n] :: below ∧ 1 ≤ n ∧ n ≤ most := by
  cases stack with
  | nil =>
    refine iff_of_false (fun h => by cases h) ?_
    rintro ⟨h, _⟩
    contradiction
  | cons item rest =>
    rw [List.cons.injEq, and_right_comm, ← count?_eq_some_iff hmost, takeCount]
    cases count? most item with
    | none => simp
    | some k => simp

/-- Items are taken off the top, and each is read. -/
theorem takeItems_eq_ok_iff {α : Type} {read? : Bytes → Option α} {missing bad : Cause}
    {taken n : Nat} {stack below : Stack} {as : List α} :
    takeItems read? missing bad taken n stack = .ok (as, below) ↔
      ∃ items : List Bytes, stack = items ++ below ∧ as.length = n ∧
        List.Forall₂ (fun item a => read? item = some a) items as := by
  induction n generalizing taken stack as with
  | zero =>
    constructor
    · intro h
      cases h
      exact ⟨[], rfl, rfl, .nil⟩
    · rintro ⟨items, rfl, hlen, hread⟩
      rw [List.length_eq_zero_iff] at hlen
      subst hlen
      rw [List.forall₂_nil_right_iff.1 hread]
      rfl
  | succ n ih =>
    constructor
    · intro h
      match stack, h with
      | item :: rest, h =>
        rw [takeItems] at h
        split at h
        · contradiction
        · next a hread =>
          obtain ⟨⟨as', below'⟩, htake, heq⟩ := exists_of_map_eq_ok h
          cases heq
          obtain ⟨items, rfl, hlen, hall⟩ := ih.1 htake
          exact ⟨item :: items, rfl, congrArg (· + 1) hlen, .cons hread hall⟩
    · rintro ⟨items, rfl, hlen, hread⟩
      cases hread with
      | nil => contradiction
      | @cons item a items as hitem hread =>
        have htake : takeItems read? missing bad (taken + 1) n (items ++ below) =
            .ok (as, below) :=
          ih.2 ⟨items, rfl, Nat.succ.inj hlen, hread⟩
        rw [List.cons_append, takeItems, hitem, htake]
        rfl

/-- A public key is read as itself. -/
theorem publicKey?_eq_some_iff {item key : Bytes} :
    publicKey? item = some key ↔ item = key ∧ 33 ≤ key.length ∧ key.length ≤ 65 := by
  unfold publicKey? minPublicKeyLength maxPublicKeyLength
  split
  · next h =>
    rw [Option.some_inj]
    exact ⟨fun heq => ⟨heq, heq ▸ h⟩, fun hkey => hkey.1⟩
  · next h =>
    refine iff_of_false (by simp) ?_
    rintro ⟨rfl, hlen⟩
    exact h hlen

/-- Public keys are read as themselves. -/
theorem forall₂_publicKey? {items keys : List Bytes} :
    List.Forall₂ (fun item key => publicKey? item = some key) items keys ↔
      items = keys ∧ ∀ key ∈ keys, 33 ≤ key.length ∧ key.length ≤ 65 := by
  simp only [publicKey?_eq_some_iff]
  constructor
  · intro h
    induction h with
    | nil => simp
    | cons hkey _ ih => exact ⟨by rw [hkey.1, ih.1], List.forall_mem_cons.2 ⟨hkey.2, ih.2⟩⟩
  · rintro ⟨rfl, hlen⟩
    exact List.forall₂_same.2 fun key hkey => ⟨rfl, hlen key hkey⟩

/-- Signatures are read as their bodies. -/
theorem forall₂_signatureBody? {items bodies : List Bytes} :
    List.Forall₂ (fun item body => signatureBody? item = some body) items bodies ↔
      (∀ item ∈ items, item.getLast? = some 0x01) ∧ items.map List.dropLast = bodies := by
  simp only [signatureBody?_eq_some]
  rw [List.forall₂_and_left, ← List.forall₂_map_left_iff, List.forall₂_eq_eq_eq]

/-- Operands are taken only from a stack that has the form of a layout. -/
theorem exists_layout_of_takeOperands {stack : Stack} {operands : MultisigOperands}
    (h : takeOperands stack = .ok operands) :
    ∃ layout : MultisigLayout, stack = Stack.ofBottomFirst layout.items ∧
      operands = layout.operands := by
  unfold takeOperands at h
  simp only [bind_eq_ok_iff, requireDepth_eq_ok_iff, Prod.exists] at h
  obtain ⟨-, -, n, stack₁, hn, -, -, keys, stack₂, hkeys, m, stack₃, hm, -, hdepth, bodies, stack₄,
    hbodies, hoperands⟩ := h
  rw [takeCount_eq_ok_iff (by decide), maxKeys] at hn
  obtain ⟨rfl, hn1, hn3⟩ := hn
  rw [takeCount_eq_ok_iff (by omega)] at hm
  obtain ⟨rfl, hm1, hmn⟩ := hm
  obtain ⟨items, rfl, hlenKeys, hkeys⟩ := takeItems_eq_ok_iff.1 hkeys
  obtain ⟨rfl, hkey⟩ := forall₂_publicKey?.1 hkeys
  obtain ⟨signatures, rfl, hlenBodies, hbodies⟩ := takeItems_eq_ok_iff.1 hbodies
  obtain ⟨hsighash, rfl⟩ := forall₂_signatureBody?.1 hbodies
  rw [List.length_map] at hlenBodies
  -- The depth asked for behind the number of signatures leaves one item to drop.
  rw [List.length_append] at hdepth
  obtain ⟨dummy, below, rfl⟩ : ∃ dummy below, stack₄ = dummy :: below :=
    List.exists_cons_of_length_pos (by omega)
  let layout : MultisigLayout :=
    { below := below.reverse
      dummy := dummy
      signatures := signatures.reverse
      keys := items.reverse
      one_le := by rw [List.length_reverse]; omega
      length_signatures_le := by rw [List.length_reverse, List.length_reverse]; omega
      length_keys_le := by rw [List.length_reverse]; omega
      sighash := fun s hs => hsighash s (List.mem_reverse.1 hs)
      length_key := fun k hk => hkey k (List.mem_reverse.1 hk) }
  refine ⟨layout, ?_, ?_⟩
  · rw [layout.ofBottomFirst_items]
    simp [layout, hlenKeys, hlenBodies]
  · cases hoperands
    simp [layout, MultisigLayout.operands]

/-- The operands of a layout are taken from the stack that has its form. -/
theorem takeOperands_items (layout : MultisigLayout) :
    takeOperands (Stack.ofBottomFirst layout.items) = .ok layout.operands := by
  have h1 := layout.one_le
  have hle := layout.length_signatures_le
  have h3 := layout.length_keys_le
  have hkeys : List.Forall₂ (fun item key => publicKey? item = some key) layout.keys.reverse
      layout.keys.reverse :=
    forall₂_publicKey?.2 ⟨rfl, fun k hk => layout.length_key k (List.mem_reverse.1 hk)⟩
  have hbodies : List.Forall₂ (fun item body => signatureBody? item = some body)
      layout.signatures.reverse (layout.signatures.map List.dropLast).reverse :=
    forall₂_signatureBody?.2
      ⟨fun s hs => layout.sighash s (List.mem_reverse.1 hs), List.map_reverse⟩
  unfold takeOperands
  simp only [bind_eq_ok_iff, requireDepth_eq_ok_iff, Prod.exists]
  rw [MultisigLayout.ofBottomFirst_items]
  refine ⟨(), ?_, layout.keys.length, _,
    (takeCount_eq_ok_iff (by decide)).2 ⟨rfl, by omega, h3⟩, (), ?_, layout.keys.reverse, _,
    takeItems_eq_ok_iff.2 ⟨_, rfl, List.length_reverse, hkeys⟩, layout.signatures.length, _,
    (takeCount_eq_ok_iff (by omega)).2 ⟨rfl, h1, hle⟩, (), ?_,
    (layout.signatures.map List.dropLast).reverse, _,
    takeItems_eq_ok_iff.2 ⟨_, rfl, by simp, hbodies⟩, rfl⟩
  -- What is left are the three depths that are asked for.
  · simp only [List.length_cons, List.length_append, List.length_reverse]
    omega
  · simp only [List.length_cons, List.length_append, List.length_reverse]
    omega
  · simp only [List.length_cons, List.length_append, List.length_reverse]
    omega

/-- Operands are taken from the stacks that have the form of a layout, and from no others. -/
theorem takeOperands_eq_ok_iff {stack : Stack} {operands : MultisigOperands} :
    takeOperands stack = .ok operands ↔
      ∃ layout : MultisigLayout, stack = Stack.ofBottomFirst layout.items ∧
        operands = layout.operands := by
  constructor
  · exact exists_layout_of_takeOperands
  · rintro ⟨layout, rfl, rfl⟩
    exact takeOperands_items layout

/-! ## The verdict -/

/-- Below the operands of a layout lies what stood below them. -/
theorem drop_depth_operands (layout : MultisigLayout) :
    (Stack.ofBottomFirst layout.items).drop layout.operands.depth =
      Stack.ofBottomFirst layout.below := by
  rw [layout.ofBottomFirst_items]
  -- The operands that leave the stack, as one list.
  let taken : List Bytes := [UInt8.ofNat layout.keys.length] :: (layout.keys.reverse ++
    ([UInt8.ofNat layout.signatures.length] :: (layout.signatures.reverse ++ [layout.dummy])))
  have hlen : layout.operands.depth = taken.length := by
    simp [MultisigLayout.operands, MultisigOperands.depth, taken]
    omega
  have hstack : [UInt8.ofNat layout.keys.length] :: (layout.keys.reverse ++
      ([UInt8.ofNat layout.signatures.length] :: (layout.signatures.reverse ++
        (layout.dummy :: layout.below.reverse)))) = taken ++ Stack.ofBottomFirst layout.below := by
    simp [taken, Stack.ofBottomFirst]
  rw [hlen, hstack, List.drop_left]

/-- The operands of a layout are matched exactly if its signatures match its keys. -/
theorem allMatched_operands_iff {ctx : Context} {layout : MultisigLayout} :
    allMatched layout.operands.signatures
        (offers ctx layout.operands.signatures layout.operands.keys) = true ↔
      layout.Matches ctx := by
  rw [allMatched_offers_iff, MultisigLayout.operands, Assignable.reverse_iff,
    Assignable.map_left_iff, MultisigLayout.Matches]

/-- A multisig check comes to a verdict in a context, on a stack that has the form of a layout, by
offering the keys of the layout to its signatures. -/
theorem checkSignatures_eq_judged {ctx? : Option Context} {stack : Stack} {verdict : Bool}
    {calls : List Call} {operands : Nat}
    (h : checkSignatures ctx? stack = .judged verdict calls operands) :
    ∃ (ctx : Context) (layout : MultisigLayout), ctx? = some ctx ∧
      stack = Stack.ofBottomFirst layout.items ∧
      calls = offers ctx layout.operands.signatures layout.operands.keys ∧
      verdict = allMatched layout.operands.signatures calls ∧
      operands = layout.operands.depth := by
  match ctx?, h with
  | some ctx, h =>
    cases hoperands : takeOperands stack with
    | error refusal =>
      rw [checkSignatures, hoperands] at h
      contradiction
    | ok operands =>
      rw [checkSignatures, hoperands] at h
      obtain ⟨layout, rfl, rfl⟩ := takeOperands_eq_ok_iff.1 hoperands
      cases h
      exact ⟨ctx, layout, rfl, rfl, rfl, rfl, rfl⟩

/-- Several signatures are checked in a context, on the stacks that have the form of a layout. The
verdict is whether its signatures match its keys. -/
theorem checkSignatures_judges {ctx? : Option Context} {stack below : Stack} {verdict : Bool} :
    (checkSignatures ctx? stack).Judges stack verdict below ↔
      ∃ (ctx : Context) (layout : MultisigLayout), ctx? = some ctx ∧
        stack = Stack.ofBottomFirst layout.items ∧ (verdict = true ↔ layout.Matches ctx) ∧
        below = Stack.ofBottomFirst layout.below := by
  constructor
  · rintro ⟨calls, taken, h, hbelow⟩
    obtain ⟨ctx, layout, hctx, rfl, rfl, rfl, rfl⟩ := checkSignatures_eq_judged h
    exact ⟨ctx, layout, hctx, rfl, allMatched_operands_iff,
      hbelow.symm.trans (drop_depth_operands layout)⟩
  · rintro ⟨ctx, layout, rfl, rfl, hverdict, rfl⟩
    have hoperands := takeOperands_eq_ok_iff.2 ⟨layout, rfl, rfl⟩
    rw [← allMatched_operands_iff, ← Bool.eq_iff_iff] at hverdict
    have hjudged : checkSignatures (some ctx) (Stack.ofBottomFirst layout.items) =
        .judged verdict (offers ctx layout.operands.signatures layout.operands.keys)
          layout.operands.depth := by
      rw [checkSignatures, hoperands, hverdict]
    exact ⟨_, _, hjudged, drop_depth_operands layout⟩

/-- `OP_CHECKMULTISIG` replaces the operands with the verdict. -/
theorem stepOpcode_checkMultiSig_leaves {ctx? : Option Context} {stack left : Stack} :
    (stepOpcode ctx? .checkMultiSig stack).Leaves stack left ↔
      ∃ (ctx : Context) (layout : MultisigLayout) (verdict : Bool), ctx? = some ctx ∧
        stack = Stack.ofBottomFirst layout.items ∧ (verdict = true ↔ layout.Matches ctx) ∧
        left = Bytes.ofBool verdict :: Stack.ofBottomFirst layout.below := by
  rw [stepOpcode, leaves_conclude_push]
  simp only [checkSignatures_judges]
  constructor
  · rintro ⟨verdict, _, ⟨ctx, layout, hctx, hstack, hverdict, rfl⟩, rfl⟩
    exact ⟨ctx, layout, verdict, hctx, hstack, hverdict, rfl⟩
  · rintro ⟨ctx, layout, verdict, hctx, hstack, hverdict, rfl⟩
    exact ⟨verdict, _, ⟨ctx, layout, hctx, hstack, hverdict, rfl⟩, rfl⟩

/-- `OP_CHECKMULTISIGVERIFY` takes operands that match and pushes nothing. -/
theorem stepOpcode_checkMultiSigVerify_leaves {ctx? : Option Context} {stack left : Stack} :
    (stepOpcode ctx? .checkMultiSigVerify stack).Leaves stack left ↔
      ∃ (ctx : Context) (layout : MultisigLayout), ctx? = some ctx ∧
        stack = Stack.ofBottomFirst layout.items ∧ layout.Matches ctx ∧
        left = Stack.ofBottomFirst layout.below := by
  rw [stepOpcode, leaves_conclude_verify]
  simp only [checkSignatures_judges, true_iff]

/-- What the two forms of a multisig check do. The plain form goes on if there is a context and the
stack has the form of a layout, and it replaces the operands with whether the signatures match the
keys. The verify form goes on if they match as well, and it takes the operands away. -/
theorem checkMultiSig_contract (ctx? : Option Context) (stack : Stack) :
    let plain := stepOpcode ctx? .checkMultiSig stack
    let verify := stepOpcode ctx? .checkMultiSigVerify stack
    (plain.rejection? = none ↔
      ∃ (ctx : Context) (layout : MultisigLayout),
        ctx? = some ctx ∧ stack.bottomFirst = layout.items) ∧
    (verify.rejection? = none ↔
      ∃ (ctx : Context) (layout : MultisigLayout),
        ctx? = some ctx ∧ stack.bottomFirst = layout.items ∧ layout.Matches ctx) ∧
    ∀ (ctx : Context) (layout : MultisigLayout),
      ctx? = some ctx → stack.bottomFirst = layout.items →
        (layout.Matches ctx →
          (plain.onto stack).bottomFirst = layout.below ++ [[1]] ∧
          (verify.onto stack).bottomFirst = layout.below) ∧
        (¬ layout.Matches ctx → (plain.onto stack).bottomFirst = layout.below ++ [[]]) := by
  intro plain verify
  have hplain {left : Stack} : plain.Leaves stack left ↔ _ := stepOpcode_checkMultiSig_leaves
  have hverify {left : Stack} : verify.Leaves stack left ↔ _ :=
    stepOpcode_checkMultiSigVerify_leaves
  refine ⟨?_, ?_, ?_⟩
  · rw [rejection?_eq_none_iff stack]
    constructor
    · rintro ⟨left, h⟩
      obtain ⟨ctx, layout, _, hctx, hstack, -, -⟩ := hplain.1 h
      exact ⟨ctx, layout, hctx, Stack.bottomFirst_eq_iff.2 hstack⟩
    · -- Every layout has a verdict, so no more than a layout is asked for.
      rintro ⟨ctx, layout, hctx, hstack⟩
      rw [Stack.bottomFirst_eq_iff] at hstack
      exact ⟨_, hplain.2 ⟨ctx, layout, _, hctx, hstack, allMatched_operands_iff, rfl⟩⟩
  · rw [rejection?_eq_none_iff stack]
    constructor
    · rintro ⟨left, h⟩
      obtain ⟨ctx, layout, hctx, hstack, hmatches, -⟩ := hverify.1 h
      exact ⟨ctx, layout, hctx, Stack.bottomFirst_eq_iff.2 hstack, hmatches⟩
    · rintro ⟨ctx, layout, hctx, hstack, hmatches⟩
      rw [Stack.bottomFirst_eq_iff] at hstack
      exact ⟨_, hverify.2 ⟨ctx, layout, hctx, hstack, hmatches, rfl⟩⟩
  · intro ctx layout hctx hstack
    rw [Stack.bottomFirst_eq_iff] at hstack
    refine ⟨fun hmatches => ⟨?_, ?_⟩, fun hnone => ?_⟩
    · have h := hplain.2 ⟨ctx, layout, true, hctx, hstack, iff_of_true rfl hmatches, rfl⟩
      exact Stack.bottomFirst_eq_append_iff.2 h.2
    · have h := hverify.2 ⟨ctx, layout, hctx, hstack, hmatches, rfl⟩
      exact Stack.bottomFirst_eq_iff.2 h.2
    · have hfalse : false = true ↔ layout.Matches ctx := iff_of_false Bool.false_ne_true hnone
      have h := hplain.2 ⟨ctx, layout, false, hctx, hstack, hfalse, rfl⟩
      exact Stack.bottomFirst_eq_append_iff.2 h.2

/-- A context that accepts every signature for every key. -/
def Context.permissive : Context := ⟨⟨List.replicate 32 0, rfl⟩, fun _ _ _ => true⟩

/-- A context that accepts a signature for a key if both begin with the same byte. -/
def Context.byFirstByte : Context :=
  ⟨⟨List.replicate 32 0, rfl⟩, fun _ signature key => signature.head? == key.head?⟩

/-- A layout above one more item: two signatures, which begin with the given bytes, and three keys,
which begin with 2, 3 and 4. -/
def MultisigLayout.twoOfThree (first second : UInt8) : MultisigLayout where
  below := [[7]]
  dummy := []
  signatures := [[first, 0x01], [second, 0x01]]
  keys := [List.replicate 33 2, List.replicate 33 3, List.replicate 33 4]
  one_le := by simp
  length_signatures_le := by simp
  length_keys_le := by simp
  sighash := by simp
  length_key := by simp

/-- Two signatures for the first and the last of three keys leave a true item, and none in the
verify form. In the other order they do not match, and leave a false one. -/
theorem checkMultiSig_two_of_three :
    let inOrder := MultisigLayout.twoOfThree 2 4
    let crossed := MultisigLayout.twoOfThree 4 2
    let after := fun op stack => (stepOpcode (some .byFirstByte) op stack).onto stack
    inOrder.Matches .byFirstByte ∧ ¬ crossed.Matches .byFirstByte ∧
      (after .checkMultiSig (.ofBottomFirst inOrder.items)).bottomFirst = [[7], [1]] ∧
      (after .checkMultiSigVerify (.ofBottomFirst inOrder.items)).bottomFirst = [[7]] ∧
      (after .checkMultiSig (.ofBottomFirst crossed.items)).bottomFirst = [[7], []] := by
  intro inOrder crossed after
  have hitems (layout : MultisigLayout) :
      (Stack.ofBottomFirst layout.items).bottomFirst = layout.items :=
    Stack.bottomFirst_eq_iff.2 rfl
  have hmatches : inOrder.Matches .byFirstByte := allMatched_operands_iff.1 rfl
  have hnot : ¬ crossed.Matches .byFirstByte := by
    rw [← allMatched_operands_iff]
    decide
  obtain ⟨-, -, hinOrder⟩ :=
    checkMultiSig_contract (some .byFirstByte) (.ofBottomFirst inOrder.items)
  obtain ⟨-, -, hcrossed⟩ :=
    checkMultiSig_contract (some .byFirstByte) (.ofBottomFirst crossed.items)
  obtain ⟨hplain, hverify⟩ := (hinOrder .byFirstByte inOrder rfl (hitems inOrder)).1 hmatches
  exact ⟨hmatches, hnot, hplain, hverify,
    (hcrossed .byFirstByte crossed rfl (hitems crossed)).2 hnot⟩

end UtxoScript
