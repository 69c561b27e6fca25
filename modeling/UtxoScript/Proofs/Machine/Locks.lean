import UtxoScript.Proofs.Machine.Multisig
import UtxoScript.Proofs.Template

/-!
# What opens a lock

Three of the templates that outputs are recognised by, and the multisig form that the machine can
run, are locks: the unlocking script may be anything, and all that counts is the stack that it
leaves. `Lock.Guards` says which scripts are locks and `Lock.Opens` which stacks open them, and
`spend_accepted_iff_opens` says that a spend of a lock is accepted exactly if the unlocking script
runs to its end and the stack that it leaves opens the lock.

Each lock ends in a check whose verdict decides the spend (`passes_concat_check`), and what stands
before it is executed symbolically, element by element, which fixes the top of the stack that the
lock starts from. A multisig lock that does not state the number of its keys takes its last key for
that number, and nothing opens it.
-/

namespace UtxoScript

/-! ## Locks -/

/-- A lock. -/
inductive Lock
  /-- A signature is asked for, with a key of the given digest. -/
  | pubKeyHash (hash : Bytes)
  /-- A signature for the key is asked for. -/
  | pubKey (key : Bytes)
  /-- An item of the given digest is asked for. -/
  | scriptHash (hash : Bytes)
  /-- A number of signatures is asked for, for some of the keys. -/
  | multisig (required : Nat) (keys : List Bytes)
  /-- As before, but the number of keys is missing. -/
  | uncounted (required : Nat) (keys : List Bytes)

namespace Lock

/-- The script is the lock. -/
def Guards (locking : Script) : Lock → Prop
  | pubKeyHash hash => Template.pubKeyHash? locking = some hash
  | pubKey key => Template.pubKey? locking = some key
  | scriptHash hash => Template.scriptHash? locking = some hash
  | multisig required keys =>
    1 ≤ required ∧ required ≤ keys.length ∧ keys.length ≤ 3 ∧
      (∀ key ∈ keys, 33 ≤ key.length ∧ key.length ≤ 65) ∧
      locking = .data [UInt8.ofNat required] :: keys.map .data ++
        [.data [UInt8.ofNat keys.length], .op .checkMultiSig]
  | uncounted required keys =>
    1 ≤ required ∧ required ≤ keys.length ∧ keys.length ≤ 3 ∧
      (∀ key ∈ keys, 33 ≤ key.length ∧ key.length ≤ 65) ∧
      locking = .data [UInt8.ofNat required] :: keys.map .data ++ [.op .checkMultiSig]

/-- The stack opens the lock. -/
def Opens (ctx? : Option Context) (stack : Stack) : Lock → Prop
  | pubKeyHash hash =>
    ∃ ctx below signature key, ctx? = some ctx ∧ stack.bottomFirst = below ++ [signature, key] ∧
      hash160 key = hash ∧ signature.getLast? = some 0x01 ∧ ctx.Accepts signature.dropLast key
  | pubKey key =>
    ∃ ctx below signature, ctx? = some ctx ∧ stack.bottomFirst = below ++ [signature] ∧
      signature.getLast? = some 0x01 ∧ ctx.Accepts signature.dropLast key
  | scriptHash hash => ∃ below item, stack.bottomFirst = below ++ [item] ∧ hash160 item = hash
  | multisig required keys =>
    ∃ ctx below dummy signatures, ctx? = some ctx ∧
      stack.bottomFirst = below ++ [dummy] ++ signatures ∧ signatures.length = required ∧
      (∀ signature ∈ signatures, signature.getLast? = some 0x01) ∧
      Assignable (fun signature key => ctx.Accepts signature.dropLast key) signatures keys
  | uncounted _ _ => False

end Lock

/-! ## Opening -/

section

variable {ctx? : Option Context} {stack : Stack}

/-- A lock to a key passes on the stacks that open it. -/
theorem passes_pubKey {key : Bytes} :
    Passes ctx? [.data key, .op .checkSig] stack ↔ (Lock.pubKey key).Opens ctx? stack := by
  refine (passes_concat_check [.data key] (checkSignature ctx?) fun _ => rfl).trans ?_
  simp only [executes_cons, executes_nil, step_data_leaves, checkSignature_judges]
  constructor
  · rintro ⟨_, below, ⟨_, rfl, rfl⟩, ctx, _, signature, hctx, hstack, hlast, haccepts⟩
    cases hstack
    exact ⟨ctx, _, signature, hctx, Stack.bottomFirst_append [signature] below, hlast,
      haccepts.symm⟩
  · rintro ⟨ctx, below, signature, hctx, hstack, hlast, haccepts⟩
    rw [Stack.bottomFirst_eq_append_iff] at hstack
    subst hstack
    exact ⟨_, _, ⟨_, rfl, rfl⟩, ctx, key, signature, hctx, rfl, hlast, haccepts.symm⟩

/-- A lock to a key digest passes on the stacks that open it. -/
theorem passes_pubKeyHash {hash : Bytes} :
    Passes ctx? [.op .dup, .op .hash160, .data hash, .op .equalVerify, .op .checkSig] stack ↔
      (Lock.pubKeyHash hash).Opens ctx? stack := by
  refine (passes_concat_check [.op .dup, .op .hash160, .data hash, .op .equalVerify]
    (checkSignature ctx?) fun _ => rfl).trans ?_
  simp only [executes_cons, executes_nil, step_dup_leaves, step_hash160_leaves, step_data_leaves,
    step_equalVerify_leaves, checkSignature_judges]
  constructor
  · rintro ⟨_, below, ⟨_, ⟨key, _, rfl, rfl⟩, _, ⟨_, _, hdup, rfl⟩, _, rfl, _, ⟨_, hequal⟩, rfl⟩,
      ctx, _, signature, hctx, rfl, hlast, haccepts⟩
    cases hdup
    cases hequal
    exact ⟨ctx, _, signature, _, hctx, Stack.bottomFirst_append [signature, _] below, rfl, hlast,
      haccepts.symm⟩
  · rintro ⟨ctx, below, signature, key, hctx, hstack, rfl, hlast, haccepts⟩
    rw [Stack.bottomFirst_eq_append_iff] at hstack
    subst hstack
    exact ⟨_, _, ⟨_, ⟨key, _, rfl, rfl⟩, _, ⟨key, _, rfl, rfl⟩, _, rfl, _, ⟨_, rfl⟩, rfl⟩,
      ctx, key, signature, hctx, rfl, hlast, haccepts.symm⟩

/-- A lock to a script digest passes on the stacks that open it. -/
theorem passes_scriptHash {hash : Bytes} :
    Passes ctx? [.op .hash160, .data hash, .op .equal] stack ↔
      (Lock.scriptHash hash).Opens ctx? stack := by
  refine (passes_concat_check [.op .hash160, .data hash] checkEqual fun _ => rfl).trans ?_
  simp only [executes_cons, executes_nil, step_hash160_leaves, step_data_leaves,
    checkEqual_judges]
  constructor
  · rintro ⟨_, below, ⟨_, ⟨item, _, rfl, rfl⟩, _, rfl, rfl⟩, _, _, hequal, hverdict⟩
    cases hequal
    exact ⟨_, item, Stack.bottomFirst_append [item] below, (eq_of_beq hverdict.symm).symm⟩
  · rintro ⟨below, item, hstack, rfl⟩
    rw [Stack.bottomFirst_eq_append_iff] at hstack
    subst hstack
    exact ⟨_, _, ⟨_, ⟨item, _, rfl, rfl⟩, _, rfl, rfl⟩, _, _, rfl, (beq_self_eq_true _).symm⟩

/-- Pushes and then a multisig check pass if the stack and the pushes have the form of a layout
whose signatures match its keys. -/
theorem passes_pushes_checkMultiSig {payloads : List Bytes} :
    Passes ctx? (payloads.map .data ++ [.op .checkMultiSig]) stack ↔
      ∃ (ctx : Context) (layout : MultisigLayout), ctx? = some ctx ∧
        stack.bottomFirst ++ payloads = layout.items ∧ layout.Matches ctx := by
  have hstack (items : List Bytes) : payloads.reverse ++ stack = Stack.ofBottomFirst items ↔
      stack.bottomFirst ++ payloads = items := by
    rw [← Stack.bottomFirst_append]
    exact Stack.bottomFirst_eq_iff.symm
  refine (passes_concat_check (payloads.map .data) (checkSignatures ctx?) fun _ => rfl).trans ?_
  simp only [executes_pushes, checkSignatures_judges, true_iff]
  constructor
  · rintro ⟨_, _, rfl, ctx, layout, hctx, hitems, hmatches, -⟩
    exact ⟨ctx, layout, hctx, (hstack _).1 hitems, hmatches⟩
  · rintro ⟨ctx, layout, hctx, hitems, hmatches⟩
    exact ⟨_, _, rfl, ctx, layout, hctx, (hstack _).2 hitems, hmatches, rfl⟩

/-- Small numbers are told apart by their bytes. -/
theorem eq_of_ofNat_eq {m n : Nat} (hm : m < 256) (hn : n < 256)
    (h : UInt8.ofNat m = UInt8.ofNat n) : m = n := by
  have hnat := congrArg UInt8.toNat h
  rwa [UInt8.toNat_ofNat', UInt8.toNat_ofNat', Nat.mod_eq_of_lt hm, Nat.mod_eq_of_lt hn] at hnat

/-- Behind the items of a stack, the counts and the keys of a lock complete a layout exactly if the
stack ends in an item and the announced number of signatures. -/
theorem eq_items_iff {items : List Bytes} {required : Nat} {keys : List Bytes}
    {layout : MultisigLayout} (hle : required ≤ keys.length) (h3 : keys.length ≤ 3) :
    items ++ ([UInt8.ofNat required] :: keys ++ [[UInt8.ofNat keys.length]]) = layout.items ↔
      layout.keys = keys ∧ layout.signatures.length = required ∧
        items = layout.below ++ [layout.dummy] ++ layout.signatures := by
  have hkeys := layout.length_keys_le
  have hsignatures := layout.length_signatures_le
  unfold MultisigLayout.items
  constructor
  · intro h
    have hsplit : items ++ ([UInt8.ofNat required] :: keys ++ [[UInt8.ofNat keys.length]]) =
        items ++ [[UInt8.ofNat required]] ++ keys ++ [[UInt8.ofNat keys.length]] := by
      simp
    rw [hsplit] at h
    -- The counts are single items, so the lists split from the end, and the first count says where.
    obtain ⟨hinit, hn⟩ := List.append_inj' h rfl
    rw [List.singleton_inj, List.singleton_inj] at hn
    obtain ⟨hinit, heq⟩ := List.append_inj' hinit (eq_of_ofNat_eq (by omega) (by omega) hn)
    obtain ⟨hitems, hm⟩ := List.append_inj' hinit rfl
    rw [List.singleton_inj, List.singleton_inj] at hm
    exact ⟨heq.symm, (eq_of_ofNat_eq (by omega) (by omega) hm).symm, hitems⟩
  · rintro ⟨rfl, rfl, rfl⟩
    simp

/-- A multisig lock passes on the stacks that open it. -/
theorem passes_multisig {required : Nat} {keys : List Bytes} (h1 : 1 ≤ required)
    (hle : required ≤ keys.length) (h3 : keys.length ≤ 3)
    (hkey : ∀ key ∈ keys, 33 ≤ key.length ∧ key.length ≤ 65) :
    Passes ctx? (.data [UInt8.ofNat required] :: keys.map .data ++
        [.data [UInt8.ofNat keys.length], .op .checkMultiSig]) stack ↔
      (Lock.multisig required keys).Opens ctx? stack := by
  have hlocking : (.data [UInt8.ofNat required] :: keys.map .data ++
      [.data [UInt8.ofNat keys.length], .op .checkMultiSig] : Script) =
        ([UInt8.ofNat required] :: keys ++ [[UInt8.ofNat keys.length]]).map .data ++
          [.op .checkMultiSig] := by
    simp
  rw [hlocking, passes_pushes_checkMultiSig]
  simp only [eq_items_iff hle h3]
  constructor
  · rintro ⟨ctx, layout, hctx, ⟨rfl, rfl, hstack⟩, hmatches⟩
    exact ⟨ctx, layout.below, layout.dummy, layout.signatures, hctx, hstack, rfl, layout.sighash,
      hmatches⟩
  · rintro ⟨ctx, below, dummy, signatures, hctx, hstack, rfl, hsighash, hassignable⟩
    let layout : MultisigLayout :=
      { below, dummy, signatures, keys, one_le := h1, length_signatures_le := hle,
        length_keys_le := h3, sighash := hsighash, length_key := hkey }
    exact ⟨ctx, layout, hctx, ⟨rfl, rfl, hstack⟩, hassignable⟩

/-- A lock that does not state the number of its keys passes on no stack: the last key stands where
that number is expected, and it is no single byte. -/
theorem not_passes_uncounted {required : Nat} {keys : List Bytes} (hne : keys ≠ [])
    (hkey : ∀ key ∈ keys, 33 ≤ key.length ∧ key.length ≤ 65) :
    ¬ Passes ctx? (.data [UInt8.ofNat required] :: keys.map .data ++ [.op .checkMultiSig])
        stack := by
  have hpushes : (.data [UInt8.ofNat required] :: keys.map .data : Script) =
      ([UInt8.ofNat required] :: keys).map .data := rfl
  rw [hpushes, passes_pushes_checkMultiSig]
  rintro ⟨_, layout, -, hstack, -⟩
  have hlast := hkey _ (List.getLast_mem hne)
  rw [← List.dropLast_concat_getLast hne, ← List.cons_append, ← List.append_assoc] at hstack
  obtain ⟨-, hcount⟩ := List.append_inj' hstack rfl
  rw [List.singleton_inj] at hcount
  rw [hcount, List.length_singleton] at hlast
  omega

end

/-- A spend of a lock is accepted exactly if the unlocking script, whatever it is, runs to its end
and leaves a stack that opens the lock. -/
theorem spend_accepted_iff_opens (ctx? : Option Context) (unlocking : Script) {locking : Script}
    {lock : Lock} (hguards : lock.Guards locking) :
    (spend ctx? unlocking locking).accepted = true ↔
      (run ctx? unlocking []).completed = true ∧
        lock.Opens ctx? (run ctx? unlocking []).stack := by
  rw [spend_accepted_iff]
  refine and_congr_right fun _ => ?_
  cases lock with
  | pubKeyHash hash =>
    rw [pubKeyHash?_eq_some hguards]
    exact passes_pubKeyHash
  | pubKey key =>
    rw [pubKey?_eq_some hguards]
    exact passes_pubKey
  | scriptHash hash =>
    rw [scriptHash?_eq_some hguards]
    exact passes_scriptHash
  | multisig required keys =>
    obtain ⟨h1, hle, h3, hkey, rfl⟩ := hguards
    exact passes_multisig h1 hle h3 hkey
  | uncounted required keys =>
    obtain ⟨h1, hle, _, hkey, rfl⟩ := hguards
    have hne : keys ≠ [] := List.ne_nil_of_length_pos (by omega)
    exact iff_of_false (not_passes_uncounted hne hkey) id

/-- A signature and a key spend an output that is locked to the digest of the key. -/
theorem spend_pubKeyHash_accepted :
    (spend (some Context.permissive) [.data [0x01], .data (List.replicate 33 2)]
      [.op .dup, .op .hash160, .data (hash160 (List.replicate 33 2)), .op .equalVerify,
        .op .checkSig]).accepted = true := by
  have hguards : (Lock.pubKeyHash (hash160 (List.replicate 33 2))).Guards
      [.op .dup, .op .hash160, .data (hash160 (List.replicate 33 2)), .op .equalVerify,
        .op .checkSig] := by
    rw [Lock.Guards, Template.pubKeyHash?, if_pos (by rw [length_hash160, hash160Length])]
  refine (spend_accepted_iff_opens _ _ hguards).2 ⟨rfl, ?_⟩
  exact ⟨Context.permissive, [], [0x01], List.replicate 33 2, rfl, rfl, rfl, rfl, rfl⟩

/-- A multisig lock has to state the number of its keys: without it a stack that would open the lock
does not help. -/
theorem spend_uncounted_not_iff_opens :
    ¬ ((spend (some Context.permissive) [.data [], .data [0x01]]
        [.data [1], .data (List.replicate 33 2), .op .checkMultiSig]).accepted = true ↔
      (run (some Context.permissive) [.data [], .data [0x01]] []).completed = true ∧
        (Lock.multisig 1 [List.replicate 33 2]).Opens (some Context.permissive)
          (run (some Context.permissive) [.data [], .data [0x01]] []).stack) := by
  intro h
  have hassignable : Assignable
      (fun signature key => Context.permissive.Accepts signature.dropLast key)
      [[0x01]] [List.replicate 33 2] :=
    .cons rfl (.nil [])
  have hopens : (Lock.multisig 1 [List.replicate 33 2]).Opens (some Context.permissive)
      (run (some Context.permissive) [.data [], .data [0x01]] []).stack :=
    ⟨Context.permissive, [], [], [[0x01]], rfl, rfl, rfl, by decide, hassignable⟩
  have haccepted := h.2 ⟨rfl, hopens⟩
  rw [spend_accepted_iff] at haccepted
  exact not_passes_uncounted (List.cons_ne_nil (List.replicate 33 2) []) (by decide) haccepted.2

end UtxoScript
