import Mathlib.Data.List.Forall2
import Mathlib.Order.Fin.Basic
import UtxoScript.Machine.Multisig

/-!
# Matching signatures with keys

A multisig check offers each key once, to the first signature that is not matched yet. That finds a
match whenever there is one: `allMatched_offers_iff` says that every signature is matched exactly
if the signatures can be assigned to keys in increasing order, each to one that the context accepts
for it, whatever the verifier is.

The argument is an exchange. If a key is accepted for the signature that it is offered to, and an
assignment takes that signature to a later key, then the rest of the assignment uses later keys
still, and the signature may take the earlier key instead.
-/

namespace UtxoScript

/-- The elements of `as` can be assigned to elements of `bs` in increasing order, with `R` between
each and the one that it is assigned to. -/
def Assignable {α β : Type} (R : α → β → Prop) (as : List α) (bs : List β) : Prop :=
  ∃ f : Fin as.length → Fin bs.length, StrictMono f ∧ ∀ i, R (as.get i) (bs.get (f i))

namespace Assignable

variable {α β : Type} {R : α → β → Prop}

/-- Nothing is assigned anywhere. -/
theorem nil (bs : List β) : Assignable R [] bs :=
  ⟨fun i => i.elim0, fun i => i.elim0, fun i => i.elim0⟩

/-- An assignment into a list is one into a longer list. -/
theorem cons_right {as : List α} {bs : List β} (b : β) (h : Assignable R as bs) :
    Assignable R as (b :: bs) := by
  obtain ⟨f, hf, hR⟩ := h
  exact ⟨fun i => (f i).succ, fun i j hij => Fin.succ_lt_succ_iff.2 (hf hij), hR⟩

/-- A pair may stand in front of an assignment. -/
theorem cons {a : α} {b : β} {as : List α} {bs : List β} (hab : R a b) (h : Assignable R as bs) :
    Assignable R (a :: as) (b :: bs) := by
  obtain ⟨f, hf, hR⟩ := h
  refine ⟨Fin.cases 0 (fun i => (f i).succ), ?_, ?_⟩
  · intro i j hij
    cases j using Fin.cases with
    | zero => exact absurd hij (Fin.not_lt_zero i)
    | succ j =>
      cases i using Fin.cases with
      | zero => exact Fin.succ_pos _
      | succ i => exact Fin.succ_lt_succ_iff.2 (hf (Fin.succ_lt_succ_iff.1 hij))
  · intro i
    cases i using Fin.cases with
    | zero => exact hab
    | succ i => exact hR i

/-- The elements that some elements are assigned to form a sublist. -/
theorem iff_sublistForall₂ {as : List α} {bs : List β} :
    Assignable R as bs ↔ List.SublistForall₂ R as bs := by
  constructor
  · rintro ⟨f, hf, hR⟩
    refine List.sublistForall₂_iff.2 ⟨((List.finRange as.length).map f).map (bs[·]), ?_, ?_⟩
    · rw [List.forall₂_iff_get]
      refine ⟨by simp, fun i h₁ h₂ => ?_⟩
      have hi := hR ⟨i, h₁⟩
      simpa using hi
    · apply List.map_getElem_sublist
      exact List.Pairwise.map f (fun i j hij => hf hij) (List.pairwise_lt_finRange _)
  · intro h
    induction h with
    | nil => exact .nil _
    | cons hab _ ih => exact ih.cons hab
    | cons_right _ ih => exact ih.cons_right _

/-- What is assigned may be changed beforehand. -/
theorem map_left_iff {γ : Type} {f : γ → α} {cs : List γ} {bs : List β} :
    Assignable R (cs.map f) bs ↔ Assignable (fun c b => R (f c) b) cs bs := by
  rw [iff_sublistForall₂, List.sublistForall₂_map_left_iff, ← iff_sublistForall₂]

/-- An assignment read backwards is one of the lists read backwards. -/
theorem reverse_iff {as : List α} {bs : List β} :
    Assignable R as.reverse bs.reverse ↔ Assignable R as bs := by
  have reverse {as : List α} {bs : List β} (h : List.SublistForall₂ R as bs) :
      List.SublistForall₂ R as.reverse bs.reverse := by
    obtain ⟨cs, hR, hsub⟩ := List.sublistForall₂_iff.1 h
    exact List.sublistForall₂_iff.2
      ⟨cs.reverse, List.forall₂_reverse_iff.2 hR, List.reverse_sublist.2 hsub⟩
  rw [iff_sublistForall₂, iff_sublistForall₂]
  refine ⟨fun h => ?_, reverse⟩
  have h := reverse h
  rwa [List.reverse_reverse, List.reverse_reverse] at h

/-- An assignment may leave out its first element. -/
theorem tail {a : α} {as : List α} {bs : List β} (h : Assignable R (a :: as) bs) :
    Assignable R as bs := by
  rw [iff_sublistForall₂] at h ⊢
  obtain ⟨cs, hR, hsub⟩ := List.sublistForall₂_iff.1 h
  cases hR with
  | cons _ hR => exact List.sublistForall₂_iff.2 ⟨_, hR, (List.sublist_cons_self _ _).trans hsub⟩

/-- Where the first elements fit, they may as well be assigned to each other. -/
theorem cons_cons_iff {a : α} {b : β} {as : List α} {bs : List β} (hab : R a b) :
    Assignable R (a :: as) (b :: bs) ↔ Assignable R as bs := by
  refine ⟨fun h => ?_, fun h => h.cons hab⟩
  -- If `a` goes to a later element, what stands behind it goes behind that one.
  cases iff_sublistForall₂.1 h with
  | cons _ h => exact iff_sublistForall₂.2 h
  | cons_right h => exact (iff_sublistForall₂.2 h).tail

/-- Where the first elements do not fit, that of the second list is of no use. -/
theorem cons_cons_iff_of_not {a : α} {b : β} {as : List α} {bs : List β} (hab : ¬ R a b) :
    Assignable R (a :: as) (b :: bs) ↔ Assignable R (a :: as) bs := by
  refine ⟨fun h => ?_, fun h => h.cons_right b⟩
  cases iff_sublistForall₂.1 h with
  | cons h _ => exact absurd h hab
  | cons_right h => exact iff_sublistForall₂.2 h

end Assignable

/-- An accepted offer matches one signature. -/
theorem allMatched_cons_of_accepted {call : Call} (h : call.accepted = true) (signature : Bytes)
    (signatures : List Bytes) (calls : List Call) :
    allMatched (signature :: signatures) (call :: calls) = allMatched signatures calls := by
  unfold allMatched
  rw [List.countP_cons_of_pos h, List.length_cons]
  exact decide_eq_decide.2 Nat.add_le_add_iff_right

/-- An offer that is not accepted matches none. -/
theorem allMatched_cons_of_not_accepted {call : Call} (h : ¬ call.accepted = true)
    (signatures : List Bytes) (calls : List Call) :
    allMatched signatures (call :: calls) = allMatched signatures calls := by
  unfold allMatched
  rw [List.countP_cons_of_neg h]

/-- The context accepts the signature, which has lost its sighash byte, for the key. -/
def Context.Accepts (ctx : Context) (signature key : Bytes) : Prop :=
  ctx.verifier ctx.digest signature key = true

/-- A context that accepts a signature says so when it is asked. -/
theorem Context.Accepts.accepted {ctx : Context} {signature key : Bytes}
    (h : ctx.Accepts signature key) : (ctx.ask signature key).accepted = true := h

/-- A context that does not accept a signature says no. -/
theorem Context.not_accepted {ctx : Context} {signature key : Bytes}
    (h : ¬ ctx.Accepts signature key) : ¬ (ctx.ask signature key).accepted = true := h

/-- Without signatures nothing is offered. -/
theorem offers_nil (ctx : Context) (keys : List Bytes) : offers ctx [] keys = [] := by
  rw [offers]

/-- A key that is accepted goes with the signature that it was offered to. -/
theorem offers_of_accepts {ctx : Context} {signature key : Bytes} (h : ctx.Accepts signature key)
    (signatures keys : List Bytes) :
    offers ctx (signature :: signatures) (key :: keys) =
      ctx.ask signature key :: offers ctx signatures keys := by
  rw [offers]
  exact congrArg (ctx.ask signature key :: offers ctx · keys) (if_pos h)

/-- A key that is not accepted goes alone. -/
theorem offers_of_not_accepts {ctx : Context} {signature key : Bytes}
    (h : ¬ ctx.Accepts signature key) (signatures keys : List Bytes) :
    offers ctx (signature :: signatures) (key :: keys) =
      ctx.ask signature key :: offers ctx (signature :: signatures) keys := by
  rw [offers]
  exact congrArg (ctx.ask signature key :: offers ctx · keys) (if_neg h)

/-- What is true of all signatures when the keys run out, and of all keys when the signatures do, is
true throughout if each offer passes it on. The keys become fewer with each offer, the signatures
only with those that are accepted. -/
theorem offers_induction (ctx : Context) {motive : List Bytes → List Bytes → Prop}
    (noSignatures : ∀ keys, motive [] keys)
    (noKeys : ∀ signature signatures, motive (signature :: signatures) [])
    (accepted : ∀ signature signatures key keys, ctx.Accepts signature key →
      motive signatures keys → motive (signature :: signatures) (key :: keys))
    (refused : ∀ signature signatures key keys, ¬ ctx.Accepts signature key →
      motive (signature :: signatures) keys → motive (signature :: signatures) (key :: keys))
    (signatures keys : List Bytes) : motive signatures keys := by
  induction keys generalizing signatures with
  | nil =>
    cases signatures with
    | nil => exact noSignatures []
    | cons signature signatures => exact noKeys signature signatures
  | cons key keys ih =>
    cases signatures with
    | nil => exact noSignatures (key :: keys)
    | cons signature signatures =>
      by_cases h : ctx.Accepts signature key
      · exact accepted signature signatures key keys h (ih signatures)
      · exact refused signature signatures key keys h (ih (signature :: signatures))

/-- Offering each key once matches every signature exactly if the signatures can be assigned to keys
in increasing order, each to one that it is accepted with. -/
theorem allMatched_offers_iff (ctx : Context) (signatures keys : List Bytes) :
    allMatched signatures (offers ctx signatures keys) = true ↔
      Assignable ctx.Accepts signatures keys := by
  induction signatures, keys using offers_induction ctx with
  | noSignatures keys => exact iff_of_true (by simp [allMatched]) (.nil keys)
  | noKeys signature signatures =>
    refine iff_of_false (by simp [offers, allMatched]) ?_
    rintro ⟨f, -⟩
    exact (f ⟨0, Nat.zero_lt_succ _⟩).elim0
  | accepted signature signatures key keys h ih =>
    rw [offers_of_accepts h, allMatched_cons_of_accepted h.accepted, Assignable.cons_cons_iff h, ih]
  | refused signature signatures key keys h ih =>
    rw [offers_of_not_accepts h, allMatched_cons_of_not_accepted (Context.not_accepted h),
      Assignable.cons_cons_iff_of_not h, ih]

end UtxoScript
