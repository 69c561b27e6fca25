import Mathlib.Data.List.Forall2

/-!
# Lists read item by item

A list is read as a list if each item is read (`mapM_eq_some_iff`). Where reading stops at an item
that has no value, the item is looked for together with its position, and the first of its kind is
found (`find?_zipIdx_eq_some`).
-/

namespace UtxoScript

/-- A list is read item by item. -/
theorem mapM_eq_some_iff {α β : Type} {f : α → Option β} {l : List α} {m : List β} :
    l.mapM f = some m ↔ List.Forall₂ (fun a b => f a = some b) l m := by
  induction l generalizing m with
  | nil =>
    rw [List.mapM_nil, List.forall₂_nil_left_iff]
    exact Option.some_inj.trans eq_comm
  | cons a l ih =>
    rw [List.mapM_cons, List.forall₂_cons_left_iff, Option.bind_eq_bind, Option.bind_eq_some_iff]
    constructor
    · rintro ⟨b, hb, hrest⟩
      obtain ⟨m', hm', hm⟩ := Option.bind_eq_some_iff.1 hrest
      cases hm
      exact ⟨b, m', hb, ih.1 hm', rfl⟩
    · rintro ⟨b, m', hb, hm', rfl⟩
      refine ⟨b, hb, ?_⟩
      rw [ih.2 hm']
      rfl

section FirstWithoutValue

variable {α β : Type} {value? : α → Option β} {l : List α}

/-- No item is found where all have values. -/
theorem find?_zipIdx_eq_none_iff :
    l.zipIdx.find? (fun entry => (value? entry.1).isNone) = none ↔
      ∀ a ∈ l, (value? a).isSome := by
  rw [List.find?_eq_none]
  constructor
  · intro h a ha
    obtain ⟨i, hi⟩ := List.mem_iff_getElem?.1 ha
    have hnone := h (a, i) (List.mem_zipIdx_iff_getElem?.2 hi)
    rwa [Bool.not_eq_true, Option.isNone_eq_false_iff] at hnone
  · intro h entry hentry
    rw [Bool.not_eq_true, Option.isNone_eq_false_iff]
    exact h entry.1 (List.fst_mem_of_mem_zipIdx hentry)

/-- The item that is found with its position is the first that has no value. -/
theorem find?_zipIdx_eq_some {a : α} {position : Nat}
    (h : l.zipIdx.find? (fun entry => (value? entry.1).isNone) = some (a, position)) :
    l[position]? = some a ∧ (value? a).isNone ∧
      ∀ earlier ∈ l.take position, (value? earlier).isSome := by
  obtain ⟨hnone, i, hi, hentry, hbefore⟩ := List.find?_eq_some_iff_getElem.1 h
  rw [List.getElem_zipIdx, Nat.zero_add, Prod.mk.injEq] at hentry
  obtain ⟨rfl, rfl⟩ := hentry
  refine ⟨List.getElem?_eq_getElem _, hnone, ?_⟩
  intro earlier hearlier
  obtain ⟨j, hj, rfl⟩ := List.mem_take_iff_getElem.1 hearlier
  have hsome := hbefore j (by omega)
  rwa [List.getElem_zipIdx, Bool.not_eq_true', Option.isNone_eq_false_iff] at hsome

end FirstWithoutValue

end UtxoScript
