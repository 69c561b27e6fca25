import UtxoScript.Proofs.Template

/-!
# No script fits two templates

The six templates that are recognised by the elements of a script alone have no script in common
(`Kind.eq_of_fits`). The first two elements decide: `Kind.ofFront?` reads off them the only template
that the script can still fit, whatever its length and whatever it holds.

So a recogniser that matches is the only one that does, and it makes no difference in which order
they are tried. `OutputType.ofScript` tries four of them. `OutputType.firstOf` tries them in any
given order and comes to the same kind of output (`OutputType.firstOf_eq_ofScript`).
-/

namespace UtxoScript

namespace Template

/-- The templates that are recognised by the elements of a script alone. -/
inductive Kind
  | pubKeyHash | pubKey | pubKeyHashSpend | scriptHash | multisig | nullData
  deriving DecidableEq, Repr

namespace Kind

/-- Whether the recogniser of the template matches. -/
def fits : Kind → Script → Bool
  | pubKeyHash, script => (pubKeyHash? script).isSome
  | pubKey, script => (pubKey? script).isSome
  | pubKeyHashSpend, script => (pubKeyHashSpend? script).isSome
  | scriptHash, script => (scriptHash? script).isSome
  | multisig, script => (Multisig.ofScript? script).isSome
  | nullData, script => (nullData? script).isSome

/-- The only template that a script with these first two elements can fit. -/
def ofFront? : Script → Option Kind
  | .op .dup :: _ => some pubKeyHash
  | .op .hash160 :: _ => some scriptHash
  | .op .opReturn :: _ => some nullData
  | .number _ :: _ => some multisig
  | .data _ :: .op _ :: _ => some pubKey
  | .data _ :: .data _ :: _ => some pubKeyHashSpend
  | _ => none

/-- A template that a script fits is the one that its first two elements leave. -/
theorem ofFront?_of_fits {kind : Kind} {script : Script} (h : kind.fits script = true) :
    ofFront? script = some kind := by
  cases kind with
  | pubKeyHash =>
    obtain ⟨hash, hscript⟩ := Option.isSome_iff_exists.1 h
    rw [pubKeyHash?_eq_some hscript, ofFront?]
  | pubKey =>
    obtain ⟨key, hscript⟩ := Option.isSome_iff_exists.1 h
    rw [pubKey?_eq_some hscript, ofFront?]
  | pubKeyHashSpend =>
    obtain ⟨⟨signature, key⟩, hscript⟩ := Option.isSome_iff_exists.1 h
    rw [pubKeyHashSpend?_eq_some hscript, ofFront?]
  | scriptHash =>
    obtain ⟨hash, hscript⟩ := Option.isSome_iff_exists.1 h
    rw [scriptHash?_eq_some hscript, ofFront?]
  | multisig =>
    obtain ⟨lock, hscript⟩ := Option.isSome_iff_exists.1 h
    rw [multisig_ofScript?_eq_some hscript, Multisig.script, List.cons_append, ofFront?]
  | nullData =>
    obtain ⟨payload, hscript⟩ := Option.isSome_iff_exists.1 h
    rw [(nullData?_eq_some_iff.1 hscript).1, ofFront?]

/-- A script fits no more than one template. -/
theorem eq_of_fits {a b : Kind} {script : Script} (ha : a.fits script = true)
    (hb : b.fits script = true) : a = b := by
  have hfront := ofFront?_of_fits ha
  rw [ofFront?_of_fits hb] at hfront
  exact (Option.some.inj hfront).symm

end Kind

end Template

namespace OutputType

open Template (Kind)

/-- The templates by which the kinds of outputs are told, in the order in which they are tried. -/
def templates : List (Kind × OutputType) :=
  [(.pubKeyHash, .pubKeyHash), (.pubKey, .pubKey), (.scriptHash, .scriptHash),
   (.nullData, .nullData)]

/-- The kind of an output script by the first template that it fits, in the given order. -/
def firstOf (order : List (Kind × OutputType)) (script : Script) : OutputType :=
  match order.find? (·.1.fits script) with
  | some (_, type) => type
  | none => .unrecognized

section

variable {order : List (Kind × OutputType)} {script : Script}

/-- The kind of an output script is told by the templates. -/
theorem firstOf_templates (script : Script) : firstOf templates script = ofScript script := by
  unfold ofScript firstOf templates
  simp only [List.find?_cons, Kind.fits, List.find?_nil]
  cases (Template.pubKeyHash? script).isSome with
  | true => rfl
  | false =>
    cases (Template.pubKey? script).isSome with
    | true => rfl
    | false =>
      cases (Template.scriptHash? script).isSome with
      | true => rfl
      | false => cases (Template.nullData? script).isSome <;> rfl

/-- The entry that is found is the one whose template the script fits, wherever it stands. -/
theorem find?_fits_eq_some_iff (horder : order.Perm templates) {entry : Kind × OutputType} :
    order.find? (·.1.fits script) = some entry ↔
      entry ∈ templates ∧ entry.1.fits script = true := by
  constructor
  · intro h
    have hfits := List.find?_some h
    exact ⟨horder.mem_iff.1 (List.mem_of_find?_eq_some h), hfits⟩
  · rintro ⟨hmem, hfits⟩
    have hsome : (order.find? (·.1.fits script)).isSome :=
      List.find?_isSome.2 ⟨entry, horder.mem_iff.2 hmem, hfits⟩
    obtain ⟨found, hfound⟩ := Option.isSome_iff_exists.1 hsome
    have hfoundMem := horder.mem_iff.1 (List.mem_of_find?_eq_some hfound)
    have hfoundFits := List.find?_some hfound
    -- The entries are told apart by their templates, and the script fits only one of those.
    have hkind : found.1 = entry.1 := Kind.eq_of_fits hfoundFits hfits
    have hinj : ∀ a ∈ templates, ∀ b ∈ templates, a.1 = b.1 → a = b := by decide
    rw [hfound, hinj found hfoundMem entry hmem hkind]

/-- The kind of an output script does not depend on the order in which the templates are tried. -/
theorem firstOf_eq_ofScript (horder : order.Perm templates) (script : Script) :
    firstOf order script = ofScript script := by
  have hfind : order.find? (·.1.fits script) = templates.find? (·.1.fits script) := by
    apply Option.ext
    intro entry
    rw [find?_fits_eq_some_iff horder, find?_fits_eq_some_iff (List.Perm.refl templates)]
  rw [← firstOf_templates, firstOf, firstOf, hfind]

/-- A kind that a template tells is that of exactly the scripts that fit the template. -/
theorem ofScript_eq_iff {kind : Kind} {type : OutputType} (hmem : (kind, type) ∈ templates) :
    ofScript script = type ↔ kind.fits script = true := by
  rw [← firstOf_templates, firstOf]
  constructor
  · intro h
    split at h
    · next found type' hfound =>
      subst h
      obtain ⟨hfoundMem, hfits⟩ := (find?_fits_eq_some_iff (List.Perm.refl templates)).1 hfound
      have hinj : ∀ a ∈ templates, ∀ b ∈ templates, a.2 = b.2 → a = b := by decide
      have hsame := hinj _ hfoundMem _ hmem rfl
      cases hsame
      exact hfits
    · subst h
      have hother : ∀ entry ∈ templates, entry.2 ≠ .unrecognized := by decide
      exact absurd rfl (hother _ hmem)
  · intro h
    rw [(find?_fits_eq_some_iff (List.Perm.refl templates)).2 ⟨hmem, h⟩]

/-- No output is told to be a multisig lock. -/
theorem ofScript_ne_multisig (script : Script) : ofScript script ≠ .multisig := by
  have hother : ∀ entry ∈ templates, entry.2 ≠ .multisig := by decide
  rw [← firstOf_templates, firstOf]
  split
  · next found type hfound => exact hother _ (List.mem_of_find?_eq_some hfound)
  · decide

end

end OutputType

end UtxoScript
