import UtxoScript.Proofs.Wire.RoundTrip
import UtxoScript.SignedPart

/-!
# What signatures cover

`signedPart` looks for the last code separator before the first signature check. The main statement,
`signedPart_laws`, says what it finds in terms of the script alone: what stands before a separator
does not matter, so long as no check does, and where no separator stands before the first check,
nothing is lost but the separators. Every script is one or the other, so the two determine the
signed part.
-/

namespace UtxoScript

namespace Element

/-- The code separator is one opcode. -/
theorem isCodeSeparator_eq_false_iff {element : Element} :
    element.isCodeSeparator = false ↔ element ≠ .op .codeSeparator := by
  rw [isCodeSeparator, beq_eq_false_iff_ne]

end Element

/-! ## The search for the separator -/

/-- What stands before a separator does not matter if no check does. -/
theorem afterSeparator_append_separator {front : Script}
    (h : ∀ element ∈ front, element.isSignatureCheck = false) (start rest : Script) :
    afterSeparator start (front ++ .op .codeSeparator :: rest) = afterSeparator rest rest := by
  -- Whichever separator was the last one so far is forgotten at the one behind `front`.
  induction front generalizing start with
  | nil => rfl
  | cons element front ih =>
    rw [List.forall_mem_cons] at h
    rw [List.cons_append, afterSeparator, h.1, if_neg Bool.false_ne_true]
    split
    · exact ih h.2 _
    · exact ih h.2 start

/-- Without a separator before the first check the search finds nothing. -/
theorem afterSeparator_eq_start {script : Script}
    (h : ∀ element ∈ script.takeWhile (fun element => !element.isSignatureCheck),
      element ≠ .op .codeSeparator) (start : Script) :
    afterSeparator start script = start := by
  induction script with
  | nil => rfl
  | cons element rest ih =>
    cases hcheck : element.isSignatureCheck with
    | true => rw [afterSeparator, if_pos hcheck]
    | false =>
      rw [List.takeWhile_cons_of_pos (by rw [hcheck]; rfl), List.forall_mem_cons] at h
      rw [afterSeparator, hcheck, Element.isCodeSeparator_eq_false_iff.2 h.1,
        if_neg Bool.false_ne_true, if_neg Bool.false_ne_true]
      exact ih h.2

/-- What is found is an end of the script. -/
theorem afterSeparator_suffix {start script : Script} (h : script <:+ start) :
    afterSeparator start script <:+ start := by
  induction script generalizing start with
  | nil => exact List.suffix_rfl
  | cons element rest ih =>
    have hrest : rest <:+ start := (List.suffix_cons element rest).trans h
    rw [afterSeparator]
    split
    · exact List.suffix_rfl
    · split
      · exact (ih List.suffix_rfl).trans hrest
      · exact ih hrest

/-- What begins with the first check is an end of what is found. -/
theorem dropWhile_suffix_afterSeparator {start script : Script} (h : script <:+ start) :
    script.dropWhile (fun element => !element.isSignatureCheck) <:+
      afterSeparator start script := by
  induction script generalizing start with
  | nil => exact List.nil_suffix
  | cons element rest ih =>
    cases hcheck : element.isSignatureCheck with
    | true =>
      rw [List.dropWhile_cons_of_neg (by rw [hcheck]; exact Bool.false_ne_true), afterSeparator,
        if_pos hcheck]
      exact h
    | false =>
      rw [List.dropWhile_cons_of_pos (by rw [hcheck]; rfl), afterSeparator, hcheck,
        if_neg Bool.false_ne_true]
      split
      · exact ih List.suffix_rfl
      · exact ih ((List.suffix_cons element rest).trans h)

/-! ## The signed part -/

/-- The signed part is an end of the script without its separators. -/
theorem signedPart_eq (script : Script) :
    signedPart script =
      (afterSeparator script script).filter (fun element => element ≠ .op .codeSeparator) := by
  refine List.filter_congr fun element _ => ?_
  by_cases h : element = .op .codeSeparator
  · simp [h, Element.isCodeSeparator]
  · simp [h, Element.isCodeSeparator_eq_false_iff.2 h]

/-- No separator is left in the signed part. -/
theorem codeSeparator_notMem_signedPart (script : Script) :
    .op .codeSeparator ∉ signedPart script := by
  rw [signedPart_eq]
  simp

/-- Where no separator stands before the first check, the signed part is the script without its
separators. -/
theorem signedPart_eq_filter {script : Script}
    (h : ∀ element ∈ script.takeWhile (fun element => !element.isSignatureCheck),
      element ≠ .op .codeSeparator) :
    signedPart script = script.filter (fun element => element ≠ .op .codeSeparator) := by
  rw [signedPart_eq, afterSeparator_eq_start h]

/-- The signed part of a script without separators is the script. -/
theorem signedPart_eq_self {script : Script} (h : .op .codeSeparator ∉ script) :
    signedPart script = script := by
  have hne : ∀ element ∈ script, element ≠ .op .codeSeparator :=
    fun element helement heq => h (heq ▸ helement)
  -- There is no separator before the first check, and none to take out.
  rw [signedPart_eq_filter fun element helement => hne element (List.takeWhile_subset _ helement)]
  exact List.filter_eq_self.2 fun element helement => decide_eq_true (hne element helement)

/-- The signed part of a canonical script is canonical. -/
theorem canonical_of_mem_signedPart {script : Script}
    (h : ∀ element ∈ script, element.Canonical) :
    ∀ element ∈ signedPart script, element.Canonical := by
  intro element helement
  have hfound : element ∈ afterSeparator script script := (List.mem_filter.1 helement).1
  exact h element ((afterSeparator_suffix List.suffix_rfl).subset hfound)

/-- **The signed part.** What stands before a separator does not matter so long as it holds no
check. Where no separator stands before the first check, or none anywhere, only the separators are
taken out. So the signed part is its own signed part, it holds no separator, and it ends in all else
that the script has from its first check on; and that of a script that reading can give is read back
from its wire form. -/
theorem signedPart_laws :
    (∀ front rest : Script, (∀ element ∈ front, element.isSignatureCheck = false) →
      signedPart (front ++ .op .codeSeparator :: rest) = signedPart rest) ∧
    (∀ script : Script,
      (∃ front check rest, script = front ++ check :: rest ∧ check.isSignatureCheck = true ∧
          ∀ element ∈ front,
            element.isSignatureCheck = false ∧ element ≠ .op .codeSeparator) ∨
        .op .codeSeparator ∉ script →
      signedPart script = script.filter (fun element => element ≠ .op .codeSeparator)) ∧
    ∀ script : Script,
      signedPart (signedPart script) = signedPart script ∧
      .op .codeSeparator ∉ signedPart script ∧
      (script.dropWhile (fun element => !element.isSignatureCheck)).filter
          (fun element => element ≠ .op .codeSeparator) <:+ signedPart script ∧
      ((∃ bytes, (Wire.decode bytes).script = script) →
        (Wire.decode (Wire.encode (signedPart script))).script = signedPart script) := by
  refine ⟨fun front rest hfront => ?_, fun script hscript => ?_, fun script => ⟨?_, ?_, ?_, ?_⟩⟩
  · rw [signedPart, afterSeparator_append_separator hfront]
    rfl
  · rcases hscript with ⟨front, check, rest, rfl, hcheck, hfront⟩ | hnone
    · refine signedPart_eq_filter ?_
      -- What stands before the first check is `front`.
      have hpass : ∀ element ∈ front, (!element.isSignatureCheck) = true := by
        intro element helement
        rw [(hfront element helement).1]
        rfl
      rw [List.takeWhile_append_of_pos hpass,
        List.takeWhile_cons_of_neg (by rw [hcheck]; exact Bool.false_ne_true), List.append_nil]
      exact fun element helement => (hfront element helement).2
    · refine signedPart_eq_filter fun element helement heq => hnone ?_
      exact heq ▸ List.takeWhile_subset _ helement
  · exact signedPart_eq_self (codeSeparator_notMem_signedPart script)
  · exact codeSeparator_notMem_signedPart script
  · rw [signedPart_eq]
    exact (dropWhile_suffix_afterSeparator List.suffix_rfl).filter _
  · rintro ⟨bytes, rfl⟩
    exact Wire.script_decode_encode
      (canonical_of_mem_signedPart (Wire.canonical_of_mem_decode bytes))

/-- Separators before, between and behind the pushes and the check: the second one counts, and the
third is taken out. What is left holds none, is its own signed part, and is read back. -/
theorem signedPart_between_separators :
    let separator : Element := .op .codeSeparator
    let script : Script := [.data [1], separator, .data [2]] ++
      separator :: [.data [3], .op .checkSig, separator, .data [4]]
    let signed : Script := [.data [3], .op .checkSig, .data [4]]
    signedPart script = signed ∧ signedPart signed = signed ∧
      (Wire.decode (Wire.encode signed)).script = signed := by
  intro separator script signed
  obtain ⟨before, without, always⟩ := signedPart_laws
  have hfront : ∀ element ∈ [.data [1], separator, .data [2]],
      element.isSignatureCheck = false := by decide
  have hcheck : ∀ element ∈ [Element.data [3]],
      element.isSignatureCheck = false ∧ element ≠ .op .codeSeparator := by decide
  have hnone : .op .codeSeparator ∉ signed := by decide
  have hsource : (Wire.decode [0x01, 0x01, 0xab, 0x01, 0x02, 0xab, 0x01, 0x03, 0xac, 0xab, 0x01,
      0x04]).script = script := by cbv
  have hsigned : signedPart script = signed := by
    rw [before _ _ hfront, without [.data [3], .op .checkSig, separator, .data [4]]
      (.inl ⟨[.data [3]], .op .checkSig, [separator, .data [4]], rfl, rfl, hcheck⟩)]
    rfl
  obtain ⟨-, -, -, hread⟩ := always script
  refine ⟨hsigned, without signed (.inr hnone), ?_⟩
  rw [← hsigned]
  exact hread ⟨_, hsource⟩

end UtxoScript
