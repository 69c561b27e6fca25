import UtxoScript.Proofs.Machine.Multisig

/-!
# Only the answers count

A run learns of its context nothing but the answers to the questions that it asks. So two contexts
that answer these questions alike, whatever their digests and their verifiers make of any other
question, give the same run. The main statement is `run_eq_of_agreeOn`.

Which questions are asked depends on the answers to earlier ones: an answer decides which key is
offered next, what a check pushes, and which elements are reached. So the agreement is only asked
for on the questions of the run in the first context, and that the second run asks the same is a
part of what is shown, offer by offer (`offers_eq_of_agreeOn`) and then element by element
(`runFrom_eq_of_agreeOn`).
-/

namespace UtxoScript

/-- The other context gives the same answers to the questions of these calls. -/
def Context.AgreeOn (ctx ctx' : Context) (calls : List Call) : Prop :=
  ∀ call ∈ calls,
    ctx.verifier ctx.digest call.signature call.publicKey =
      ctx'.verifier ctx'.digest call.signature call.publicKey

namespace Context.AgreeOn

variable {ctx ctx' : Context}

/-- Agreement on some calls and on others. -/
theorem append_iff {calls later : List Call} :
    ctx.AgreeOn ctx' (calls ++ later) ↔ ctx.AgreeOn ctx' calls ∧ ctx.AgreeOn ctx' later :=
  List.forall_mem_append

/-- Contexts that agree on what one of them is asked make the same call of it. -/
theorem ask_eq {signature key : Bytes} {calls : List Call}
    (h : ctx.AgreeOn ctx' (ctx.ask signature key :: calls)) :
    ctx'.ask signature key = ctx.ask signature key := by
  have hanswer := h _ List.mem_cons_self
  unfold Context.ask at hanswer ⊢
  rw [hanswer]

end Context.AgreeOn

section

variable {ctx ctx' : Context}

/-! ## Checks -/

/-- Where the contexts agree on the offers that are made, the same offers are made in both. -/
theorem offers_eq_of_agreeOn {signatures keys : List Bytes}
    (h : ctx.AgreeOn ctx' (offers ctx signatures keys)) :
    offers ctx' signatures keys = offers ctx signatures keys := by
  induction keys generalizing signatures with
  | nil => cases signatures <;> rfl
  | cons key keys ih =>
    cases signatures with
    | nil => rfl
    | cons signature signatures =>
      rw [offers] at h ⊢
      have hask : ctx'.ask signature key = ctx.ask signature key := h.ask_eq
      -- The same answer leaves the same signatures for the keys that follow.
      have hlater := ih fun call hcall => h call (List.mem_cons_of_mem _ hcall)
      simp only [hask]
      rw [hlater, offers]

/-- Where the contexts agree on the question that a signature check asks, the checks are the
same. -/
theorem checkSignature_eq_of_agreeOn {stack : Stack}
    (h : ctx.AgreeOn ctx' (checkSignature (some ctx) stack).calls) :
    checkSignature (some ctx') stack = checkSignature (some ctx) stack := by
  match stack, h with
  | [], _ => rfl
  | [_], _ => rfl
  | key :: signature :: _, h =>
    rw [checkSignature] at h
    rw [checkSignature, checkSignature]
    cases hbody : signatureBody? signature with
    | none => rfl
    | some body =>
      rw [hbody] at h
      have hask : ctx'.ask body key = ctx.ask body key := h.ask_eq
      dsimp only
      rw [hask]

/-- Where the contexts agree on the offers of a multisig check, the checks are the same. -/
theorem checkSignatures_eq_of_agreeOn {stack : Stack}
    (h : ctx.AgreeOn ctx' (checkSignatures (some ctx) stack).calls) :
    checkSignatures (some ctx') stack = checkSignatures (some ctx) stack := by
  rw [checkSignatures] at h
  rw [checkSignatures, checkSignatures]
  -- The operands are taken without asking anything.
  cases hoperands : takeOperands stack with
  | error refusal => rfl
  | ok operands =>
    rw [hoperands] at h
    have hoffers : offers ctx' operands.signatures operands.keys =
        offers ctx operands.signatures operands.keys := offers_eq_of_agreeOn h
    dsimp only
    rw [hoffers]

/-! ## Steps and runs -/

/-- Where the contexts agree on what an opcode asks, it does the same in both. -/
theorem stepOpcode_eq_of_agreeOn {op : Opcode} {stack : Stack}
    (h : ctx.AgreeOn ctx' (stepOpcode (some ctx) op stack).calls) :
    stepOpcode (some ctx') op stack = stepOpcode (some ctx) op stack := by
  obtain rfl | rfl | ⟨check, form, hcheck, hop⟩ | hop := stepOpcode_cases op
  · rfl
  · rfl
  · rw [hop, calls_conclude] at h
    have hsame : check (some ctx') stack = check (some ctx) stack := by
      cases hcheck with
      | equal => rfl
      | signature => exact checkSignature_eq_of_agreeOn h
      | signatures => exact checkSignatures_eq_of_agreeOn h
    rw [hop, hop, hsame]
  · rw [hop, hop]

/-- Where the contexts agree on what an element asks, it does the same in both. -/
theorem step_eq_of_agreeOn {position : Nat} {element : Element} {stack : Stack}
    (h : ctx.AgreeOn ctx' (step (some ctx) position element stack).calls) :
    step (some ctx') position element stack = step (some ctx) position element stack := by
  cases element with
  | data bytes => rfl
  | number n => rfl
  | raw byte => rfl
  | op opcode => exact stepOpcode_eq_of_agreeOn h

/-- Where the contexts agree on what a part of a script asks, the runs of that part are the same. -/
theorem runFrom_eq_of_agreeOn {position : Nat} {script : Script} {stack : Stack}
    (h : ctx.AgreeOn ctx' (runFrom (some ctx) position script stack).calls) :
    runFrom (some ctx') position script stack = runFrom (some ctx) position script stack := by
  induction script generalizing position stack with
  | nil => rfl
  | cons element rest ih =>
    unfold runFrom at h ⊢
    cases hrejection : (step (some ctx) position element stack).rejection? with
    | some rejection =>
      simp only [hrejection] at h
      have hstep := step_eq_of_agreeOn h
      simp only [hstep, hrejection]
    | none =>
      simp only [hrejection] at h
      obtain ⟨hfirst, hlater⟩ := Context.AgreeOn.append_iff.1 h
      have hstep := step_eq_of_agreeOn hfirst
      -- The first element leaves the same stack in both, so that the rest starts from it in both.
      have hrest := ih hlater
      simp only [hstep, hrejection, hrest]

/-- Where the contexts agree on what a script asks, the runs of it are the same. -/
theorem run_eq_of_agreeOn_calls {script : Script} {stack : Stack}
    (h : ctx.AgreeOn ctx' (run (some ctx) script stack).calls) :
    run (some ctx') script stack = run (some ctx) script stack := by
  rw [run_eq_runFrom] at h
  rw [run_eq_runFrom, run_eq_runFrom]
  exact runFrom_eq_of_agreeOn h

/-- Where the contexts agree on what a spend asks, they judge it alike. -/
theorem spend_eq_of_agreeOn_calls {unlocking locking : Script}
    (h : ctx.AgreeOn ctx' (spend (some ctx) unlocking locking).calls) :
    spend (some ctx') unlocking locking = spend (some ctx) unlocking locking := by
  unfold spend at h ⊢
  cases hrejection : (run (some ctx) unlocking []).rejection with
  | some rejection =>
    simp only [hrejection] at h
    have hfirst := run_eq_of_agreeOn_calls h
    simp only [hfirst, hrejection]
  | none =>
    simp only [hrejection] at h
    obtain ⟨hunlocking, hlocking⟩ := Context.AgreeOn.append_iff.1 h
    have hfirst := run_eq_of_agreeOn_calls hunlocking
    have hsecond := run_eq_of_agreeOn_calls hlocking
    simp only [hfirst, hrejection, hsecond]

end

/-- A run depends on its context through the answers that it asked for and through nothing else: a
context that answers the questions of the run in the same way gives the same run, with the same
stack, calls, trace and rejection. The same holds of spends. -/
theorem run_eq_of_agreeOn (ctx ctx' : Context) :
    (∀ (script : Script) (stack : Stack),
      ctx.AgreeOn ctx' (run (some ctx) script stack).calls →
        run (some ctx') script stack = run (some ctx) script stack) ∧
    ∀ unlocking locking : Script,
      ctx.AgreeOn ctx' (spend (some ctx) unlocking locking).calls →
        spend (some ctx') unlocking locking = spend (some ctx) unlocking locking :=
  ⟨fun _ _ h => run_eq_of_agreeOn_calls h, fun _ _ h => spend_eq_of_agreeOn_calls h⟩

/-- A context that accepts signatures for one key and for no other. -/
def Context.acceptingOnly (key : Bytes) : Context where
  digest := ⟨List.replicate 32 1, rfl⟩
  verifier := fun _ _ publicKey => publicKey == key

/-- One signature and two keys of which the one that is offered first fits: whether the other key
would be accepted makes no difference to the run and to the spend. -/
theorem run_checkMultiSig_agreeOn :
    let unlocking : Script := [.data [], .data [0x01]]
    let locking : Script := [.data [1], .data (List.replicate 33 3), .data (List.replicate 33 2),
      .data [2], .op .checkMultiSig]
    let ctx' := Context.acceptingOnly (List.replicate 33 2)
    ¬ Context.permissive.AgreeOn ctx' [⟨[], List.replicate 33 3, true⟩] ∧
      Context.permissive.AgreeOn ctx' (run (some .permissive) (unlocking ++ locking) []).calls ∧
      run (some ctx') (unlocking ++ locking) [] =
        run (some .permissive) (unlocking ++ locking) [] ∧
      spend (some ctx') unlocking locking = spend (some .permissive) unlocking locking := by
  intro unlocking locking ctx'
  have hdiffer : ¬ Context.permissive.AgreeOn ctx' [⟨[], List.replicate 33 3, true⟩] := by
    intro h
    have hanswer := h _ List.mem_cons_self
    contradiction
  have hagree : Context.permissive.AgreeOn ctx' [⟨[], List.replicate 33 2, true⟩] :=
    List.forall_mem_singleton.2 rfl
  have hrun : (run (some .permissive) (unlocking ++ locking) []).calls =
      [⟨[], List.replicate 33 2, true⟩] := rfl
  have hspend : (spend (some .permissive) unlocking locking).calls =
      [⟨[], List.replicate 33 2, true⟩] := rfl
  obtain ⟨runs, spends⟩ := run_eq_of_agreeOn .permissive ctx'
  rw [← hrun] at hagree
  refine ⟨hdiffer, hagree, runs _ _ hagree, spends _ _ ?_⟩
  rw [hspend, ← hrun]
  exact hagree

end UtxoScript
