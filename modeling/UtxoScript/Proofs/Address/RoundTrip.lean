import UtxoScript.Address
import UtxoScript.Proofs.Address.Base58

/-!
# Addresses and their texts

Each address has one text and each text that is accepted is that of one address. The main statement
is `ofText_eq_ok_iff_toText`.

Of the checksum only its length counts: it says where the payload ends, whatever the payload is and
whatever bytes the checksum has.
-/

namespace UtxoScript.Address

/-- A checksum is four bytes long. -/
theorem length_checksum (payload : Bytes) : (checksum payload).length = checksumLength := by
  unfold checksum
  rw [List.length_take, length_sha256d]
  rfl

/-- A payload ends where its checksum begins. -/
theorem length_sub_checksumLength (payload : Bytes) :
    (payload ++ checksum payload).length - checksumLength = payload.length := by
  rw [List.length_append, length_checksum, Nat.add_sub_cancel]

/-- The text of an address is accepted. -/
theorem ofText_toText (address : Address) : ofText address.toText = .ok address := by
  have hdecode : Base58.decode address.toText =
      .ok (address.version :: address.hash ++ checksum (address.version :: address.hash)) :=
    Base58.decode_eq_ok_iff.2 rfl
  unfold ofText
  rw [hdecode]
  dsimp only
  rw [length_sub_checksumLength, List.take_left, List.drop_left]
  exact if_pos rfl

/-- A text that is accepted is that of its address. -/
theorem toText_of_ofText {text : String} {address : Address} (h : ofText text = .ok address) :
    address.toText = text := by
  unfold ofText at h
  split at h
  · contradiction
  · next bytes hdecode =>
    dsimp only at h
    split at h
    · contradiction
    · next version hash hpayload =>
      split at h
      · next hchecksum =>
        cases h
        -- The payload and the checksum that were taken apart are all of the bytes.
        calc
          toText ⟨version, hash⟩
              = Base58.encode (version :: hash ++ checksum (version :: hash)) := rfl
          _ = Base58.encode bytes := by rw [hchecksum, ← hpayload, List.take_append_drop]
          _ = text := (Base58.decode_eq_ok_iff.1 hdecode).symm
      · contradiction

/-- A text is accepted as an address exactly if it is the text of the address. So addresses that
differ have different texts, and each address has exactly one text that is accepted. -/
theorem ofText_eq_ok_iff_toText :
    (∀ (text : String) (address : Address), ofText text = .ok address ↔ address.toText = text) ∧
      Function.Injective toText ∧
      ∀ address : Address, ∃! text : String, ofText text = .ok address := by
  refine ⟨fun text address => ⟨toText_of_ofText, ?_⟩, ?_, fun address => ?_⟩
  · rintro rfl
    exact ofText_toText address
  · intro a b hab
    have ha : ofText a.toText = .ok a := ofText_toText a
    rw [hab, ofText_toText b] at ha
    exact (Except.ok.inj ha).symm
  · refine ⟨address.toText, ofText_toText address, fun text htext => ?_⟩
    exact (toText_of_ofText htext).symm

end UtxoScript.Address
