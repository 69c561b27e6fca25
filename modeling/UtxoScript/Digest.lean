import UtxoScript.Digest.Ripemd160
import UtxoScript.Digest.Sha256

/-!
# Digests of the ledger

Keys and scripts are named by a digest of 20 bytes, signatures and addresses commit to one of 32.
-/

namespace UtxoScript

/-- The digest by which addresses and templates name a key or a script: RIPEMD-160 of SHA-256. -/
def hash160 (bytes : Bytes) : Bytes := Ripemd160.hash (Sha256.hash bytes)

/-- The digest behind checksums: SHA-256 applied twice. -/
def sha256d (bytes : Bytes) : Bytes := Sha256.hash (Sha256.hash bytes)

@[simp] theorem length_hash160 (bytes : Bytes) : (hash160 bytes).length = 20 :=
  Ripemd160.length_hash _

@[simp] theorem length_sha256d (bytes : Bytes) : (sha256d bytes).length = 32 :=
  Sha256.length_hash _

/-- The digest that a signature commits to, 32 bytes. -/
structure Digest where
  /-- The bytes, most significant first. -/
  bytes : Bytes
  /-- There are 32 of them. -/
  length_bytes : bytes.length = 32

/-- The digest of these bytes, if there are 32. -/
def Digest.ofBytes? (bytes : Bytes) : Option Digest :=
  if h : bytes.length = 32 then some ⟨bytes, h⟩ else none

end UtxoScript
