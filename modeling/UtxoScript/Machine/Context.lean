import UtxoScript.Digest
import UtxoScript.Text.Hex

/-!
# Verification contexts

The machine does not check signatures itself. It asks a context, which holds the digest that was
signed and a rule for judging signatures over it. Every question is recorded with its answer.
-/

namespace UtxoScript

/-- A rule that judges whether a signature over a digest was made with the key of a public key. -/
abbrev Verifier := (digest : Digest) → (signature publicKey : Bytes) → Bool

/-- What signatures are checked against. -/
structure Context where
  /-- The digest that was signed. -/
  digest : Digest
  /-- The rule that judges signatures. -/
  verifier : Verifier

/-- A question to a context, with its answer. -/
structure Call where
  /-- The signature, without its sighash byte. -/
  signature : Bytes
  /-- The public key. -/
  publicKey : Bytes
  /-- Whether the context accepted the signature. -/
  accepted : Bool
  deriving DecidableEq, Repr

namespace Context

/-- Asks a context about a signature and a public key. -/
def ask (ctx : Context) (signature publicKey : Bytes) : Call :=
  ⟨signature, publicKey, ctx.verifier ctx.digest signature publicKey⟩

/-- A context as diagnostics show it: its digest, and dots for the rule. -/
def inspect (ctx : Context) : String :=
  "VerificationContext \x7b digest: \"" ++ Text.Hex.encode ctx.digest.bytes ++ "\", .. \x7d"

/-- A context that may be missing, as diagnostics show it. -/
def inspect? : Option Context → String
  | none => "None"
  | some ctx => "Some(" ++ ctx.inspect ++ ")"

end Context

end UtxoScript
