import UtxoScript.Json.Format
import UtxoScript.Machine.Session
import UtxoScript.Opcode.Name
import UtxoScript.Proofs.Address.Attribution
import UtxoScript.Proofs.Json.Format
import UtxoScript.Proofs.Machine.Answers
import UtxoScript.Proofs.Machine.Discipline
import UtxoScript.Proofs.Machine.Executable
import UtxoScript.Proofs.Machine.Forms
import UtxoScript.Proofs.Machine.Frame
import UtxoScript.Proofs.Machine.Locks
import UtxoScript.Proofs.Machine.Offers
import UtxoScript.Proofs.Machine.Pieces
import UtxoScript.Proofs.Machine.Provenance
import UtxoScript.Proofs.Machine.Refusals
import UtxoScript.Proofs.Machine.Stopping
import UtxoScript.Proofs.Opcode.Name
import UtxoScript.Proofs.Readable
import UtxoScript.Proofs.Secp256k1.Verifier
import UtxoScript.Proofs.SignedPart
import UtxoScript.Proofs.Wire.Cursor
import UtxoScript.Proofs.Wire.Hex
import UtxoScript.Proofs.Wire.Minimal
import UtxoScript.Proofs.Wire.Redeem
import UtxoScript.Secp256k1.Verifier
