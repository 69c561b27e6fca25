import UtxoScript.Bytes

/-!
# UTF-8

Texts that spell bytes are judged by their own bytes in UTF-8, so that a character beyond ASCII
counts as several.
-/

namespace UtxoScript.Text

/-- The UTF-8 bytes of a text. -/
def utf8 (text : String) : Bytes := text.toList.flatMap String.utf8EncodeChar

end UtxoScript.Text
