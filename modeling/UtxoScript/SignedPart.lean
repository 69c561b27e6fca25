import UtxoScript.Script

/-!
# The signed part of a script

A signature covers the script from the last code separator that stands before the first signature
check, without any code separator that is left after it.
-/

namespace UtxoScript

/-- What follows the last code separator of the part of `script` before the first signature check,
or `start` where that part has none. -/
def afterSeparator (start : Script) : Script → Script
  | [] => start
  | element :: rest =>
    if element.isSignatureCheck then start
    else if element.isCodeSeparator then afterSeparator rest rest
    else afterSeparator start rest

/-- The part of a script that its signatures cover. The first signature check only bounds the search
for the separator: the part runs to the end of the script. -/
def signedPart (script : Script) : Script :=
  (afterSeparator script script).filter (fun element => !element.isCodeSeparator)

end UtxoScript
