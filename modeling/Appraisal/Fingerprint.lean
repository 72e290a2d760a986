import Appraisal.Digest.Sha256
import Appraisal.Json.Printer
import Appraisal.Text.Hex

/-!
# Fingerprints

The fingerprint of a session hashes one line for each assumption, with its id and value, and then
one for each formula, with its id and version. Sessions with the same values and formula versions
always agree.
-/

namespace Appraisal.Fingerprint

def assumptionLine (id : String) (value : Float) : String :=
  "\x7b\"a\":" ++ Json.quoted id ++ ",\"v\":" ++ Json.amountText value ++ "\x7d\n"

def formulaLine (id version : String) : String :=
  "\x7b\"f\":" ++ Json.quoted id ++ ",\"v\":" ++ Json.quoted version ++ "\x7d\n"

/-- The text that is hashed. -/
def text (assumptions : List (String × Float)) (formulas : List (String × String)) : String :=
  String.join (assumptions.map (fun (id, value) => assumptionLine id value) ++
    formulas.map fun (id, version) => formulaLine id version)

def compute (assumptions : List (String × Float)) (formulas : List (String × String)) : String :=
  "sha256:" ++ Text.hex
    (Digest.Sha256.hash (text assumptions formulas).toUTF8.toList)

end Appraisal.Fingerprint
