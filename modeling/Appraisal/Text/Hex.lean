/-!
# Hexadecimal text
-/

namespace Appraisal.Text

/-- Two digits for each byte. -/
def hex (bytes : List UInt8) : String :=
  String.ofList (bytes.flatMap fun b =>
    [Nat.digitChar (b.toNat / 16), Nat.digitChar (b.toNat % 16)])

end Appraisal.Text
