import Appraisal.Text.Hex

/-!
# Random ids

An id of 32 hexadecimal digits in five groups, made of sixteen random bytes. Six of the bits say
that it was made at random.
-/

namespace Appraisal.Random

/-- The bytes with the mark of a random id in the seventh and the ninth of them. -/
def markRandom (bytes : List UInt8) : List UInt8 :=
  bytes.mapIdx fun i byte =>
    if i = 6 then 0x40 + byte % 16 else if i = 8 then 0x80 + byte % 64 else byte

/-- Groups of the given sizes. -/
def inGroups (sizes : List Nat) (bytes : List UInt8) : List (List UInt8) :=
  match sizes with
  | [] => []
  | n :: sizes => bytes.take n :: inGroups sizes (bytes.drop n)

def uuid (bytes : List UInt8) : String :=
  String.intercalate "-" ((inGroups [4, 2, 2, 2, 6] (markRandom bytes)).map Text.hex)

end Appraisal.Random
