import Appraisal.Json.Token
import Appraisal.Text.Split

/-!
# Where formulas are kept

A store is named by a path, or by an address: `file:`, a path and options behind a question mark.
In an address a percent sign and two digits stand for a byte, and `#` starts a remark. The empty
path and `:memory:` name a store that lasts no longer than the run.
-/

namespace Appraisal

/-- What may be done with a stored file. -/
inductive StoreAccess where
  | readOnly
  /-- Reading and writing of a file that exists. -/
  | existing
  | full
  deriving DecidableEq, Repr

inductive StoreLocation where
  | transient
  | file (path : String) (access : StoreAccess)
  deriving DecidableEq, Repr

namespace StoreLocation

def escapedByte? (high low : Char) : Option Nat := do
  return (← Json.hexValue? high) * 16 + (← Json.hexValue? low)

/-- The bytes of a part of an address. What follows an escaped zero is ignored. -/
def bytes (cs : List Char) : List UInt8 :=
  match cs with
  | [] => []
  | '%' :: high :: low :: rest =>
    match escapedByte? high low with
    | some 0 => []
    | some byte => byte.toUInt8 :: bytes rest
    | none => '%'.toNat.toUInt8 :: bytes (high :: low :: rest)
  | c :: rest => String.utf8EncodeChar c ++ bytes rest
termination_by cs.length

/-- The text of a part of an address; as it is written if its bytes are no text. -/
def decoded (cs : List Char) : String :=
  (String.fromUTF8? (bytes cs).toByteArray).getD (String.ofList cs)

/-- The address without the name of a computer, which can only be this one. -/
def withoutHost (cs : List Char) : Except String (List Char) :=
  match cs with
  | '/' :: '/' :: rest =>
    let host := String.ofList (rest.takeWhile (· ≠ '/'))
    if host = "" ∨ host = "localhost" then .ok (rest.dropWhile (· ≠ '/'))
    else .error ("invalid uri authority: " ++ host)
  | cs => .ok cs

/-- The options behind the question mark, by name and value. -/
def options (cs : List Char) : List (String × String) :=
  ((Text.splitAtMark '&' cs).map fun part =>
    let (name, value) := Text.cutAtMark '=' part
    (decoded name, decoded value)).filter (·.1 ≠ "")

/-- The access after one more option; `none` for a store that is not kept in a file. -/
def withOption (access : Option StoreAccess) : String × String → Except String (Option StoreAccess)
  | ("mode", "ro") => .ok (some .readOnly)
  | ("mode", "rw") => .ok (some .existing)
  | ("mode", "rwc") => .ok (some .full)
  | ("mode", "memory") => .ok none
  | ("mode", value) => .error ("no such access mode: " ++ value)
  | ("cache", value) =>
    if value = "shared" ∨ value = "private" then .ok access
    else .error ("no such cache mode: " ++ value)
  | _ => .ok access

def ofPath (path : String) : Option StoreAccess → StoreLocation
  | some access => if path = "" ∨ path = ":memory:" then transient else file path access
  | none => transient

/-- The bytes before the first zero character of a name, if it has one. -/
def zeroPosition? (cs : List Char) : Option Nat :=
  (cs.findIdx? (· = '\x00')).map fun n =>
    (cs.take n).foldl (fun size c => size + c.utf8Size) 0

/-- The location that a name stands for, or what is wrong with the name. -/
def ofName (name : String) : Except String StoreLocation := do
  if let some position := zeroPosition? name.toList then
    .error s!"nul byte found in provided data at position: {position}"
  match name.toList with
  | 'f' :: 'i' :: 'l' :: 'e' :: ':' :: cs => do
    let (address, _) := Text.cutAtMark '#' (← withoutHost cs)
    let (path, query) := Text.cutAtMark '?' address
    return ofPath (decoded path) (← (options query).foldlM withOption (some .full))
  | _ => return ofPath name (some .full)

end StoreLocation

end Appraisal
