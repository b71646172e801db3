import Paddock.Hex

/-!
Percent-encoding: bytes written as a percent sign and two hexadecimal digits in upper case.
-/
namespace Paddock.Text

def percentByte (byte : UInt8) : List Char :=
  '%' :: (Hex.encodeByte byte).map Char.toUpper

/-- Neither a control character nor beyond ASCII. -/
def isPrintableAscii (c : Char) : Bool := 0x20 ≤ c.toNat && c.toNat < 0x7F

/-- Encodes the characters listed, and all that are not printable ASCII. -/
def percentEncode (listed text : List Char) : List Char :=
  text.flatMap fun c =>
    if isPrintableAscii c && !listed.contains c then [c]
    else (String.utf8EncodeChar c).flatMap percentByte

/-- The bytes of a text. A percent sign without two digits behind it stands for itself. -/
def percentDecode : List UInt8 → List UInt8
  | [] => []
  | [first] => [first]
  | [first, second] => [first, second]
  | first :: high :: low :: rest =>
    match Hex.digitValue? high, Hex.digitValue? low with
    | some h, some l =>
      if first = 37 then (h * 16 + l) :: percentDecode rest
      else first :: percentDecode (high :: low :: rest)
    | _, _ => first :: percentDecode (high :: low :: rest)

end Paddock.Text
