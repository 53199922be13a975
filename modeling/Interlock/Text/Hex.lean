/-!
# Hexadecimal text

Digits, whole numbers and bytes in hexadecimal notation, in lower case.
-/

namespace Interlock
namespace Hex

/-- The digit for a number below sixteen. -/
def digit (n : Nat) : Char :=
  if n < 10 then Char.ofNat (48 + n) else Char.ofNat (87 + n)

/-- The digits of a number, without leading zeros. -/
def number (n : Nat) : List Char := Nat.toDigits 16 n

/-- The two digits of a number below 256. -/
def pair (n : Nat) : List Char := [digit (n / 16), digit (n % 16)]

/-- Bytes, two digits each. -/
def bytes (bs : List UInt8) : String :=
  String.ofList (bs.flatMap fun b => pair b.toNat)

end Hex
end Interlock
