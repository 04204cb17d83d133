import MiniPascal.Decimal.Shortest

/-!
# Decimal notation of doubles

Two notations of one number: the plain one never uses an exponent and writes whole numbers
without a point; the tagged one keeps a point in whole numbers and uses an exponent outside
`10^-4 ≤ |x| < 10^16`.
-/

namespace MiniPascal
namespace Decimal

/-- The decisions that tell two notations apart. -/
structure Style where
  /-- Whole numbers end in `.0`. -/
  keepsPoint : Bool
  /-- The positions of the point, counted from the first digit, that need no exponent. -/
  positional : Int → Bool

/-- Values of the language: digits only. -/
def Style.plain : Style where
  keepsPoint := false
  positional _ := true

/-- Literals in a token or tree listing: always recognisable as doubles. -/
def Style.tagged : Style where
  keepsPoint := true
  positional point := -4 < point && point ≤ 16

def zeros (count : Nat) : String :=
  String.ofList (List.replicate count '0')

/-- Writes digits with the point after `point` of them. -/
def writePositional (style : Style) (digits : String) (point : Int) : String :=
  let count : Int := digits.length
  if point ≤ 0 then
    "0." ++ zeros (-point).toNat ++ digits
  else if count ≤ point then
    digits ++ zeros (point - count).toNat ++ (if style.keepsPoint then ".0" else "")
  else
    String.ofList (digits.toList.take point.toNat) ++ "." ++
      String.ofList (digits.toList.drop point.toNat)

/-- Writes digits with the point after the first one and an exponent. -/
def writeExponent (digits : String) (point : Int) : String :=
  let lead := String.ofList (digits.toList.take 1)
  let tail := String.ofList (digits.toList.drop 1)
  lead ++ (if tail.isEmpty then "" else "." ++ tail) ++ "e" ++ toString (point - 1)

def write (style : Style) (x : Float) : String :=
  let bits := x.toBits
  let sign := if bits.toNat / twoPow 63 = 1 then "-" else ""
  let magnitude := bits.toNat % twoPow 63
  if 2047 * twoPow 52 < magnitude then "NaN"
  else if magnitude = 2047 * twoPow 52 then sign ++ "inf"
  else if magnitude = 0 then sign ++ (if style.keepsPoint then "0.0" else "0")
  else
    let number := (Dyadic.ofBits (UInt64.ofNat magnitude)).shortest
    let digits := toString number.digits
    let point := (digits.length : Int) + number.exponent
    sign ++ (if style.positional point then writePositional style digits point
      else writeExponent digits point)

end Decimal
end MiniPascal
