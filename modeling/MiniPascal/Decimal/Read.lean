/-!
# Reading decimal numbers

Whole numbers are read into the signed 64-bit range, decimals into doubles.  A decimal may have a
sign, a point with digits on at least one side, and an exponent; `inf`, `infinity` and `nan` are
read in any letter case.  Reading takes time in proportion to the text, however long it is.
-/

namespace MiniPascal
namespace Decimal

def digitValue (c : Char) : Nat :=
  c.toNat - '0'.toNat

/-- The value of digits that follow the digits of `n`. -/
def foldDigits (n : Nat) (digits : List Char) : Nat :=
  digits.foldl (fun n c => 10 * n + digitValue c) n

/-- The value of a digit string. -/
def natOfDigits (digits : List Char) : Nat :=
  foldDigits 0 digits

/-- The value of digits that follow the digits of `n`, unless it passes a limit.  Reading stops
where the limit is passed. -/
def foldDigitsUpTo? (limit : Nat) : Nat → List Char → Option Nat
  | n, [] => if n ≤ limit then some n else none
  | n, c :: rest =>
      if n ≤ limit then foldDigitsUpTo? limit (10 * n + digitValue c) rest else none

/-- The value of a digit string, unless it passes a limit. -/
def natUpTo? (limit : Nat) (digits : List Char) : Option Nat :=
  foldDigitsUpTo? limit 0 digits

theorem le_foldDigits (n : Nat) (digits : List Char) : n ≤ foldDigits n digits := by
  induction digits generalizing n with
  | nil => exact Nat.le_refl n
  | cons c rest ih =>
      have hstep : n ≤ 10 * n + digitValue c := by omega
      exact Nat.le_trans hstep (ih (10 * n + digitValue c))

theorem foldDigitsUpTo?_eq (limit n : Nat) (digits : List Char) :
    foldDigitsUpTo? limit n digits =
      if foldDigits n digits ≤ limit then some (foldDigits n digits) else none := by
  induction digits generalizing n with
  | nil => rfl
  | cons c rest ih =>
      by_cases hn : n ≤ limit
      · rw [foldDigitsUpTo?, if_pos hn, ih]
        rfl
      · have hle := le_foldDigits n (c :: rest)
        have hpast : ¬ foldDigits n (c :: rest) ≤ limit := by omega
        simp [foldDigitsUpTo?, hn, hpast]

/-- Stopping early changes no answer. -/
theorem natUpTo?_eq (limit : Nat) (digits : List Char) :
    natUpTo? limit digits =
      if natOfDigits digits ≤ limit then some (natOfDigits digits) else none :=
  foldDigitsUpTo?_eq limit 0 digits

/-! ## Whole numbers -/

/-- The greatest whole number of the signed 64-bit range; the least one is the number after it
with a minus. -/
def maxInteger : Nat := 9223372036854775807

/-- Reads a whole number without a sign, given its digits. -/
def integerOfDigits? (digits : List Char) : Option Int64 :=
  (natUpTo? maxInteger digits).map Int64.ofNat

/-- A sign, true for minus, and what follows it. -/
def splitSign : List Char → Bool × List Char
  | '+' :: rest => (false, rest)
  | '-' :: rest => (true, rest)
  | text => (false, text)

/-- Whether a text is a nonempty digit string. -/
def isDigits (text : List Char) : Bool :=
  !text.isEmpty && text.all Char.isDigit

/-- Reads a whole number with an optional sign. -/
def readInteger? (text : List Char) : Option Int64 :=
  let (negative, digits) := splitSign text
  if !isDigits digits then none
  else if negative then
    (natUpTo? (maxInteger + 1) digits).map fun n => Int64.ofInt (-(n : Int))
  else integerOfDigits? digits

/-! ## Doubles -/

/-- More significant digits than a double, or the middle between two doubles, ever has. -/
def maxDigits : Nat := 800

/-- The double nearest to `n · 10 ^ exponent`. -/
def ofScientific (n : Nat) (exponent : Int) : Float :=
  Float.ofScientific n (exponent < 0) exponent.natAbs

/-- The double nearest to a number given by its digits and the power of ten that they count.
Exponents beyond every double are cut off.  Digits far behind the first one only matter by being
zero or not: a single digit one in their place rounds alike. -/
def ofDigits (digits : List Char) (exponent : Int) : Float :=
  let significant := digits.dropWhile (· == '0')
  let size : Int := significant.length + exponent
  if significant.isEmpty || size < -400 then 0.0
  else if 400 < size then 1.0 / 0.0
  else
    let kept := significant.take maxDigits
    let scale : Int := size - (kept.length : Int)
    if (significant.drop maxDigits).all (· == '0') then ofScientific (natOfDigits kept) scale
    else ofScientific (10 * natOfDigits kept + 1) (scale - 1)

/-- The double of a literal with digits before and after the point. -/
def ofParts (whole fraction : List Char) : Float :=
  ofDigits (whole ++ fraction) (-(fraction.length : Int))

/-- The size at which an exponent takes no further digits. -/
def exponentLimit : Nat := 65536

/-- The value of the digits of an exponent; those after it has reached its limit are passed over. -/
def exponentOfDigits (digits : List Char) : Nat :=
  digits.foldl (fun n c => if n < exponentLimit then 10 * n + digitValue c else n) 0

/-- An exponent, absent or `e` with a sign and digits. -/
def exponent? : List Char → Option Int
  | [] => some 0
  | c :: rest =>
      if c = 'e' || c = 'E' then
        let (negative, digits) := splitSign rest
        if isDigits digits then
          let n : Int := exponentOfDigits digits
          some (if negative then -n else n)
        else none
      else none

/-- Reads a decimal without its sign. -/
def magnitude? (text : List Char) : Option Float :=
  let name := String.ofList (text.map Char.toLower)
  if name = "inf" || name = "infinity" then some (1.0 / 0.0)
  else if name = "nan" then some (0.0 / 0.0)
  else
    let whole := text.takeWhile Char.isDigit
    let afterWhole := text.dropWhile Char.isDigit
    let (fraction, tail) :=
      match afterWhole with
      | '.' :: rest => (rest.takeWhile Char.isDigit, rest.dropWhile Char.isDigit)
      | _ => ([], afterWhole)
    if whole.isEmpty && fraction.isEmpty then none
    else (exponent? tail).map fun exponent =>
      ofDigits (whole ++ fraction) (exponent - (fraction.length : Int))

/-- Reads a decimal with an optional sign. -/
def readDouble? (text : List Char) : Option Float :=
  let (negative, rest) := splitSign text
  (magnitude? rest).map fun x => if negative then -x else x

end Decimal
end MiniPascal
