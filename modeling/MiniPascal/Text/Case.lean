/-!
# Letter case

Keywords, type names and member names are compared without regard to the case of ASCII letters;
all other characters are compared as they stand.
-/

namespace MiniPascal
namespace Text

/-- A text with its ASCII capitals made small. -/
def lower (text : String) : String :=
  String.ofList (text.toList.map Char.toLower)

/-- Equality of two names up to the case of ASCII letters. -/
def sameName (a b : String) : Bool :=
  lower a == lower b

theorem sameName_iff (a b : String) : sameName a b = true ↔ lower a = lower b := by
  simp [sameName]

@[simp] theorem sameName_self (a : String) : sameName a a = true := by
  simp [sameName]

theorem sameName_comm (a b : String) : sameName a b = sameName b a := by
  rw [Bool.eq_iff_iff, sameName_iff, sameName_iff]
  exact eq_comm

end Text
end MiniPascal
