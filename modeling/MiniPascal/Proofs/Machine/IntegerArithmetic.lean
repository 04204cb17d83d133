import Mathlib.Algebra.Group.Int.Defs
import Mathlib.Algebra.Group.Nat.Defs
import MiniPascal.Machine.Eval
import MiniPascal.Proofs.Sequence

/-!
# Integer arithmetic

Sums, differences, products and opposites of integers are the exact ones, reduced to 64 bits with a
sign.  A quotient is cut off toward zero; there is none by zero, and the only one that is reduced
is that of the least integer by minus one.  Characters count as their code points, which are so
small that nothing is reduced.
-/

namespace MiniPascal

/-! ## Words -/

theorem bmod_word_of_fits {n : Int} (hlow : -2 ^ 63 ≤ n) (hhigh : n < 2 ^ 63) :
    n.bmod (2 ^ 64) = n :=
  Int.bmod_eq_of_le (by omega) (by omega)

/-- Every quotient of words fits, but that of the least one by minus one. -/
theorem tdiv_bmod_word_iff (a b : Int64) :
    (a.toInt.tdiv b.toInt).bmod (2 ^ 64) = a.toInt.tdiv b.toInt ↔ ¬(a = .minValue ∧ b = -1) := by
  constructor
  · rintro h ⟨rfl, rfl⟩
    exact absurd h (by decide)
  · intro h
    rw [← Int64.toInt_div]
    by_cases ha : a = .minValue
    · exact Int64.toInt_div_of_ne_right a b fun hb => h ⟨ha, hb⟩
    · exact Int64.toInt_div_of_ne_left a b ha

namespace Value

theorem toNat_char_lt (c : Char) : c.toNat < 2 ^ 21 := by
  have hvalid : c.toNat.isValidChar := c.valid
  unfold Nat.isValidChar at hvalid
  omega

theorem toInt_codePoint (c : Char) : (codePoint c).toInt = c.toNat :=
  Int64.toInt_ofNat_of_lt (Nat.lt_trans (toNat_char_lt c) (by decide))

end Value

/-! ## Operators -/

def Yields (x : Eval Value) (s s' : Store) (n : Int) : Prop :=
  ∃ result : Int64, x s = .ok (.integer result) s' ∧ result.toInt = n

theorem Yields.of_fits {x : Eval Value} {s s' : Store} {n : Int}
    (h : Yields x s s' (n.bmod (2 ^ 64))) (hlow : -2 ^ 63 ≤ n) (hhigh : n < 2 ^ 63) :
    Yields x s s' n := by
  rwa [bmod_word_of_fits hlow hhigh] at h

/-- What the operators on two whole numbers come to, where `reduce` is what becomes of the exact
result: a quotient is cut off toward zero, and to divide by zero fails. -/
structure Computes (reduce : Int → Int) (outcome : BinaryOp → Eval Value) (token : Token)
    (s s' : Store) (a b : Int) : Prop where
  add : Yields (outcome .add) s s' (reduce (a + b))
  subtract : Yields (outcome .subtract) s s' (reduce (a - b))
  multiply : Yields (outcome .multiply) s s' (reduce (a * b))
  divide : b ≠ 0 → Yields (outcome .divide) s s' (reduce (a.tdiv b))
  fails : b = 0 → outcome .divide s = Eval.failAt token .divisionByZero s'

/-- Nothing is reduced where the numbers are those of characters. -/
theorem Computes.exact {outcome : BinaryOp → Eval Value} {token : Token} {s s' : Store}
    {a b : Nat} (h : Computes (·.bmod (2 ^ 64)) outcome token s s' a b) (ha : a < 2 ^ 21)
    (hb : b < 2 ^ 21) : Computes id outcome token s s' a b where
  add := h.add.of_fits (by omega) (by omega)
  subtract := h.subtract.of_fits (by omega) (by omega)
  multiply := by
    have hproduct : a * b < 2 ^ 21 * 2 ^ 21 := Nat.mul_lt_mul'' ha hb
    exact h.multiply.of_fits (by omega) (by omega)
  divide hne := by
    have hquotient : (a : Int).tdiv b = (a / b : Nat) := (Int.ofNat_tdiv a b).symm
    have hle : a / b ≤ a := Nat.div_le_self a b
    generalize a / b = quotient at hquotient hle
    exact (h.divide hne).of_fits (by omega) (by omega)
  fails := h.fails

namespace Eval

variable {call : Caller} {cx : Context} {token : Token} {left right : Expr} {s s₁ s₂ : Store}

theorem binary_of_ok {v w : Value} (op : BinaryOp) (hleft : expr call cx left s = .ok v s₁)
    (hright : expr call cx right s₁ = .ok w s₂) :
    expr call cx (.binary left op token right) s = orFail token (s₂.applyBinary op v w) s₂ := by
  rw [expr, bind_of_ok hleft, bind_of_ok hright, get_bind]

theorem negate_of_ok {v : Value} (hleft : expr call cx left s = .ok v s₁) :
    expr call cx (.unary .negate token left) s =
      orFail token (Value.applyUnary .negate v) s₁ := by
  rw [expr, bind_of_ok hleft]

/-- Operands that count as integers compute as these do. -/
theorem computes_of_ok {v w : Value} {a b : Int64} (hleft : expr call cx left s = .ok v s₁)
    (hright : expr call cx right s₁ = .ok w s₂) (hsum : s₂.add v w = .ok (.integer (a + b)))
    (harithmetic : ∀ op, Value.arithmetic op v w = Value.integerArithmetic op a b) :
    Computes (·.bmod (2 ^ 64)) (fun op => expr call cx (.binary left op token right)) token s s₂
      a.toInt b.toInt := by
  have hrun (op : BinaryOp) : expr call cx (.binary left op token right) s =
      orFail token (s₂.applyBinary op v w) s₂ := binary_of_ok op hleft hright
  refine ⟨⟨a + b, ?_, Int64.toInt_add a b⟩, ⟨a - b, ?_, Int64.toInt_sub a b⟩,
    ⟨a * b, ?_, Int64.toInt_mul a b⟩, fun hb => ⟨a / b, ?_, Int64.toInt_div a b⟩, fun hb => ?_⟩
  · rw [hrun, Store.applyBinary, hsum]
    rfl
  · rw [hrun, Store.applyBinary, harithmetic]
    rfl
  · rw [hrun, Store.applyBinary, harithmetic]
    rfl
  · rw [hrun, Store.applyBinary, harithmetic, Value.integerArithmetic, if_neg]
    · rfl
    · exact fun h => hb (h ▸ rfl)
  · show expr call cx (.binary left .divide token right) s = _
    rw [hrun, Store.applyBinary, harithmetic, Value.integerArithmetic,
      if_pos (Int64.toInt_inj.mp hb)]
    rfl

/-- Sums, differences, products and opposites of integers are the exact ones reduced to 64 bits
with a sign, and so is a quotient cut off toward zero, which is reduced for the least integer by
minus one only; to divide by zero fails.  The results of characters are those of their code points,
and nothing is reduced. -/
theorem whole_number_arithmetic (call : Caller) (cx : Context) (token : Token) (left right : Expr)
    (s s₁ s₂ : Store) :
    let outcome (op : BinaryOp) := expr call cx (.binary left op token right)
    let opposite := expr call cx (.unary .negate token left)
    (∀ a b : Int64, expr call cx left s = .ok (.integer a) s₁ →
      expr call cx right s₁ = .ok (.integer b) s₂ →
      Computes (·.bmod (2 ^ 64)) outcome token s s₂ a.toInt b.toInt ∧
      ((a.toInt.tdiv b.toInt).bmod (2 ^ 64) ≠ a.toInt.tdiv b.toInt ↔ a = .minValue ∧ b = -1)) ∧
    (∀ a : Int64, expr call cx left s = .ok (.integer a) s₁ →
      Yields opposite s s₁ ((-a.toInt).bmod (2 ^ 64))) ∧
    (∀ c d : Char, expr call cx left s = .ok (.char c) s₁ →
      expr call cx right s₁ = .ok (.char d) s₂ → Computes id outcome token s s₂ c.toNat d.toNat) ∧
    (∀ c : Char, expr call cx left s = .ok (.char c) s₁ → Yields opposite s s₁ (-c.toNat)) ∧
    RuntimeFault.divisionByZero.message = "Division by zero." := by
  intro outcome opposite
  refine ⟨fun a b hleft hright => ⟨?_, ?_⟩, fun a hleft => ?_, fun c d hleft hright => ?_,
    fun c hleft => ?_, rfl⟩
  · exact computes_of_ok hleft hright rfl fun _ => rfl
  · rw [ne_eq, tdiv_bmod_word_iff, Decidable.not_not]
  · exact ⟨-a, negate_of_ok hleft, Int64.toInt_neg a⟩
  · have hcodes : Computes (·.bmod (2 ^ 64)) outcome token s s₂ (Value.codePoint c).toInt
        (Value.codePoint d).toInt := computes_of_ok hleft hright rfl fun _ => rfl
    rw [Value.toInt_codePoint, Value.toInt_codePoint] at hcodes
    exact hcodes.exact (Value.toNat_char_lt c) (Value.toNat_char_lt d)
  · have hcode := Value.toNat_char_lt c
    refine ⟨-Value.codePoint c, negate_of_ok hleft, ?_⟩
    rw [Int64.toInt_neg, Value.toInt_codePoint]
    exact bmod_word_of_fits (by omega) (by omega)

/-- The least integer divided by minus one, and a difference of characters. -/
theorem whole_number_arithmetic_limits :
    let quotient := expr (fun _ _ => pure .nil) ⟨∅, .still 0, []⟩
      (.binary (.literal (.integer .minValue)) .divide ⟨.symbol .slash, "/", ⟨1, 1⟩, ""⟩
        (.literal (.integer (-1))))
    let difference := expr (fun _ _ => pure .nil) ⟨∅, .still 0, []⟩
      (.binary (.literal (.char 'a')) .subtract ⟨.symbol .minus, "-", ⟨1, 1⟩, ""⟩
        (.literal (.char 'c')))
    Yields quotient .empty .empty (-2 ^ 63) ∧ Yields difference .empty .empty (-2) := by
  have hquotient := ((whole_number_arithmetic (fun _ _ => pure .nil) ⟨∅, .still 0, []⟩
    ⟨.symbol .slash, "/", ⟨1, 1⟩, ""⟩ (.literal (.integer .minValue)) (.literal (.integer (-1)))
    .empty .empty .empty).1 .minValue (-1) rfl rfl).1.divide (by decide)
  have hdifference := ((whole_number_arithmetic (fun _ _ => pure .nil) ⟨∅, .still 0, []⟩
    ⟨.symbol .minus, "-", ⟨1, 1⟩, ""⟩ (.literal (.char 'a')) (.literal (.char 'c'))
    .empty .empty .empty).2.2.1 'a' 'c' rfl rfl).subtract
  exact ⟨hquotient, hdifference⟩

end Eval

end MiniPascal
