import Mathlib.Data.List.Forall2
import MiniPascal.Proofs.Machine.Contents
import MiniPascal.Proofs.Machine.IntegerArithmetic

/-!
# Parts of texts

Copying, counting, joining and subscripts all take a text as its characters, whatever their width
in bytes, and count them from zero.  A part goes from one character up to another, which it does not
have any more: its length is the difference, the parts in front of it and behind it complete it to
the whole text, and its characters are those of the text further on.
-/

namespace MiniPascal

/-! ## Characters from one position up to another -/

namespace Text

/-- The part of a text from one position up to another. -/
def between (text : String) (start stop : Nat) : String :=
  String.ofList ((text.toList.drop start).take (stop - start))

variable {text : String} {start stop : Nat}

theorem toList_between :
    (between text start stop).toList = (text.toList.drop start).take (stop - start) :=
  String.toList_ofList

theorem length_between (hstop : stop ≤ text.length) :
    (between text start stop).length = stop - start := by
  rw [← String.length_toList, toList_between, List.length_take, List.length_drop,
    String.length_toList]
  exact Nat.min_eq_left (Nat.sub_le_sub_right hstop start)

theorem getElem?_between {k : Nat} (hk : k < stop - start) :
    (between text start stop).toList[k]? = text.toList[start + k]? := by
  rw [toList_between, List.getElem?_take_of_lt hk, List.getElem?_drop]

/-- The parts in front of a part, the part itself and the one behind it are the whole text. -/
theorem between_append (hstart : start ≤ stop) :
    between text 0 start ++ between text start stop ++ between text stop text.length = text := by
  have hlength : (text.toList.drop stop).length = text.length - stop := by
    rw [List.length_drop, String.length_toList]
  have hlast : (text.toList.drop stop).take (text.length - stop) = text.toList.drop stop :=
    List.take_of_length_le (Nat.le_of_eq hlength)
  have hbehind : text.toList.drop stop = (text.toList.drop start).drop (stop - start) := by
    rw [List.drop_drop, Nat.add_sub_cancel' hstart]
  apply String.toList_inj.mp
  rw [String.toList_append, String.toList_append, toList_between, toList_between, toList_between,
    hlast, hbehind, List.append_assoc, List.take_append_drop, List.drop_zero, Nat.sub_zero,
    List.take_append_drop]

end Text

/-! ## Positions -/

namespace Value

theorem toIndex_of_nonneg {n : Int64} (h : 0 ≤ n.toInt) :
    (Value.integer n).toIndex = .ok n.toInt.toNat := by
  rw [toIndex, if_neg]
  rw [Int64.lt_iff_toInt_lt]
  exact Int.not_lt.mpr h

theorem toIndex_of_neg {n : Int64} (h : n.toInt < 0) :
    (Value.integer n).toIndex = .error .indexRange := by
  rw [toIndex, if_pos]
  rw [Int64.lt_iff_toInt_lt]
  exact h

theorem copy_of_le {text : String} {start stop : Nat} (hstart : start ≤ stop)
    (hstop : stop ≤ text.length) :
    (Value.string text).copy start stop = .ok (.string (Text.between text start stop)) := by
  rw [copy, if_pos]
  · rfl
  · rw [String.length_toList]
    simp [hstart, hstop]

theorem copy_of_not_le {text : String} {start stop : Nat}
    (h : ¬(start ≤ stop ∧ stop ≤ text.length)) :
    (Value.string text).copy start stop = .error .indexRange := by
  rw [copy, if_neg]
  rw [String.length_toList]
  simpa using h

end Value

/-- Two integers are positions in a text, the second one not in front of the first. -/
structure Bounds (t : String) (i j : Int64) : Prop where
  start : 0 ≤ i.toInt
  ordered : i.toInt ≤ j.toInt
  stop : j.toInt ≤ t.length

/-- The part of a text that two integers bound. -/
def partOf (t : String) (i j : Int64) : String :=
  Text.between t i.toInt.toNat j.toInt.toNat

namespace Bounds

variable {t : String} {i j : Int64}

theorem before (h : Bounds t i j) : Bounds t 0 i where
  start := Int.le_refl 0
  ordered := h.start
  stop := Int.le_trans h.ordered h.stop

theorem behind (h : Bounds t i j) (ht : t.length < 2 ^ 63) :
    Bounds t j (Int64.ofNat t.length) := by
  have hlength := Int64.toInt_ofNat_of_lt ht
  constructor
  · exact Int.le_trans h.start h.ordered
  · rw [hlength]
    exact h.stop
  · exact Int.le_of_eq hlength

theorem length_partOf (h : Bounds t i j) : ((partOf t i j).length : Int) = j.toInt - i.toInt := by
  have hstart := h.start
  have hordered := h.ordered
  rw [partOf, Text.length_between (Int.toNat_le.mpr h.stop)]
  omega

theorem partOf_append (h : Bounds t i j) (ht : t.length < 2 ^ 63) :
    partOf t 0 i ++ partOf t i j ++ partOf t j (Int64.ofNat t.length) = t := by
  rw [partOf, partOf, partOf, Int64.toInt_ofNat_of_lt ht]
  exact Text.between_append (Int.toNat_le_toNat h.ordered)

/-- A character of a part is that of the text further on. -/
theorem exists_getElem? (h : Bounds t i j) {k : Int64} (hk : 0 ≤ k.toInt)
    (hless : k.toInt < j.toInt - i.toInt) : ∃ c, (i + k).toInt = i.toInt + k.toInt ∧
      (partOf t i j).toList[k.toInt.toNat]? = some c ∧
      t.toList[(i + k).toInt.toNat]? = some c := by
  have hstart := h.start
  have hstop := h.stop
  have hword := j.toInt_lt
  have hsum : (i + k).toInt = i.toInt + k.toInt := by
    rw [Int64.toInt_add]
    exact bmod_word_of_fits (by omega) (by omega)
  have hinside : i.toInt.toNat + k.toInt.toNat < t.toList.length := by
    rw [String.length_toList]
    omega
  refine ⟨t.toList[i.toInt.toNat + k.toInt.toNat], hsum, ?_, ?_⟩
  · rw [partOf, Text.getElem?_between (by omega)]
    exact List.getElem?_eq_getElem hinside
  · rw [hsum, Int.toNat_add hstart hk]
    exact List.getElem?_eq_getElem hinside

end Bounds

namespace Store

variable {t : String} {i j k : Int64}

theorem callBuiltin_copy (s : Store) (host : Host) (h : Bounds t i j) :
    s.callBuiltin host .copy [.string t, .integer i, .integer j] =
      .ok (.string (partOf t i j), id) := by
  have hstart : i.toInt.toNat ≤ j.toInt.toNat := Int.toNat_le_toNat h.ordered
  have hstop : j.toInt.toNat ≤ t.length := Int.toNat_le.mpr h.stop
  simp only [callBuiltin, List.headD_cons, List.tail_cons, Value.toIndex_of_nonneg h.start,
    Value.toIndex_of_nonneg (Int.le_trans h.start h.ordered)]
  show (do return (← (Value.string t).copy i.toInt.toNat j.toInt.toNat, id)) = _
  rw [Value.copy_of_le hstart hstop]
  rfl

theorem callBuiltin_copy_error (s : Store) (host : Host) (h : ¬Bounds t i j) :
    s.callBuiltin host .copy [.string t, .integer i, .integer j] = .error .indexRange := by
  simp only [callBuiltin, List.headD_cons, List.tail_cons]
  rcases Int.lt_or_le i.toInt 0 with hneg | hi
  · rw [Value.toIndex_of_neg hneg]
    rfl
  rw [Value.toIndex_of_nonneg hi]
  rcases Int.lt_or_le j.toInt 0 with hneg | hj
  · rw [Value.toIndex_of_neg hneg]
    rfl
  rw [Value.toIndex_of_nonneg hj]
  have hoff : ¬(i.toInt.toNat ≤ j.toInt.toNat ∧ j.toInt.toNat ≤ t.length) := by
    intro hbounds
    apply h
    constructor
    · exact hi
    · have hordered := hbounds.1
      omega
    · exact Int.toNat_le.mp hbounds.2
  show (do return (← (Value.string t).copy i.toInt.toNat j.toInt.toNat, id)) = _
  rw [Value.copy_of_not_le hoff]
  rfl

theorem subscript_of_getElem? (s : Store) {c : Char} (hk : 0 ≤ k.toInt)
    (hc : t.toList[k.toInt.toNat]? = some c) :
    s.subscript (.string t) (.integer k) = .ok (.char c) := by
  simp only [subscript, Value.toIndex_of_nonneg hk, bind, Except.bind, hc]
  rfl

theorem subscript_error (s : Store) (hk : ¬(0 ≤ k.toInt ∧ k.toInt < t.length)) :
    s.subscript (.string t) (.integer k) = .error .indexRange := by
  rcases Int.lt_or_le k.toInt 0 with hneg | hnonneg
  · rw [subscript, Value.toIndex_of_neg hneg]
    rfl
  · have hbehind : t.toList[k.toInt.toNat]? = none := by
      rw [List.getElem?_eq_none_iff, String.length_toList]
      omega
    simp only [subscript, Value.toIndex_of_nonneg hnonneg, bind, Except.bind, hbehind]
    rfl

end Store

/-! ## Calls of built-in functions -/

namespace Eval

/-- An expression has a value, and leaves the store as it is. -/
def Gives (call : Caller) (cx : Context) (s : Store) (e : Expr) (value : Value) : Prop :=
  expr call cx e s = .ok value s

section Calls

variable {call : Caller} {cx : Context} {s : Store}

theorem exprs_of_gives {list : List Expr} {values : List Value}
    (h : List.Forall₂ (Gives call cx s) list values) :
    exprs call cx list s = .ok values s := by
  induction h with
  | nil => rfl
  | cons hvalue _ ih =>
      rw [exprs, bind_of_ok hvalue, bind_of_ok ih]
      rfl

theorem call_of_gives {callee : Expr} {target : Value} {paren : Token} {arguments : List Expr}
    {values : List Value} (hcallee : Gives call cx s callee target)
    (harguments : List.Forall₂ (Gives call cx s) arguments values) :
    expr call cx (.call callee paren arguments) s = applyValue call cx target paren values s := by
  rw [expr, bind_of_ok hcallee, bind_of_ok (exprs_of_gives harguments)]

variable {copy length text first last index : Expr} {paren plus bracket : Token} {n m : Nat}
  {t : String} {i j k : Int64}

/-- To copy is to ask the built-in function for a part of the text. -/
theorem call_copy_of_gives (hcopy : Gives call cx s copy (.native ⟨n, .builtin .copy⟩))
    (htext : Gives call cx s text (.string t)) (hfirst : Gives call cx s first (.integer i))
    (hlast : Gives call cx s last (.integer j)) :
    expr call cx (.call copy paren [text, first, last]) s =
      match s.callBuiltin cx.host .copy [.string t, .integer i, .integer j] with
      | .ok (value, change) => .ok value (change s)
      | .error fault => failAt paren fault s := by
  have harguments := List.Forall₂.cons htext (.cons hfirst (.cons hlast .nil))
  rw [call_of_gives hcopy harguments, applyValue_native rfl, callNative_apply]
  rfl

theorem copy_gives (hcopy : Gives call cx s copy (.native ⟨n, .builtin .copy⟩))
    (htext : Gives call cx s text (.string t)) (hfirst : Gives call cx s first (.integer i))
    (hlast : Gives call cx s last (.integer j)) (h : Bounds t i j) :
    Gives call cx s (.call copy paren [text, first, last]) (.string (partOf t i j)) := by
  rw [Gives, call_copy_of_gives hcopy htext hfirst hlast, Store.callBuiltin_copy s cx.host h]
  rfl

theorem copy_fails (hcopy : Gives call cx s copy (.native ⟨n, .builtin .copy⟩))
    (htext : Gives call cx s text (.string t)) (hfirst : Gives call cx s first (.integer i))
    (hlast : Gives call cx s last (.integer j)) (h : ¬Bounds t i j) :
    expr call cx (.call copy paren [text, first, last]) s = failAt paren .indexRange s := by
  rw [call_copy_of_gives hcopy htext hfirst hlast, Store.callBuiltin_copy_error s cx.host h]

theorem length_gives (hlength : Gives call cx s length (.native ⟨m, .builtin .length⟩))
    (htext : Gives call cx s text (.string t)) :
    Gives call cx s (.call length paren [text]) (Store.count t.length) := by
  rw [Gives, call_of_gives hlength (.cons htext .nil), applyValue_native rfl]
  rfl

theorem sum_gives {u : String} (hfirst : Gives call cx s first (.string t))
    (hlast : Gives call cx s last (.string u)) :
    Gives call cx s (.binary first .add plus last) (.string (t ++ u)) := by
  rw [Gives, binary_of_ok .add hfirst hlast]
  rfl

theorem subscript_of_gives (htext : Gives call cx s text (.string t))
    (hindex : Gives call cx s index (.integer k)) :
    expr call cx (.subscript bracket text index) s =
      orFail bracket (s.subscript (.string t) (.integer k)) s := by
  rw [expr, bind_of_ok htext, bind_of_ok hindex, get_bind]

theorem subscript_gives {c : Char} (htext : Gives call cx s text (.string t))
    (hindex : Gives call cx s index (.integer k)) (hk : 0 ≤ k.toInt)
    (hc : t.toList[k.toInt.toNat]? = some c) :
    Gives call cx s (.subscript bracket text index) (.char c) := by
  rw [Gives, subscript_of_gives htext hindex, Store.subscript_of_getElem? s hk hc]
  rfl

theorem integer_sum_gives (hfirst : Gives call cx s first (.integer i))
    (hlast : Gives call cx s last (.integer j)) :
    Gives call cx s (.binary first .add plus last) (.integer (i + j)) := by
  rw [Gives, binary_of_ok .add hfirst hlast]
  rfl

/-- A part between what is in front of it and what is behind it makes the whole text. -/
theorem parts_give (hcopy : Gives call cx s copy (.native ⟨n, .builtin .copy⟩))
    (hlength : Gives call cx s length (.native ⟨m, .builtin .length⟩))
    (htext : Gives call cx s text (.string t)) (hfirst : Gives call cx s first (.integer i))
    (hlast : Gives call cx s last (.integer j)) (h : Bounds t i j) (ht : t.length < 2 ^ 63) :
    Gives call cx s
      (.binary
        (.binary (.call copy paren [text, .literal (.integer 0), first]) .add plus
          (.call copy paren [text, first, last])) .add plus
        (.call copy paren [text, last, .call length paren [text]])) (.string t) := by
  have hzero : Gives call cx s (.literal (.integer 0)) (.integer 0) := rfl
  have hbefore : Gives call cx s (.call copy paren [text, .literal (.integer 0), first])
      (.string (partOf t 0 i)) :=
    copy_gives hcopy htext hzero hfirst h.before
  have hpart : Gives call cx s (.call copy paren [text, first, last]) (.string (partOf t i j)) :=
    copy_gives hcopy htext hfirst hlast h
  have hbehind : Gives call cx s (.call copy paren [text, last, .call length paren [text]])
      (.string (partOf t j (Int64.ofNat t.length))) :=
    copy_gives hcopy htext hlast (length_gives hlength htext) (h.behind ht)
  rw [← h.partOf_append ht]
  exact sum_gives (sum_gives hbefore hpart) hbehind

/-- The characters of a part are those of the text further on. -/
theorem part_subscripts_agree (hcopy : Gives call cx s copy (.native ⟨n, .builtin .copy⟩))
    (htext : Gives call cx s text (.string t)) (hfirst : Gives call cx s first (.integer i))
    (hlast : Gives call cx s last (.integer j)) (h : Bounds t i j)
    (hindex : Gives call cx s index (.integer k)) (hk : 0 ≤ k.toInt)
    (hless : k.toInt < j.toInt - i.toInt) : ∃ c,
      Gives call cx s (.subscript bracket (.call copy paren [text, first, last]) index) (.char c) ∧
      Gives call cx s (.subscript bracket text (.binary first .add plus index)) (.char c) := by
  obtain ⟨c, hsum, hinPart, hinText⟩ := h.exists_getElem? hk hless
  have hpositive : 0 ≤ (i + k).toInt := by
    rw [hsum]
    exact Int.add_nonneg h.start hk
  exists c
  constructor
  · exact subscript_gives (copy_gives hcopy htext hfirst hlast h) hindex hk hinPart
  · exact subscript_gives htext (integer_sum_gives hfirst hindex) hpositive hinText

/-- The characters of a text stand at the positions in front of its length, and nowhere else. -/
theorem subscript_gives_or_fails (htext : Gives call cx s text (.string t))
    (hindex : Gives call cx s index (.integer k)) :
    (0 ≤ k.toInt ∧ k.toInt < t.length →
      ∃ c, Gives call cx s (.subscript bracket text index) (.char c)) ∧
    (¬(0 ≤ k.toInt ∧ k.toInt < t.length) →
      expr call cx (.subscript bracket text index) s = failAt bracket .indexRange s) := by
  constructor
  · rintro ⟨hk, hless⟩
    have hinside : k.toInt.toNat < t.toList.length := by
      rw [String.length_toList]
      omega
    exact ⟨_, subscript_gives htext hindex hk (List.getElem?_eq_getElem hinside)⟩
  · intro hk
    rw [subscript_of_gives htext hindex, Store.subscript_error s hk]
    rfl

theorem Gives.yields {e : Expr} {count : Nat} (h : Gives call cx s e (Store.count count))
    (hcount : count < 2 ^ 63) : Yields (expr call cx e) s s count :=
  ⟨Int64.ofNat count, h, Int64.toInt_ofNat_of_lt hcount⟩

end Calls

/-- Let a text and two integers be given by expressions.  If the integers bound a part of the text,
copying gives it: its length is their difference, it stands between the copies of what is in front
of it and behind it, and its characters are those that the text has further on.  If they do not,
copying fails, and so does a subscript that is no position of a character.  An integer can count the
characters of a text as long as there are fewer than two to the power of 63. -/
theorem text_parts_agree {call : Caller} {cx : Context} {s : Store} (paren plus bracket : Token)
    {copy length text first last : Expr} {n m : Nat} {t : String} {i j : Int64}
    (hcopy : Gives call cx s copy (.native ⟨n, .builtin .copy⟩))
    (hlength : Gives call cx s length (.native ⟨m, .builtin .length⟩))
    (htext : Gives call cx s text (.string t)) (hfirst : Gives call cx s first (.integer i))
    (hlast : Gives call cx s last (.integer j)) :
    let part (start stop : Expr) : Expr := .call copy paren [text, start, stop]
    let count (whole : Expr) : Expr := .call length paren [whole]
    let sum (left right : Expr) : Expr := .binary left .add plus right
    let zero : Expr := .literal (.integer 0)
    (Bounds t i j →
      Gives call cx s (part first last) (.string (partOf t i j)) ∧
      Yields (expr call cx (count (part first last))) s s (j.toInt - i.toInt) ∧
      (t.length < 2 ^ 63 → Gives call cx s
        (sum (sum (part zero first) (part first last)) (part last (count text))) (.string t)) ∧
      ∀ index k, Gives call cx s index (.integer k) → 0 ≤ k.toInt →
        k.toInt < j.toInt - i.toInt → ∃ c,
          Gives call cx s (.subscript bracket (part first last) index) (.char c) ∧
          Gives call cx s (.subscript bracket text (sum first index)) (.char c)) ∧
    (¬Bounds t i j → expr call cx (part first last) s = failAt paren .indexRange s) ∧
    (∀ index k, Gives call cx s index (.integer k) →
      (0 ≤ k.toInt ∧ k.toInt < t.length →
        ∃ c, Gives call cx s (.subscript bracket text index) (.char c)) ∧
      (¬(0 ≤ k.toInt ∧ k.toInt < t.length) →
        expr call cx (.subscript bracket text index) s = failAt bracket .indexRange s)) ∧
    (t.length < 2 ^ 63 → Yields (expr call cx (count text)) s s t.length) ∧
    RuntimeFault.indexRange.message = "Index out of range." := by
  intro part count sum zero
  constructor
  · intro h
    have hpart : Gives call cx s (part first last) (.string (partOf t i j)) :=
      copy_gives hcopy htext hfirst hlast h
    constructor
    · exact hpart
    constructor
    · have hword := j.toInt_lt
      have hstart := h.start
      have hlengthPart := h.length_partOf
      rw [← hlengthPart]
      exact (length_gives hlength hpart).yields (by omega)
    constructor
    · exact parts_give hcopy hlength htext hfirst hlast h
    · intro index k hindex hk hless
      exact part_subscripts_agree hcopy htext hfirst hlast h hindex hk hless
  constructor
  · exact copy_fails hcopy htext hfirst hlast
  constructor
  · intro index k hindex
    exact subscript_gives_or_fails htext hindex
  constructor
  · exact (length_gives hlength htext).yields
  · rfl

/-- Characters of one, two, three and four bytes. -/
def widths : String :=
  "aé€😀"

/-- The characters from the second one up to the fourth one, and no part where the bounds are the
other way round. -/
theorem text_parts_agree_widths :
    let cx : Context := ⟨∅, .still 0, Store.globals⟩
    let token (kind : TokenKind) (lexeme : String) : Token := ⟨kind, lexeme, ⟨1, 1⟩, ""⟩
    let paren := token (.symbol .rightParen) ")"
    let copy := Expr.variable 0 (token .identifier "Copy")
    let length := Expr.variable 1 (token .identifier "Length")
    let text := Expr.literal (.string widths)
    let part (i j : Int64) : Expr :=
      .call copy paren [text, .literal (.integer i), .literal (.integer j)]
    let behind : Expr := .call copy paren [text, .literal (.integer 3), .call length paren [text]]
    let sum (left right : Expr) : Expr := .binary left .add (token (.symbol .plus) "+") right
    let value := expr (fun _ _ => pure .nil) cx
    Bounds widths 1 3 ∧ widths.length < 2 ^ 63 ∧
      value (part 1 3) .initial = .ok (.string "é€") .initial ∧
      Yields (value (.call length paren [part 1 3])) .initial .initial 2 ∧
      value (sum (sum (part 0 1) (part 1 3)) behind) .initial = .ok (.string widths) .initial ∧
      ¬Bounds widths 3 1 ∧
      value (part 3 1) .initial = failAt paren .indexRange .initial := by
  intro cx token paren copy length text part behind sum value
  have hcopy : Gives (fun _ _ => pure .nil) cx .initial copy (.native ⟨4, .builtin .copy⟩) := by
    rfl
  have hlength : Gives (fun _ _ => pure .nil) cx .initial length
      (.native ⟨5, .builtin .length⟩) := by
    rfl
  have hbounds : Bounds widths 1 3 := by
    constructor <;> decide
  have hreversed : ¬Bounds widths 3 1 := by
    intro h
    exact absurd h.ordered (by decide)
  have htext : Gives (fun _ _ => pure .nil) cx .initial text (.string widths) := rfl
  have hinteger (k : Int64) : Gives (fun _ _ => pure .nil) cx .initial
      (.literal (.integer k)) (.integer k) := rfl
  have hagree (i j : Int64) := text_parts_agree paren (token (.symbol .plus) "+") paren hcopy
    hlength htext (hinteger i) (hinteger j)
  have hpart := (hagree 1 3).1 hbounds
  have hshort : widths.length < 2 ^ 63 := by
    decide
  exact ⟨hbounds, hshort, hpart.1, hpart.2.1, hpart.2.2.1 hshort, hreversed,
    (hagree 3 1).2.1 hreversed⟩

end Eval

end MiniPascal
