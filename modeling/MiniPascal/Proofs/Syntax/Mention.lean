import MiniPascal.Syntax.Expr

/-!
# Mentions of names in expressions

A mention is a node of an expression that stands for a name, with its number.  The parser numbers
the mentions of an expression apart: each has a number of its own from a range that no other
expression shares.
-/

namespace MiniPascal

/-- What an expression does with a name. -/
inductive Use where
  | read
  | write
  | receiver
deriving DecidableEq, Repr

/-- A numbered node that stands for a name. -/
structure Mention where
  id : Nat
  name : String
  use : Use
deriving DecidableEq, Repr

namespace Expr

mutual

def mentions : Expr → List Mention
  | .literal _ => []
  | .unary _ _ operand => operand.mentions
  | .binary left _ _ right => left.mentions ++ right.mentions
  | .logical left _ _ right => left.mentions ++ right.mentions
  | .grouping inner => inner.mentions
  | .variable id name => [⟨id, name.lexeme, .read⟩]
  | .assign id name value => value.mentions ++ [⟨id, name.lexeme, .write⟩]
  | .call callee _ arguments => callee.mentions ++ listMentions arguments
  | .get object _ => object.mentions
  | .set object _ value => object.mentions ++ value.mentions
  | .subscript _ object index => object.mentions ++ index.mentions
  | .map _ entries => entryMentions entries
  | .this id _ => [⟨id, "this", .receiver⟩]
  | .super id _ _ => [⟨id, "super", .receiver⟩]
  | .cast inner _ => inner.mentions

def listMentions : List Expr → List Mention
  | [] => []
  | e :: rest => e.mentions ++ listMentions rest

def entryMentions : List (Expr × Expr) → List Mention
  | [] => []
  | (key, value) :: rest => key.mentions ++ value.mentions ++ entryMentions rest

end

end Expr

/-- The mentions have numbers from `first` up to `limit`, no two of them share one, and the names
that are written satisfy `N`. -/
structure Fresh (N : String → Prop) (first : Nat) (mentions : List Mention) (limit : Nat) :
    Prop where
  le : first ≤ limit
  bounds : ∀ m ∈ mentions, first ≤ m.id ∧ m.id < limit
  apart : ∀ m ∈ mentions, ∀ n ∈ mentions, m.id = n.id → m = n
  written : ∀ m ∈ mentions, m.use = .write → N m.name

namespace Fresh

theorem nil {first limit : Nat} (h : first ≤ limit) : Fresh N first [] limit :=
  ⟨h, by simp, by simp, by simp⟩

theorem single {first : Nat} {name : String} {use : Use} (h : use = .write → N name) :
    Fresh N first [⟨first, name, use⟩] (first + 1) :=
  ⟨Nat.le_succ first, by simp, by simp, by simpa using h⟩

theorem append {first middle limit : Nat} {ms ns : List Mention}
    (hms : Fresh N first ms middle) (hns : Fresh N middle ns limit) :
    Fresh N first (ms ++ ns) limit := by
  have hle := hms.le
  have hle' := hns.le
  refine ⟨Nat.le_trans hle hle', ?_, ?_, ?_⟩
  · intro m hm
    rcases List.mem_append.mp hm with h | h
    · have := hms.bounds m h
      omega
    · have := hns.bounds m h
      omega
  · intro m hm n hn hid
    rcases List.mem_append.mp hm with h | h
    · rcases List.mem_append.mp hn with h' | h'
      · exact hms.apart m h n h' hid
      · have := hms.bounds m h
        have := hns.bounds n h'
        omega
    · rcases List.mem_append.mp hn with h' | h'
      · have := hns.bounds m h
        have := hms.bounds n h'
        omega
      · exact hns.apart m h n h' hid
  · intro m hm
    rcases List.mem_append.mp hm with h | h
    · exact hms.written m h
    · exact hns.written m h

theorem widen {first first' limit limit' : Nat} {ms : List Mention}
    (h : Fresh N first ms limit) (hfirst : first' ≤ first) (hlimit : limit ≤ limit') :
    Fresh N first' ms limit' := by
  have hle := h.le
  refine ⟨by omega, ?_, h.apart, h.written⟩
  intro m hm
  have := h.bounds m hm
  omega

end Fresh

end MiniPascal
