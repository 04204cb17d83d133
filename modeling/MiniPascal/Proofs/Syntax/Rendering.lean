import Mathlib.Data.List.Forall2
import MiniPascal.Syntax.Expr

/-!
# The concrete syntax of expressions

An expression is written down as a list of pieces, one for each token.  A piece fixes the kind of
its token, and the lexeme too where the tree keeps the token.  A tree is stratified when every
operand binds at least as tightly as its place asks for, so that it needs no parentheses beyond
those of its grouping nodes.
-/

namespace MiniPascal

/-- What the tree of an expression says about one token. -/
structure Piece where
  kind : TokenKind
  lexeme : Option String

namespace Piece

def ofToken (token : Token) : Piece where
  kind := token.kind
  lexeme := some token.lexeme

def mark (symbol : Symbol) : Piece where
  kind := .symbol symbol
  lexeme := none

def typeName (name : String) : Piece where
  kind := .identifier
  lexeme := some name

/-- Whether a token is what a piece says. -/
def ShownBy (piece : Piece) (token : Token) : Prop :=
  token.kind = piece.kind ∧ ∀ text ∈ piece.lexeme, token.lexeme = text

/-- Whether tokens are what pieces say, one by one. -/
abbrev AllShownBy (pieces : List Piece) (tokens : List Token) : Prop :=
  List.Forall₂ ShownBy pieces tokens

theorem ofToken_shownBy (token : Token) : (ofToken token).ShownBy token :=
  ⟨rfl, fun _ h => Option.some.inj h⟩

theorem shownBy_of_kind {kind : TokenKind} {token : Token} (h : token.kind = kind) :
    (⟨kind, none⟩ : Piece).ShownBy token := by
  refine ⟨h, ?_⟩
  intro text htext
  cases htext

theorem mark_shownBy {symbol : Symbol} {token : Token} (h : token.kind = .symbol symbol) :
    (mark symbol).ShownBy token :=
  shownBy_of_kind h

/-- The tokens that pieces say stand in front of `rest`. -/
def Leads (pieces : List Piece) (tokens rest : List Token) : Prop :=
  ∃ front, tokens = front ++ rest ∧ AllShownBy pieces front

theorem leads_nil_iff {tokens rest : List Token} : Leads [] tokens rest ↔ tokens = rest := by
  constructor
  · rintro ⟨front, htokens, hshown⟩
    cases hshown
    exact htokens
  · rintro rfl
    exact ⟨[], rfl, .nil⟩

theorem leads_cons_iff {piece : Piece} {pieces : List Piece} {tokens rest : List Token} :
    Leads (piece :: pieces) tokens rest ↔
      ∃ token middle, tokens = token :: middle ∧ piece.ShownBy token ∧
        Leads pieces middle rest := by
  constructor
  · rintro ⟨front, htokens, hshown⟩
    cases hshown with
    | cons hhead htail =>
        exact ⟨_, _, htokens, hhead, _, rfl, htail⟩
  · rintro ⟨token, middle, rfl, hhead, front, rfl, htail⟩
    exact ⟨token :: front, rfl, .cons hhead htail⟩

theorem leads_append_iff {xs ys : List Piece} {tokens rest : List Token} :
    Leads (xs ++ ys) tokens rest ↔ ∃ middle, Leads xs tokens middle ∧ Leads ys middle rest := by
  induction xs generalizing tokens with
  | nil =>
      simp [leads_nil_iff]
  | cons piece pieces ih =>
      simp only [List.cons_append, leads_cons_iff, ih]
      constructor
      · rintro ⟨token, middle, htokens, hpiece, middle', hxs, hys⟩
        exact ⟨middle', ⟨token, middle, htokens, hpiece, hxs⟩, hys⟩
      · rintro ⟨middle', ⟨token, middle, htokens, hpiece, hxs⟩, hys⟩
        exact ⟨token, middle, htokens, hpiece, middle', hxs, hys⟩

theorem Leads.length_eq {pieces : List Piece} {tokens rest : List Token}
    (h : Leads pieces tokens rest) : tokens.length = pieces.length + rest.length := by
  rcases h with ⟨front, rfl, hshown⟩
  rw [List.length_append, hshown.length_eq]

end Piece

/-! ## Operators -/

namespace Literal

def kind : Literal → TokenKind
  | .nil => .keyword .nil
  | .boolean true => .keyword .true
  | .boolean false => .keyword .false
  | .integer value => .integer value
  | .double value => .float value
  | .char value => .char value
  | .string value => .string value

end Literal

namespace UnaryOp

def kind : UnaryOp → TokenKind
  | .negate => .symbol .minus
  | .not => .keyword .not

end UnaryOp

namespace BinaryOp

def symbol : BinaryOp → Symbol
  | .add => .plus
  | .subtract => .minus
  | .multiply => .star
  | .divide => .slash
  | .equal => .equal
  | .notEqual => .lessGreater
  | .greater => .greater
  | .greaterEqual => .greaterEqual
  | .less => .less
  | .lessEqual => .lessEqual

def rank : BinaryOp → Nat
  | .equal | .notEqual => 4
  | .greater | .greaterEqual | .less | .lessEqual => 5
  | .add | .subtract => 6
  | .multiply | .divide => 7

theorem rank_bounds (op : BinaryOp) : 4 ≤ op.rank ∧ op.rank ≤ 7 := by
  cases op <;> decide

end BinaryOp

namespace LogicalOp

def word : LogicalOp → Keyword
  | .and => .and
  | .or => .or

def rank : LogicalOp → Nat
  | .or => 2
  | .and => 3

theorem rank_bounds (op : LogicalOp) : 2 ≤ op.rank ∧ op.rank ≤ 3 := by
  cases op <;> decide

end LogicalOp

/-! ## Trees -/

namespace Expr

/-- How tightly an expression binds: 0 with a cast, 1 for assignments, 2 to 7 for the operators
between operands, 8 for those in front, 9 for calls, subscripts and properties, 10 for the rest. -/
def rank : Expr → Nat
  | .cast _ _ => 0
  | .assign _ _ _ | .set _ _ _ => 1
  | .logical _ op _ _ => op.rank
  | .binary _ op _ _ => op.rank
  | .unary _ _ _ => 8
  | .call _ _ _ | .get _ _ | .subscript _ _ _ => 9
  | .literal _ | .grouping _ | .variable _ _ | .map _ _ | .this _ _ | .super _ _ _ => 10

theorem eq_binary_of_rank {e : Expr} (hlow : 4 ≤ e.rank) (hhigh : e.rank ≤ 7) :
    ∃ left op token right, e = .binary left op token right := by
  cases e with
  | binary left op token right => exact ⟨left, op, token, right, rfl⟩
  | logical left op token right =>
      have := op.rank_bounds
      simp only [rank] at hlow
      omega
  | _ => simp [rank] at hlow hhigh

theorem eq_logical_of_rank {e : Expr} (hlow : 2 ≤ e.rank) (hhigh : e.rank ≤ 3) :
    ∃ left op token right, e = .logical left op token right := by
  cases e with
  | logical left op token right => exact ⟨left, op, token, right, rfl⟩
  | binary left op token right =>
      have := op.rank_bounds
      simp only [rank] at hhigh
      omega
  | _ => simp [rank] at hlow hhigh

theorem eq_unary_of_rank {e : Expr} (h : e.rank = 8) :
    ∃ op token operand, e = .unary op token operand := by
  cases e with
  | unary op token operand => exact ⟨op, token, operand, rfl⟩
  | binary left op token right =>
      have := op.rank_bounds
      simp only [rank] at h
      omega
  | logical left op token right =>
      have := op.rank_bounds
      simp only [rank] at h
      omega
  | _ => simp [rank] at h

mutual

def render : Expr → List Piece
  | .literal value => [⟨value.kind, none⟩]
  | .unary _ token operand => .ofToken token :: operand.render
  | .binary left _ token right => left.render ++ .ofToken token :: right.render
  | .logical left _ token right => left.render ++ .ofToken token :: right.render
  | .grouping inner => .mark .leftParen :: (inner.render ++ [.mark .rightParen])
  | .variable _ name => [.ofToken name]
  | .assign _ name value => .ofToken name :: .mark .colonEqual :: value.render
  | .call callee paren arguments =>
      callee.render ++ .mark .leftParen :: (renderList arguments ++ [.ofToken paren])
  | .get object name => object.render ++ [.mark .dot, .ofToken name]
  | .set object name value =>
      object.render ++ .mark .dot :: .ofToken name :: .mark .colonEqual :: value.render
  | .subscript bracket object index =>
      object.render ++ .mark .leftBracket :: (index.render ++ [.ofToken bracket])
  | .map bracket entries => .ofToken bracket :: (renderEntries entries ++ [.mark .rightBracket])
  | .this _ keyword => [.ofToken keyword]
  | .super _ keyword method => [.ofToken keyword, .mark .dot, .ofToken method]
  | .cast inner typeName => inner.render ++ [⟨.keyword .as, none⟩, .typeName typeName]

def renderList : List Expr → List Piece
  | [] => []
  | e :: rest => e.render ++ renderRest rest

def renderRest : List Expr → List Piece
  | [] => []
  | e :: rest => .mark .comma :: (e.render ++ renderRest rest)

def renderEntries : List (Expr × Expr) → List Piece
  | [] => []
  | (key, value) :: rest =>
      key.render ++ .mark .colon :: (value.render ++ renderFurther rest)

def renderFurther : List (Expr × Expr) → List Piece
  | [] => []
  | (key, value) :: rest =>
      .mark .comma :: (key.render ++ .mark .colon :: (value.render ++ renderFurther rest))

end

mutual

/-- Every operand binds as tightly as its place asks for, and the tokens that the tree keeps are
those of the syntax. -/
def Stratified : Expr → Prop
  | .literal _ => True
  | .unary op token operand => token.kind = op.kind ∧ 8 ≤ operand.rank ∧ operand.Stratified
  | .binary left op token right =>
      token.kind = .symbol op.symbol ∧ op.rank ≤ left.rank ∧ op.rank < right.rank ∧
        left.Stratified ∧ right.Stratified
  | .logical left op token right =>
      token.kind = .keyword op.word ∧ op.rank ≤ left.rank ∧ op.rank < right.rank ∧
        left.Stratified ∧ right.Stratified
  | .grouping inner => inner.Stratified
  | .variable _ name => name.kind = .identifier
  | .assign _ name value => name.kind = .identifier ∧ 1 ≤ value.rank ∧ value.Stratified
  | .call callee paren arguments =>
      paren.kind = .symbol .rightParen ∧ 9 ≤ callee.rank ∧ callee.Stratified ∧
        arguments.length ≤ 255 ∧ StratifiedList arguments
  | .get object name => name.kind = .identifier ∧ 9 ≤ object.rank ∧ object.Stratified
  | .set object name value =>
      name.kind = .identifier ∧ 9 ≤ object.rank ∧ object.Stratified ∧
        1 ≤ value.rank ∧ value.Stratified
  | .subscript bracket object index =>
      bracket.kind = .symbol .rightBracket ∧ 9 ≤ object.rank ∧ object.Stratified ∧
        index.Stratified
  | .map bracket entries =>
      bracket.kind = .symbol .leftBracket ∧ entries ≠ [] ∧ StratifiedEntries entries
  | .this _ keyword => keyword.kind = .keyword .this
  | .super _ keyword method => keyword.kind = .keyword .super ∧ method.kind = .identifier
  | .cast inner _ => 1 ≤ inner.rank ∧ inner.Stratified

def StratifiedList : List Expr → Prop
  | [] => True
  | e :: rest => e.Stratified ∧ StratifiedList rest

def StratifiedEntries : List (Expr × Expr) → Prop
  | [] => True
  | (key, value) :: rest => key.Stratified ∧ value.Stratified ∧ StratifiedEntries rest

end

end Expr

/-! ## Tokens behind an expression -/

/-- The rank of the expressions that a token of this kind carries on. -/
def TokenKind.continuation? : TokenKind → Option Nat
  | .keyword .as => some 0
  | .symbol .colonEqual => some 1
  | .keyword .or => some 2
  | .keyword .and => some 3
  | .symbol .equal | .symbol .lessGreater => some 4
  | .symbol .greater | .symbol .greaterEqual | .symbol .less | .symbol .lessEqual => some 5
  | .symbol .plus | .symbol .minus => some 6
  | .symbol .star | .symbol .slash => some 7
  | .symbol .leftParen | .symbol .leftBracket | .symbol .dot => some 9
  | _ => none

theorem BinaryOp.continuation?_symbol (op : BinaryOp) :
    (TokenKind.symbol op.symbol).continuation? = some op.rank := by
  cases op <;> rfl

theorem LogicalOp.continuation?_word (op : LogicalOp) :
    (TokenKind.keyword op.word).continuation? = some op.rank := by
  cases op <;> rfl

/-- The token carries on no expression that binds at least as tightly as `rank`. -/
def Token.Stops (rank : Nat) (token : Token) : Prop :=
  ∀ r ∈ token.kind.continuation?, r < rank

theorem Token.Stops.mono {rank rank' : Nat} {token : Token} (h : token.Stops rank)
    (hle : rank ≤ rank') : token.Stops rank' :=
  fun r hr => Nat.lt_of_lt_of_le (h r hr) hle

theorem Token.stops_of_continuation? {rank : Nat} {token : Token}
    (h : token.kind.continuation? = some rank) : token.Stops (rank + 1) := by
  intro r hr
  rw [h] at hr
  cases hr
  exact Nat.lt_succ_self rank

theorem Token.Stops.continuation?_ne {rank : Nat} {token : Token} (h : token.Stops rank) :
    token.kind.continuation? ≠ some rank :=
  fun hr => absurd (h rank hr) (Nat.lt_irrefl rank)

/-! ## Trees without places -/

def Token.unplaced (token : Token) : Token where
  kind := token.kind
  lexeme := token.lexeme
  position := .start
  file := ""

theorem Token.unplaced_eq {token other : Token}
    (hkind : token.kind = other.kind) (hlexeme : token.lexeme = other.lexeme) :
    token.unplaced = other.unplaced := by
  simp [unplaced, hkind, hlexeme]

theorem Piece.ShownBy.unplaced_eq {token other : Token} (h : (Piece.ofToken token).ShownBy other) :
    other.unplaced = token.unplaced :=
  Token.unplaced_eq h.1 (h.2 token.lexeme rfl)

namespace Expr

mutual

/-- An expression without its node numbers and the places of its tokens. -/
def unplaced : Expr → Expr
  | .literal value => .literal value
  | .unary op token operand => .unary op token.unplaced operand.unplaced
  | .binary left op token right => .binary left.unplaced op token.unplaced right.unplaced
  | .logical left op token right => .logical left.unplaced op token.unplaced right.unplaced
  | .grouping inner => .grouping inner.unplaced
  | .variable _ name => .variable 0 name.unplaced
  | .assign _ name value => .assign 0 name.unplaced value.unplaced
  | .call callee paren arguments =>
      .call callee.unplaced paren.unplaced (unplacedList arguments)
  | .get object name => .get object.unplaced name.unplaced
  | .set object name value => .set object.unplaced name.unplaced value.unplaced
  | .subscript bracket object index =>
      .subscript bracket.unplaced object.unplaced index.unplaced
  | .map bracket entries => .map bracket.unplaced (unplacedEntries entries)
  | .this _ keyword => .this 0 keyword.unplaced
  | .super _ keyword method => .super 0 keyword.unplaced method.unplaced
  | .cast inner typeName => .cast inner.unplaced typeName

def unplacedList : List Expr → List Expr
  | [] => []
  | e :: rest => e.unplaced :: unplacedList rest

def unplacedEntries : List (Expr × Expr) → List (Expr × Expr)
  | [] => []
  | (key, value) :: rest => (key.unplaced, value.unplaced) :: unplacedEntries rest

end

theorem eq_variable_of_unplaced {e : Expr} {id : NodeId} {name : Token}
    (h : e.unplaced = (Expr.variable id name).unplaced) :
    ∃ id' name', e = .variable id' name' ∧ name'.unplaced = name.unplaced := by
  cases e with
  | «variable» id' name' =>
      simp only [unplaced, Expr.variable.injEq] at h
      exact ⟨id', name', rfl, h.2⟩
  | _ => simp [unplaced] at h

theorem eq_get_of_unplaced {e object : Expr} {name : Token}
    (h : e.unplaced = (Expr.get object name).unplaced) :
    ∃ object' name', e = .get object' name' ∧ object'.unplaced = object.unplaced ∧
      name'.unplaced = name.unplaced := by
  cases e with
  | get object' name' =>
      simp only [unplaced, Expr.get.injEq] at h
      exact ⟨object', name', rfl, h.1, h.2⟩
  | _ => simp [unplaced] at h

/-- The first piece of an expression starts no list of nothing, and is an operator only in front
of an operand. -/
theorem render_head : ∀ e : Expr, e.Stratified → ∃ piece pieces, e.render = piece :: pieces ∧
    piece.kind ≠ .symbol .rightParen ∧ (9 ≤ e.rank → ∀ op : UnaryOp, piece.kind ≠ op.kind)
  | .literal value, _ => by
      refine ⟨_, _, rfl, ?_, fun _ op => ?_⟩
      · cases value with
        | boolean value => cases value <;> simp [Literal.kind]
        | _ => simp [Literal.kind]
      · cases op <;> cases value with
        | boolean value => cases value <;> simp [Literal.kind, UnaryOp.kind]
        | _ => simp [Literal.kind, UnaryOp.kind]
  | .unary op token operand, h => by
      refine ⟨_, _, rfl, ?_, fun hrank => absurd hrank (by simp [rank])⟩
      simp only [Piece.ofToken, h.1]
      cases op <;> simp [UnaryOp.kind]
  | .binary left op token right, h => by
      rcases render_head left h.2.2.2.1 with ⟨piece, pieces, hrender, hparen, -⟩
      refine ⟨piece, _, by rw [render, hrender]; rfl, hparen, fun hrank => ?_⟩
      have := op.rank_bounds
      simp only [rank] at hrank
      omega
  | .logical left op token right, h => by
      rcases render_head left h.2.2.2.1 with ⟨piece, pieces, hrender, hparen, -⟩
      refine ⟨piece, _, by rw [render, hrender]; rfl, hparen, fun hrank => ?_⟩
      have := op.rank_bounds
      simp only [rank] at hrank
      omega
  | .grouping inner, _ =>
      ⟨_, _, rfl, by simp [Piece.mark], fun _ op => by cases op <;> simp [Piece.mark, UnaryOp.kind]⟩
  | .variable id name, h => by
      refine ⟨_, _, rfl, ?_, fun _ op => ?_⟩ <;> simp only [Piece.ofToken]
      · rw [h]
        simp
      · rw [h]
        cases op <;> simp [UnaryOp.kind]
  | .assign id name value, h => by
      refine ⟨_, _, rfl, ?_, fun hrank => absurd hrank (by simp [rank])⟩
      simp only [Piece.ofToken, h.1]
      simp
  | .call callee paren arguments, h => by
      rcases render_head callee h.2.2.1 with ⟨piece, pieces, hrender, hparen, hop⟩
      exact ⟨piece, _, by rw [render, hrender]; rfl, hparen, fun _ => hop h.2.1⟩
  | .get object name, h => by
      rcases render_head object h.2.2 with ⟨piece, pieces, hrender, hparen, hop⟩
      exact ⟨piece, _, by rw [render, hrender]; rfl, hparen, fun _ => hop h.2.1⟩
  | .set object name value, h => by
      rcases render_head object h.2.2.1 with ⟨piece, pieces, hrender, hparen, -⟩
      exact ⟨piece, _, by rw [render, hrender]; rfl, hparen, fun hrank => absurd hrank (by simp [rank])⟩
  | .subscript bracket object index, h => by
      rcases render_head object h.2.2.1 with ⟨piece, pieces, hrender, hparen, hop⟩
      exact ⟨piece, _, by rw [render, hrender]; rfl, hparen, fun _ => hop h.2.1⟩
  | .map bracket entries, h => by
      refine ⟨_, _, rfl, ?_, fun _ op => ?_⟩ <;> simp only [Piece.ofToken, h.1]
      · simp
      · cases op <;> simp [UnaryOp.kind]
  | .this id keyword, h => by
      refine ⟨_, _, rfl, ?_, fun _ op => ?_⟩ <;> simp only [Piece.ofToken]
      · rw [h]
        simp
      · rw [h]
        cases op <;> simp [UnaryOp.kind]
  | .super id keyword method, h => by
      refine ⟨_, _, rfl, ?_, fun _ op => ?_⟩ <;> simp only [Piece.ofToken, h.1]
      · simp
      · cases op <;> simp [UnaryOp.kind]
  | .cast inner typeName, h => by
      rcases render_head inner h.2 with ⟨piece, pieces, hrender, hparen, -⟩
      exact ⟨piece, _, by rw [render, hrender]; rfl, hparen, fun hrank => absurd hrank (by simp [rank])⟩

end Expr

end MiniPascal
