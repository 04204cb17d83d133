import MiniPascal.Syntax.Stmt
import MiniPascal.Text.Case
import MiniPascal.Token.Lexer

/-!
# Folding the letter case of reserved words

A token that is one of the given reserved words is folded by making its lexeme small; all other
tokens stay as they are.  Folding a tree folds its operators and keywords and keeps the names.  Two
texts are the same up to the letter case of these words if their scans fold to the same.
-/

namespace MiniPascal

theorem Text.lower_lower (text : String) : lower (lower text) = lower text := by
  have hchar (c : Char) : c.toLower.toLower = c.toLower := by
    delta Char.toLower
    split
    · next h =>
        rw [dif_neg]
        intro hsmall
        rcases h with ⟨hlower, hupper⟩
        have hsmall := hsmall.2
        simp only [UInt32.le_iff_toNat_le, UInt32.toNat_add, ge_iff_le] at hlower hupper hsmall
        simp at hlower hupper hsmall
        omega
    · rfl
  simp [lower, Function.comp_def, hchar]

variable (words : Keyword → Bool)

/-! ## Tokens -/

namespace Token

/-- A token with its lexeme made small, if it is one of the words. -/
def fold (token : Token) : Token :=
  match token.kind with
  | .keyword word => if words word then { token with lexeme := Text.lower token.lexeme } else token
  | _ => token

theorem fold_of_keyword {token : Token} {word : Keyword} (h : token.kind = .keyword word) :
    token.fold words =
      if words word then { token with lexeme := Text.lower token.lexeme } else token := by
  rw [fold, h]

theorem fold_of_not_keyword {token : Token} (h : ∀ word, token.kind ≠ .keyword word) :
    token.fold words = token := by
  unfold fold
  split
  · next word hkind => exact absurd hkind (h word)
  · rfl

theorem fold_none (token : Token) : token.fold (fun _ => false) = token := by
  unfold fold
  split <;> rfl

/-- Folding changes the lexeme alone, and not its length. -/
theorem fold_cases (token : Token) :
    token.fold words = token ∨
      token.fold words = { token with lexeme := Text.lower token.lexeme } := by
  unfold fold
  split
  · split
    · exact .inr rfl
    · exact .inl rfl
  · exact .inl rfl

@[simp] theorem kind_fold (token : Token) : (token.fold words).kind = token.kind := by
  rcases token.fold_cases words with h | h <;> rw [h]

@[simp] theorem file_fold (token : Token) : (token.fold words).file = token.file := by
  rcases token.fold_cases words with h | h <;> rw [h]

@[simp] theorem position_fold (token : Token) : (token.fold words).position = token.position := by
  rcases token.fold_cases words with h | h <;> rw [h]

@[simp] theorem span_fold (token : Token) : (token.fold words).span = token.span := by
  rcases token.fold_cases words with h | h
  · rw [h]
  · simp [h, span, Text.lower, String.length]

@[simp] theorem keyword?_fold (token : Token) : (token.fold words).keyword? = token.keyword? := by
  simp [keyword?]

@[simp] theorem symbol?_fold (token : Token) : (token.fold words).symbol? = token.symbol? := by
  simp [symbol?]

@[simp] theorem isIdentifier_fold (token : Token) :
    (token.fold words).isIdentifier = token.isIdentifier := by
  simp [isIdentifier]

/-- Words that are folded once stay as they are when all words are folded. -/
theorem fold_fold_all (token : Token) :
    (token.fold words).fold (fun _ => true) = token.fold (fun _ => true) := by
  cases hkind : token.kind with
  | keyword word =>
      have hfolded := (token.kind_fold words).trans hkind
      rw [fold_of_keyword _ hfolded, fold_of_keyword _ hkind, fold_of_keyword _ hkind]
      cases words word with
      | true => simp [Text.lower_lower]
      | false => rfl
  | _ =>
      rw [fold_of_not_keyword words]
      intro word hword
      rw [hkind] at hword
      cases hword

theorem fold_of_isIdentifier {token : Token} (h : token.isIdentifier = true) :
    token.fold words = token := by
  refine fold_of_not_keyword words fun word hkind => ?_
  simp [isIdentifier, hkind] at h

theorem fold_synthetic {kind : TokenKind} {lexeme : String} (place : Token)
    (h : Text.lower lexeme = lexeme) :
    (synthetic kind lexeme place).fold words = synthetic kind lexeme (place.fold words) := by
  have hlexeme : (synthetic kind lexeme place).lexeme = lexeme := rfl
  have hplace : synthetic kind lexeme (place.fold words) = synthetic kind lexeme place := by
    simp [synthetic]
  rw [hplace]
  rcases (synthetic kind lexeme place).fold_cases words with hfold | hfold
  · exact hfold
  · rw [hfold, hlexeme, h]
    rfl

end Token

@[simp] theorem Diagnostic.errorAt_fold (token : Token) (message : String) :
    Diagnostic.errorAt (token.fold words) message = Diagnostic.errorAt token message := by
  simp [errorAt]

/-! ## Expressions -/

namespace Expr

mutual

/-- An expression with its operators and keywords folded. -/
def fold : Expr → Expr
  | .literal value => .literal value
  | .unary op token operand => .unary op (token.fold words) (fold operand)
  | .binary left op token right => .binary (fold left) op (token.fold words) (fold right)
  | .logical left op token right => .logical (fold left) op (token.fold words) (fold right)
  | .grouping inner => .grouping (fold inner)
  | .variable id name => .variable id name
  | .assign id name value => .assign id name (fold value)
  | .call callee paren arguments => .call (fold callee) (paren.fold words) (foldList arguments)
  | .get object name => .get (fold object) name
  | .set object name value => .set (fold object) name (fold value)
  | .subscript bracket object index =>
      .subscript (bracket.fold words) (fold object) (fold index)
  | .map bracket entries => .map (bracket.fold words) (foldEntries entries)
  | .this id keyword => .this id (if words .this then keyword.fold words else keyword)
  | .super id keyword method => .super id (keyword.fold words) method
  | .cast inner typeName => .cast (fold inner) typeName

def foldList : List Expr → List Expr
  | [] => []
  | e :: rest => fold e :: foldList rest

def foldEntries : List (Expr × Expr) → List (Expr × Expr)
  | [] => []
  | (key, value) :: rest => (fold key, fold value) :: foldEntries rest

end

def foldEntry (entry : Expr × Expr) : Expr × Expr :=
  (entry.1.fold words, entry.2.fold words)

theorem foldList_eq_map (list : List Expr) : foldList words list = list.map (fold words) := by
  induction list with
  | nil => rfl
  | cons e rest ih => rw [foldList, List.map_cons, ih]

theorem foldEntries_eq_map (entries : List (Expr × Expr)) :
    foldEntries words entries = entries.map (foldEntry words) := by
  induction entries with
  | nil => rfl
  | cons entry rest ih =>
      obtain ⟨key, value⟩ := entry
      rw [foldEntries, List.map_cons, ih, foldEntry]

end Expr

/-! ## Statements -/

def VarDecl.fold (decl : VarDecl) : VarDecl :=
  { decl with initial := decl.initial.map (Expr.fold words) }

namespace Stmt

mutual

/-- A statement with its keywords and expressions folded. -/
def fold : Stmt → Stmt
  | .block body => .block (foldList body)
  | .classDecl ⟨name, superclass, fields, enums, methods⟩ =>
      .classDecl ⟨name, superclass, fields, enums, foldMethods methods⟩
  | .enumDecl decl => .enumDecl decl
  | .function ⟨kind, name, params, returnType, body⟩ =>
      .function ⟨kind, name, params, returnType, foldList body⟩
  | .ifThen condition thenBranch none => .ifThen (condition.fold words) (fold thenBranch) none
  | .ifThen condition thenBranch (some elseBranch) =>
      .ifThen (condition.fold words) (fold thenBranch) (some (fold elseBranch))
  | .while condition body => .while (condition.fold words) (fold body)
  | .try keyword body handlers otherwise =>
      .try (keyword.fold words) (foldList body) (foldHandlers handlers) (foldList otherwise)
  | .print keyword value => .print (keyword.fold words) (value.fold words)
  | .exit keyword value => .exit (keyword.fold words) (value.map (Expr.fold words))
  | .raise keyword value => .raise (keyword.fold words) (value.map (Expr.fold words))
  | .var decl => .var (decl.fold words)
  | .break keyword => .break (keyword.fold words)
  | .expression value => .expression (value.fold words)
  | .uses keyword unit => .uses (keyword.fold words) unit

def foldList : List Stmt → List Stmt
  | [] => []
  | s :: rest => fold s :: foldList rest

def foldMethods : List Function → List Function
  | [] => []
  | ⟨kind, name, params, returnType, body⟩ :: rest =>
      ⟨kind, name, params, returnType, foldList body⟩ :: foldMethods rest

def foldHandlers : List (Handler Stmt) → List (Handler Stmt)
  | [] => []
  | ⟨name, typeName, body⟩ :: rest => ⟨name, typeName, fold body⟩ :: foldHandlers rest

end

theorem foldList_eq_map (list : List Stmt) : foldList words list = list.map (fold words) := by
  induction list with
  | nil => rfl
  | cons s rest ih => rw [foldList, List.map_cons, ih]

@[simp] theorem foldList_append (xs ys : List Stmt) :
    foldList words (xs ++ ys) = foldList words xs ++ foldList words ys := by
  simp [foldList_eq_map]

theorem foldList_flatten (items : List (List Stmt)) :
    foldList words items.flatten = (items.map (foldList words)).flatten := by
  induction items with
  | nil => rfl
  | cons item rest ih => simp [ih]

end Stmt

def Function.fold (decl : Function) : Function :=
  { decl with body := Stmt.foldList words decl.body }

/-- A class with the bodies of its methods folded. -/
def ClassDecl.fold (decl : ClassDecl Stmt) : ClassDecl Stmt :=
  { decl with methods := decl.methods.map (Function.fold words) }

def Handler.fold (handler : Handler Stmt) : Handler Stmt :=
  { handler with body := handler.body.fold words }

namespace Stmt

theorem foldMethods_eq_map (methods : List Function) :
    foldMethods words methods = methods.map (Function.fold words) := by
  induction methods with
  | nil => rfl
  | cons decl rest ih => rw [foldMethods, List.map_cons, ih, Function.fold]

theorem foldHandlers_eq_map (handlers : List (Handler Stmt)) :
    foldHandlers words handlers = handlers.map (Handler.fold words) := by
  induction handlers with
  | nil => rfl
  | cons handler rest ih => rw [foldHandlers, List.map_cons, ih, Handler.fold]

theorem fold_function (decl : Function) :
    (Stmt.function decl).fold words = .function (decl.fold words) := by
  rw [fold, Function.fold]

theorem fold_classDecl (decl : ClassDecl Stmt) :
    (Stmt.classDecl decl).fold words = .classDecl (decl.fold words) := by
  rw [fold, ClassDecl.fold, foldMethods_eq_map]

theorem fold_ifThen (condition : Expr) (thenBranch : Stmt) (elseBranch : Option Stmt) :
    (Stmt.ifThen condition thenBranch elseBranch).fold words =
      .ifThen (condition.fold words) (thenBranch.fold words) (elseBranch.map (fold words)) := by
  cases elseBranch <;> rw [fold] <;> rfl

/-! ## Lowered statements -/

theorem fold_lowerFor (initial : Option Stmt) (condition increment : Option Expr) (body : Stmt) :
    (lowerFor initial condition increment body).fold words =
      lowerFor (initial.map (fold words)) (condition.map (Expr.fold words))
        (increment.map (Expr.fold words)) (body.fold words) := by
  have hcondition : (condition.getD (.literal (.boolean true))).fold words =
      (condition.map (Expr.fold words)).getD (.literal (.boolean true)) := by
    cases condition <;> simp [Expr.fold]
  cases initial <;> cases increment <;> simp [lowerFor, fold, foldList, hcondition]

theorem fold_lowerCase (arms : List (Expr × Stmt)) (otherwise : Option Stmt) :
    (lowerCase arms otherwise).map (fold words) =
      lowerCase (arms.map fun arm => (arm.1.fold words, arm.2.fold words))
        (otherwise.map (fold words)) := by
  induction arms with
  | nil => rfl
  | cons arm rest ih =>
      simp only [lowerCase, List.foldr_cons, List.map_cons, Option.map_some] at ih ⊢
      rw [fold_ifThen, ih]

end Stmt

/-! ## Scans -/

def Scan.fold (scan : Scan) : Scan where
  tokens := scan.tokens.map (Token.fold words)
  last := scan.last.fold words
  diagnostics := scan.diagnostics

end MiniPascal
