import MiniPascal.Proofs.Syntax.Reference
import MiniPascal.Typing.Check

/-!
# What type checks look at

Checking statements looks up the names that they use and the types that they name, and members of
such types; and it records symbols under the names that they declare.
-/

namespace MiniPascal

/-! ## Words -/

namespace Expr

mutual

/-- The names and types that checking an expression looks at. -/
def words : Expr → List String
  | .literal _ => []
  | .unary _ _ operand => words operand
  | .binary left _ _ right => words left ++ words right
  | .logical left _ _ right => words left ++ words right
  | .grouping inner => words inner
  | .variable _ name => [name.lexeme]
  | .assign _ name value => words value ++ [name.lexeme]
  | .call callee _ arguments => words callee ++ listWords arguments
  | .get object name => words object ++ [name.lexeme]
  | .set object name value => words object ++ words value ++ [name.lexeme]
  | .subscript _ object index => words object ++ words index
  | .map _ items => entryWords items
  | .this _ _ => []
  | .super _ _ _ => []
  | .cast inner typeName => words inner ++ [typeName]

def listWords : List Expr → List String
  | [] => []
  | e :: rest => words e ++ listWords rest

def entryWords : List (Expr × Expr) → List String
  | [] => []
  | (key, value) :: rest => words key ++ words value ++ entryWords rest

end

def optionalWords : Option Expr → List String
  | some e => e.words
  | none => []

end Expr

namespace ClassDecl

/-- The types that a class names outside of its methods. -/
def typeWords (decl : ClassDecl S) : List String :=
  decl.name.lexeme :: (decl.superclass.toList.map (·.name.lexeme) ++
    decl.fields.flatMap (fun field => [field.typeName, field.generic]) ++
    decl.enums.map (·.name.lexeme))

variable {decl : ClassDecl S}

theorem mem_typeWords_parent : (decl.superclass.map (·.name.lexeme)).getD anyType = anyType ∨
    (decl.superclass.map (·.name.lexeme)).getD anyType ∈ decl.typeWords := by
  cases hsuper : decl.superclass with
  | none => exact .inl rfl
  | some parent => simp [typeWords, hsuper]

theorem mem_typeWords_field {field : Field} (h : field ∈ decl.fields) :
    field.typeName ∈ decl.typeWords ∧ field.generic ∈ decl.typeWords := by
  have hboth : ∀ word ∈ [field.typeName, field.generic], word ∈ decl.typeWords := by
    intro word hword
    refine List.mem_cons_of_mem _ (List.mem_append_left _ (List.mem_append_right _ ?_))
    exact List.mem_flatMap.mpr ⟨field, h, hword⟩
  exact ⟨hboth _ (by simp), hboth _ (by simp)⟩

theorem mem_typeWords_enum {enum : EnumDecl} (h : enum ∈ decl.enums) :
    enum.name.lexeme ∈ decl.typeWords :=
  List.mem_cons_of_mem _ (List.mem_append_right _ (List.mem_map_of_mem h))

end ClassDecl

namespace Stmt

mutual

/-- The names and types that checking a statement looks at.  What is printed or raised is not
checked. -/
def words : Stmt → List String
  | .block body => listWords body
  | .classDecl ⟨name, superclass, fields, enums, methods⟩ =>
      ClassDecl.typeWords ⟨name, superclass, fields, enums, methods⟩ ++ methodWords methods
  | .enumDecl decl => [decl.name.lexeme]
  | .function ⟨_, _, params, returnType, body⟩ =>
      returnType :: (params.map (·.typeName) ++ listWords body)
  | .ifThen condition thenBranch none => condition.words ++ words thenBranch
  | .ifThen condition thenBranch (some elseBranch) =>
      condition.words ++ words thenBranch ++ words elseBranch
  | .while condition body => condition.words ++ words body
  | .try _ body handlers otherwise =>
      listWords body ++ handlerWords handlers ++ listWords otherwise
  | .print _ _ => []
  | .exit _ value => Expr.optionalWords value
  | .raise _ _ => []
  | .var decl => decl.typeName :: decl.generic :: Expr.optionalWords decl.initial
  | .break _ => []
  | .expression value => value.words
  | .uses _ _ => []

def listWords : List Stmt → List String
  | [] => []
  | s :: rest => words s ++ listWords rest

def methodWords : List Function → List String
  | [] => []
  | ⟨_, _, params, returnType, body⟩ :: rest =>
      returnType :: (params.map (·.typeName) ++ listWords body) ++ methodWords rest

def handlerWords : List (Handler Stmt) → List String
  | [] => []
  | ⟨_, typeName, body⟩ :: rest => typeName.toList ++ words body ++ handlerWords rest

end

theorem mem_methodWords {methods : List Function} {method : Function} (h : method ∈ methods) :
    method.returnType ∈ methodWords methods := by
  induction methods with
  | nil => cases h
  | cons first rest ih =>
      rcases List.mem_cons.mp h with rfl | h
      · exact List.mem_append_left _ List.mem_cons_self
      · exact List.mem_append_right _ (ih h)

end Stmt

namespace Typing

def builtinTypes : List String :=
  ["Nil", "Boolean", "Integer", "Double", "Char", "String", "List", "Stack", "Map", anyType]

theorem literal_typeName_mem (value : Literal) : value.typeName ∈ builtinTypes := by
  cases value <;> simp [Literal.typeName, builtinTypes]

theorem builtinType_mem (name : String) : builtinType name ∈ builtinTypes := by
  unfold builtinType
  repeat' split
  all_goals decide

/-- The words of statements, with the types that need no declaration. -/
def vocabulary (statements : List Stmt) : List String :=
  builtinTypes ++ Stmt.listWords statements

/-- A symbol that can be looked up with words that satisfy `T`: one of them, or a member of one. -/
def Spoken (T : String → Prop) (symbol : String) : Prop :=
  T symbol ∨ ∃ type member, T type ∧ T member ∧ symbol = memberSymbol type member

/-- The symbols that checking statements may look up. -/
def lookedUp (statements : List Stmt) : List String :=
  let words := vocabulary statements
  words ++ words.flatMap fun type => words.map (memberSymbol type)

theorem spoken_iff {statements : List Stmt} {symbol : String} :
    Spoken (· ∈ vocabulary statements) symbol ↔ symbol ∈ lookedUp statements := by
  unfold Spoken lookedUp
  rw [List.mem_append, List.mem_flatMap]
  refine or_congr_right ⟨?_, ?_⟩
  · rintro ⟨type, member, htype, hmember, rfl⟩
    exact ⟨type, htype, List.mem_map_of_mem hmember⟩
  · rintro ⟨type, htype, hsymbol⟩
    rcases List.mem_map.mp hsymbol with ⟨member, hmember, rfl⟩
    exact ⟨type, member, htype, hmember, rfl⟩

end Typing

/-! ## Symbols -/

namespace ClassDecl

/-- The symbols under which a class is recorded. -/
def symbols (decl : ClassDecl S) : List String :=
  decl.name.lexeme :: (decl.enums.flatMap EnumDecl.declared ++
    decl.methods.map (fun method => memberSymbol decl.name.lexeme method.name.lexeme) ++
    decl.fields.flatMap fun field =>
      [memberSymbol decl.name.lexeme field.name.lexeme, field.name.lexeme])

variable {decl : ClassDecl S}

theorem mem_symbols_member {enum : EnumDecl} {member : Token} (henum : enum ∈ decl.enums)
    (hmember : member ∈ enum.members) : member.lexeme ∈ decl.symbols := by
  refine List.mem_cons_of_mem _ (List.mem_append_left _ (List.mem_append_left _ ?_))
  exact List.mem_flatMap.mpr ⟨enum, henum, List.mem_map_of_mem hmember⟩

theorem mem_symbols_method {method : FunctionDecl S} (h : method ∈ decl.methods) :
    memberSymbol decl.name.lexeme method.name.lexeme ∈ decl.symbols := by
  refine List.mem_cons_of_mem _ (List.mem_append_left _ (List.mem_append_right _ ?_))
  exact List.mem_map_of_mem h

theorem mem_symbols_field {field : Field} (h : field ∈ decl.fields) :
    memberSymbol decl.name.lexeme field.name.lexeme ∈ decl.symbols ∧
      field.name.lexeme ∈ decl.symbols := by
  have hboth : ∀ symbol ∈ [memberSymbol decl.name.lexeme field.name.lexeme, field.name.lexeme],
      symbol ∈ decl.symbols := by
    intro symbol hsymbol
    refine List.mem_cons_of_mem _ (List.mem_append_right _ ?_)
    exact List.mem_flatMap.mpr ⟨field, h, hsymbol⟩
  exact ⟨hboth _ (by simp), hboth _ (by simp)⟩

end ClassDecl

namespace Stmt

/-- The symbols that checking a statement records in the scope it stands in. -/
def symbols : Stmt → List String
  | .classDecl decl => decl.symbols
  | .enumDecl decl => decl.declared
  | .function decl => [decl.name.lexeme]
  | .var decl => [decl.name.lexeme]
  | .ifThen _ thenBranch none => thenBranch.symbols
  | .ifThen _ thenBranch (some elseBranch) => thenBranch.symbols ++ elseBranch.symbols
  | .while _ body => body.symbols
  | _ => []

def listSymbols (list : List Stmt) : List String :=
  list.flatMap symbols

end Stmt

namespace Typing

/-- Recording declarations comes down to single entries, each under a symbol of the statement and
with one of its words as a type. -/
structure Recording (R : TypeLookup → TypeLookup → Prop) (s : Stmt) : Prop where
  declare : ∀ {a w symbol type}, R a w → symbol ∈ s.symbols → type ∈ builtinTypes ++ s.words →
    R (a.declare symbol type) (w.declare symbol type)
  specialize : ∀ {a w symbol type}, R a w → symbol ∈ s.symbols →
    type ∈ builtinTypes ++ s.words → R (a.specialize symbol type) (w.specialize symbol type)
  inherit : ∀ {a w symbol type}, R a w → symbol ∈ s.symbols → type ∈ builtinTypes ++ s.words →
    R (a.inherit symbol type) (w.inherit symbol type)

theorem foldl_pair {R : TypeLookup → TypeLookup → Prop} {f : TypeLookup → α → TypeLookup} :
    ∀ {list : List α}, (∀ item ∈ list, ∀ {a w}, R a w → R (f a item) (f w item)) →
      ∀ {a w}, R a w → R (list.foldl f a) (list.foldl f w)
  | [], _, _, _, h => h
  | _ :: _, hstep, _, _, h =>
      foldl_pair (fun item hitem => hstep item (List.mem_cons_of_mem _ hitem))
        (hstep _ List.mem_cons_self h)

/-- What single entries keep, recording a statement keeps. -/
theorem Recording.register {R : TypeLookup → TypeLookup → Prop} {s : Stmt} (h : Recording R s)
    {a w : TypeLookup} (hR : R a w) : R (register a s) (register w s) := by
  have hword {type : String} (htype : type ∈ s.words) : type ∈ builtinTypes ++ s.words :=
    List.mem_append_right _ htype
  cases s with
  | enumDecl decl =>
      refine foldl_pair (fun member hmember {a w} hR => ?_) hR
      exact h.declare hR (List.mem_map_of_mem hmember) (hword (List.mem_singleton_self _))
  | function decl =>
      exact h.declare hR (List.mem_singleton_self _) (hword List.mem_cons_self)
  | var decl =>
      refine h.specialize (h.declare hR (List.mem_singleton_self _) (hword List.mem_cons_self))
        (List.mem_singleton_self _) ?_
      exact hword (List.mem_cons_of_mem _ List.mem_cons_self)
  | classDecl decl =>
      have hown {type : String} (htype : type ∈ decl.typeWords) :
          type ∈ builtinTypes ++ (Stmt.classDecl decl).words :=
        hword (List.mem_append_left _ htype)
      have hparent : (decl.superclass.map (·.name.lexeme)).getD anyType ∈
          builtinTypes ++ (Stmt.classDecl decl).words := by
        rcases decl.mem_typeWords_parent with hany | hparent
        · rw [hany]
          exact List.mem_append_left _ (by decide)
        · exact hown hparent
      have hnamed := h.declare (h.inherit hR List.mem_cons_self hparent) List.mem_cons_self
        (hown List.mem_cons_self)
      refine foldl_pair (fun field hfield {a w} hR => ?_)
        (foldl_pair (fun method hmethod {a w} hR => ?_)
          (foldl_pair (fun enum henum {a w} hR => ?_) hnamed))
      · rcases decl.mem_symbols_field hfield with ⟨hmember, hname⟩
        rcases decl.mem_typeWords_field hfield with ⟨htype, hgeneric⟩
        exact h.specialize (h.declare hR hmember (hown htype)) hname (hown hgeneric)
      · refine h.declare hR (decl.mem_symbols_method hmethod) (hword ?_)
        exact List.mem_append_right _ (Stmt.mem_methodWords hmethod)
      · refine foldl_pair (fun member hmember {a w} hR => ?_) hR
        exact h.declare hR (decl.mem_symbols_member henum hmember)
          (hown (decl.mem_typeWords_enum henum))
  | _ => exact hR

end Typing

end MiniPascal
