import MiniPascal.Proofs.Session.Compilation
import MiniPascal.Proofs.Typing.Climbing
import MiniPascal.Typing.Check

/-!
# Types of members

A class records its methods and fields under its own name, and a member is looked up under the name
of the type of the receiver.  Parents of classes are not asked: at run time an object has the
members of all classes on its chain, but the type of a member that its own class does not declare
is open.
-/

namespace MiniPascal

/-! ## Symbols of members -/

/-- A name without the mark that stands between a class and its member. -/
def Unqualified (name : String) : Prop :=
  ':' ∉ name.toList

theorem toList_memberSymbol (className member : String) :
    (memberSymbol className member).toList =
      className.toList ++ ':' :: ':' :: member.toList := by
  rw [memberSymbol, String.toList_append, String.toList_append, List.append_assoc]
  rfl

theorem Unqualified.ne_memberSymbol {name : String} (h : Unqualified name)
    (className member : String) : name ≠ memberSymbol className member := by
  rintro rfl
  refine h ?_
  rw [toList_memberSymbol]
  exact List.mem_append_right _ List.mem_cons_self

/-- A symbol tells its class and its member. -/
theorem memberSymbol_inj {c d m n : String} (hc : Unqualified c) (hd : Unqualified d) :
    memberSymbol c m = memberSymbol d n ↔ c = d ∧ m = n := by
  constructor
  · intro h
    have hsplit := congrArg String.toList h
    rw [toList_memberSymbol, toList_memberSymbol] at hsplit
    have hstops (rest : List Char) : Text.Stops (· ≠ ':') (':' :: rest) := by
      simp [Text.Stops]
    have hclass : c.toList = d.toList := by
      have htake := congrArg (List.takeWhile (· ≠ ':')) hsplit
      rwa [Text.takeWhile_stretch (Text.all_ne hc) (hstops _),
        Text.takeWhile_stretch (Text.all_ne hd) (hstops _)] at htake
    rw [hclass] at hsplit
    have hmember := List.append_cancel_left hsplit
    simp only [List.cons.injEq, true_and] at hmember
    exact ⟨String.toList_inj.mp hclass, String.toList_inj.mp hmember⟩
  · rintro ⟨rfl, rfl⟩
    rfl

/-! ## Entries -/

namespace TypeTable

variable {table : TypeTable}

theorem find?_set (table : TypeTable) (symbol type key : String) :
    (table.set symbol type).find? key = if key = symbol then some type else table.find? key := by
  unfold set find?
  cases table.scopes with
  | nil => simp
  | cons scope outer =>
      simp only [List.findSome?_cons, Table.find?_insert]
      by_cases hkey : key = symbol
      · simp [hkey]
      · simp [hkey]

def setAll (table : TypeTable) (entries : List (String × String)) : TypeTable :=
  entries.foldl (fun table entry => table.set entry.1 entry.2) table

theorem setAll_append (table : TypeTable) (xs ys : List (String × String)) :
    table.setAll (xs ++ ys) = (table.setAll xs).setAll ys :=
  List.foldl_append

/-- The last type that is recorded counts. -/
theorem find?_setAll (entries : List (String × String)) (table : TypeTable) (key : String) :
    (table.setAll entries).find? key =
      ((entries.filter (·.1 = key)).map Prod.snd).getLast?.or (table.find? key) := by
  induction entries generalizing table with
  | nil => rfl
  | cons entry rest ih =>
      change ((table.set entry.1 entry.2).setAll rest).find? key = _
      rw [ih, find?_set]
      by_cases hkey : entry.1 = key
      · rw [List.filter_cons_of_pos (by simpa using hkey), if_pos hkey.symm, List.map_cons,
          List.getLast?_cons]
        cases ((rest.filter (·.1 = key)).map Prod.snd).getLast? <;> rfl
      · rw [List.filter_cons_of_neg (by simpa using hkey), if_neg (Ne.symm hkey)]

end TypeTable

def EnumDecl.entries (decl : EnumDecl) : List (String × String) :=
  decl.members.map fun member => (member.lexeme, decl.name.lexeme)

/-- The members of a class with their types, in the order in which they are recorded. -/
def ClassDecl.memberTypes (decl : ClassDecl Stmt) : List (String × String) :=
  decl.methods.map (fun method => (method.name.lexeme, method.returnType)) ++
    decl.fields.map fun field => (field.name.lexeme, field.typeName)

namespace Stmt

def entries : Stmt → List (String × String)
  | .enumDecl decl => decl.entries
  | .function decl => [(decl.name.lexeme, decl.returnType)]
  | .classDecl decl =>
      (decl.name.lexeme, decl.name.lexeme) :: (decl.enums.flatMap EnumDecl.entries ++
        decl.memberTypes.map fun entry => (memberSymbol decl.name.lexeme entry.1, entry.2))
  | .var decl => [(decl.name.lexeme, decl.typeName)]
  | _ => []

def parentEntries : Stmt → List (String × String)
  | .classDecl decl =>
      [(decl.name.lexeme, (decl.superclass.map (·.name.lexeme)).getD anyType)]
  | _ => []

/-- The types that a statement declares for a member of a class. -/
def typesOf (className member : String) : Stmt → List String
  | .classDecl decl =>
      if decl.name.lexeme = className then
        (decl.memberTypes.filter (·.1 = member)).map Prod.snd
      else []
  | _ => []

end Stmt

namespace Typing

/-! ## Recording entries -/

section Folds

variable (table : TypeLookup → TypeTable) (step : TypeLookup → α → TypeLookup)

/-- To record items one after the other is to record the entries of each. -/
theorem foldl_setAll (entries : α → List (String × String))
    (hstep : ∀ known item, table (step known item) = (table known).setAll (entries item))
    (list : List α) (known : TypeLookup) :
    table (list.foldl step known) = (table known).setAll (list.flatMap entries) := by
  induction list generalizing known with
  | nil => rfl
  | cons item rest ih =>
      rw [List.foldl_cons, ih, hstep, List.flatMap_cons, TypeTable.setAll_append]

theorem foldl_set (entry : α → String × String)
    (hstep : ∀ known item,
      table (step known item) = (table known).set (entry item).1 (entry item).2)
    (list : List α) (known : TypeLookup) :
    table (list.foldl step known) = (table known).setAll (list.map entry) := by
  rw [foldl_setAll table step (fun item => [entry item]) hstep, List.map_eq_flatMap]

theorem foldl_same (hstep : ∀ known item, table (step known item) = table known) (list : List α)
    (known : TypeLookup) : table (list.foldl step known) = table known := by
  rw [foldl_setAll table step (fun _ => []) hstep, List.flatMap_eq_nil_iff.mpr fun _ _ => rfl]
  rfl

end Folds

theorem declared_registerEnum (known : TypeLookup) (decl : EnumDecl) :
    (registerEnum known decl).declared = known.declared.setAll decl.entries :=
  foldl_set (·.declared)
    (fun known (member : Token) => known.declare member.lexeme decl.name.lexeme)
    (fun member => (member.lexeme, decl.name.lexeme)) (fun _ _ => rfl) decl.members known

theorem parents_registerEnum (known : TypeLookup) (decl : EnumDecl) :
    (registerEnum known decl).parents = known.parents :=
  foldl_same (·.parents)
    (fun known (member : Token) => known.declare member.lexeme decl.name.lexeme) (fun _ _ => rfl)
    decl.members known

theorem declared_registerClass (known : TypeLookup) (decl : ClassDecl Stmt) :
    (registerClass known decl).declared = known.declared.setAll (Stmt.classDecl decl).entries := by
  unfold registerClass
  dsimp only
  rw [foldl_set (·.declared) (registerField decl.name.lexeme)
      (fun field => (memberSymbol decl.name.lexeme field.name.lexeme, field.typeName))
      (fun _ _ => rfl),
    foldl_set (·.declared) (registerMethod decl.name.lexeme)
      (fun method => (memberSymbol decl.name.lexeme method.name.lexeme, method.returnType))
      (fun _ _ => rfl),
    foldl_setAll (·.declared) registerEnum EnumDecl.entries declared_registerEnum,
    ← TypeTable.setAll_append, ← TypeTable.setAll_append, Stmt.entries, ClassDecl.memberTypes,
    List.map_append, List.map_map, List.map_map]
  rfl

theorem parents_registerClass (known : TypeLookup) (decl : ClassDecl Stmt) :
    (registerClass known decl).parents =
      known.parents.setAll (Stmt.classDecl decl).parentEntries := by
  unfold registerClass
  dsimp only
  rw [foldl_same (·.parents) (registerField decl.name.lexeme) (fun _ _ => rfl),
    foldl_same (·.parents) (registerMethod decl.name.lexeme) (fun _ _ => rfl),
    foldl_same (·.parents) registerEnum parents_registerEnum]
  rfl

theorem declared_register (known : TypeLookup) (s : Stmt) :
    (register known s).declared = known.declared.setAll s.entries := by
  cases s with
  | enumDecl decl => exact declared_registerEnum known decl
  | classDecl decl => exact declared_registerClass known decl
  | _ => rfl

theorem parents_register (known : TypeLookup) (s : Stmt) :
    (register known s).parents = known.parents.setAll s.parentEntries := by
  cases s with
  | enumDecl decl => exact parents_registerEnum known decl
  | classDecl decl => exact parents_registerClass known decl
  | _ => rfl

/-! ## Open scopes -/

/-- What is known where scopes are open, the innermost of them first: each has recorded what its
statements declare. -/
def registered : List (List Stmt) → TypeLookup
  | [] => .empty
  | scope :: outer =>
      scope.foldl register (if outer.isEmpty then .empty else (registered outer).enter)

/-- The type that is declared last for a member of a class, in the innermost scope that declares
any. -/
def memberType? (scopes : List (List Stmt)) (className member : String) : Option String :=
  scopes.findSome? fun scope => (scope.flatMap (Stmt.typesOf className member)).getLast?

def DeclaresClass (scopes : List (List Stmt)) (className : String) : Prop :=
  ∃ scope ∈ scopes, ∃ decl : ClassDecl Stmt,
    .classDecl decl ∈ scope ∧ decl.name.lexeme = className

variable {scopes : List (List Stmt)} {className member : String}

/-- The innermost scope with entries for a symbol counts. -/
theorem find?_registered (table : TypeLookup → TypeTable) (entries : Stmt → List (String × String))
    (hregister : ∀ known s, table (register known s) = (table known).setAll (entries s))
    (henter : ∀ known key, (table known.enter).find? key = (table known).find? key)
    (scope : List Stmt) (outer : List (List Stmt)) (key : String) :
    (table (registered (scope :: outer))).find? key =
      (((scope.flatMap entries).filter (·.1 = key)).map Prod.snd).getLast?.or
        ((table (registered outer)).find? key) := by
  rw [registered, foldl_setAll table register entries hregister, TypeTable.find?_setAll]
  cases outer with
  | nil => rfl
  | cons inner outer => exact congrArg _ (henter _ key)

theorem filter_memberSymbol {entries : List (String × String)}
    (h : ∀ entry ∈ entries, Unqualified entry.1) :
    entries.filter (·.1 = memberSymbol className member) = [] := by
  rw [List.filter_eq_nil_iff]
  intro entry hentry hsame
  exact (h entry hentry).ne_memberSymbol className member (of_decide_eq_true hsame)

/-- A statement records types for a member of a class just where it declares the class. -/
theorem typesOf_eq {s : Stmt} (hs : s.Tidy Unqualified) (hclass : Unqualified className) :
    (s.entries.filter (·.1 = memberSymbol className member)).map Prod.snd =
      s.typesOf className member := by
  cases s with
  | enumDecl decl =>
      rw [Stmt.entries, filter_memberSymbol]
      · rfl
      · exact List.forall_mem_map.mpr hs
  | function decl =>
      rw [Stmt.entries, filter_memberSymbol]
      · rfl
      · exact List.forall_mem_singleton.mpr hs.1
  | var decl =>
      rw [Stmt.entries, filter_memberSymbol]
      · rfl
      · exact List.forall_mem_singleton.mpr hs
  | classDecl decl =>
      have hname : Unqualified decl.name.lexeme := hs.1
      have henums : ∀ entry ∈ decl.enums.flatMap EnumDecl.entries, Unqualified entry.1 := by
        intro entry hentry
        rcases List.mem_flatMap.mp hentry with ⟨enum, henum, hentry⟩
        rcases List.mem_map.mp hentry with ⟨token, htoken, rfl⟩
        exact hs.2.1 enum henum token htoken
      rw [Stmt.entries, List.filter_cons_of_neg, List.filter_append, filter_memberSymbol henums,
        List.nil_append, List.filter_map, List.map_map]
      · rw [Stmt.typesOf]
        by_cases hsame : decl.name.lexeme = className
        · rw [if_pos hsame]
          congr 1
          refine List.filter_congr fun entry _ => ?_
          exact decide_eq_decide.mpr ((memberSymbol_inj hname hclass).trans (and_iff_right hsame))
        · rw [if_neg hsame, List.map_eq_nil_iff, List.filter_eq_nil_iff]
          intro entry _ hmatch
          exact hsame ((memberSymbol_inj hname hclass).mp (of_decide_eq_true hmatch)).1
      · simpa using hname.ne_memberSymbol className member
  | _ => rfl

theorem find?_registered_member
    (hscopes : ∀ scope ∈ scopes, ∀ s ∈ scope, s.Tidy Unqualified) (hclass : Unqualified className) :
    (registered scopes).declared.find? (memberSymbol className member) =
      memberType? scopes className member := by
  induction scopes with
  | nil => rfl
  | cons scope outer ih =>
      rcases List.forall_mem_cons.mp hscopes with ⟨hscope, houter⟩
      have hentries : ((scope.flatMap Stmt.entries).filter
          (·.1 = memberSymbol className member)).map Prod.snd =
            scope.flatMap (Stmt.typesOf className member) := by
        rw [List.filter_flatMap, List.map_flatMap]
        exact List.flatMap_congr fun s hs => typesOf_eq (hscope s hs) hclass
      rw [find?_registered (·.declared) Stmt.entries declared_register (fun _ _ => rfl), hentries,
        ih houter]
      unfold memberType?
      rw [List.findSome?_cons]
      cases (scope.flatMap (Stmt.typesOf className member)).getLast? <;> rfl

theorem declaresClass_of_parent
    (h : ((registered scopes).parents.find? className).isSome) :
    DeclaresClass scopes className := by
  induction scopes with
  | nil => cases h
  | cons scope outer ih =>
      rw [find?_registered (·.parents) Stmt.parentEntries parents_register (fun _ _ => rfl),
        Option.isSome_or, Bool.or_eq_true] at h
      rcases h with hhere | houter
      · rcases Option.isSome_iff_exists.mp hhere with ⟨type, htype⟩
        rcases List.mem_map.mp (List.mem_of_getLast? htype) with ⟨entry, hentry, -⟩
        rcases List.mem_filter.mp hentry with ⟨hentry, hname⟩
        rcases List.mem_flatMap.mp hentry with ⟨s, hs, hentry⟩
        cases s with
        | classDecl decl =>
            rw [List.mem_singleton.mp hentry] at hname
            exact ⟨scope, List.mem_cons_self, decl, hs, of_decide_eq_true hname⟩
        | _ => cases hentry
      · rcases ih houter with ⟨other, hother, hdecl⟩
        exact ⟨other, List.mem_cons_of_mem _ hother, hdecl⟩

theorem declaresClass_of_member {type : String}
    (h : memberType? scopes className member = some type) : DeclaresClass scopes className := by
  rcases List.exists_of_findSome?_eq_some h with ⟨scope, hscope, htype⟩
  rcases List.mem_flatMap.mp (List.mem_of_getLast? htype) with ⟨s, hs, htype⟩
  cases s with
  | classDecl decl =>
      rw [Stmt.typesOf] at htype
      split at htype
      · next hname => exact ⟨scope, hscope, decl, hs, hname⟩
      · cases htype
  | _ => cases htype

theorem DeclaresClass.unqualified (h : DeclaresClass scopes className)
    (hscopes : ∀ scope ∈ scopes, ∀ s ∈ scope, s.Tidy Unqualified) : Unqualified className := by
  rcases h with ⟨scope, hscope, decl, hdecl, rfl⟩
  exact (hscopes scope hscope _ hdecl).1

end Typing

/-! ## Parts of programs -/

def Stmt.parts : Stmt → List Stmt
  | .block body => body
  | .classDecl decl => decl.methods.flatMap (·.body)
  | .function decl => decl.body
  | .ifThen _ thenBranch elseBranch => thenBranch :: elseBranch.toList
  | .while _ body => [body]
  | .try _ body handlers otherwise => body ++ handlers.map (·.body) ++ otherwise
  | _ => []

/-- A statement stands in a program, at top level or inside of others. -/
inductive Stmt.Within (program : List Stmt) : Stmt → Prop
  | top {s : Stmt} (h : s ∈ program) : Within program s
  | inside {s part : Stmt} (h : Within program s) (hpart : part ∈ s.parts) : Within program part

namespace Stmt

variable {N : String → Prop}

theorem TidyMethods.mem {methods : List Function} {method : Function}
    (h : TidyMethods N methods) (hmethod : method ∈ methods) : TidyList N method.body := by
  induction methods with
  | nil => cases hmethod
  | cons first rest ih =>
      rcases List.mem_cons.mp hmethod with rfl | hmethod
      · exact h.2.1
      · exact ih h.2.2 hmethod

theorem TidyHandlers.mem {handlers : List (Handler Stmt)} {handler : Handler Stmt}
    (h : TidyHandlers N handlers) (hhandler : handler ∈ handlers) : handler.body.Tidy N := by
  induction handlers with
  | nil => cases hhandler
  | cons first rest ih =>
      rcases List.mem_cons.mp hhandler with rfl | hhandler
      · exact h.2.2.1
      · exact ih h.2.2.2 hhandler

theorem Tidy.part {s part : Stmt} (h : s.Tidy N) (hpart : part ∈ s.parts) : part.Tidy N := by
  cases s with
  | block body => exact TidyList.mem h hpart
  | classDecl decl =>
      rcases List.mem_flatMap.mp hpart with ⟨method, hmethod, hpart⟩
      exact (h.2.2.mem hmethod).mem hpart
  | function decl => exact h.2.2.mem hpart
  | ifThen condition thenBranch elseBranch =>
      cases elseBranch with
      | none =>
          rw [List.mem_singleton.mp hpart]
          exact h.2
      | some elseBranch =>
          rcases List.mem_cons.mp hpart with rfl | hpart
          · exact h.2.1
          · rw [List.mem_singleton.mp hpart]
            exact h.2.2.2
  | «while» condition body =>
      rw [List.mem_singleton.mp hpart]
      exact h.2
  | «try» keyword body handlers otherwise =>
      rcases List.mem_append.mp hpart with hpart | hpart
      · rcases List.mem_append.mp hpart with hpart | hpart
        · exact h.1.mem hpart
        · rcases List.mem_map.mp hpart with ⟨handler, hhandler, rfl⟩
          exact h.2.1.mem hhandler
      · exact h.2.2.mem hpart
  | _ => cases hpart

theorem Within.tidy {program : List Stmt} {s : Stmt} (h : Within program s)
    (hprogram : TidyList N program) : s.Tidy N := by
  induction h with
  | top h => exact hprogram.mem h
  | inside _ hpart ih => exact ih.part hpart

def Parsed (s : Stmt) : Prop :=
  ∃ (mode : Recovery) (firstId : NodeId) (source : Source) (program : List Stmt),
    (parseProgram mode firstId (Lexer.scan source)).result = .ok program ∧ Within program s

theorem Parsed.tidy {s : Stmt} (h : s.Parsed) : s.Tidy Unqualified := by
  rcases h with ⟨mode, firstId, source, program, hparse, hwithin⟩
  have hnames : ∀ token ∈ (Lexer.scan source).tokens, token.kind = .identifier →
      Unqualified token.lexeme :=
    fun token => Compile.not_mem_of_identifier (by decide +kernel)
  exact hwithin.tidy (parseProgram_numbered (Lexer.last_kind source) hnames hparse).tidy

end Stmt

/-! ## Receivers -/

namespace TypeLookup

/-- The type of the receiver of a member: the one by declared types, or if that is open, the one by
inferred types. -/
def receiverType (known : TypeLookup) (e : Expr) : Except TypeError String := do
  let type ← known.typeOf e
  if isAny type then Typing.reduce known known.inferred e else .ok type

theorem typeOf_get {known : TypeLookup} {e : Expr} {receiver : String}
    (h : known.receiverType e = .ok receiver) (name : Token) :
    known.typeOf (.get e name) =
      .ok ((known.declared.find? (memberSymbol receiver name.lexeme)).getD anyType) := by
  unfold receiverType at h
  change Typing.reduce known known.declared (.get e name) = _
  rw [Typing.reduce]
  cases htype : known.typeOf e with
  | error error =>
      rw [htype] at h
      cases h
  | ok type =>
      rw [htype] at h
      rw [show Typing.reduce known known.declared e = .ok type from htype]
      change (if isAny type then Typing.reduce known known.inferred e else .ok type) = _ at h
      dsimp only [bind, Except.bind]
      by_cases hany : isAny type = true
      · rw [if_pos hany] at h ⊢
        rw [h]
        rfl
      · rw [if_neg hany] at h ⊢
        cases h
        rfl

/-- The classes that are known, with their parents and members, are those of the given scopes. -/
structure Sees (known : TypeLookup) (scopes : List (List Stmt)) : Prop where
  members : ∀ className member, Unqualified className →
    known.declared.find? (memberSymbol className member) =
      (Typing.registered scopes).declared.find? (memberSymbol className member)
  parents : ∀ className,
    known.parents.find? className = (Typing.registered scopes).parents.find? className

namespace Sees

variable {known : TypeLookup} {scopes : List (List Stmt)}

theorem registered (scopes : List (List Stmt)) : (Typing.registered scopes).Sees scopes :=
  ⟨fun _ _ _ => rfl, fun _ => rfl⟩

theorem enter (h : known.Sees scopes) : known.enter.Sees scopes :=
  ⟨h.members, h.parents⟩

theorem declare (h : known.Sees scopes) {symbol : String} (hsymbol : Unqualified symbol)
    (type : String) : (known.declare symbol type).Sees scopes := by
  refine ⟨fun className member hclass => ?_, h.parents⟩
  change (known.declared.set symbol type).find? _ = _
  rw [TypeTable.find?_set, if_neg (hsymbol.ne_memberSymbol className member).symm]
  exact h.members className member hclass

end Sees

end TypeLookup

namespace Typing

variable {scopes : List (List Stmt)} {known : TypeLookup} {e : Expr} {name : Token}
variable {receiver ancestor type : String} {below : List String}

/-- All classes on a chain with a member at its end are declared. -/
theorem declaresClass_of_chain (hknown : known.Sees scopes)
    (hchain : chain known.parents.find? (below.length + 1) (some receiver) = below ++ [ancestor])
    (hmember : memberType? scopes ancestor name.lexeme = some type) :
    DeclaresClass scopes receiver := by
  rw [chain] at hchain
  cases below with
  | nil =>
      cases hchain
      exact declaresClass_of_member hmember
  | cons first rest =>
      have hrest := (List.cons_eq_cons.mp hchain).2
      refine declaresClass_of_parent ?_
      rw [← hknown.parents]
      cases hparent : known.parents.find? receiver with
      | none =>
          rw [hparent] at hrest
          simp [chain] at hrest
      | some parent => rfl

/-- A member has the type that the class of the receiver declares for it; else its type is open. -/
theorem typeOf_member
    (hscopes : ∀ scope ∈ scopes, ∀ s ∈ scope, s.Parsed) (hknown : known.Sees scopes)
    (hreceiver : known.receiverType e = .ok receiver) (hclass : DeclaresClass scopes receiver) :
    known.typeOf (.get e name) =
      .ok ((memberType? scopes receiver name.lexeme).getD anyType) := by
  have htidy : ∀ scope ∈ scopes, ∀ s ∈ scope, s.Tidy Unqualified :=
    fun scope hscope s hs => (hscopes scope hscope s hs).tidy
  have hplain := hclass.unqualified htidy
  rw [TypeLookup.typeOf_get hreceiver, hknown.members receiver name.lexeme hplain,
    find?_registered_member htidy hplain]

/-- A class on the chain from the type of the receiver declares a member, and none in front of it
does.  If it is the type of the receiver itself, the member has the type that is declared last;
otherwise its type is open. -/
theorem only_own_members_have_types
    (hscopes : ∀ scope ∈ scopes, ∀ s ∈ scope, s.Parsed) (hknown : known.Sees scopes)
    (hreceiver : known.receiverType e = .ok receiver)
    (hchain : chain known.parents.find? (below.length + 1) (some receiver) = below ++ [ancestor])
    (hbelow : ∀ className ∈ below, memberType? scopes className name.lexeme = none)
    (hmember : memberType? scopes ancestor name.lexeme = some type) :
    known.typeOf (.get e name) = .ok (if receiver = ancestor then type else anyType) := by
  rw [typeOf_member hscopes hknown hreceiver (declaresClass_of_chain hknown hchain hmember)]
  rw [chain] at hchain
  cases below with
  | nil =>
      cases hchain
      rw [hmember, if_pos rfl]
      rfl
  | cons first rest =>
      cases (List.cons_eq_cons.mp hchain).1
      have hnone := hbelow receiver List.mem_cons_self
      rw [hnone, if_neg]
      · rfl
      · rintro rfl
        rw [hnone] at hmember
        cases hmember

/-- What is known inside of a function with a parameter. -/
def withParameter (program : List Stmt) (param : Token) (typeName : String) : TypeLookup :=
  (registered [program]).enter.declare param.lexeme typeName

theorem sees_withParameter (program : List Stmt) {param : Token} (hparam : Unqualified param.lexeme)
    (typeName : String) : (withParameter program param typeName).Sees [program] :=
  (TypeLookup.Sees.registered [program]).enter.declare hparam typeName

theorem receiverType_parameter (program : List Stmt) (id : NodeId) (param : Token)
    {typeName : String} (h : isAny typeName = false) :
    (withParameter program param typeName).receiverType (.variable id param) = .ok typeName := by
  have htype : (withParameter program param typeName).typeOf (.variable id param) =
      .ok typeName := by
    change Except.ok (((((registered [program]).declared.enter).set param.lexeme typeName).find?
      param.lexeme).getD _) = _
    rw [TypeTable.find?_set, if_pos rfl]
    rfl
  unfold TypeLookup.receiverType
  rw [htype]
  change (if isAny typeName then _ else _) = _
  rw [h]
  rfl

def inheriting : Source where
  path := "main.pas"
  text := "class A; begin function F : Integer; begin exit 1; end end class B(A); begin end"

def parameterX : Token :=
  ⟨.identifier, "X", ⟨1, 1⟩, "main.pas"⟩

def memberF : Token :=
  ⟨.identifier, "F", ⟨1, 3⟩, "main.pas"⟩

/-- The parent of the class, and the types that the class and the parent declare for the function,
if the source can be parsed. -/
def inheritance? (source : Source) : Option (Option String × Option String × Option String) :=
  match (parseProgram .strict 0 (Lexer.scan source)).result with
  | .ok program => some ((registered [program]).parents.find? "B",
      memberType? [program] "B" memberF.lexeme, memberType? [program] "A" memberF.lexeme)
  | .error _ => none

theorem parsed_inheriting : ∃ program : List Stmt,
    (∀ scope ∈ [program], ∀ s ∈ scope, s.Parsed) ∧
      (registered [program]).parents.find? "B" = some "A" ∧
      memberType? [program] "B" memberF.lexeme = none ∧
      memberType? [program] "A" memberF.lexeme = some "Integer" := by
  have hfacts : inheritance? inheriting = some (some "A", none, some "Integer") := by
    decide +kernel
  unfold inheritance? at hfacts
  split at hfacts
  · next program hparse =>
      rcases Prod.mk.inj (Option.some.inj hfacts) with ⟨hparent, hmembers⟩
      rcases Prod.mk.inj hmembers with ⟨hnone, hsome⟩
      refine ⟨program, List.forall_mem_singleton.mpr fun s hs => ?_, hparent, hnone, hsome⟩
      exact ⟨.strict, 0, inheriting, program, hparse, .top hs⟩
  · cases hfacts

theorem unqualified_parameterX : Unqualified parameterX.lexeme := by
  unfold Unqualified
  decide

theorem chain_to_parent {program : List Stmt} {param : Token} {className parent : String}
    (hparent : (registered [program]).parents.find? className = some parent) :
    chain (withParameter program param className).parents.find? ([className].length + 1)
      (some className) = [className] ++ [parent] := by
  change className :: chain _ 1 ((registered [program]).parents.find? className) = _
  rw [hparent]
  rfl

/-- The function has its type for an instance of the parent, and none for one of the class. -/
theorem only_own_members_have_types_inherited :
    ∃ program : List Stmt, (∀ scope ∈ [program], ∀ s ∈ scope, s.Parsed) ∧
      (withParameter program parameterX "A").typeOf (.get (.variable 0 parameterX) memberF) =
        .ok "Integer" ∧
      (withParameter program parameterX "B").typeOf (.get (.variable 0 parameterX) memberF) =
        .ok anyType := by
  rcases parsed_inheriting with ⟨program, hparsed, hparent, hnone, hsome⟩
  refine ⟨program, hparsed, ?_, ?_⟩
  · have hchain : chain (withParameter program parameterX "A").parents.find?
        (([] : List String).length + 1) (some "A") = [] ++ ["A"] := rfl
    have htype := only_own_members_have_types hparsed
      (sees_withParameter program unqualified_parameterX "A")
      (receiverType_parameter program 0 parameterX (by decide)) hchain (List.forall_mem_nil _) hsome
    rwa [if_pos rfl] at htype
  · have htype := only_own_members_have_types hparsed
      (sees_withParameter program unqualified_parameterX "B")
      (receiverType_parameter program 0 parameterX (by decide)) (chain_to_parent hparent)
      (List.forall_mem_singleton.mpr hnone) hsome
    rwa [if_neg (by decide)] at htype

/-- A member that is inherited has not the type that its class declares. -/
theorem inherited_members_lack_types :
    ¬∀ (scopes : List (List Stmt)) (known : TypeLookup) (e : Expr) (name : Token)
        (receiver ancestor type : String) (below : List String),
      (∀ scope ∈ scopes, ∀ s ∈ scope, s.Parsed) → known.Sees scopes →
      known.receiverType e = .ok receiver →
      chain known.parents.find? (below.length + 1) (some receiver) = below ++ [ancestor] →
      (below ++ [ancestor]).Nodup →
      (∀ className ∈ below, memberType? scopes className name.lexeme = none) →
      memberType? scopes ancestor name.lexeme = some type →
      known.typeOf (.get e name) = .ok type := by
  intro hinherit
  rcases parsed_inheriting with ⟨program, hparsed, hparent, hnone, hsome⟩
  have hknown := sees_withParameter program unqualified_parameterX "B"
  have hreceiver : (withParameter program parameterX "B").receiverType (.variable 0 parameterX) =
      .ok "B" := receiverType_parameter program 0 parameterX (by decide)
  have htype := hinherit [program] _ _ memberF "B" "A" "Integer" ["B"] hparsed hknown hreceiver
    (chain_to_parent hparent) (by decide) (List.forall_mem_singleton.mpr hnone) hsome
  rw [typeOf_member hparsed hknown hreceiver
    (declaresClass_of_chain hknown (chain_to_parent hparent) hsome), hnone] at htype
  exact absurd (Except.ok.inj htype) (by decide)

end Typing

end MiniPascal
