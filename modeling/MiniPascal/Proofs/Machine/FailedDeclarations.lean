import MiniPascal.Proofs.Machine.Bindings
import MiniPascal.Proofs.Machine.UnhandledErrors

/-!
# Declarations that fail

An enumeration declares its members one by one, and a class declares those of its enumerations
before it looks its superclass up and declares its own name.  Nothing is taken back when one of
these steps fails: the members declared by then stay.  Besides them, a declaration that fails
leaves all frames and the parents of classes as they were.
-/

namespace MiniPascal

/-! ## The members of enumerations -/

namespace EnumDecl

/-- A member of an enumeration with the value that it is declared with. -/
def binding (enumName : String) (member : Token × Nat) : Token × Value :=
  (member.1, .enum { enumName, name := member.1.lexeme, ordinal := Int64.ofNat member.2 })

def bindings (decl : EnumDecl) : List (Token × Value) :=
  decl.members.zipIdx.map (binding decl.name.lexeme)

end EnumDecl

namespace Stmt

/-- Enumerations and classes. -/
def DeclaresType : Stmt → Prop
  | .enumDecl _ | .classDecl _ => True
  | _ => False

/-- The enumeration members that a statement declares in the scope around it, in order. -/
def memberBindings : Stmt → List (Token × Value)
  | .enumDecl decl => decl.bindings
  | .classDecl decl => decl.enums.flatMap EnumDecl.bindings
  | _ => []

end Stmt

/-! ## Names added to a frame -/

/-- Names have been declared in the innermost frame of an environment, which did not have them, and
nothing else has become of frames and of the parents of classes. -/
structure Store.Adds (env : Env) (names : List (Token × Value)) (s s' : Store) : Prop where
  parents : s'.parents = s.parents
  frames : s.frames.size ≤ s'.frames.size
  kept : ∀ frame, frame < s.frames.size → ∀ name,
    (env.head? = some frame → name ∉ names.map (·.1.lexeme)) →
    (s'.frame frame).find? name = (s.frame frame).find? name
  added : ∀ frame, frame < s.frames.size → env.head? = some frame → ∀ entry ∈ names,
    (s.frame frame).find? entry.1.lexeme = none ∧
      (s'.frame frame).find? entry.1.lexeme = some entry.2

namespace Store.Adds

variable {env : Env} {s s' s'' : Store}

theorem of_lasts (h : s.Lasts s') (hparents : s'.parents = s.parents) : s.Adds env [] s' where
  parents := hparents
  frames := h.same.frames
  kept frame hframe name _ := by
    cases hvalue : (s.frame frame).find? name with
    | some value => exact h.same.kept frame name value hvalue not_false
    | none =>
        cases hvalue' : (s'.frame frame).find? name with
        | none => rfl
        | some value =>
            have hsome : ((s'.frame frame).find? name).isSome = true := by
              rw [hvalue']
              rfl
            exact (h.same.names frame hframe name hvalue hsome).elim
  added frame _ _ entry hentry := by cases hentry

theorem bindHere {name : Token} (value : Value) (hfree : s.findHere? env name.lexeme = none) :
    s.Adds env [(name, value)] (s.bindHere env name.lexeme value) := by
  cases env with
  | nil =>
      constructor
      · rfl
      · exact Nat.le_refl _
      · intro frame _ key _
        rfl
      · intro frame _ hhead
        cases hhead
  | cons here outer =>
      constructor
      · rfl
      · simp [Store.bindHere, Store.bindIn]
      · intro frame _ key hkey
        show ((s.bindIn here name.lexeme value).frame frame).find? key = _
        rw [find?_bindIn, if_neg]
        rintro ⟨⟨rfl, -⟩, rfl⟩
        exact hkey rfl (List.mem_singleton_self _)
      · intro frame hframe hhead entry hentry
        cases hhead
        cases List.mem_singleton.mp hentry
        constructor
        · exact hfree
        · show ((s.bindIn here name.lexeme value).frame here).find? name.lexeme = _
          rw [find?_bindIn, if_pos ⟨⟨rfl, hframe⟩, rfl⟩]

theorem trans {names more : List (Token × Value)} (h : s.Adds env names s')
    (h' : s'.Adds env more s'') : s.Adds env (names ++ more) s'' where
  parents := h'.parents.trans h.parents
  frames := Nat.le_trans h.frames h'.frames
  kept frame hframe name hname := by
    rw [List.map_append] at hname
    have hlater := h'.kept frame (Nat.lt_of_lt_of_le hframe h.frames) name fun hhead hmem =>
      hname hhead (List.mem_append_right _ hmem)
    have hearlier := h.kept frame hframe name fun hhead hmem =>
      hname hhead (List.mem_append_left _ hmem)
    exact hlater.trans hearlier
  added frame hframe hhead entry hentry := by
    have hframe' := Nat.lt_of_lt_of_le hframe h.frames
    rcases List.mem_append.mp hentry with hentry | hentry
    · obtain ⟨hfree, hbound⟩ := h.added frame hframe hhead entry hentry
      -- what is bound by now is not declared again
      have hother : entry.1.lexeme ∉ more.map (·.1.lexeme) := by
        intro hmem
        obtain ⟨again, hagain, hsame⟩ := List.mem_map.mp hmem
        have hnone := (h'.added frame hframe' hhead again hagain).1
        rw [hsame, hbound] at hnone
        cases hnone
      exact ⟨hfree, (h'.kept frame hframe' _ fun _ => hother).trans hbound⟩
    · obtain ⟨hfree, hbound⟩ := h'.added frame hframe' hhead entry hentry
      refine ⟨?_, hbound⟩
      cases hvalue : (s.frame frame).find? entry.1.lexeme with
      | none => rfl
      | some value =>
          have hother : entry.1.lexeme ∉ names.map (·.1.lexeme) := by
            intro hmem
            obtain ⟨first, hfirst, hsame⟩ := List.mem_map.mp hmem
            have hnone := (h.added frame hframe hhead first hfirst).1
            rw [hsame, hvalue] at hnone
            cases hnone
          rw [h.kept frame hframe _ fun _ => hother, hvalue] at hfree
          cases hfree

theorem trans_nothing {names : List (Token × Value)} (h : s.Adds env names s')
    (h' : s'.Adds env [] s'') : s.Adds env names s'' := by
  have hboth := h.trans h'
  rwa [List.append_nil] at hboth

end Store.Adds

/-! ## Declaring names one by one -/

namespace Exec

variable {env : Env} {s s' : Store}

/-- Declares names in the innermost frame, one by one. -/
def defineEach (env : Env) : List (Token × Value) → Eval Unit
  | [] => pure ()
  | (name, value) :: rest => do
      Eval.define env name value
      defineEach env rest

theorem defineEach_append (front back : List (Token × Value)) :
    defineEach env (front ++ back) = (do
      defineEach env front
      defineEach env back) := by
  induction front with
  | nil => rfl
  | cons entry front ih =>
      rw [List.cons_append, defineEach, defineEach, ih, bind_assoc]

theorem defineMembers_eq (enumName : String) (members : List Token) : ∀ ordinal,
    defineMembers env enumName ordinal members =
      defineEach env ((members.zipIdx ordinal).map (EnumDecl.binding enumName)) := by
  induction members with
  | nil =>
      intro ordinal
      rfl
  | cons member rest ih =>
      intro ordinal
      rw [defineMembers, ih]
      rfl

theorem defineEnum_eq (decl : EnumDecl) : defineEnum env decl = defineEach env decl.bindings :=
  defineMembers_eq decl.name.lexeme decl.members 0

theorem defineEnums_eq (decls : List EnumDecl) :
    defineEnums env decls = defineEach env (decls.flatMap EnumDecl.bindings) := by
  induction decls with
  | nil => rfl
  | cons decl rest ih =>
      rw [defineEnums, List.flatMap_cons, defineEach_append, defineEnum_eq, ih]

/-- A name is refused if the innermost frame has it, unless it is to be a function. -/
theorem define_value_cases (env : Env) (s : Store) (name : Token) {value : Value}
    (hvalue : ∀ f, value ≠ .function f) :
    (s.findHere? env name.lexeme = none ∧
      Eval.define env name value s = .ok () (s.bindHere env name.lexeme value)) ∨
    ((s.findHere? env name.lexeme).isSome ∧
      Eval.define env name value s = .error (.error ⟨name, .variableExists, none⟩) s) := by
  rw [Eval.define_run]
  unfold Store.definition
  cases hfind : s.findHere? env name.lexeme with
  | none => exact .inl ⟨rfl, rfl⟩
  | some found =>
      cases found with
      | function existing =>
          cases value with
          | function f => exact absurd rfl (hvalue f)
          | _ => exact .inr ⟨rfl, rfl⟩
      | _ => exact .inr ⟨rfl, rfl⟩

/-- Names are declared up to the first one that is refused. -/
theorem defineEach_cases (env : Env) (s : Store) {names : List (Token × Value)}
    (hvalues : ∀ entry ∈ names, ∀ f, entry.2 ≠ .function f) :
    (∃ s', defineEach env names s = .ok () s' ∧ s.Adds env names s') ∨
    ∃ front refused back s', names = front ++ refused :: back ∧ s.Adds env front s' ∧
      (s'.findHere? env refused.1.lexeme).isSome ∧
      defineEach env names s = .error (.error ⟨refused.1, .variableExists, none⟩) s' := by
  induction names generalizing s with
  | nil => exact .inl ⟨s, rfl, .of_lasts (.refl s) rfl⟩
  | cons entry rest ih =>
      obtain ⟨name, value⟩ := entry
      have hrest : ∀ entry ∈ rest, ∀ f, entry.2 ≠ .function f :=
        fun entry hentry => hvalues entry (List.mem_cons_of_mem _ hentry)
      rcases define_value_cases env s name (hvalues _ List.mem_cons_self) with
        ⟨hfree, hrun⟩ | ⟨htaken, hrun⟩
      · have hfirst := Store.Adds.bindHere value hfree
        rw [defineEach, bind_of_ok hrun]
        rcases ih _ hrest with ⟨s', hall, hadds⟩ | ⟨front, refused, back, s', rfl, hadds, hstop⟩
        · exact .inl ⟨s', hall, hfirst.trans hadds⟩
        · exact .inr ⟨(name, value) :: front, refused, back, s', rfl, hfirst.trans hadds, hstop⟩
      · rw [defineEach, bind_of_error hrun]
        exact .inr ⟨[], (name, value), rest, s, rfl, .of_lasts (.refl s) rfl, htaken, rfl⟩

/-! ## Declaring a class -/

/-- A property is found as it is, or it is a method, which is bound to the instance. -/
theorem property?_cases (self : Instance) (name : String) (s : Store) :
    (∃ found, Eval.property? self name s = .ok found s) ∨
      ∃ method, Eval.property? self name s =
        .ok (some (.function (s.bindMethod method self).1)) (s.bindMethod method self).2 := by
  by_cases hclass : Text.sameName name "classname" = true
  · refine .inl ⟨some (.string self.cls.name), ?_⟩
    rw [Eval.property?, if_pos hclass]
    rfl
  · rw [Eval.property?, if_neg hclass, get_bind]
    cases (s.fieldsOf self).find? name with
    | some value => exact .inl ⟨some value, rfl⟩
    | none =>
        cases self.cls.findMethod name with
        | some method => exact .inr ⟨method, rfl⟩
        | none => exact .inl ⟨none, rfl⟩

/-- Looking a name up leaves everything as it is, or binds a method to the instance around. -/
theorem lookUp_behind (cx : Context) (id : NodeId) (name : Token) (s : Store) :
    Store.behind (Eval.lookUp cx id name s) = s ∨
      ∃ method self, Store.behind (Eval.lookUp cx id name s) = (s.bindMethod method self).2 := by
  unfold Eval.lookUp
  obtain ⟨found, hfound, -⟩ := readVariable_run cx id name.lexeme s
  rw [bind_of_ok hfound]
  cases found with
  | some value => exact .inl rfl
  | none =>
      obtain ⟨receiver, hreceiver, -⟩ := thisInstance?_run cx.env s
      dsimp only
      rw [bind_of_ok hreceiver]
      cases receiver with
      | none => exact .inl rfl
      | some self =>
          dsimp only
          rcases property?_cases self name.lexeme s with ⟨property, hrun⟩ | ⟨method, hrun⟩
          · rw [bind_of_ok hrun]
            cases property with
            | some value => exact .inl rfl
            | none => exact .inl rfl
          · rw [bind_of_ok hrun]
            exact .inr ⟨method, self, rfl⟩

/-- The superclass is looked up, and nothing is declared. -/
theorem superclass?_adds (cx : Context) (parent : Option Superclass) (s : Store) :
    s.Adds cx.env [] (Store.behind (superclass? cx parent s)) := by
  apply Store.Adds.of_lasts (superclass?_steady cx parent s)
  cases parent with
  | none => rfl
  | some parent =>
      have hparents : (Store.behind (Eval.lookUp cx parent.id parent.name s)).parents =
          s.parents := by
        rcases lookUp_behind cx parent.id parent.name s with hsame | ⟨method, self, hbound⟩
        · rw [hsame]
        · rw [hbound]
          rfl
      rw [superclass?]
      cases hrun : Eval.lookUp cx parent.id parent.name s with
      | error failure s' =>
          rw [hrun] at hparents
          rw [bind_of_error hrun]
          exact hparents
      | ok value s' =>
          rw [hrun] at hparents
          rw [bind_of_ok hrun]
          cases value <;> exact hparents

theorem addMethods_ok (env : Env) (list : List Function) : ∀ (methods : Table Fn) (s : Store),
    ∃ extended s', addMethods env methods list s = .ok extended s' := by
  induction list with
  | nil =>
      intro methods s
      exact ⟨methods, s, rfl⟩
  | cons decl rest ih =>
      intro methods s
      have hfirst : ∃ extended s', addMethod env methods decl s = .ok extended s' := by
        unfold addMethod
        cases methods.find? decl.name.lexeme with
        | some first => exact ⟨_, _, rfl⟩
        | none => exact ⟨_, _, rfl⟩
      obtain ⟨extended, s', hrun⟩ := hfirst
      rw [addMethods, bind_of_ok hrun]
      exact ih extended s'

theorem makeClass_ok (cx : Context) (decl : ClassDecl Stmt) (superclass : Option Class)
    (s : Store) : ∃ cls s', makeClass cx decl superclass s = .ok cls s' := by
  have henv : ∃ env s', methodEnv cx.env superclass s = .ok env s' := by
    cases superclass with
    | none => exact ⟨_, _, rfl⟩
    | some parent => exact ⟨_, _, rfl⟩
  obtain ⟨env, s₁, henv⟩ := henv
  obtain ⟨methods, s₂, hmethods⟩ := addMethods_ok env decl.methods ∅ s₁
  rw [makeClass, bind_of_ok henv, bind_of_ok hmethods]
  exact ⟨_, _, rfl⟩

/-! ## What is left behind -/

/-- How a statement that declares a type stops, with the members that it has declared by then: at a
member whose name is taken, at its superclass, or at its own name. -/
inductive Stops (cx : Context) (s s' : Store) : Stmt → List (Token × Value) → Failure → Prop where
  | atMember {statement : Stmt} {front back : List (Token × Value)} {refused : Token × Value}
      (hmembers : statement.memberBindings = front ++ refused :: back)
      (htaken : (s'.findHere? cx.env refused.1.lexeme).isSome) :
      Stops cx s s' statement front (.error ⟨refused.1, .variableExists, none⟩)
  | atSuperclass {decl : ClassDecl Stmt} {parent : Superclass} {declared : Store}
      {failure : Failure} (hparent : decl.superclass = some parent)
      (hdeclared : s.Adds cx.env (Stmt.classDecl decl).memberBindings declared)
      (hfails : superclass? cx (some parent) declared = .error failure s') :
      Stops cx s s' (.classDecl decl) (Stmt.classDecl decl).memberBindings failure
  | atName {decl : ClassDecl Stmt} (htaken : (s'.findHere? cx.env decl.name.lexeme).isSome) :
      Stops cx s s' (.classDecl decl) (Stmt.classDecl decl).memberBindings
        (.error ⟨decl.name, .variableExists, none⟩)

theorem Stops.isPrefix {cx : Context} {statement : Stmt} {names : List (Token × Value)}
    {failure : Failure} (h : Stops cx s s' statement names failure) :
    names <+: statement.memberBindings := by
  cases h with
  | atMember hmembers _ =>
      rw [hmembers]
      exact List.prefix_append _ _
  | atSuperclass _ _ _ => exact List.prefix_refl _
  | atName _ => exact List.prefix_refl _

theorem bindings_ne_function (decl : EnumDecl) :
    ∀ entry ∈ decl.bindings, ∀ f, entry.2 ≠ .function f := by
  intro entry hentry f hf
  obtain ⟨member, -, rfl⟩ := List.mem_map.mp hentry
  cases hf

theorem defineEnum_error {cx : Context} {decl : EnumDecl} {failure : Failure}
    (h : defineEnum cx.env decl s = .error failure s') :
    ∃ names, s.Adds cx.env names s' ∧ Stops cx s s' (.enumDecl decl) names failure := by
  rw [defineEnum_eq] at h
  rcases defineEach_cases cx.env s (bindings_ne_function decl) with
    ⟨declared, hrun, -⟩ | ⟨front, refused, back, declared, hsplit, hadds, htaken, hrun⟩
  · rw [hrun] at h
    cases h
  · rw [hrun] at h
    cases h
    exact ⟨front, hadds, .atMember hsplit htaken⟩

theorem exists_of_superclass?_error {cx : Context} {parent : Option Superclass}
    {failure : Failure} (h : superclass? cx parent s = .error failure s') :
    ∃ written, parent = some written := by
  cases parent with
  | none => cases h
  | some written => exact ⟨written, rfl⟩

/-- Behind its superclass, a class can only be refused for its own name. -/
theorem nameClass_error {cx : Context} {decl : ClassDecl Stmt} {superclass : Option Class}
    {failure : Failure}
    (h : (do
      Eval.define cx.env decl.name .nil
      let cls ← makeClass cx decl superclass
      modify (·.bindHere cx.env decl.name.lexeme (.class cls)) : Eval Unit) s =
        .error failure s') :
    s' = s ∧ (s.findHere? cx.env decl.name.lexeme).isSome ∧
      failure = .error ⟨decl.name, .variableExists, none⟩ := by
  have hvalue : ∀ f, Value.nil ≠ .function f := by
    intro f hf
    cases hf
  rcases define_value_cases cx.env s decl.name hvalue with ⟨-, hdefine⟩ | ⟨htaken, hdefine⟩
  · obtain ⟨cls, made, hmake⟩ := makeClass_ok cx decl superclass
      (s.bindHere cx.env decl.name.lexeme .nil)
    rw [bind_of_ok hdefine, bind_of_ok hmake] at h
    cases h
  · rw [bind_of_error hdefine] at h
    cases h
    exact ⟨rfl, htaken, rfl⟩

theorem defineClass_error {cx : Context} {decl : ClassDecl Stmt} {failure : Failure}
    (h : defineClass cx decl s = .error failure s') :
    ∃ names, s.Adds cx.env names s' ∧ Stops cx s s' (.classDecl decl) names failure := by
  have hvalues : ∀ entry ∈ decl.enums.flatMap EnumDecl.bindings, ∀ f, entry.2 ≠ .function f := by
    intro entry hentry
    obtain ⟨enum, -, hentry⟩ := List.mem_flatMap.mp hentry
    exact bindings_ne_function enum entry hentry
  rw [defineClass_eq, defineEnums_eq] at h
  rcases defineEach_cases cx.env s hvalues with
    ⟨declared, hrun, hadds⟩ | ⟨front, refused, back, declared, hsplit, hadds, htaken, hrun⟩
  · rw [bind_of_ok hrun] at h
    have hlooked := superclass?_adds cx decl.superclass declared
    cases hsuper : superclass? cx decl.superclass declared with
    | error failure' looked =>
        rw [bind_of_error hsuper] at h
        cases h
        rw [hsuper] at hlooked
        obtain ⟨parent, hparent⟩ := exists_of_superclass?_error hsuper
        rw [hparent] at hsuper
        exact ⟨_, hadds.trans_nothing hlooked, .atSuperclass hparent hadds hsuper⟩
    | ok superclass looked =>
        rw [bind_of_ok hsuper] at h
        rw [hsuper] at hlooked
        obtain ⟨rfl, htaken, rfl⟩ := nameClass_error h
        exact ⟨_, hadds.trans_nothing hlooked, .atName htaken⟩
  · rw [bind_of_error hrun] at h
    cases h
    exact ⟨front, hadds, .atMember hsplit htaken⟩

theorem exists_of_ofEval_error {x : Eval α} {signal : Signal}
    (h : ofEval x s = .error signal s') :
    ∃ failure, signal = .failed failure ∧ x s = .error failure s' := by
  unfold ofEval at h
  cases hrun : x s with
  | ok value t =>
      rw [hrun] at h
      cases h
  | error failure t =>
      rw [hrun] at h
      cases h
      exact ⟨failure, rfl, rfl⟩

/-- A declaration of a type that fails leaves behind the members of enumerations that it has
declared in the innermost frame until it stopped, each under a name that was free.  Apart from them
all frames, and the parents of classes, are as they were. -/
theorem failed_declaration_leaves_members {call : Eval.Caller} {fuel : Nat} {cx : Context}
    {statement : Stmt} {signal : Signal} (htype : statement.DeclaresType)
    (hfails : stmt call fuel cx statement s = .error signal s') :
    ∃ names failure, names <+: statement.memberBindings ∧ s.Adds cx.env names s' ∧
      signal = .failed failure ∧ Stops cx s s' statement names failure := by
  have hstops : ∃ names failure, s.Adds cx.env names s' ∧ signal = .failed failure ∧
      Stops cx s s' statement names failure := by
    cases statement with
    | enumDecl decl =>
        rw [stmt] at hfails
        obtain ⟨failure, hsignal, hrun⟩ := exists_of_ofEval_error hfails
        obtain ⟨names, hadds, hstops⟩ := defineEnum_error hrun
        exact ⟨names, failure, hadds, hsignal, hstops⟩
    | classDecl decl =>
        rw [stmt] at hfails
        obtain ⟨failure, hsignal, hrun⟩ := exists_of_ofEval_error hfails
        obtain ⟨names, hadds, hstops⟩ := defineClass_error hrun
        exact ⟨names, failure, hadds, hsignal, hstops⟩
    | _ => cases htype
  obtain ⟨names, failure, hadds, hsignal, hstops⟩ := hstops
  exact ⟨names, failure, hstops.isPrefix, hadds, hsignal, hstops⟩

/-- `class C(Missing); type E = (A, B); begin end` -/
def orphan : ClassDecl Stmt where
  name := ⟨.identifier, "C", ⟨1, 7⟩, "REPL"⟩
  superclass := some ⟨0, ⟨.identifier, "Missing", ⟨1, 9⟩, "REPL"⟩⟩
  fields := []
  enums := [⟨⟨.identifier, "E", ⟨1, 24⟩, "REPL"⟩,
    [⟨.identifier, "A", ⟨1, 29⟩, "REPL"⟩, ⟨.identifier, "B", ⟨1, 32⟩, "REPL"⟩]⟩]
  methods := []

/-- The superclass is missed when both members of the enumeration are declared. -/
theorem failed_declaration_leaves_members_orphan :
    Stmt.DeclaresType (.classDecl orphan) ∧ ∃ signal s',
      stmt (callFn topLevel 1) 1 topLevel (.classDecl orphan) Store.initial = .error signal s' ∧
      (s'.frame 0).find? "B" = some (.enum ⟨"E", "B", 1⟩) ∧
      ∃ names failure, names <+: Stmt.memberBindings (.classDecl orphan) ∧
        Store.initial.Adds topLevel.env names s' ∧ signal = .failed failure ∧
        Stops topLevel Store.initial s' (.classDecl orphan) names failure := by
  have hrun : stmt (callFn topLevel 1) 1 topLevel (.classDecl orphan) Store.initial =
      .error (.failed (.error
          ⟨⟨.identifier, "Missing", ⟨1, 9⟩, "REPL"⟩, .undefinedVariable "Missing", none⟩))
        ((Store.initial.bindHere Store.globals "A" (.enum ⟨"E", "A", 0⟩)).bindHere Store.globals
          "B" (.enum ⟨"E", "B", 1⟩)) :=
    rfl
  have htype : Stmt.DeclaresType (.classDecl orphan) := trivial
  exact ⟨htype, _, _, hrun, rfl, failed_declaration_leaves_members htype hrun⟩

def takenStore : Store :=
  Store.initial.bindHere Store.globals "B" (.integer 1)

/-- `type E = (A, B);` -/
def letters : EnumDecl where
  name := ⟨.identifier, "E", ⟨1, 6⟩, "REPL"⟩
  members := [⟨.identifier, "A", ⟨1, 11⟩, "REPL"⟩, ⟨.identifier, "B", ⟨1, 14⟩, "REPL"⟩]

/-- A declaration that fails may leave a member of an enumeration behind. -/
theorem failed_declaration_may_leave_members :
    ¬∀ (call : Eval.Caller) (fuel : Nat) (cx : Context) (statement : Stmt) (signal : Signal)
        (s s' : Store), statement.DeclaresType → stmt call fuel cx statement s = .error signal s' →
        (∀ frame, frame < s.frames.size → ∀ name,
          (s'.frame frame).find? name = (s.frame frame).find? name) ∧ s'.parents = s.parents := by
  intro hleaves
  have hrun : stmt (callFn topLevel 1) 1 topLevel (.enumDecl letters) takenStore =
      .error (.failed (.error ⟨⟨.identifier, "B", ⟨1, 14⟩, "REPL"⟩, .variableExists, none⟩))
        (takenStore.bindHere Store.globals "A" (.enum ⟨"E", "A", 0⟩)) :=
    rfl
  have hbefore : (takenStore.frame 0).find? "A" = none := by rfl
  have hafter : ((takenStore.bindHere Store.globals "A" (.enum ⟨"E", "A", 0⟩)).frame 0).find? "A" =
      some (.enum ⟨"E", "A", 0⟩) := by rfl
  have htype : Stmt.DeclaresType (.enumDecl letters) := trivial
  have hsame := (hleaves _ _ _ _ _ _ _ htype hrun).1 0 (by decide +kernel) "A"
  rw [hbefore, hafter] at hsame
  cases hsame

end Exec

end MiniPascal
