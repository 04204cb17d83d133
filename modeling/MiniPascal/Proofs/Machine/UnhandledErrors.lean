import MiniPascal.Machine.Run

/-!
# Errors that no handler takes

The handler for an error is searched for in three rounds.  It is found in none of them exactly when
no handler takes the raised value, and then the statements behind the handlers are run in place of
one, in a scope of their own.  Where there are none, nothing is left of the error.
-/

namespace MiniPascal
namespace Exec

/-- A handler takes a value: all values, those of its type, or those of a class below its type. -/
def Takes (handler : Handler Stmt) (raised : Value) : Prop :=
  handler.typeName = none ∨ ∃ declared, handler.typeName = some declared ∧
    (Text.sameName declared anyType ∨ Text.sameName declared raised.typeName ∨
      ∃ self, raised = .object self ∧
        ∃ cls ∈ self.cls.ancestry.tail, Text.sameName declared cls.name)

/-! ## The search for a handler -/

theorem mem_ancestorNames_iff {name : String} {raised : Value} :
    name ∈ ancestorNames raised ↔
      ∃ self, raised = .object self ∧ ∃ cls ∈ self.cls.ancestry.tail, cls.name = name := by
  cases raised with
  | object self => simp [ancestorNames, -List.map_tail]
  | _ => simp [ancestorNames]

theorem handles_iff {typeName : String} {handler : Handler Stmt} :
    handles typeName handler = true ↔
      ∃ declared, handler.typeName = some declared ∧ Text.sameName declared typeName := by
  unfold handles
  cases handler.typeName <;> simp

theorem handlesAll_iff {handler : Handler Stmt} :
    handlesAll handler = true ↔ handler.typeName = none ∨
      ∃ declared, handler.typeName = some declared ∧ Text.sameName declared anyType := by
  unfold handlesAll
  cases handler.typeName <;> simp

/-- A handler takes a value if one of the three rounds would find it. -/
theorem takes_iff {handler : Handler Stmt} {raised : Value} :
    Takes handler raised ↔
      (∃ name ∈ raised.typeName :: ancestorNames raised, handles name handler = true) ∨
        handlesAll handler = true := by
  rw [handlesAll_iff]
  constructor
  · rintro (hany | ⟨declared, htype, hall | hown | ⟨self, hself, cls, hcls, habove⟩⟩)
    · exact .inr (.inl hany)
    · exact .inr (.inr ⟨declared, htype, hall⟩)
    · exact .inl ⟨_, List.mem_cons_self, handles_iff.mpr ⟨declared, htype, hown⟩⟩
    · have hmem : cls.name ∈ ancestorNames raised :=
        mem_ancestorNames_iff.mpr ⟨self, hself, cls, hcls, rfl⟩
      exact .inl ⟨_, List.mem_cons_of_mem _ hmem, handles_iff.mpr ⟨declared, htype, habove⟩⟩
  · rintro (⟨name, hname, hhandles⟩ | hany | ⟨declared, htype, hall⟩)
    · rcases handles_iff.mp hhandles with ⟨declared, htype, hsame⟩
      refine .inr ⟨declared, htype, .inr ?_⟩
      rcases List.mem_cons.mp hname with rfl | hname
      · exact .inl hsame
      · rcases mem_ancestorNames_iff.mp hname with ⟨self, hself, cls, hcls, rfl⟩
        exact .inr ⟨self, hself, cls, hcls, hsame⟩
    · exact .inl hany
    · exact .inr ⟨declared, htype, .inl hall⟩

theorem findHandler_eq_none_iff {handlers : List (Handler Stmt)} {raised : Value} :
    findHandler handlers raised = none ↔ ∀ handler ∈ handlers, ¬Takes handler raised := by
  have htyped : ((raised.typeName :: ancestorNames raised).findSome? fun name =>
      handlers.findIdx? (handles name)) = none ↔
      ∀ name ∈ raised.typeName :: ancestorNames raised, ∀ handler ∈ handlers,
        handles name handler = false := by
    simp only [List.findSome?_eq_none_iff, List.findIdx?_eq_none_iff]
  unfold findHandler
  rw [Option.or_eq_none_iff, htyped, List.findIdx?_eq_none_iff]
  constructor
  · rintro ⟨hnames, hall⟩ handler hhandler htakes
    rcases takes_iff.mp htakes with ⟨name, hname, hhandles⟩ | hany
    · rw [hnames name hname handler hhandler] at hhandles
      cases hhandles
    · rw [hall handler hhandler] at hany
      cases hany
  · intro hnone
    refine ⟨fun name hname handler hhandler => ?_, fun handler hhandler => ?_⟩
    · refine Bool.eq_false_iff.mpr fun hhandles => hnone handler hhandler ?_
      exact takes_iff.mpr (.inl ⟨name, hname, hhandles⟩)
    · refine Bool.eq_false_iff.mpr fun hany => hnone handler hhandler ?_
      exact takes_iff.mpr (.inr hany)

/-! ## The statements behind the handlers -/

section Run

variable {call : Eval.Caller} {fuel : Nat} {cx : Context} {keyword : Token} {body : List Stmt}
  {handlers : List (Handler Stmt)} {error : RuntimeError} {s s' : Store}

/-- Behind an error of its body, a guarded block goes on with the search for a handler. -/
theorem try_of_error (otherwise : List Stmt)
    (hbody : stmts call fuel (cx.inside (s.frames.size :: cx.env)) body (s.newFrame ∅).2 =
      .error (.failed (.error error)) s')
    (hnone : findHandler handlers error.raisedValue = none) :
    stmt call fuel cx (.try keyword body handlers otherwise) s =
      stmts call fuel (cx.inside (s'.frames.size :: cx.env)) otherwise (s'.newFrame ∅).2 := by
  rw [stmt]
  show catchError (stmts call fuel (cx.inside (s.frames.size :: cx.env)) body) _
    (s.newFrame ∅).2 = _
  rw [catchError, hbody]
  simp only [hnone]
  rfl

/-- The error of a body is lost on a guarded block if no handler takes the raised value: whatever
stands behind the handlers is run in a scope of its own, in the state that the body has left, and
decides how the block ends.  If nothing stands there, the block ends normally, and the statements
behind it go on in that state, with one more frame that nothing can refer to. -/
theorem unhandled_error_runs_default
    (hbody : stmts call fuel (cx.inside (s.frames.size :: cx.env)) body (s.newFrame ∅).2 =
      .error (.failed (.error error)) s')
    (hnone : ∀ handler ∈ handlers, ¬Takes handler error.raisedValue) :
    (∀ otherwise, stmt call fuel cx (.try keyword body handlers otherwise) s =
      stmts call fuel (cx.inside (s'.frames.size :: cx.env)) otherwise (s'.newFrame ∅).2) ∧
    stmt call fuel cx (.try keyword body handlers []) s = .ok () (s'.newFrame ∅).2 ∧
    ∀ rest, stmts call fuel cx (.try keyword body handlers [] :: rest) s =
      stmts call fuel cx rest (s'.newFrame ∅).2 := by
  have hsearch := findHandler_eq_none_iff.mpr hnone
  have hempty : stmt call fuel cx (.try keyword body handlers []) s =
      .ok () (s'.newFrame ∅).2 := by
    rw [try_of_error [] hbody hsearch, stmts]
    rfl
  refine ⟨fun otherwise => try_of_error otherwise hbody hsearch, hempty, fun rest => ?_⟩
  rw [stmts]
  show EStateM.bind _ _ s = _
  simp only [EStateM.bind, hempty]

end Run

/-- The context of top-level code at which no name has a distance. -/
def topLevel : Context where
  locals := ∅
  host := .still 0
  env := Store.globals

def wordAt (word : Keyword) (lexeme : String) (line column : Nat) : Token where
  kind := .keyword word
  lexeme
  position := ⟨line, column⟩
  file := "main.pas"

/-- `raise 42;` -/
def raisedNumber : List Stmt :=
  [.raise (wordAt .raise "raise" 2 3) (some (.literal (.integer 42)))]

/-- `on e : String do exit;` -/
def textHandler : Handler Stmt where
  name := ⟨.identifier, "e", ⟨4, 6⟩, "main.pas"⟩
  typeName := some "String"
  body := .exit (wordAt .exit "exit" 4 20) none

theorem stmts_raisedNumber (call : Eval.Caller) (fuel : Nat) (cx : Context) (s : Store) :
    stmts call fuel cx raisedNumber s =
      .error (.failed (.error ⟨wordAt .raise "raise" 2 3, .raised (s.display (.integer 42)),
        some (.integer 42)⟩)) s :=
  rfl

theorem textHandler_not_takes : ∀ handler ∈ [textHandler], ¬Takes handler (.integer 42) :=
  findHandler_eq_none_iff.mp rfl

theorem unhandled_error_runs_default_number :
    ∃ error s',
      stmts (callFn topLevel 1) 1 (topLevel.inside (Store.initial.frames.size :: topLevel.env))
        raisedNumber (Store.initial.newFrame ∅).2 = .error (.failed (.error error)) s' ∧
      (∀ handler ∈ [textHandler], ¬Takes handler error.raisedValue) ∧
      stmt (callFn topLevel 1) 1 topLevel
          (.try (wordAt .try "try" 1 1) raisedNumber [textHandler] []) Store.initial =
        .ok () (s'.newFrame ∅).2 := by
  have hbody := stmts_raisedNumber (callFn topLevel 1) 1
    (topLevel.inside (Store.initial.frames.size :: topLevel.env)) (Store.initial.newFrame ∅).2
  exact ⟨_, _, hbody, textHandler_not_takes,
    (unhandled_error_runs_default hbody textHandler_not_takes).2.1⟩

/-- An error that no handler takes need not get out of a guarded block with nothing behind its
handlers. -/
theorem unhandled_error_may_not_propagate :
    ¬∀ (call : Eval.Caller) (fuel : Nat) (cx : Context) (keyword : Token) (body : List Stmt)
        (handlers : List (Handler Stmt)) (error : RuntimeError) (s s' : Store),
        stmts call fuel (cx.inside (s.frames.size :: cx.env)) body (s.newFrame ∅).2 =
          .error (.failed (.error error)) s' →
        (∀ handler ∈ handlers, ¬Takes handler error.raisedValue) →
        ∃ s'', stmt call fuel cx (.try keyword body handlers []) s =
          .error (.failed (.error error)) s'' := by
  intro hleaves
  have hbody := stmts_raisedNumber (callFn topLevel 1) 1
    (topLevel.inside (Store.initial.frames.size :: topLevel.env)) (Store.initial.newFrame ∅).2
  rcases hleaves _ _ _ (wordAt .try "try" 1 1) _ _ _ _ _ hbody textHandler_not_takes with
    ⟨s'', hleft⟩
  rw [try_of_error [] hbody (findHandler_eq_none_iff.mpr textHandler_not_takes), stmts] at hleft
  cases hleft

end Exec
end MiniPascal
