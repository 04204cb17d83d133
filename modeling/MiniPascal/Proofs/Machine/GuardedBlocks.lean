import MiniPascal.Proofs.Machine.Choices
import MiniPascal.Proofs.Machine.Inheritance

/-!
# The handlers of guarded blocks

A handler has a rank for a raised value: the number of steps up the chain of classes at which its
type is met, and the length of the chain if it takes all values.  The rounds of the search go
through the ranks from the least one on, and each round through the handlers in order, so the
handler that is run is the first of those of least rank.
-/

namespace MiniPascal
namespace Exec

/-- How many ranks there are for the types of a value: one, or one for each class of the ancestry
of an instance. -/
def classRanks : Value → Nat
  | .object self => self.cls.ancestry.length
  | _ => 1

/-- The ranks that a handler has for a value. -/
inductive HasRank (raised : Value) (handler : Handler Stmt) : Nat → Prop where
  | own {declared : String} (htype : handler.typeName = some declared)
      (hname : Text.sameName declared raised.typeName) : HasRank raised handler 0
  | ancestor {declared : String} {self : Instance} {cls : Class} {k : Nat}
      (hself : raised = .object self) (hcls : self.cls.ancestry[k]? = some cls)
      (htype : handler.typeName = some declared) (hname : Text.sameName declared cls.name) :
      HasRank raised handler k
  | untyped (htype : handler.typeName = none) : HasRank raised handler (classRanks raised)
  | any {declared : String} (htype : handler.typeName = some declared)
      (hname : Text.sameName declared anyType) : HasRank raised handler (classRanks raised)

/-- A handler is preferred for a value: it has the least rank that occurs, and no handler in front
of it has that rank. -/
def Preferred (handlers : List (Handler Stmt)) (raised : Value) (chosen : Handler Stmt) : Prop :=
  ∃ front back k, handlers = front ++ chosen :: back ∧ HasRank raised chosen k ∧
    (∀ handler ∈ handlers, ∀ rank, HasRank raised handler rank → k ≤ rank) ∧
    ∀ handler ∈ front, ¬HasRank raised handler k

/-! ## Ranks and rounds -/

/-- The type names that the rounds of the search look for. -/
def typeNames (raised : Value) : List String :=
  raised.typeName :: ancestorNames raised

/-- The rounds of the search for a handler, each given by what it looks for. -/
def rounds (raised : Value) : List (Handler Stmt → Bool) :=
  (typeNames raised).map handles ++ [handlesAll]

theorem findHandler_eq (handlers : List (Handler Stmt)) (raised : Value) :
    findHandler handlers raised =
      (rounds raised).findSome? fun round => handlers.findIdx? round := by
  rw [findHandler, rounds, List.findSome?_append, List.findSome?_map, List.findSome?_singleton]
  rfl

theorem typeNames_object (self : Instance) :
    typeNames (.object self) = self.cls.ancestry.map Class.name := by
  rcases self.cls.exists_ancestry_eq with ⟨rest, hancestry⟩
  rw [typeNames, ancestorNames, hancestry]
  rfl

theorem length_typeNames (raised : Value) : (typeNames raised).length = classRanks raised := by
  cases raised with
  | object self => rw [typeNames_object, List.length_map, classRanks]
  | _ => rfl

/-- Below the last one, the ranks are those of the type names. -/
theorem hasRank_of_typeNames {raised : Value} {handler : Handler Stmt} {name : String} {k : Nat}
    (hname : (typeNames raised)[k]? = some name) (hhandles : handles name handler = true) :
    HasRank raised handler k := by
  rcases handles_iff.mp hhandles with ⟨declared, htype, hsame⟩
  cases raised with
  | object self =>
      rw [typeNames_object, List.getElem?_map] at hname
      rcases Option.map_eq_some_iff.mp hname with ⟨cls, hcls, rfl⟩
      exact .ancestor rfl hcls htype hsame
  | _ =>
      cases k with
      | zero =>
          cases hname
          exact .own htype hsame
      | succ k => cases hname

/-- A handler has a rank if the round of that number finds it. -/
theorem hasRank_iff {raised : Value} {handler : Handler Stmt} {k : Nat} :
    HasRank raised handler k ↔
      ∃ round, (rounds raised)[k]? = some round ∧ round handler = true := by
  have hlength : ((typeNames raised).map handles).length = classRanks raised := by
    rw [List.length_map, length_typeNames]
  have hlast : (rounds raised)[classRanks raised]? = some handlesAll := by
    rw [rounds, ← hlength, List.getElem?_concat_length]
  constructor
  · intro hrank
    cases hrank with
    | own htype hname => exact ⟨_, rfl, handles_iff.mpr ⟨_, htype, hname⟩⟩
    | @ancestor _ self cls _ hself hcls htype hname =>
        refine ⟨_, ?_, handles_iff.mpr ⟨_, htype, hname⟩⟩
        have hround : ((typeNames raised).map handles)[k]? = some (handles cls.name) := by
          rw [hself, typeNames_object, List.getElem?_map, List.getElem?_map, hcls]
          rfl
        exact (List.getElem?_append_left (List.getElem?_eq_some_iff.mp hround).1).trans hround
    | untyped htype => exact ⟨_, hlast, handlesAll_iff.mpr (.inl htype)⟩
    | any htype hname => exact ⟨_, hlast, handlesAll_iff.mpr (.inr ⟨_, htype, hname⟩)⟩
  · rintro ⟨round, hround, htakes⟩
    rw [rounds, List.getElem?_append] at hround
    split at hround
    · rw [List.getElem?_map] at hround
      rcases Option.map_eq_some_iff.mp hround with ⟨name, hname, rfl⟩
      exact hasRank_of_typeNames hname htakes
    · next hbeyond =>
      rcases List.getElem?_eq_some_iff.mp hround with ⟨hbound, hround⟩
      rw [List.length_singleton] at hbound
      have hk : k = classRanks raised := by omega
      rw [List.getElem_singleton] at hround
      subst hround hk
      rcases handlesAll_iff.mp htakes with htype | ⟨declared, htype, hsame⟩
      · exact .untyped htype
      · exact .any htype hsame

/-- The search ends without a handler if none has a rank. -/
theorem findHandler_eq_none_iff_unranked {handlers : List (Handler Stmt)} {raised : Value} :
    findHandler handlers raised = none ↔ ∀ handler ∈ handlers, ∀ k, ¬HasRank raised handler k := by
  simp only [findHandler_eq, List.findSome?_eq_none_iff, List.findIdx?_eq_none_iff, hasRank_iff]
  constructor
  · rintro hnone handler hhandler k ⟨round, hround, htakes⟩
    rw [hnone round (List.mem_of_getElem? hround) handler hhandler] at htakes
    cases htakes
  · intro hnone round hround handler hhandler
    rcases List.mem_iff_getElem?.mp hround with ⟨k, hk⟩
    exact Bool.eq_false_iff.mpr fun htakes => hnone handler hhandler k ⟨round, hk, htakes⟩

/-- The search ends at the first handler of least rank. -/
theorem findHandler_of_preferred {front back : List (Handler Stmt)} {chosen : Handler Stmt}
    {raised : Value} {k : Nat} (hchosen : HasRank raised chosen k)
    (hleast : ∀ handler ∈ front ++ chosen :: back, ∀ rank, HasRank raised handler rank → k ≤ rank)
    (hfront : ∀ handler ∈ front, ¬HasRank raised handler k) :
    findHandler (front ++ chosen :: back) raised = some front.length := by
  rcases hasRank_iff.mp hchosen with ⟨round, hround, htakes⟩
  rcases List.getElem?_eq_some_iff.mp hround with ⟨hk, rfl⟩
  rw [findHandler_eq, List.findSome?_eq_some_iff]
  refine ⟨(rounds raised).take k, (rounds raised)[k], (rounds raised).drop (k + 1), ?_, ?_, ?_⟩
  · rw [List.getElem_cons_drop, List.take_append_drop]
  · have hnone : front.findIdx? (rounds raised)[k] = none := by
      rw [List.findIdx?_eq_none_iff]
      intro handler hhandler
      refine Bool.eq_false_iff.mpr fun htakes => ?_
      exact hfront handler hhandler (hasRank_iff.mpr ⟨_, hround, htakes⟩)
    rw [List.findIdx?_append, hnone, List.findIdx?_cons, if_pos htakes]
    simp
  · intro earlier hearlier
    rcases List.mem_take_iff_getElem.mp hearlier with ⟨rank, hrank, rfl⟩
    rw [List.findIdx?_eq_none_iff]
    intro handler hhandler
    refine Bool.eq_false_iff.mpr fun htakes => ?_
    have hle := hleast handler hhandler rank
      (hasRank_iff.mpr ⟨_, List.getElem?_eq_getElem (by omega), htakes⟩)
    omega

theorem preferred_of_findHandler {handlers : List (Handler Stmt)} {raised : Value} {index : Nat}
    (h : findHandler handlers raised = some index) :
    ∃ chosen, handlers[index]? = some chosen ∧ Preferred handlers raised chosen := by
  rw [findHandler_eq, List.findSome?_eq_some_iff] at h
  rcases h with ⟨earlier, round, later, hrounds, hround, hearlier⟩
  rcases List.findIdx?_eq_some_iff_getElem.mp hround with ⟨hindex, htakes, hfirst⟩
  have hat : (rounds raised)[earlier.length]? = some round := by
    rw [hrounds, List.getElem?_append_right (Nat.le_refl _), Nat.sub_self]
    rfl
  refine ⟨handlers[index], List.getElem?_eq_getElem hindex, handlers.take index,
    handlers.drop (index + 1), earlier.length, ?_, hasRank_iff.mpr ⟨round, hat, htakes⟩, ?_, ?_⟩
  · rw [List.getElem_cons_drop, List.take_append_drop]
  · intro handler hhandler rank hrank
    rcases hasRank_iff.mp hrank with ⟨other, hother, hothertakes⟩
    refine Nat.le_of_not_lt fun hless => ?_
    rw [hrounds, List.getElem?_append_left hless] at hother
    have hnone := hearlier other (List.mem_of_getElem? hother)
    rw [List.findIdx?_eq_none_iff.mp hnone handler hhandler] at hothertakes
    cases hothertakes
  · intro handler hhandler hrank
    rcases hasRank_iff.mp hrank with ⟨other, hother, hothertakes⟩
    rw [hat] at hother
    cases hother
    rcases List.mem_take_iff_getElem.mp hhandler with ⟨position, hposition, rfl⟩
    exact hfirst position (by omega) hothertakes

/-! ## What a guarded block runs -/

section Run

variable {call : Eval.Caller} {fuel : Nat} {cx : Context} {s s' : Store}

theorem handler_at {raised : Value} (front back : List (Handler Stmt)) (chosen : Handler Stmt) :
    handler call fuel cx raised (front ++ chosen :: back) front.length s =
      stmt call fuel (cx.inside (s.frames.size :: cx.env)) chosen.body
        (s.newFrame ((∅ : Table Value).insert chosen.name.lexeme raised)).2 := by
  induction front with
  | nil =>
      rcases chosen with ⟨name, typeName, body⟩
      rw [List.nil_append, List.length_nil, handler]
      rfl
  | cons first front ih =>
      rw [List.cons_append, List.length_cons, handler]
      exact ih

/-- The body of a guarded block is run in a scope of its own. -/
def guardedBody (call : Eval.Caller) (fuel : Nat) (cx : Context) (body : List Stmt) : Exec Unit :=
  fun s => stmts call fuel (cx.inside (s.frames.size :: cx.env)) body (s.newFrame ∅).2

variable {keyword : Token} {body otherwise : List Stmt} {handlers : List (Handler Stmt)}
  {error : RuntimeError}

/-- An end of the body that is not an error is the end of the guarded block. -/
theorem try_passes
    (h : ∀ error s', guardedBody call fuel cx body s ≠ .error (.failed (.error error)) s') :
    stmt call fuel cx (.try keyword body handlers otherwise) s =
      guardedBody call fuel cx body s := by
  rw [stmt]
  show catchError (stmts call fuel (cx.inside (s.frames.size :: cx.env)) body) _
    (s.newFrame ∅).2 = _
  rw [catchError]
  split
  · next error s' hbody => exact absurd hbody (h error s')
  · rfl

/-- Behind an error of its body, a guarded block runs the handler that is preferred. -/
theorem try_runs_handler {chosen : Handler Stmt}
    (hbody : guardedBody call fuel cx body s = .error (.failed (.error error)) s')
    (hchosen : Preferred handlers error.raisedValue chosen) :
    stmt call fuel cx (.try keyword body handlers otherwise) s =
      stmt call fuel (cx.inside (s'.frames.size :: cx.env)) chosen.body
        (s'.newFrame ((∅ : Table Value).insert chosen.name.lexeme error.raisedValue)).2 := by
  rcases hchosen with ⟨front, back, k, rfl, hrank, hleast, hfront⟩
  have hbody' : stmts call fuel (cx.inside (s.frames.size :: cx.env)) body (s.newFrame ∅).2 =
      .error (.failed (.error error)) s' := hbody
  rw [stmt]
  show catchError (stmts call fuel (cx.inside (s.frames.size :: cx.env)) body) _
    (s.newFrame ∅).2 = _
  rw [catchError, hbody']
  simp only [findHandler_of_preferred hrank hleast hfront]
  exact handler_at front back chosen

end Run

/-- A guarded block ends as its body does, unless the body ends in an error.  Behind an error, the
raised value is the carried one or else the message.  If a handler has a rank for it, one is
preferred, and its body is run in a scope of its own that binds its variable to the value; if none
has a rank, the statements behind the handlers are run in a scope of their own. -/
theorem guarded_block_prefers_least_rank (call : Eval.Caller) (fuel : Nat) (cx : Context)
    (keyword : Token) (body : List Stmt) (handlers : List (Handler Stmt)) (otherwise : List Stmt)
    (s : Store) :
    ((∀ error s', guardedBody call fuel cx body s ≠ .error (.failed (.error error)) s') →
      stmt call fuel cx (.try keyword body handlers otherwise) s =
        guardedBody call fuel cx body s) ∧
    ∀ error s', guardedBody call fuel cx body s = .error (.failed (.error error)) s' →
      ∃ raised, (error.value = some raised ∨
          error.value = none ∧ raised = .string error.message) ∧
        ((∃ chosen, Preferred handlers raised chosen) ∨
          ∀ handler ∈ handlers, ∀ k, ¬HasRank raised handler k) ∧
        (∀ chosen, Preferred handlers raised chosen →
          stmt call fuel cx (.try keyword body handlers otherwise) s =
            stmt call fuel (cx.inside (s'.frames.size :: cx.env)) chosen.body
              (s'.newFrame ((∅ : Table Value).insert chosen.name.lexeme raised)).2) ∧
        ((∀ handler ∈ handlers, ∀ k, ¬HasRank raised handler k) →
          stmt call fuel cx (.try keyword body handlers otherwise) s =
            stmts call fuel (cx.inside (s'.frames.size :: cx.env)) otherwise (s'.newFrame ∅).2) := by
  refine ⟨try_passes, fun error s' hbody => ⟨error.raisedValue, ?_, ?_, ?_, ?_⟩⟩
  · unfold RuntimeError.raisedValue
    cases error.value with
    | some value => exact .inl rfl
    | none => exact .inr ⟨rfl, rfl⟩
  · cases hsearch : findHandler handlers error.raisedValue with
    | some index =>
        rcases preferred_of_findHandler hsearch with ⟨chosen, -, hchosen⟩
        exact .inl ⟨chosen, hchosen⟩
    | none => exact .inr (findHandler_eq_none_iff_unranked.mp hsearch)
  · exact fun chosen hchosen => try_runs_handler hbody hchosen
  · exact fun hnone => try_of_error otherwise hbody (findHandler_eq_none_iff_unranked.mpr hnone)

/-! ## A chain of three classes -/

/-- An instance of `Circle`, which extends `Round`, which extends `Shape`. -/
def circle : Instance where
  id := 0
  cls := .mk 2 "Circle" (some (.mk 1 "Round" (some (.mk 0 "Shape" none ∅)) ∅)) ∅

def circleStore : Store :=
  (Store.empty.newFrame ((∅ : Table Value).insert "X" (.object circle))).2

/-- `raise X;` -/
def raisedCircle : List Stmt :=
  [.raise (wordAt .raise "raise" 2 3) (some (.variable 0 ⟨.identifier, "X", ⟨2, 9⟩, "main.pas"⟩))]

/-- `on E : typeName do print text;` -/
def printingHandler (line : Nat) (typeName text : String) : Handler Stmt where
  name := ⟨.identifier, "E", ⟨line, 6⟩, "main.pas"⟩
  typeName := some typeName
  body := .print (wordAt .print "print" line 20) (.literal (.string text))

/-- Handlers for all values and for shapes in front of two for round ones. -/
def shapeHandlers : List (Handler Stmt) :=
  [printingHandler 4 "Any" "any", printingHandler 5 "SHAPE" "shape",
    printingHandler 6 "round" "round", printingHandler 7 "Round" "round again"]

theorem raisedCircle_fails (call : Eval.Caller) (fuel : Nat) :
    guardedBody call fuel topLevel raisedCircle circleStore =
      .error (.failed (.error ⟨wordAt .raise "raise" 2 3,
          .raised ((circleStore.newFrame ∅).2.display (.object circle)), some (.object circle)⟩))
        (circleStore.newFrame ∅).2 :=
  rfl

theorem shapeHandlers_prefers :
    Preferred shapeHandlers (.object circle) (printingHandler 6 "round" "round") := by
  have hsearch : findHandler shapeHandlers (.object circle) = some 2 := by decide +kernel
  rcases preferred_of_findHandler hsearch with ⟨chosen, hchosen, hpreferred⟩
  cases hchosen
  exact hpreferred

theorem guarded_block_prefers_least_rank_circle :
    (∀ error s', guardedBody (callFn topLevel 1) 1 topLevel [] circleStore ≠
      .error (.failed (.error error)) s') ∧
    stmt (callFn topLevel 1) 1 topLevel (.try (wordAt .try "try" 1 1) [] shapeHandlers [])
        circleStore = guardedBody (callFn topLevel 1) 1 topLevel [] circleStore ∧
    ∃ error s', guardedBody (callFn topLevel 1) 1 topLevel raisedCircle circleStore =
        .error (.failed (.error error)) s' ∧
      ∃ raised, error.value = some raised ∧
        Preferred shapeHandlers raised (printingHandler 6 "round" "round") ∧
        stmt (callFn topLevel 1) 1 topLevel
            (.try (wordAt .try "try" 1 1) raisedCircle shapeHandlers []) circleStore =
          stmt (callFn topLevel 1) 1 (topLevel.inside (s'.frames.size :: topLevel.env))
            (printingHandler 6 "round" "round").body
            (s'.newFrame ((∅ : Table Value).insert "E" raised)).2 := by
  have hempty : ∀ error s', guardedBody (callFn topLevel 1) 1 topLevel [] circleStore ≠
      .error (.failed (.error error)) s' := by
    intro error s' hfails
    cases hfails
  have hcircle := raisedCircle_fails (callFn topLevel 1) 1
  have hrun := guarded_block_prefers_least_rank (callFn topLevel 1) 1 topLevel
    (wordAt .try "try" 1 1)
  refine ⟨hempty, (hrun [] shapeHandlers [] circleStore).1 hempty, _, _, hcircle, ?_⟩
  rcases (hrun raisedCircle shapeHandlers [] circleStore).2 _ _ hcircle with
    ⟨raised, hvalue, -, hhandler, -⟩
  rcases hvalue with hvalue | ⟨hvalue, -⟩
  · cases hvalue
    exact ⟨_, rfl, shapeHandlers_prefers, hhandler _ shapeHandlers_prefers⟩
  · cases hvalue

end Exec
end MiniPascal
