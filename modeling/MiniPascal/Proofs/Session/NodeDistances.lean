import MiniPascal.Proofs.Scope.Lookups
import MiniPascal.Proofs.Session.Compilation

/-!
# One distance for a node

Copies of an expression share the numbers of their nodes: the first value of variables that are
declared together, and the subject of a `case`.  Still each node of an accepted program has one
distance, which is looked up every time that the resolver comes to a copy of it, and which is the
one recorded in the end.  The exception are assignments to a local variable in its own first value:
no copy that stands in front of the variable finds it.
-/

namespace MiniPascal

/-- In a program that is parsed and accepted by the resolver, two look-ups for one node find one
distance, or both none, and this is what is recorded for the node, unless the node assigns to a
local variable in the first value of that variable. -/
theorem node_has_one_distance {mode : Recovery} {firstId : NodeId} {source : Source}
    {program : List Stmt}
    (hparse : (parseProgram mode firstId (Lexer.scan source)).result = .ok program)
    (hok : Diagnostic.anyError (Resolution.program program).diagnostics = false) :
    (Resolution.program program).locals =
        (Resolution.programLookups program).foldl NameLookup.record ∅ ∧
      ∀ v ∈ Resolution.programLookups program, Stmt.AssignsOwn program v.id ∨
        (∀ w ∈ Resolution.programLookups program, v.id = w.id → v.distance? = w.distance?) ∧
          (Resolution.program program).locals[v.id]? = v.distance? := by
  have hnumbered := (parseProgram_numbered (Lexer.last_kind source)
    (fun token => Compile.declarable_of_identifier) hparse).program
  have hlocals := (Resolution.program_logs hnumbered).locals
  refine ⟨hlocals, fun v hv => ?_⟩
  by_cases hown : Stmt.AssignsOwn program v.id
  · exact .inl hown
  · have hsame : ∀ w ∈ Resolution.programLookups program, v.id = w.id →
        v.distance? = w.distance? :=
      fun w hw hid => (Resolution.lookups_agree hnumbered hok hv hw hid).resolve_right hown
    refine .inr ⟨hsame, ?_⟩
    rw [hlocals]
    exact NameLookup.getElem?_foldl_record (fun w hw hid => (hsame w hw hid.symm).symm)
      ⟨v, hv, rfl⟩ Std.TreeMap.getElem?_emptyc

/-- Whether errors are found in the names of a source that can be parsed, and its look-ups. -/
def lookupsOf? (source : Source) : Option (Bool × List NameLookup) :=
  match (parseProgram .strict 0 (Lexer.scan source)).result with
  | .ok program => some (Diagnostic.anyError (Resolution.program program).diagnostics,
      Resolution.programLookups program)
  | .error _ => none

theorem parsed_of_lookupsOf? {source : Source} {log : List NameLookup}
    (h : lookupsOf? source = some (false, log)) :
    ∃ program, (parseProgram .strict 0 (Lexer.scan source)).result = .ok program ∧
      Diagnostic.anyError (Resolution.program program).diagnostics = false ∧
      Resolution.programLookups program = log := by
  unfold lookupsOf? at h
  split at h
  · next program hparse =>
      rcases Prod.mk.inj (Option.some.inj h) with ⟨hok, hlog⟩
      exact ⟨program, hparse, hok, hlog⟩
  · cases h

/-- Two variables with one first value, and a choice between two labels. -/
def copiedNodes : Source where
  path := "main.pas"
  text := "begin var N := 1; var A, B := N; case A of 1, 2: print B; end end"

theorem node_has_one_distance_copied :
    ∃ program, (parseProgram .strict 0 (Lexer.scan copiedNodes)).result = .ok program ∧
      Diagnostic.anyError (Resolution.program program).diagnostics = false ∧
      Resolution.programLookups program =
        [⟨0, "N", some 0⟩, ⟨0, "N", some 0⟩, ⟨1, "A", some 0⟩, ⟨1, "A", some 0⟩,
          ⟨2, "B", some 0⟩] ∧
      ∀ v ∈ Resolution.programLookups program, Stmt.AssignsOwn program v.id ∨
        (∀ w ∈ Resolution.programLookups program, v.id = w.id → v.distance? = w.distance?) ∧
          (Resolution.program program).locals[v.id]? = v.distance? := by
  have hlookups : lookupsOf? copiedNodes = some (false, [⟨0, "N", some 0⟩, ⟨0, "N", some 0⟩,
      ⟨1, "A", some 0⟩, ⟨1, "A", some 0⟩, ⟨2, "B", some 0⟩]) := by
    decide +kernel
  rcases parsed_of_lookupsOf? hlookups with ⟨program, hparse, hok, hlog⟩
  exact ⟨program, hparse, hok, hlog, (node_has_one_distance hparse hok).2⟩

/-- Two variables whose first value assigns to the second one. -/
def sharedAssignment : Source where
  path := "main.pas"
  text := "begin var B := 0; begin var A, B := (B := 1); print B; end end"

/-- The first copy of an assignment finds the variable outside, the second one its own. -/
theorem not_node_has_one_distance :
    ¬∀ (source : Source) (program : List Stmt),
      (parseProgram .strict 0 (Lexer.scan source)).result = .ok program →
      Diagnostic.anyError (Resolution.program program).diagnostics = false →
      ∀ v ∈ Resolution.programLookups program, ∀ w ∈ Resolution.programLookups program,
        v.id = w.id → v.distance? = w.distance? := by
  intro hone
  have hlookups : lookupsOf? sharedAssignment = some (false, [⟨1, "B", some 1⟩, ⟨1, "B", some 0⟩,
      ⟨2, "B", some 0⟩]) := by
    decide +kernel
  rcases parsed_of_lookupsOf? hlookups with ⟨program, hparse, hok, hlog⟩
  have hsame := hone sharedAssignment program hparse hok
  rw [hlog] at hsame
  have hequal := hsame ⟨1, "B", some 1⟩ (by simp) ⟨1, "B", some 0⟩ (by simp) rfl
  exact absurd hequal (by decide)

end MiniPascal
