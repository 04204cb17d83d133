import MiniPascal.Compiler
import MiniPascal.Proofs.Parser.ProgramAgreement
import MiniPascal.Proofs.Scope.ProgramDistances
import MiniPascal.Proofs.Token.Scanning

/-!
# Numbers and distances of compiled programs

Whatever a compiler compiles has numbers that it has not given out before, the statements of units
included, and names that a program can declare.  The recorded distances are those of the references
of the program.
-/

namespace MiniPascal

def Stmt.isUses : Stmt → Bool
  | .uses _ _ => true
  | _ => false

/-! ## Names -/

namespace Segment

/-- A segment that is a name only if it is a word and no reserved one. -/
def Proper (segment : Segment) : Prop :=
  segment.kind = .token .identifier →
    wordKind segment.text = .identifier ∧ ∀ c ∈ segment.text, continuesName c = true

theorem Proper.declarable {segment : Segment} (h : segment.Proper)
    (hkind : segment.kind = .token .identifier) : Declarable (String.ofList segment.text) := by
  have hword := (h hkind).1
  unfold wordKind at hword
  constructor
  · intro hthis
    rw [hthis, show Keyword.ofSpelling? (Text.lower "this") = some .this by decide] at hword
    cases hword
  · intro hsuper
    rw [hsuper, show Keyword.ofSpelling? (Text.lower "super") = some .super by decide] at hword
    cases hword

theorem continuesName_of_startsName {c : Char} (h : startsName c = true) :
    continuesName c = true := by
  unfold startsName at h
  unfold continuesName
  rw [Bool.or_eq_true, Bool.or_eq_true] at h
  rcases h with (h | h) | h <;> simp [h]

theorem Stands.proper {segment : Segment} {rest : List Char} (h : segment.Stands rest) :
    segment.Proper := by
  intro hkind
  cases h with
  | @name c cs _ hword hnone =>
      constructor
      · rw [wordKind, Keyword.ofSpelling?_eq_none_iff.mpr hnone]
      · exact List.forall_mem_cons.mpr ⟨continuesName_of_startsName hword.starts, hword.continues⟩
  | @quoted body _ _ =>
      unfold quotedKind at hkind
      split at hkind <;> cases hkind
  | _ => cases hkind

theorem proper_of_mem {text : List Char} : ∀ segment ∈ split text, segment.Proper := by
  intro segment hsegment
  rcases (split_eq_iff.mp rfl).stands_of_mem hsegment with ⟨rest, hstands⟩
  exact hstands.proper

end Segment

/-! ## Numbers -/

namespace Compile

/-- A stage that gives out further numbers; its result satisfies `Q` with the first of them and
the limit. -/
def Numbers (x : Compile α) (Q : NodeId → α → NodeId → Prop) : Prop :=
  ∀ c, match x c with
    | .ok value d => c.nextId ≤ d.nextId ∧ Q c.nextId value d.nextId
    | .error _ d => c.nextId ≤ d.nextId

namespace Numbers

theorem bind {x : Compile α} {f : α → Compile β} {Q : NodeId → α → NodeId → Prop}
    {R : α → NodeId → β → NodeId → Prop} {S : NodeId → β → NodeId → Prop} (hx : Numbers x Q)
    (hf : ∀ value, Numbers (f value) (R value))
    (hS : ∀ value result first middle limit, Q first value middle → first ≤ middle →
      R value middle result limit → middle ≤ limit → S first result limit) :
    Numbers (x >>= f) S := by
  intro c
  have hfirst := hx c
  show match EStateM.bind x f c with
    | .ok value d => _
    | .error _ d => _
  unfold EStateM.bind
  cases hrun : x c with
  | error failure d =>
      rw [hrun] at hfirst
      exact hfirst
  | ok value d =>
      rw [hrun] at hfirst
      rcases hfirst with ⟨hle, hQ⟩
      have hsecond := hf value d
      dsimp only
      cases hrun' : f value d with
      | error failure e =>
          rw [hrun'] at hsecond
          exact Nat.le_trans hle hsecond
      | ok result e =>
          rw [hrun'] at hsecond
          rcases hsecond with ⟨hle', hR⟩
          exact ⟨Nat.le_trans hle hle', hS value result _ _ _ hQ hle hR hle'⟩

theorem imp {x : Compile α} {Q R : NodeId → α → NodeId → Prop} (hx : Numbers x Q)
    (h : ∀ value first limit, first ≤ limit → Q first value limit → R first value limit) :
    Numbers x R := by
  intro c
  have hrun := hx c
  cases hx : x c with
  | error failure d =>
      rw [hx] at hrun
      exact hrun
  | ok value d =>
      rw [hx] at hrun
      exact ⟨hrun.1, h value _ _ hrun.1 hrun.2⟩

theorem pure {Q : NodeId → α → NodeId → Prop} {value : α} (h : ∀ id, Q id value id) :
    Numbers (Pure.pure value) Q :=
  fun c => ⟨Nat.le_refl _, h c.nextId⟩

theorem map {x : Compile α} {Q : NodeId → α → NodeId → Prop} (hx : Numbers x Q) (g : α → β) :
    Numbers (do return g (← x)) fun first result limit =>
      ∃ value, Q first value limit ∧ result = g value := by
  refine hx.bind (R := fun value first result limit => first = limit ∧ result = g value)
    (fun value => Numbers.pure fun _ => ⟨rfl, rfl⟩) ?_
  rintro value result first middle limit hQ _ ⟨rfl, hresult⟩ _
  exact ⟨value, hQ, hresult⟩

theorem throw {Q : NodeId → α → NodeId → Prop} {failure : CompileFailure} :
    Numbers (MonadExcept.throw failure : Compile α) Q :=
  fun _ => Nat.le_refl _

theorem look {f : Compiler → Compile α} {Q : NodeId → α → NodeId → Prop}
    (hf : ∀ c, Numbers (f c) Q) : Numbers (get >>= f) Q :=
  fun c => hf c c

theorem after {change : Compiler → Compiler} {x : Compile α} {Q : NodeId → α → NodeId → Prop}
    (h : ∀ c, (change c).nextId = c.nextId) (hx : Numbers x Q) :
    Numbers (do modify change; x) Q := by
  intro c
  have hrun := hx (change c)
  rw [h c] at hrun
  exact hrun

end Numbers

theorem parse_run (source : Source) (c : Compiler) :
    parse source c =
      let scan := Lexer.scan source
      let parsed := parseProgram c.options.recovery c.nextId scan
      let reports := scan.diagnostics ++ parsed.diagnostics
      let next : Compiler := { c.report reports with
        nextId := parsed.nextId
        scanned := c.scanned ++ scan.all }
      match parsed.result with
      | .ok statements =>
          if Diagnostic.anyError reports then .error .parsing next else .ok statements next
      | .error (.fault _) => .error .parsing next
      | .error .starved => .error .starved next := by
  unfold parse
  dsimp only [bind, EStateM.bind, get, getThe, MonadStateOf.get, EStateM.get, set, EStateM.set]
  cases (parseProgram c.options.recovery c.nextId (Lexer.scan source)).result with
  | ok statements => dsimp only; split <;> rfl
  | error stop => cases stop <;> rfl

theorem resolve_run (program : List Stmt) (c : Compiler) :
    resolve program c =
      let resolution := Resolution.program program
      let d := c.report resolution.diagnostics
      if Diagnostic.anyError resolution.diagnostics then .error .resolution d
      else .ok resolution.locals d := by
  unfold resolve
  dsimp only [bind, EStateM.bind, modify, modifyGet, MonadStateOf.modifyGet, EStateM.modifyGet]
  split <;> rfl

theorem checkTypes_run (program : List Stmt) (c : Compiler) :
    checkTypes program c =
      let diagnostics := (Typing.checkProgram program).2
      if c.options.checkTypes then
        if Diagnostic.anyError diagnostics then .error .typing (c.report diagnostics)
        else .ok () (c.report diagnostics)
      else .ok () c := by
  unfold checkTypes
  dsimp only [bind, EStateM.bind, get, getThe, MonadStateOf.get, EStateM.get]
  split
  · dsimp only [EStateM.bind, modify, modifyGet, MonadStateOf.modifyGet, EStateM.modifyGet]
    split <;> rfl
  · rfl

theorem declarable_of_identifier {source : Source} {token : Token}
    (htoken : token ∈ (Lexer.scan source).tokens) (hname : token.kind = .identifier) :
    Declarable token.lexeme := by
  rcases Lexer.segment_of_mem htoken with ⟨segment, hmem, hkind, hlexeme⟩
  rw [hlexeme]
  exact (Segment.proper_of_mem segment hmem).declarable (hname ▸ hkind)

/-- A name in a text consists of characters that go on with a name. -/
theorem not_mem_of_identifier {source : Source} {token : Token} {c : Char}
    (hc : Segment.continuesName c = false) (htoken : token ∈ (Lexer.scan source).tokens)
    (hname : token.kind = .identifier) : c ∉ token.lexeme.toList := by
  intro hmem
  rcases Lexer.segment_of_mem htoken with ⟨segment, hsegment, hkind, hlexeme⟩
  rw [hlexeme, String.toList_ofList] at hmem
  have hword := (Segment.proper_of_mem segment hsegment (hname ▸ hkind)).2 c hmem
  rw [hc] at hword
  cases hword

theorem parse_numbers (source : Source) :
    Numbers (parse source) (Stmt.NumberedProgram Declarable) := by
  intro c
  have hlast := Lexer.last_kind source
  have hle : c.nextId ≤ (parseProgram c.options.recovery c.nextId (Lexer.scan source)).nextId :=
    parseProgram_nextId hlast
  rw [parse_run]
  dsimp only
  cases hparsed : (parseProgram c.options.recovery c.nextId (Lexer.scan source)).result with
  | error stop =>
      cases stop with
      | fault error => exact hle
      | starved => exact hle
  | ok statements =>
      dsimp only
      by_cases herror : Diagnostic.anyError ((Lexer.scan source).diagnostics ++
          (parseProgram c.options.recovery c.nextId (Lexer.scan source)).diagnostics) = true
      · rw [if_pos herror]
        exact hle
      · rw [if_neg herror]
        exact ⟨hle, (parseProgram_numbered hlast (fun token => declarable_of_identifier)
          hparsed).program⟩

/-! ## Units -/

/-- Statements that have come from others by putting units in place: besides the old references
there are new ones, with numbers from `first` up to `limit`, and besides the old variables new
ones. -/
def Expanded (statements : List Stmt) (first : NodeId) (expansion : Expansion) (limit : NodeId) :
    Prop :=
  (Stmt.TidyList Declarable statements → Stmt.TidyList Declarable expansion.statements) ∧
    ∃ refs vars, Aligned Declarable first (fun _ => refs) (fun _ => vars) limit ∧
      (∀ r, r ∈ Stmt.listReferences [] expansion.statements ↔
        r ∈ Stmt.listReferences [] statements ∨ r ∈ refs) ∧
      ∀ var, var ∈ Stmt.listVariables [] expansion.statements ↔
        var ∈ Stmt.listVariables [] statements ∨ var ∈ vars

theorem listReferences_append_nil (xs ys : List Stmt) :
    Stmt.listReferences [] (xs ++ ys) = Stmt.listReferences [] xs ++ Stmt.listReferences [] ys :=
  Stmt.listReferences_append [] xs ys

theorem listVariables_append_nil (xs ys : List Stmt) :
    Stmt.listVariables [] (xs ++ ys) = Stmt.listVariables [] xs ++ Stmt.listVariables [] ys :=
  Stmt.listVariables_append [] xs ys

theorem expandWith_numbers {expand : Token → Compile Expansion}
    (hexpand : ∀ unit, Numbers (expand unit) fun first expansion limit =>
      Stmt.NumberedProgram Declarable first expansion.statements limit)
    (statements : List Stmt) :
    Numbers (expandWith expand statements) (Expanded statements) := by
  induction statements with
  | nil =>
      refine Numbers.pure fun id => ⟨fun h => h, [], [], Aligned.of_nil (Nat.le_refl id) ?_, ?_, ?_⟩
      · intro p
        rfl
      · intro r
        simp
      · intro var
        simp
  | cons statement rest ih =>
      -- all statements but `uses` stay where they are
      have hkept : Numbers (do
          let others ← expandWith expand rest
          return { others with statements := statement :: others.statements })
          (Expanded (statement :: rest)) := by
        refine (ih.map _).imp ?_
        rintro result first limit _ ⟨others, ⟨htidy, refs, vars, hrefs, hmem, hvars⟩, rfl⟩
        refine ⟨fun h => ⟨h.1, htidy h.2⟩, refs, vars, hrefs, ?_, ?_⟩
        · intro r
          show r ∈ Stmt.references [] statement ++ Stmt.listReferences [] others.statements ↔
            r ∈ Stmt.references [] statement ++ Stmt.listReferences [] rest ∨ r ∈ refs
          rw [List.mem_append, List.mem_append, hmem r, or_assoc]
        · intro var
          show var ∈ Stmt.locatedVariables [] statement ++ Stmt.listVariables [] others.statements ↔
            var ∈ Stmt.locatedVariables [] statement ++ Stmt.listVariables [] rest ∨ var ∈ vars
          rw [List.mem_append, List.mem_append, hvars var, or_assoc]
      cases statement with
      | uses keyword unit =>
          refine (hexpand unit).bind (fun here => ih.map _) ?_
          rintro here result first middle limit hhere hle ⟨others, hothers, rfl⟩ _
          rcases hothers with ⟨htidy, refs, vars, hrefs, hmem, hvars⟩
          refine ⟨fun h => Stmt.tidyList_append hhere.tidy (htidy h.2),
            Stmt.listReferences [] here.statements ++ refs,
            Stmt.listVariables [] here.statements ++ vars, hhere.settled.append hrefs, ?_, ?_⟩
          · intro r
            show r ∈ Stmt.listReferences [] (here.statements ++ others.statements) ↔
              r ∈ Stmt.listReferences [] rest ∨ r ∈ Stmt.listReferences [] here.statements ++ refs
            rw [listReferences_append_nil, List.mem_append, List.mem_append, hmem r, or_left_comm]
          · intro var
            show var ∈ Stmt.listVariables [] (here.statements ++ others.statements) ↔
              var ∈ Stmt.listVariables [] rest ∨
                var ∈ Stmt.listVariables [] here.statements ++ vars
            rw [listVariables_append_nil, List.mem_append, List.mem_append, hvars var,
              or_left_comm]
      | _ => exact hkept

theorem Expanded.program {statements : List Stmt} {expansion : Expansion}
    {first middle limit : NodeId} (h : Stmt.NumberedProgram Declarable first statements middle)
    (hexpanded : Expanded statements middle expansion limit) :
    Stmt.NumberedProgram Declarable first expansion.statements limit := by
  rcases hexpanded with ⟨htidy, refs, vars, hrefs, hmem, hvars⟩
  refine ⟨htidy h.tidy, (h.settled.append hrefs).congr ?_ ?_⟩
  · intro p r
    rw [hmem r, List.mem_append]
  · intro p var hvar
    exact (hvars var).mpr (List.mem_append.mp hvar)

theorem expandUnit_numbers (files : FileTree) (fuel : Nat) :
    ∀ including unit, Numbers (expandUnit files fuel including unit) fun first expansion limit =>
      Stmt.NumberedProgram Declarable first expansion.statements limit := by
  induction fuel with
  | zero =>
      intro including unit
      exact Numbers.throw
  | succ fuel ih =>
      intro including unit
      have hnone (missing : Bool) (id : NodeId) : Stmt.NumberedProgram Declarable id
          (Expansion.mk [] missing).statements id :=
        ⟨trivial, Aligned.of_nil (Nat.le_refl id) fun _ => rfl⟩
      refine Numbers.look fun c => ?_
      split
      · exact Numbers.pure (hnone false)
      · refine Numbers.after (fun _ => rfl) ?_
        split
        · exact Numbers.after (fun _ => rfl) (Numbers.pure (hnone true))
        · refine (parse_numbers _).bind (fun statements =>
            expandWith_numbers (ih (unitPath including unit)) statements) ?_
          intro statements expansion first middle limit hstatements _ hexpanded _
          exact hexpanded.program hstatements

theorem parseAll_numbers (files : FileTree) (source : Source) :
    Numbers (parseAll files source) (Stmt.NumberedProgram Declarable) := by
  refine Numbers.after (fun _ => rfl) ((parse_numbers source).bind (fun statements =>
    (expandWith_numbers (expandUnit_numbers files (files.size + 2) source.path) statements).bind
      (R := fun expansion first result limit => first = limit ∧ result = expansion.statements)
      (S := fun first result limit =>
        ∃ expansion, Expanded statements first expansion limit ∧ result = expansion.statements)
      (fun expansion => ?_) ?_) ?_)
  · split
    · exact Numbers.throw
    · exact Numbers.pure fun _ => ⟨rfl, rfl⟩
  · rintro expansion result first middle limit hexpanded _ ⟨rfl, rfl⟩ _
    exact ⟨expansion, hexpanded, rfl⟩
  · rintro statements result first middle limit hstatements _ ⟨expansion, hexpanded, rfl⟩ _
    exact hexpanded.program hstatements

/-! ## Compilations -/

/-- A program that compiles has new numbers, and the distances of its names are known. -/
theorem compile_numbers (files : FileTree) (source : Source) :
    Numbers (compile files source) fun first compilation limit =>
      Stmt.NumberedProgram Declarable first compilation.program limit ∧
        Diagnostic.anyError (Resolution.program compilation.program).diagnostics = false ∧
        compilation.locals = (Resolution.program compilation.program).locals := by
  have hresolve (program : List Stmt) : Numbers (resolve program) fun first locals limit =>
      first = limit ∧ Diagnostic.anyError (Resolution.program program).diagnostics = false ∧
        locals = (Resolution.program program).locals := by
    refine Numbers.after (fun _ => rfl) ?_
    split
    · exact Numbers.throw
    · next hok => exact Numbers.pure fun _ => ⟨rfl, by simpa using hok, rfl⟩
  have hcheck (program : List Stmt) : Numbers (checkTypes program) fun first _ limit =>
      first = limit := by
    refine Numbers.look fun c => ?_
    split
    · refine Numbers.after (fun _ => rfl) ?_
      split
      · exact Numbers.throw
      · exact Numbers.pure fun _ => rfl
    · exact Numbers.pure fun _ => rfl
  have hrest (program : List Stmt) : Numbers (do
      let locals ← resolve program
      checkTypes program
      return (⟨program, locals⟩ : Compilation)) fun first compilation limit => first = limit ∧
        Diagnostic.anyError (Resolution.program program).diagnostics = false ∧
        compilation = (⟨program, (Resolution.program program).locals⟩ : Compilation) := by
    refine (hresolve program).bind (fun locals =>
      (hcheck program).map fun _ => (⟨program, locals⟩ : Compilation)) ?_
    rintro locals result first middle limit ⟨rfl, hok, rfl⟩ _ ⟨_, rfl, rfl⟩ _
    exact ⟨rfl, hok, rfl⟩
  refine (parseAll_numbers files source).bind hrest ?_
  rintro program result first middle limit hprogram _ ⟨rfl, hok, rfl⟩ _
  exact ⟨hprogram, hok, rfl⟩

end Compile

end MiniPascal
