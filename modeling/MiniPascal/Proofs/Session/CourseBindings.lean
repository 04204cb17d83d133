import MiniPascal.Proofs.Session.Courses

/-!
# Names and bindings in courses

What becomes of frames when compiled programs run.  A block, a `try` and a call leave all frames
from before with the names that they had, and a global variable keeps its value until its name is
assigned.  Both are read off the journal: it tells of every change of a frame, and the resolver
promises where the names of assignments are.
-/

namespace MiniPascal

namespace Course

/-! ## Scopes -/

/-- Whatever is compiled and run or tested: a block, a `try` or a call, however it ends, leaves
every frame from before with the names that it had. -/
theorem scopes_confine_names (options : CompileOptions) (host : Host) (jobs : List Job) :
    let c := (start options host).workAll jobs
    c.session = (Session.start options host).workAll jobs ∧
      ∀ e ∈ c.runs.entries, e.activity.opensScope = true →
        e.before.store.SameNames e.after.store := by
  refine ⟨workAll_session (.start host) jobs, ?_⟩
  intro e he hscope
  have htold := workAll_told (c := start options host) (.start host) jobs
  have hvalid := (valid_start options host).workAll jobs
  rcases List.append_of_mem he with ⟨later, earlier, hentries⟩
  have hfine := htold.fine
  rw [hentries] at hfine
  refine hfine.split.confined hscope fun inner hinner => ?_
  refine (hvalid.vouched.entries.vouched inner ?_).quiet
  rw [hentries]
  exact List.mem_append_right _ (List.mem_cons_of_mem _ hinner)

/-- An error leaves a block and the call around it. -/
def abandoned : List Job :=
  [⟨⟨.empty, 20, ⟨"main.pas",
    "procedure P; begin begin var Y := 1; raise 'no'; end end P();"⟩⟩, .run⟩]

/-- Whether an entry is that of a call that has made frames and was ended by an error. -/
def failsInside (e : Entry) : Bool :=
  match e.activity, e.ending with
  | .call _ _, .stopped (.failed (.error _)) =>
      e.before.store.frames.size < e.after.store.frames.size
  | _, _ => false

theorem exists_of_failsInside {entries : List Entry} (h : entries.any failsInside = true) :
    ∃ e ∈ entries, ∃ f arguments error, e.activity = .call f arguments ∧
      e.ending = .stopped (.failed (.error error)) ∧
      e.before.store.frames.size < e.after.store.frames.size := by
  rcases List.any_eq_true.mp h with ⟨e, he, hcheck⟩
  unfold failsInside at hcheck
  split at hcheck
  · next f arguments error hactivity hending =>
      exact ⟨e, he, f, arguments, error, hactivity, hending, of_decide_eq_true hcheck⟩
  · cases hcheck

theorem scopes_confine_names_abandoned :
    let c := (start {} (.still 0)).workAll abandoned
    ∃ e ∈ c.runs.entries, ∃ f arguments error, e.activity = .call f arguments ∧
      e.ending = .stopped (.failed (.error error)) ∧
      e.before.store.frames.size < e.after.store.frames.size ∧
      e.before.store.SameNames e.after.store := by
  have hconfine := (scopes_confine_names {} (.still 0) abandoned).2
  have hfound : ((start {} (.still 0)).workAll abandoned).runs.entries.any failsInside = true := by
    decide +kernel
  generalize (start {} (.still 0)).workAll abandoned = c at *
  rcases exists_of_failsInside hfound with ⟨e, he, f, arguments, error, hactivity, hending, hframes⟩
  exact ⟨e, he, f, arguments, error, hactivity, hending, hframes,
    hconfine e he (by rw [hactivity]; rfl)⟩

end Course

/-! ## Global variables -/

namespace Store

def global? (s : Store) (name : String) : Option Value :=
  (s.frame globalFrame).find? name

/-- A global variable keeps its value; if that is a function, it may get further overloads. -/
def Retains (s : Store) (name : String) (s' : Store) : Prop :=
  ∀ value, s.global? name = some value → s'.global? name = some value ∧
    ∀ f, value = .function f → s.overloadsOf f <+: s'.overloadsOf f

theorem native_of_global?_initial {name : String} {value : Value}
    (h : initial.global? name = some value) : ∃ native, value = .native native := by
  have hall (list : List Builtin) : ∀ s : Store,
      (∀ value, s.global? name = some value → ∃ native, value = .native native) →
      ∀ value, (list.foldl bindBuiltin s).global? name = some value →
        ∃ native, value = .native native := by
    induction list with
    | nil => exact fun s hs => hs
    | cons op rest ih =>
        intro s hs
        refine ih (s.bindBuiltin op) fun value hvalue => ?_
        unfold global? bindBuiltin at hvalue
        rw [find?_bindIn] at hvalue
        split at hvalue
        · cases hvalue
          exact ⟨_, rfl⟩
        · exact hs value hvalue
  refine hall Builtin.all _ (fun value hvalue => ?_) value h
  unfold global? at hvalue
  rw [find?_firstFrame] at hvalue
  cases hvalue

theorem globalFrame_lt_initial : globalFrame < initial.frames.size :=
  Nat.lt_of_lt_of_eq Nat.zero_lt_one linked_initial.size

theorem global?_bindIn {s : Store} (h : globalFrame < s.frames.size) (name : String)
    (value : Value) : (s.bindIn globalFrame name value).global? name = some value := by
  unfold global?
  rw [find?_bindIn, if_pos ⟨⟨rfl, h⟩, rfl⟩]

/-- A declaration at top level binds a name that is not bound, or adds a function to another. -/
theorem define?_globals {name : String} {value : Value} {s s' : Store}
    (h : s.define? globals name value = some s') :
    (s' = s.bindIn globalFrame name value) ∨
      ∃ existing added, s.global? name = some (.function existing) ∧ value = .function added := by
  unfold define? at h
  cases hdefinition : s.definition globals name value with
  | fresh =>
      rw [hdefinition] at h
      cases h
      exact .inl rfl
  | overload existing added =>
      refine .inr ⟨existing, added, ?_⟩
      unfold definition at hdefinition
      cases hfind : s.findHere? globals name with
      | none =>
          rw [hfind] at hdefinition
          cases hdefinition
      | some found =>
          rw [hfind] at hdefinition
          cases found with
          | function f =>
              cases value with
              | function g =>
                  cases hdefinition
                  exact ⟨hfind, rfl⟩
              | _ => cases hdefinition
          | _ => cases hdefinition
  | refused =>
      rw [hdefinition] at h
      cases h

end Store

theorem Machine.global?_eq (m : Machine) (name : String) :
    m.global? name = m.store.global? name := by
  unfold Machine.global?
  cases hvalue : m.store.global? name with
  | none =>
      change (m.store.frame Store.globalFrame).find? name = none at hvalue
      simp only [Store.globals, Store.find?, hvalue]
  | some value =>
      change (m.store.frame Store.globalFrame).find? name = some value at hvalue
      simp only [Store.globals, Store.find?, hvalue]

/-- A global variable that is not assigned keeps its value. -/
theorem Store.BecomesBy.retains {s s' : Store} {entries : List Entry} {name : String}
    (h : s.BecomesBy entries s') (hname : ∀ e ∈ entries, ¬e.Assigns name) : s.Retains name s' :=
  fun value hvalue =>
    ⟨h.kept Store.globalFrame name value hvalue fun ⟨e, he, hassigns⟩ =>
      hname e he hassigns, fun f _ => h.overloads f⟩

/-- One of two entries that declare a name at top level is not counted once. -/
theorem Entry.two_declarations {e e' : Entry} {later earlier : List Entry} {s s' : Stmt}
    {tops : List Stmt} {name : String}
    (h : ((later ++ e :: earlier).filterMap topDeclaration?).Sublist tops)
    (he : e.topDeclaration? = some s) (hname : name ∈ s.declared)
    (hmem : e' ∈ earlier) (he' : e'.topDeclaration? = some s') (hname' : name ∈ s'.declared) :
    2 ≤ tops.countP fun s => name ∈ s.declared := by
  have hin : s' ∈ earlier.filterMap topDeclaration? := List.mem_filterMap.mpr ⟨e', hmem, he'⟩
  have hone : 0 < (earlier.filterMap topDeclaration?).countP fun s => name ∈ s.declared :=
    List.countP_pos_iff.mpr ⟨s', hin, decide_eq_true hname'⟩
  have hfirst := List.countP_cons_of_pos (p := fun s : Stmt => name ∈ s.declared)
    (l := earlier.filterMap topDeclaration?) (decide_eq_true hname)
  have hall := h.countP_le (p := fun s => name ∈ s.declared)
  rw [List.filterMap_append, List.filterMap_cons_some he, List.countP_append, hfirst] at hall
  omega

namespace Course

/-- No assignment in the programs so far names a variable. -/
def Unassigned (c : Course) (name : String) : Prop :=
  ∀ ref, c.Knows ref → ref.mention.use = .write → ref.mention.name ≠ name

def declarations (c : Course) (name : String) : Nat :=
  c.statements.countP fun s => name ∈ s.declared

namespace Valid

variable {c : Course} {name : String} {e : Entry}

theorem not_assigns (h : c.Valid) (hname : c.Unassigned name) (he : e ∈ c.runs.entries) :
    ¬e.Assigns name := by
  rintro ⟨id, token, value, result, hactivity, htoken, -⟩
  have hvouched := h.vouched.entries.vouched e he
  unfold Entry.Vouched at hvouched
  rw [hactivity] at hvouched
  rcases hvouched with ⟨⟨ref, hknown, hmention⟩, -⟩
  exact hname ref hknown (by rw [hmention]) (by rw [hmention]; exact htoken)

/-- A name that is not assigned becomes global by a declaration at top level. -/
theorem introduces_global (h : c.Valid) (hname : c.Unassigned name) (he : e ∈ c.runs.entries)
    (hnew : e.Introduces Store.globalFrame name) :
    ∃ s, e.topDeclaration? = some s ∧ name ∈ s.declared := by
  have hvouched := h.vouched.entries.vouched e he
  rcases e with ⟨activity, before, after, ending⟩
  rcases hnew with ⟨-, hnew⟩
  cases activity with
  | statement s =>
      exact ⟨s, if_pos ⟨hnew.1, List.ne_nil_of_mem hnew.2⟩, hnew.2⟩
  | call f arguments => exact hnew.elim
  | expression x =>
      cases x with
      | assign id token value =>
          rcases hvouched with ⟨⟨ref, hknown, hmention⟩, -⟩
          exact absurd (by rw [hmention]; exact hnew.1.symm)
            (hname ref hknown (by rw [hmention]))
      | _ => exact hnew.elim

/-- Before a name's only declaration at top level, no function is bound to it. -/
theorem not_function_before (h : c.Valid) (htold : c.runs.Told) {s : Stmt} {f : Fn}
    {later earlier : List Entry} {e' : Entry}
    (hentries : c.runs.entries = later ++ e :: earlier) (he : e.topDeclaration? = some s)
    (hin : name ∈ s.declared) (honce : c.declarations name = 1) (hname : c.Unassigned name)
    (hbefore : e' ∈ earlier) : e'.after.store.global? name ≠ some (.function f) := by
  intro hfound
  rcases List.append_of_mem hbefore with ⟨between, first, rfl⟩
  have hpast (inner : Entry) (hinner : inner ∈ e' :: first) : inner ∈ c.runs.entries := by
    rw [hentries]
    exact List.mem_append_right _ (List.mem_cons_of_mem _ (List.mem_append_right _ hinner))
  have hway := htold.passes
  rw [hentries, ← List.cons_append, ← List.append_assoc] at hway
  have hpasses := hway.split.1
  cases hinitial : Store.initial.global? name with
  | some value =>
      rcases Store.native_of_global?_initial hinitial with ⟨native, rfl⟩
      have hkept : Store.initial.Retains name e'.after.store :=
        hpasses.becomes.retains fun inner hinner => h.not_assigns hname (hpast inner hinner)
      rw [(hkept _ hinitial).1] at hfound
      cases hfound
  | none =>
      have hsome : (e'.after.store.global? name).isSome := by
        rw [hfound]
        rfl
      rcases hpasses.becomes.names Store.globalFrame Store.globalFrame_lt_initial name hinitial
        hsome with ⟨inner, hinner, hnew⟩
      rcases h.introduces_global hname (hpast inner hinner) hnew with ⟨s', hs', hin'⟩
      have htops := h.vouched.entries.tops
      rw [hentries] at htops
      have htwo := Entry.two_declarations htops he hin (List.mem_append_right _ hinner) hs' hin'
      rw [List.countP_reverse] at htwo
      have hle := (List.filter_sublist (l := c.statements)
        (p := fun s => s.declared ≠ [])).countP_le (p := fun s => name ∈ s.declared)
      change _ ≤ c.declarations name at hle
      rw [honce] at hle
      exact absurd (Nat.le_trans htwo hle) (by decide)

/-- A variable that is declared once at top level and not assigned. -/
theorem binds_first_value (h : c.Valid) (htold : c.runs.Told) {decl : VarDecl}
    {later earlier : List Entry} (hentries : c.runs.entries = later ++ e :: earlier)
    (hactivity : e.activity = .statement (.var decl)) (henv : e.before.cx.env = Store.globals)
    (hending : e.ending = .done) (honce : c.declarations decl.name.lexeme = 1)
    (hname : c.Unassigned decl.name.lexeme) :
    ∃ value between, e.FirstValue earlier decl.initial value between ∧
      e.after.store.global? decl.name.lexeme = some value := by
  have hfine := htold.fine
  rw [hentries] at hfine
  rcases hfine.split.initialized decl hactivity hending with ⟨value, between, hdefine, hfirst⟩
  refine ⟨value, between, hfirst, ?_⟩
  rw [henv] at hdefine
  rcases Store.define?_globals hdefine with hafter | ⟨existing, added, hbound, rfl⟩
  · have hway := htold.passes
    rw [hentries] at hway
    have hframe := Nat.lt_of_lt_of_le Store.globalFrame_lt_initial hway.split.1.becomes.frames
    rw [hafter] at hframe ⊢
    exact Store.global?_bindIn (by simpa [Store.bindIn] using hframe) _ value
  · -- the function that the variable would overload has come from nowhere
    unfold Entry.FirstValue at hfirst
    split at hfirst
    · cases hfirst
    · rcases hfirst with ⟨first, hbefore, -, -, rfl, -⟩
      have htop : e.topDeclaration? = some (.var decl) := by
        unfold Entry.topDeclaration?
        rw [hactivity, henv]
        rfl
      exact absurd hbound (h.not_function_before htold hentries htop List.mem_cons_self honce hname
        hbefore)

end Valid

/-- Whatever is compiled and run or tested: once a name is global, its value stays, to the next
entries and to the end, until the name is assigned; if the value is a function, it is that very
function, with further overloads at most.  So a variable that is declared at top level only once,
and not assigned in any program, has its first value in the end. -/
theorem global_binding_lasts (options : CompileOptions) (host : Host) (jobs : List Job) :
    let c := (start options host).workAll jobs
    c.session = (Session.start options host).workAll jobs ∧
      (∀ later between e e' earlier name,
        c.runs.entries = later ++ e' :: (between ++ e :: earlier) →
        (∀ inner ∈ e' :: between, ¬inner.Assigns name) →
          e.after.store.Retains name e'.after.store) ∧
      (∀ later e earlier name, c.runs.entries = later ++ e :: earlier →
        (∀ inner ∈ later, ¬inner.Assigns name) →
          e.after.store.Retains name c.session.machine.store) ∧
      ∀ later e earlier decl, c.runs.entries = later ++ e :: earlier →
        e.activity = .statement (.var decl) → e.before.cx.env = Store.globals →
        e.ending = .done → c.declarations decl.name.lexeme = 1 → c.Unassigned decl.name.lexeme →
          ∃ value between, e.FirstValue earlier decl.initial value between ∧
            c.session.machine.global? decl.name.lexeme = some value := by
  intro c
  have htold : c.runs.Told := workAll_told (.start host) jobs
  have hvalid : c.Valid := (valid_start options host).workAll jobs
  have hend (later : List Entry) (e : Entry) (earlier : List Entry) (name : String)
      (hentries : c.runs.entries = later ++ e :: earlier)
      (hname : ∀ inner ∈ later, ¬inner.Assigns name) :
      e.after.store.Retains name c.session.machine.store := by
    have hway := htold.passes
    rw [hentries] at hway
    exact hway.split.2.retains hname
  refine ⟨workAll_session (.start host) jobs, ?_, hend, ?_⟩
  · intro later between e e' earlier name hentries hname
    have hway := htold.passes
    rw [hentries] at hway
    have hbefore := hway.split.1
    rw [← List.cons_append] at hbefore
    exact hbefore.split.2.retains hname
  · intro later e earlier decl hentries hactivity henv hending honce hname
    rcases hvalid.binds_first_value htold hentries hactivity henv hending honce hname with
      ⟨value, between, hfirst, hvalue⟩
    refine ⟨value, between, hfirst, ?_⟩
    rw [Machine.global?_eq]
    refine (hend later e earlier _ hentries (fun inner hinner => ?_) value hvalue).1
    refine hvalid.not_assigns hname ?_
    rw [hentries]
    exact List.mem_append_left _ hinner

/-- A global variable is shadowed in a call, a function gets an overload, and another variable is
assigned. -/
def shadowed : List Job :=
  [⟨⟨.empty, 20, ⟨"main.pas",
    "var X := 2 * 3; var Y := 0; " ++
    "procedure P; begin var X := 1; Y := X; print X; end " ++
    "procedure P(A : Integer); begin print A; end " ++
    "P(); P(X); print Y;"⟩⟩, .run⟩]

/-- Whether an entry is that of a variable declared at top level. -/
def declaresVariable (name : String) (e : Entry) : Bool :=
  match e.activity, e.ending with
  | .statement (.var decl), .done =>
      decl.name.lexeme == name && e.before.cx.env == Store.globals
  | _, _ => false

/-- Whether an entry is that of a function that has no overloads yet. -/
def declaresFunction (name : String) (e : Entry) : Bool :=
  match e.activity, e.after.store.global? name with
  | .statement (.function _), some (.function f) => (e.after.store.overloadsOf f).isEmpty
  | _, _ => false

/-- Whether a program has no assignment to a variable. -/
def leaves (name : String) (compilation : Compilation) : Bool :=
  (Stmt.listReferences [] compilation.program).all fun ref =>
    ref.mention.use != .write || ref.mention.name != name

theorem unassigned_of_leaves {c : Course} {name : String}
    (h : c.compiled.all (leaves name) = true) : c.Unassigned name := by
  rintro ref ⟨compilation, hcompiled, href⟩ hwrite hname
  have hall := List.all_eq_true.mp (List.all_eq_true.mp h compilation hcompiled) ref href
  simp [hwrite, hname] at hall

theorem exists_of_declaresVariable {entries : List Entry} {name : String}
    (h : entries.any (declaresVariable name) = true) :
    ∃ later e earlier decl, entries = later ++ e :: earlier ∧
      e.activity = .statement (.var decl) ∧ e.before.cx.env = Store.globals ∧ e.ending = .done ∧
      decl.name.lexeme = name := by
  rcases List.any_eq_true.mp h with ⟨e, he, hcheck⟩
  rcases List.append_of_mem he with ⟨later, earlier, hentries⟩
  unfold declaresVariable at hcheck
  split at hcheck
  · next decl hactivity hending =>
      rw [Bool.and_eq_true_iff, beq_iff_eq, beq_iff_eq] at hcheck
      exact ⟨later, e, earlier, decl, hentries, hactivity, hcheck.2, hending, hcheck.1⟩
  · cases hcheck

theorem exists_of_declaresFunction {entries : List Entry} {name : String}
    (h : entries.any (declaresFunction name) = true) :
    ∃ later e earlier f, entries = later ++ e :: earlier ∧
      e.after.store.global? name = some (.function f) ∧ e.after.store.overloadsOf f = [] := by
  rcases List.any_eq_true.mp h with ⟨e, he, hcheck⟩
  rcases List.append_of_mem he with ⟨later, earlier, hentries⟩
  unfold declaresFunction at hcheck
  split at hcheck
  · next decl f hactivity hvalue =>
      exact ⟨later, e, earlier, f, hentries, hvalue, List.isEmpty_iff.mp hcheck⟩
  · cases hcheck

theorem global_binding_lasts_shadowed :
    let c := (start {} (.still 0)).workAll shadowed
    (∃ later e earlier decl, c.runs.entries = later ++ e :: earlier ∧
      e.activity = .statement (.var decl) ∧ e.before.cx.env = Store.globals ∧ e.ending = .done ∧
      decl.name.lexeme = "X" ∧ c.declarations "X" = 1 ∧ c.Unassigned "X" ∧
      ∃ value between, e.FirstValue earlier decl.initial value between ∧
        c.session.machine.global? "X" = some value) ∧
    ∃ e' between e earlier f, c.runs.entries = e' :: (between ++ e :: earlier) ∧
      (∀ inner ∈ e' :: between, ¬inner.Assigns "P") ∧
      e.after.store.global? "P" = some (.function f) ∧ e.after.store.overloadsOf f = [] ∧
      e'.after.store.global? "P" = some (.function f) ∧
      c.session.machine.store.global? "P" = some (.function f) := by
  have hlasts := global_binding_lasts {} (.still 0) shadowed
  have hvalid := (valid_start {} (.still 0)).workAll shadowed
  have hchecked : let c := (start {} (.still 0)).workAll shadowed
      c.compiled.all (leaves "X") = true ∧ c.compiled.all (leaves "P") = true ∧
        c.declarations "X" = 1 ∧ c.runs.entries.any (declaresVariable "X") = true ∧
        c.runs.entries.tail.any (declaresFunction "P") = true := by
    decide +kernel
  generalize (start {} (.still 0)).workAll shadowed = c at *
  rcases hlasts with ⟨-, hnext, hend, hfirst⟩
  rcases hchecked with ⟨hX, hP, honce, hvariable, hfunction⟩
  refine ⟨?_, ?_⟩
  · rcases exists_of_declaresVariable hvariable with
      ⟨later, e, earlier, decl, hentries, hactivity, henv, hending, hname⟩
    have hlast := hfirst later e earlier decl hentries hactivity henv hending
    rw [hname] at hlast
    exact ⟨later, e, earlier, decl, hentries, hactivity, henv, hending, hname, honce,
      unassigned_of_leaves hX, hlast honce (unassigned_of_leaves hX)⟩
  · rcases exists_of_declaresFunction hfunction with
      ⟨between, e, earlier, f, htail, hvalue, hfresh⟩
    cases hall : c.runs.entries with
    | nil =>
        rw [hall] at hfunction
        cases hfunction
    | cons e' rest =>
        rw [hall] at htail
        change rest = between ++ e :: earlier at htail
        subst htail
        have hname : ∀ inner ∈ e' :: between, ¬inner.Assigns "P" := by
          intro inner hinner
          refine hvalid.not_assigns (unassigned_of_leaves hP) ?_
          rw [hall, ← List.cons_append]
          exact List.mem_append_left _ hinner
        exact ⟨e', between, e, earlier, f, rfl, hname, hvalue, hfresh,
          (hnext [] between e e' earlier "P" hall hname _ hvalue).1,
          (hend (e' :: between) e earlier "P" hall hname _ hvalue).1⟩

end Course

end MiniPascal
