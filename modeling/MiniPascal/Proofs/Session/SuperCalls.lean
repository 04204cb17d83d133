import MiniPascal.Proofs.Machine.Signatures
import MiniPascal.Proofs.Session.Recording

/-!
# Calls of methods of the superclass

`super.m(...)` binds a copy of the first `m` above the class whose method is around, without its
overloads.  If the copy does not take the arguments, the choice falls back on the class of the
instance, and from there on functions of the same name.  So the call ends up with the right overload
exactly if this is the first one, or if no class from that of the instance up to the one around has
an `m` of its own.
-/

namespace MiniPascal

/-! ## Methods along the chain of superclasses -/

namespace Class

theorem findMethod_of_ancestor {cls ancestor : Class} {name : String} {method : Fn}
    (h : ancestor ∈ cls.ancestry) (hmethod : ancestor.findMethod name = some method) :
    ∃ first, cls.findMethod name = some first := by
  induction cls using chain_induction with
  | root cls hroot =>
      rw [ancestry_of_root hroot] at h
      rw [← List.mem_singleton.mp h]
      exact ⟨method, hmethod⟩
  | derived cls parent hparent ih =>
      rw [ancestry_of_superclass hparent] at h
      rcases List.mem_cons.mp h with rfl | h
      · exact ⟨method, hmethod⟩
      · rcases ih h with ⟨first, hfirst⟩
        rw [findMethod_of_superclass hparent, hfirst]
        cases cls.methods.find? name with
        | none => exact ⟨first, rfl⟩
        | some own => exact ⟨own, rfl⟩

/-- A class has its method from the superclass of an ancestor, or from a class that is not above
that ancestor. -/
theorem findMethod_lower {cls home parent : Class} {name : String} {first : Fn}
    (hhome : home ∈ cls.ancestry) (hparent : home.superclass = some parent)
    (hfirst : cls.findMethod name = some first) :
    parent.findMethod name = some first ∨
      ∃ lower ∈ cls.ancestry, home ∈ lower.ancestry ∧ lower.methods.find? name = some first := by
  induction cls using chain_induction with
  | root cls hroot =>
      rw [ancestry_of_root hroot] at hhome
      rw [List.mem_singleton.mp hhome, hroot] at hparent
      cases hparent
  | derived cls above habove ih =>
      rw [findMethod_of_superclass habove] at hfirst
      rcases Option.or_eq_some_iff.mp hfirst with hown | ⟨-, hinherited⟩
      · exact .inr ⟨cls, cls.mem_ancestry_self, hhome, hown⟩
      · rw [ancestry_of_superclass habove] at hhome
        rcases List.mem_cons.mp hhome with rfl | hhome
        · rw [habove] at hparent
          cases hparent
          exact .inl hinherited
        · rcases ih hhome hinherited with hsame | ⟨lower, hlower, hin, hown⟩
          · exact .inl hsame
          · refine .inr ⟨lower, ?_, hin, hown⟩
            rw [ancestry_of_superclass habove]
            exact List.mem_cons_of_mem _ hlower

end Class

/-! ## Choices -/

/-- The functions that a choice falls back on when no method takes the arguments. -/
def Store.fallback (s : Store) (env : Env) (name : String) (types : List String) : Option Fn :=
  (s.findFunction env name types).or (s.findFunction globals name types)

/-- A function is a copy of a method that a class declares. -/
def Store.Copies (s : Store) (cls : Class) (f : Fn) : Prop :=
  ∃ method, s.Declares cls method ∧ f.decl = method.decl ∧ f.closure.tail = method.closure

/-- The choice is a method that a class declares. -/
def Store.RunsMethodOf (s : Store) (cls : Class) : Option Store.Choice → Prop
  | some (.method f _) => s.Declares cls f
  | some (.function f) => s.Copies cls f
  | none => False

/-- The choice is the method `g`, bound to the instance; `bound` is `found` bound to it. -/
def Runs (found bound : Fn) (self : Instance) (choice : Option Store.Choice) (g : Fn) : Prop :=
  choice = some (.method g self) ∨ g = found ∧ choice = some (.function bound)

namespace SuperCall

variable {cx : Context} {p : Place} {id : NodeId} {method : Token} {before after : Store}
  {target : Value} {nearer : Nat} {superclass home : Class} {self : Instance}
  {around found bound : Fn} {types : List String}
variable (h : SuperCall cx p id method before target after nearer superclass self home around
  found bound)
include h

theorem bound_name : bound.name = method.lexeme := by
  rw [← h.name, Fn.name, h.copy]
  rfl

theorem choice_of_accepts (haccepts : found.accepts after.parents types = true) :
    after.chooseOverload cx.env bound types = some (.function bound) := by
  have hbound : bound.accepts after.parents types = true := by
    rw [Fn.accepts, h.copy]
    exact haccepts
  unfold Store.chooseOverload Store.findOverload
  rw [if_pos hbound]
  rfl

theorem choice_of_not_accepts (haccepts : found.accepts after.parents types = false) :
    after.chooseOverload cx.env bound types =
      ((after.findMethodMatching self.cls method.lexeme types).map (.method · self)).or
        ((after.fallback cx.env method.lexeme types).map .function) := by
  have hbound : ¬bound.accepts after.parents types = true := by
    rw [Fn.accepts, h.copy]
    exact Bool.eq_false_iff.mp haccepts
  have hown : after.findOverload bound types = none := by
    rw [Store.findOverload, if_neg hbound, h.overloads]
    rfl
  unfold Store.chooseOverload Store.chooseMethod
  rw [hown, h.receiver, h.bound_name]
  rfl

/-- The class of the instance has a method of that name, if only the one of the superclass. -/
theorem first (types : List String) : ∃ first, self.cls.findMethod method.lexeme = some first ∧
    after.findMethodMatching self.cls method.lexeme types = after.findOverload first types := by
  rcases Class.findMethod_of_ancestor (Class.superclass_mem h.home_mem h.parent) h.found_eq with
    ⟨first, hfirst⟩
  refine ⟨first, hfirst, ?_⟩
  rw [Store.findMethodMatching, hfirst]

/-- The right overload runs exactly if it is the first one, or if the class of the instance has
no other method of that name. -/
theorem runs_iff {g : Fn} (hg : after.findOverload found types = some g) :
    Runs found bound self (after.chooseOverload cx.env bound types) g ↔
      found.accepts after.parents types = true ∨
        self.cls.findMethod method.lexeme = some found := by
  rcases h.first types with ⟨first, hfirst, hmatching⟩
  cases haccepts : found.accepts after.parents types with
  | true =>
      rw [h.choice_of_accepts haccepts]
      rw [Store.findOverload, if_pos haccepts] at hg
      cases hg
      exact ⟨fun _ => .inl rfl, fun _ => .inr ⟨rfl, rfl⟩⟩
  | false =>
      rw [h.choice_of_not_accepts haccepts, hmatching]
      constructor
      · rintro (hruns | ⟨rfl, hruns⟩)
        · -- a method that both `found` and `first` stand for makes them one
          rcases Option.or_eq_some_iff.mp hruns with hchosen | ⟨-, hfallback⟩
          · rcases Option.map_eq_some_iff.mp hchosen with ⟨chosen, hchosen, hsame⟩
            cases hsame
            have hsame := h.apart first hfirst g (Store.findOverload_mem hg)
              (Store.findOverload_mem hchosen)
            exact .inr (hsame ▸ hfirst)
          · rcases Option.map_eq_some_iff.mp hfallback with ⟨f, -, hsame⟩
            cases hsame
        · have hmatch := Fn.accepts_iff.mpr (Store.takes_of_findOverload hg)
          rw [haccepts] at hmatch
          cases hmatch
      · rintro (hfalse | hsame)
        · cases hfalse
        · rw [hfirst] at hsame
          cases hsame
          rw [hg]
          exact .inl rfl

/-- A method of the class around or of one below it runs exactly if the first method above does not
take the arguments, and either the class of the instance has another method of that name that takes
them, or no method takes them but a copy of such a method under that name does. -/
theorem runs_lower_iff :
    (∃ cls ∈ self.cls.ancestry, home ∈ cls.ancestry ∧
      after.RunsMethodOf cls (after.chooseOverload cx.env bound types)) ↔
      found.accepts after.parents types = false ∧
        (self.cls.findMethod method.lexeme ≠ some found ∧
            (after.findMethodMatching self.cls method.lexeme types).isSome ∨
          after.findMethodMatching self.cls method.lexeme types = none ∧
            ∃ cls ∈ self.cls.ancestry, home ∈ cls.ancestry ∧
              ∃ f, after.fallback cx.env method.lexeme types = some f ∧ after.Copies cls f) := by
  rcases h.first types with ⟨first, hfirst, hmatching⟩
  cases haccepts : found.accepts after.parents types with
  | true =>
      rw [h.choice_of_accepts haccepts]
      constructor
      · rintro ⟨cls, hcls, hin, copied, hcopied, -, hclosure⟩
        exact absurd (hclosure.symm.trans h.outside) (h.lower cls hcls hin copied hcopied)
      · rintro ⟨hfalse, -⟩
        cases hfalse
  | false =>
      rw [h.choice_of_not_accepts haccepts, hmatching]
      cases hchosen : after.findOverload first types with
      | some chosen =>
          constructor
          · rintro ⟨cls, hcls, hin, hdeclared⟩
            refine ⟨rfl, .inl ⟨?_, rfl⟩⟩
            -- overloads of `found` have its environment, those of a lower class do not
            intro hsame
            rw [hfirst] at hsame
            cases hsame
            have hclosure := h.lower cls hcls hin chosen hdeclared
            rcases Store.findOverload_mem hchosen with rfl | hmem
            · exact hclosure rfl
            · exact hclosure (h.siblings chosen hmem)
          · rintro ⟨-, ⟨hother, -⟩ | ⟨hnone, -⟩⟩
            · rcases Class.findMethod_lower h.home_mem h.parent hfirst with
                habove | ⟨lower, hlower, hin, hown⟩
              · rw [h.found_eq] at habove
                cases habove
                exact absurd hfirst hother
              · exact ⟨lower, hlower, hin, _, first, hown, Store.findOverload_mem hchosen⟩
            · cases hnone
      | none =>
          constructor
          · rintro ⟨cls, hcls, hin, hruns⟩
            refine ⟨rfl, .inr ⟨rfl, cls, hcls, hin, ?_⟩⟩
            cases hfallback : after.fallback cx.env method.lexeme types with
            | none =>
                rw [hfallback] at hruns
                exact hruns.elim
            | some f =>
                rw [hfallback] at hruns
                exact ⟨f, rfl, hruns⟩
          · rintro ⟨-, ⟨-, hsome⟩ | ⟨-, cls, hcls, hin, f, hfallback, hcopies⟩⟩
            · cases hsome
            · rw [hfallback]
              exact ⟨cls, hcls, hin, hcopies⟩

end SuperCall

/-! ## Wrong choices -/

/-- Checks that an event calls a method of the superclass that has the right overload, but not
first, while the class of the instance has another method that takes the arguments. -/
def misdirected : Event → Bool
  | .called cx (.super id _ method) before _ arguments after =>
      let types := arguments.map Value.typeName
      let nearer := cx.locals[id]?.getD 0 - 1
      match before.findAt? cx.env (nearer + 1) "super", before.findAt? cx.env nearer "this" with
      | some (.class superclass), some (.object self) =>
          match superclass.findMethod method.lexeme, self.cls.findMethod method.lexeme with
          | some found, some first =>
              first.id != found.id && !found.accepts after.parents types &&
                (after.findOverload found types).isSome && (after.findOverload first types).isSome
          | _, _ => false
      | _, _ => false
  | _ => false

theorem SuperCall.of_misdirected {cx : Context} {p : Place} {id : NodeId} {keyword method : Token}
    {before after : Store} {target : Value} {nearer : Nat} {superclass home : Class}
    {self : Instance} {around found bound : Fn} {arguments : List Value}
    (h : SuperCall cx p id method before target after nearer superclass self home around found
      bound)
    (hcheck :
      misdirected (.called cx (.super id keyword method) before target arguments after) = true) :
    let types := arguments.map Value.typeName
    self.cls.findMethod method.lexeme ≠ some found ∧
      found.accepts after.parents types = false ∧
      (after.findOverload found types).isSome ∧
      (after.findMethodMatching self.cls method.lexeme types).isSome := by
  intro types
  rcases h.first types with ⟨first, hfirst, hmatching⟩
  unfold misdirected at hcheck
  simp only [h.distance, Option.getD_some, Nat.add_sub_cancel, h.super_eq, h.self_eq, h.found_eq,
    hfirst, Bool.and_eq_true, bne_iff_ne, Bool.not_eq_true'] at hcheck
  rcases hcheck with ⟨⟨⟨hother, haccepts⟩, hright⟩, hwrong⟩
  refine ⟨?_, haccepts, hright, hmatching ▸ hwrong⟩
  intro hsame
  rw [hfirst] at hsame
  cases hsame
  exact hother rfl

/-! ## Sessions -/

/-- In every session, a call of a method of the superclass fails to find one only where there is
none, and the two conditions above say exactly when it runs the overload it should and when it runs
a method of the class around or of one below it. -/
theorem superCall_runs_iff (options : CompileOptions) (host : Host) (inputs : List Input) :
    let r := (RecordedSession.start options host).feedAll inputs
    r.session = (Session.start options host).feedAll inputs ∧
    (∀ later cx id keyword method s earlier,
      r.events = later ++ .calling cx (.super id keyword method) s :: earlier →
      ∃ nearer superclass self,
        s.findAt? cx.env (nearer + 1) "super" = some (.class superclass) ∧
        s.findAt? cx.env nearer "this" = some (.object self) ∧
        Eval.superMethod cx id keyword method s =
          match superclass.findMethod method.lexeme with
          | some found => .ok (.function (s.bindMethod found self).1) (s.bindMethod found self).2
          | none => Eval.failAt method (.undefinedProperty method.lexeme) s) ∧
    ∀ later cx id keyword method before target arguments after earlier,
      r.events = later ++
        .called cx (.super id keyword method) before target arguments after :: earlier →
      ∃ compilation ∈ r.compiled, ∃ ref ∈ Stmt.listReferences [] compilation.program,
        ref.mention = ⟨id, "super", .receiver⟩ ∧
        ∃ nearer superclass self home around found bound,
          ref.place.distance? "this" = some nearer ∧
          SuperCall cx ref.place id method before target after nearer superclass self home around
            found bound ∧
          let types := arguments.map Value.typeName
          let choice := after.chooseOverload cx.env bound types
          (∀ call paren, Eval.applyValue call cx target paren arguments after =
            (match choice with
            | none => Eval.failAt paren .noSignature
            | some choice => do
                let selected ← Eval.bindChoice choice
                Eval.checkArity paren selected.arity arguments.length
                call selected arguments : Eval Value) after) ∧
          (∀ g, after.findOverload found types = some g →
            (Runs found bound self choice g ↔ found.accepts after.parents types = true ∨
              self.cls.findMethod method.lexeme = some found)) ∧
          ((∃ cls ∈ self.cls.ancestry, home ∈ cls.ancestry ∧ after.RunsMethodOf cls choice) ↔
            found.accepts after.parents types = false ∧
              (self.cls.findMethod method.lexeme ≠ some found ∧
                  (after.findMethodMatching self.cls method.lexeme types).isSome ∨
                after.findMethodMatching self.cls method.lexeme types = none ∧
                  ∃ cls ∈ self.cls.ancestry, home ∈ cls.ancestry ∧
                    ∃ f, after.fallback cx.env method.lexeme types = some f ∧
                      after.Copies cls f)) := by
  rcases ((RecordedSession.valid_start options host).feedAll inputs).sound with ⟨made, hsound⟩
  have hall := hsound.events
  change AllJustified _ ((RecordedSession.start options host).feedAll inputs).events at hall
  refine ⟨RecordedSession.feedAll_session inputs _, ?_, ?_⟩
  · intro later cx id keyword method s earlier hevents
    rw [hevents] at hall
    exact ReachesSuper.superMethod_eq hall.split keyword method
  · intro later cx id keyword method before target arguments after earlier hevents
    rw [hevents] at hall
    rcases hall.split with ⟨ref, nearer, superclass, self, home, around, found, bound,
      ⟨compilation, hcompiled, href⟩, hmention, hnearer, hcall⟩
    refine ⟨compilation, hcompiled, ref, href, hmention, nearer, superclass, self, home, around,
      found, bound, hnearer, hcall, ?_, ?_, hcall.runs_lower_iff⟩
    · intro call paren
      rw [hcall.target_eq]
      rfl
    · intro g hg
      exact hcall.runs_iff hg

/-- The class around takes a string as well, and so does the second method above it. -/
def stringBelow : List Input :=
  [⟨.empty, 20, ⟨"main.pas",
    "class A; begin " ++
    "M(X : Integer); begin print 'A takes an integer'; end " ++
    "M(X : String); begin print 'A takes a string'; end end " ++
    "class B(A); begin " ++
    "M(X : String); begin print 'B takes a string'; end " ++
    "Run; begin super.M('text'); end end " ++
    "B().Run();"⟩⟩]

theorem superCall_runs_iff_stringBelow :
    let r := (RecordedSession.start {} (.still 0)).feedAll stringBelow
    ∃ later cx id keyword method before target arguments after earlier,
      r.events = later ++
        .called cx (.super id keyword method) before target arguments after :: earlier ∧
      ∃ place nearer superclass self home around found bound,
        SuperCall cx place id method before target after nearer superclass self home around found
          bound ∧
        let types := arguments.map Value.typeName
        let choice := after.chooseOverload cx.env bound types
        (∃ g, after.findOverload found types = some g ∧ ¬Runs found bound self choice g) ∧
        ∃ cls ∈ self.cls.ancestry, home ∈ cls.ancestry ∧ after.RunsMethodOf cls choice := by
  intro r
  have hfound : (r.events.find? misdirected).isSome = true := by decide +kernel
  rcases Option.isSome_iff_exists.mp hfound with ⟨event, hevent⟩
  rcases List.find?_eq_some_iff_append.mp hevent with ⟨hcheck, later, earlier, hevents, -⟩
  cases event with
  | called cx callee before target arguments after =>
      cases callee with
      | super id keyword method =>
          rcases (superCall_runs_iff {} (.still 0) stringBelow).2.2 later cx id keyword method before
            target arguments after earlier hevents with
            ⟨-, -, ref, -, -, nearer, superclass, self, home, around, found, bound, -, hcall, -,
              hruns, hlower⟩
          rcases hcall.of_misdirected hcheck with ⟨hother, haccepts, hright, hwrong⟩
          rcases Option.isSome_iff_exists.mp hright with ⟨g, hg⟩
          refine ⟨later, cx, id, keyword, method, before, target, arguments, after, earlier, hevents,
            ref.place, nearer, superclass, self, home, around, found, bound, hcall, ⟨g, hg, ?_⟩,
            hlower.mpr ⟨haccepts, .inl ⟨hother, hwrong⟩⟩⟩
          intro hright
          rcases (hruns g hg).mp hright with hfirst | hsame
          · rw [haccepts] at hfirst
            cases hfirst
          · exact hother hsame
      | _ => cases hcheck
  | _ => cases hcheck

end MiniPascal
