import MiniPascal.Proofs.Machine.Bindings
import MiniPascal.Proofs.Machine.Layout

/-!
# Computations that keep stores linked

The judgement `Links`: a computation leads from a state that fits a layout to one that fits a layout
with maybe more frames, and so do the values that it deals in.  It is stated for states of any kind,
and given here for whatever the evaluator does besides evaluating parts of programs.
-/

namespace MiniPascal

/-! ## The judgement -/

/-- The computation leads to a state that satisfies `P` for a layout with all frames of the given
one; a result satisfies `Q` there, and an error `F`. -/
def Links (P : Layout → σ → Prop) (F : Layout → ε → Prop) (x : EStateM ε σ α) (l : Layout) (s : σ)
    (Q : Layout → α → Prop) : Prop :=
  match x s with
  | .ok value s' => ∃ l', l.Extends l' ∧ P l' s' ∧ Q l' value
  | .error e s' => ∃ l', l.Extends l' ∧ P l' s' ∧ F l' e

namespace Links

variable {P : Layout → σ → Prop} {F : Layout → ε → Prop} {l : Layout} {s : σ}

theorem of_ok {x : EStateM ε σ α} {Q : Layout → α → Prop} {value : α} {s' : σ}
    (hrun : x s = .ok value s') (h : P l s') (hQ : Q l value) : Links P F x l s Q := by
  unfold Links
  rw [hrun]
  exact ⟨l, .refl l, h, hQ⟩

theorem pure {Q : Layout → α → Prop} {value : α} (h : P l s) (hQ : Q l value) :
    Links P F (Pure.pure value) l s Q :=
  of_ok rfl h hQ

theorem throw {Q : Layout → α → Prop} {e : ε} (h : P l s) (hF : F l e) :
    Links P F (MonadExcept.throw e : EStateM ε σ α) l s Q :=
  ⟨l, .refl l, h, hF⟩

theorem of_run {x y : EStateM ε σ α} {Q : Layout → α → Prop} {l' : Layout} {s' : σ}
    (hl : l.Extends l') (hrun : x s = y s') (hy : Links P F y l' s' Q) : Links P F x l s Q := by
  unfold Links at hy ⊢
  rw [hrun]
  split at hy
  · rcases hy with ⟨last, hlast, h, hQ⟩
    exact ⟨last, hl.trans hlast, h, hQ⟩
  · rcases hy with ⟨last, hlast, h, hF⟩
    exact ⟨last, hl.trans hlast, h, hF⟩

theorem bind {x : EStateM ε σ α} {f : α → EStateM ε σ β} {Q : Layout → α → Prop}
    {R : Layout → β → Prop} (hx : Links P F x l s Q)
    (hf : ∀ l' s' value, l.Extends l' → P l' s' → Q l' value → Links P F (f value) l' s' R) :
    Links P F (x >>= f) l s R := by
  unfold Links at hx
  cases hrun : x s with
  | error e s' =>
      rw [hrun] at hx
      unfold Links
      rw [bind_of_error hrun]
      exact hx
  | ok value s' =>
      rw [hrun] at hx
      rcases hx with ⟨l', hl, h, hQ⟩
      exact of_run hl (bind_of_ok hrun) (hf l' s' value hl h hQ)

theorem discard {x : EStateM ε σ α} {Q : Layout → α → Prop} (hx : Links P F x l s Q) :
    Links P F (Functor.discard x : EStateM ε σ PUnit) l s fun _ _ => True := by
  show Links P F (x >>= fun _ => Pure.pure PUnit.unit) l s _
  exact hx.bind fun _ _ _ _ h _ => Links.pure h trivial

theorem look {f : σ → EStateM ε σ β} {Q : Layout → β → Prop} (h : Links P F (f s) l s Q) :
    Links P F (get >>= f) l s Q :=
  h

theorem modify {change : σ → σ} (h : P l (change s)) :
    Links P F (modifyThe σ change : EStateM ε σ PUnit) l s fun _ _ => True :=
  of_ok rfl h trivial

theorem modifyGet {change : σ → α × σ} {Q : Layout → α → Prop} (h : P l (change s).2)
    (hQ : Q l (change s).1) :
    Links P F (MonadStateOf.modifyGet change : EStateM ε σ α) l s Q :=
  of_ok rfl h hQ

end Links

namespace Eval

variable {l : Layout} {s : Store}

/-- The judgement for evaluations. -/
abbrev Linking (x : Eval α) (l : Layout) (s : Store) (Q : Layout → α → Prop) : Prop :=
  Links Store.Linked Failure.Linked x l s Q

/-! ## Failures, frames and declarations -/

theorem failAt_links {token : Token} {fault : RuntimeFault} {Q : Layout → α → Prop}
    (h : s.Linked l) : Linking (failAt token fault) l s Q :=
  .throw h fun _ hvalue => by cases hvalue

theorem orFail_links {token : Token} {result : Except RuntimeFault α} {Q : Layout → α → Prop}
    (h : s.Linked l) (hQ : ∀ value, result = .ok value → Q l value) :
    Linking (orFail token result) l s Q := by
  cases result with
  | ok value => exact .pure h (hQ value rfl)
  | error fault => exact failAt_links h

theorem child_links {env : Env} {bindings : Table Value} (h : s.Linked l) (henv : l.Chain env)
    (hbindings : ∀ name value, bindings.find? name = some value → value.Linked l) :
    Linking (child env bindings) l s fun l' env' => l'.Chain env' := by
  refine ⟨l.enter env, l.extends_enter env, h.newFrame hbindings, ?_⟩
  have hchain := henv.enter
  rw [h.size] at hchain
  exact hchain

theorem bindMethod_links {method : Fn} {self : Instance} (h : s.Linked l)
    (hmethod : l.Chain method.closure) (hself : self.cls.Linked l) :
    Linking (bindMethod method self) l s fun l' f => l'.Chain f.closure :=
  ⟨l.enter method.closure, l.extends_enter _, h.bindMethod hmethod hself⟩

theorem define_links {env : Env} {name : Token} {value : Value} (h : s.Linked l)
    (hvalue : value.Linked l) : Linking (define env name value) l s fun _ _ => True := by
  refine .look ?_
  cases hdefinition : s.definition env name.lexeme value with
  | fresh => exact .modify (h.bindHere hvalue)
  | overload existing added =>
      refine .modify (h.addOverload (hvalue added ?_))
      unfold Store.definition at hdefinition
      split at hdefinition
      · cases hdefinition
      · split at hdefinition
        · cases hdefinition
          rfl
        · cases hdefinition
      · cases hdefinition
  | refused => exact failAt_links h

/-! ## Names -/

theorem thisInstance?_links {env : Env} (h : s.Linked l) :
    Linking (thisInstance? env) l s fun l' found => ∀ self ∈ found, self.cls.Linked l' := by
  rcases thisInstance?_run env s with ⟨found, hrun, hfound⟩
  refine .of_ok hrun h fun self hself => ?_
  exact h.held (.of_find? (hfound self hself))

theorem property?_links {self : Instance} {name : String} (h : s.Linked l)
    (hself : self.cls.Linked l) :
    Linking (property? self name) l s fun l' found => ∀ value ∈ found, value.Linked l' := by
  have hsome {value : Value} {l : Layout} (hvalue : value.Linked l) :
      ∀ found ∈ some value, found.Linked l := by
    intro found hfound
    cases hfound
    exact hvalue
  unfold property?
  split
  · exact .pure h (hsome fun f hf => hf.elim)
  · refine .look ?_
    split
    · next value hvalue => exact .pure h (hsome (h.held (.inField hvalue)))
    · split
      · next method hmethod =>
          refine (bindMethod_links h (hself.findMethod hmethod) hself).bind
            fun l' s' bound _ h' hbound => ?_
          exact .pure h' (hsome (Value.linked_function hbound))
      · exact .pure h fun value hvalue => by cases hvalue

theorem lookUp_links {cx : Context} {id : NodeId} {name : Token} (h : s.Linked l) :
    Linking (lookUp cx id name) l s Value.Linked := by
  rcases readVariable_run cx id name.lexeme s with ⟨found, hrun, hfound⟩
  have hread : Linking (readVariable cx id name.lexeme) l s
      fun l' found => ∀ value ∈ found, value.Linked l' := by
    refine .of_ok hrun h fun value hvalue => ?_
    rcases hfound value hvalue with ⟨frame, hframe⟩
    exact h.held (.inVariable hframe)
  refine hread.bind fun l₁ s₁ found _ h₁ hfound => ?_
  cases found with
  | some value => exact .pure h₁ (hfound value rfl)
  | none =>
      refine (thisInstance?_links h₁).bind fun l₂ s₂ self? _ h₂ hself => ?_
      cases self? with
      | none => exact failAt_links h₂
      | some self =>
          refine (property?_links h₂ (hself self rfl)).bind fun l₃ s₃ property _ h₃ hfound => ?_
          cases property with
          | some value => exact .pure h₃ (hfound value rfl)
          | none => exact failAt_links h₃

theorem assign_links {cx : Context} {id : NodeId} {name : Token} {value : Value}
    (h : s.Linked l) (hvalue : value.Linked l) :
    Linking (assign cx id name value) l s Value.Linked := by
  rcases targetFrame?_run cx id s name.lexeme with ⟨target, hrun, -⟩
  refine .of_run (.refl l) (bind_of_ok hrun) ?_
  cases target with
  | some frame => exact .of_ok rfl (h.bindIn hvalue) hvalue
  | none =>
      rcases thisInstance?_run cx.env s with ⟨self, hself, -⟩
      refine .of_run (.refl l) (bind_of_ok hself) ?_
      cases self with
      | some self => exact .of_ok rfl (h.setField hvalue) hvalue
      | none => exact failAt_links h

theorem superMethod_links {cx : Context} {id : NodeId} {keyword method : Token}
    (h : s.Linked l) : Linking (superMethod cx id keyword method) l s Value.Linked := by
  unfold superMethod
  cases cx.locals[id]? with
  | none => exact failAt_links h
  | some distance =>
      refine .look ?_
      dsimp only
      split
      · next superclass hsuper =>
          have hsuperclass : superclass.Linked l := h.held (.of_findHere? hsuper)
          split
          · next self hreceiver =>
              have hself : self.cls.Linked l := by
                cases distance with
                | zero => cases hreceiver
                | succ nearer => exact h.held (.of_findHere? hreceiver)
              split
              · next found hfound =>
                  exact (bindMethod_links h (hsuperclass.findMethod hfound) hself).bind
                    fun l' s' bound _ h' hbound => .pure h' (Value.linked_function hbound)
              · exact failAt_links h
          · exact failAt_links h
      · exact failAt_links h

/-! ## Members -/

theorem getProperty_links {target : Value} {name : Token} (h : s.Linked l)
    (htarget : target.Linked l) : Linking (getProperty target name) l s Value.Linked := by
  unfold getProperty
  split
  · refine (property?_links h htarget).bind fun l' s' property _ h' hproperty => ?_
    cases property with
    | some value => exact .pure h' (hproperty value rfl)
    | none => exact failAt_links h'
  · refine .look ?_
    split
    · next found _ =>
        cases found with
        | length count => exact .pure h fun f hf => hf.elim
        | method op target =>
            exact .of_ok rfl (h.counted rfl rfl rfl rfl rfl) fun f hf => hf.elim
    · exact failAt_links h
    · exact failAt_links h

theorem fieldOwner_links {target : Value} {name : Token} (h : s.Linked l) :
    Linking (fieldOwner target name) l s fun _ _ => True := by
  unfold fieldOwner
  split
  · exact .pure h trivial
  · split
    · exact failAt_links h
    · exact failAt_links h

/-! ## Calls -/

theorem checkArity_links {paren : Token} {expected got : Nat} (h : s.Linked l) :
    Linking (checkArity paren expected got) l s fun _ _ => True := by
  unfold checkArity
  split
  · exact .pure h trivial
  · exact failAt_links h

theorem bindChoice_links {choice : Store.Choice} (h : s.Linked l)
    (hchoice : choice.Linked l) :
    Linking (bindChoice choice) l s fun l' f => l'.Chain f.closure := by
  cases choice with
  | function f => exact .pure h hchoice
  | method f self => exact bindMethod_links h hchoice.1 hchoice.2

theorem callNative_links {host : Host} {op : NativeOp} {paren : Token} {arguments : List Value}
    (h : s.Linked l) (harguments : ∀ value ∈ arguments, value.Linked l) :
    Linking (callNative host op paren arguments) l s Value.Linked := by
  have happly := callNative_apply host op paren arguments s
  cases hrun : (s.entering op).callNative host op arguments with
  | error fault =>
      rw [hrun] at happly
      exact .of_run (.refl l) happly (failAt_links (h.entering op))
  | ok outcome =>
      rw [hrun] at happly
      rcases h.callNative harguments hrun with ⟨hvalue, hchange⟩
      exact .of_ok happly hchange hvalue

end Eval

/-! ## Declarations -/

namespace Exec

open Eval

variable {l : Layout} {s : Store}

theorem defineMembers_links {env : Env} {enumName : String} :
    ∀ {members : List Token} {ordinal : Nat} {l : Layout} {s : Store}, s.Linked l →
      Linking (defineMembers env enumName ordinal members) l s fun _ _ => True
  | [], _, _, _, h => .pure h trivial
  | _ :: _, _, _, _, h => by
      have henum (member : EnumMember) (l : Layout) : (Value.enum member).Linked l :=
        Value.IsData.linked trivial
      exact (define_links h (henum _ _)).bind fun _ _ _ _ h₁ _ => defineMembers_links h₁

theorem defineEnums_links {env : Env} :
    ∀ {decls : List EnumDecl} {l : Layout} {s : Store}, s.Linked l →
      Linking (defineEnums env decls) l s fun _ _ => True
  | [], _, _, h => .pure h trivial
  | _ :: _, _, _, h => (defineMembers_links h).bind fun _ _ _ _ h₁ _ => defineEnums_links h₁

theorem newFn_links {decl : Function} {env : Env} {isInitializer : Bool} (h : s.Linked l)
    (henv : l.Chain env) :
    Linking (modifyGet fun s => s.newFn decl env isInitializer) l s fun l' f =>
      l'.Chain f.closure :=
  .modifyGet h.newFn henv

theorem defineFunction_links {env : Env} {decl : Function} (h : s.Linked l)
    (henv : l.Chain env) : Linking (defineFunction env decl) l s fun _ _ => True :=
  (newFn_links h henv).bind fun _ _ _ _ h₁ hf => define_links h₁ (Value.linked_function hf)

theorem superclass?_links {cx : Context} {parent? : Option Superclass} (h : s.Linked l) :
    Linking (superclass? cx parent?) l s fun l' cls? => ∀ cls ∈ cls?, cls.Linked l' := by
  cases parent? with
  | none => exact .pure h fun cls hcls => by cases hcls
  | some parent =>
      refine (lookUp_links h).bind fun l' s₁ value _ h₁ hvalue => ?_
      cases value with
      | «class» cls =>
          refine .pure h₁ fun found hfound => ?_
          cases hfound
          exact hvalue
      | _ => exact failAt_links h₁

theorem linked_singleton {name : String} {value : Value} (hvalue : value.Linked l) :
    ∀ key found, ((∅ : Table Value).insert name value).find? key = some found →
      found.Linked l := by
  intro key found hfound
  rw [Table.find?_insert] at hfound
  split at hfound <;> cases hfound
  exact hvalue

theorem methodEnv_links {env : Env} {superclass : Option Class} (h : s.Linked l)
    (henv : l.Chain env) (hsuper : ∀ cls ∈ superclass, cls.Linked l) :
    Linking (methodEnv env superclass) l s fun l' env' => l'.Chain env' := by
  cases superclass with
  | none => exact .pure h henv
  | some parent =>
      have hparent : (Value.class parent).Linked l := hsuper parent rfl
      exact child_links h henv (linked_singleton hparent)

/-- The environments of methods are chains. -/
abbrev MethodsLinked (l : Layout) (methods : Table Fn) : Prop :=
  ∀ name f, methods.find? name = some f → l.Chain f.closure

theorem addMethod_links {env : Env} {decl : Function} {methods : Table Fn} (h : s.Linked l)
    (henv : l.Chain env) (hmethods : MethodsLinked l methods) :
    Linking (addMethod env methods decl) l s MethodsLinked := by
  refine (newFn_links h henv).bind fun l₁ s₁ f hl h₁ hf => ?_
  have hmethods₁ : MethodsLinked l₁ methods := fun name g hg => (hmethods name g hg).mono hl
  split
  · exact .of_ok rfl (h₁.addOverload hf) hmethods₁
  · refine .pure h₁ fun name g hg => ?_
    rw [Table.find?_insert] at hg
    split at hg
    · cases hg
      exact hf
    · exact hmethods₁ name g hg

theorem addMethods_links {env : Env} :
    ∀ {decls : List Function} {methods : Table Fn} {l : Layout} {s : Store}, s.Linked l →
      l.Chain env → MethodsLinked l methods →
      Linking (addMethods env methods decls) l s MethodsLinked
  | [], _, _, _, h, _, hmethods => .pure h hmethods
  | _ :: _, _, _, _, h, henv, hmethods =>
      (addMethod_links h henv hmethods).bind fun _ _ _ hl h₁ hmethods₁ =>
        addMethods_links h₁ (henv.mono hl) hmethods₁

theorem defineClass_links {cx : Context} {decl : ClassDecl Stmt} (h : s.Linked l)
    (henv : l.Chain cx.env) : Linking (defineClass cx decl) l s fun _ _ => True := by
  refine (defineEnums_links h).bind fun l₁ _ _ hl₁ h₁ _ => ?_
  refine (superclass?_links h₁).bind fun l₂ _ superclass hl₂ h₂ hsuper => ?_
  have hnil : Value.nil.Linked l₂ := fun _ hf => hf.elim
  refine (define_links h₂ hnil).bind fun l₃ _ _ hl₃ h₃ _ => ?_
  have henv₃ := henv.mono ((hl₁.trans hl₂).trans hl₃)
  have hsuper₃ : ∀ cls ∈ superclass, cls.Linked l₃ := fun cls hcls => (hsuper cls hcls).mono hl₃
  refine (methodEnv_links h₃ henv₃ hsuper₃).bind fun l₄ _ env hl₄ h₄ hmethodEnv => ?_
  refine (addMethods_links h₄ hmethodEnv fun name f hf => by cases hf).bind
    fun l₅ s₅ methods hl₅ h₅ hmethods => ?_
  have hcls : (newClass decl.name.lexeme superclass methods s₅).1.Linked l₅ :=
    Class.Linked.mk (fun cls hcls => (hsuper₃ cls hcls).mono (hl₄.trans hl₅)) hmethods
  have hnew : (newClass decl.name.lexeme superclass methods s₅).2.Linked l₅ :=
    h₅.counted rfl rfl rfl rfl rfl
  exact .of_ok rfl (hnew.bindHere hcls) trivial

end Exec

end MiniPascal
