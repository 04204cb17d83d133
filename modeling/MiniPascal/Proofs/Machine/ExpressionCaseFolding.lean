import MiniPascal.Proofs.Machine.CaseFolding
import MiniPascal.Proofs.Machine.Erasure
import MiniPascal.Proofs.Machine.Lookup

/-!
# Expressions with folded words

A folded expression is evaluated in a folded store as the expression itself is, as long as `this`
is not among the words: its lexeme is looked up as it is written.  The other lexeme that may get
into a message is that of `super` where there is no superclass; a record in which every look-up of
a superclass succeeds rules this out.
-/

namespace MiniPascal

/-! ## Errors -/

/-- Errors that may differ in the letter case of words. -/
class Matching (ε : Type) where
  /-- The second error is the first one with its words folded. -/
  Matches : (Keyword → Bool) → ε → ε → Prop

open Matching

variable (words : Keyword → Bool)

/-- Errors of one wording, at tokens of one place and kind, with the same value once folded. -/
structure RuntimeError.Matches (error error' : RuntimeError) : Prop where
  token : error'.token.fold (fun _ => true) = error.token.fold (fun _ => true)
  fault : error'.fault = error.fault
  value : error'.value = error.value.map (Value.fold words)

inductive Failure.Matches : Failure → Failure → Prop
  | error {error error' : RuntimeError} (h : error.Matches words error') :
      Failure.Matches (.error error) (.error error')
  | starved : Failure.Matches .starved .starved

inductive Signal.Matches : Signal → Signal → Prop
  | break : Signal.Matches .break .break
  | exit (value : Value) : Signal.Matches (.exit value) (.exit (value.fold words))
  | failed {failure failure' : Failure} (h : failure.Matches words failure') :
      Signal.Matches (.failed failure) (.failed failure')

instance : Matching Failure := ⟨Failure.Matches⟩

instance : Matching Signal := ⟨Signal.Matches⟩

theorem RuntimeError.Matches.raisedValue {error error' : RuntimeError}
    (h : error.Matches words error') : error'.raisedValue = error.raisedValue.fold words := by
  unfold RuntimeError.raisedValue RuntimeError.message
  rw [h.fault, h.value]
  cases error.value with
  | none => rfl
  | some value => rfl

theorem Signal.Matches.message {signal signal' : Signal} (h : signal.Matches words signal') :
    signal'.message = signal.message := by
  cases h with
  | «break» => rfl
  | exit value => rfl
  | failed h =>
      cases h with
      | error h => exact congrArg RuntimeFault.message h.fault
      | starved => rfl

/-! ## Outcomes -/

/-- The second outcome is the first one folded. -/
inductive Alike [Matching ε] (f : α → β) :
    EStateM.Result ε Store α → EStateM.Result ε Store β → Prop
  | ok {value : α} {value' : β} {s s' : Store} (hvalue : value' = f value)
      (hstore : s' = s.fold words) : Alike f (.ok value s) (.ok value' s')
  | error {e e' : ε} {s s' : Store} (he : Matches words e e') (hstore : s' = s.fold words) :
      Alike f (.error e s) (.error e' s')

namespace Alike

variable {words} [Matching ε] {f : α → β} {s : Store} {outcome : EStateM.Result ε Store β}

theorem of_ok {value : α} (h : Alike (ε := ε) words f (.ok value s) outcome) :
    outcome = .ok (f value) (s.fold words) := by
  cases h with
  | ok hvalue hstore => rw [hvalue, hstore]

theorem of_error {e : ε} (h : Alike words f (.error e s) outcome) :
    ∃ e', Matches words e e' ∧ outcome = .error e' (s.fold words) := by
  cases h with
  | error he hstore => exact ⟨_, he, by rw [hstore]⟩

end Alike

/-- Every look-up of a superclass that is on record succeeds. -/
def AllReach (events : List Event) : Prop :=
  ∀ cx id s, .reaching cx id s ∈ events → ReachesSuper cx id s

theorem AllReach.mono {events later : List Event} (h : AllReach later) (hsub : events ⊆ later) :
    AllReach events :=
  fun cx id s hmem => h cx id s (hsub hmem)

/-- In a folded store, `y` goes as `x` does, and `x` only adds to the record. -/
def Mirrors [Matching ε] (f : α → β) (x : Tracing ε α) (y : EStateM ε Store β) : Prop :=
  ∀ t : Traced, t.events ⊆ (Trace.ended (x t)).events ∧
    (AllReach (Trace.ended (x t)).events →
      Alike words f (Trace.forget (x t)) (y (t.store.fold words)))

namespace Mirrors

variable {words} [Matching ε] {α β γ δ : Type} {f : α → β} {g : γ → δ}

theorem pure {value : α} {value' : β} (h : value' = f value) :
    Mirrors (ε := ε) words f (Pure.pure value) (Pure.pure value') := by
  intro t
  exact ⟨List.Subset.refl _, fun _ => .ok h rfl⟩

theorem throw {e e' : ε} (h : Matches words e e') :
    Mirrors words f (MonadExcept.throw e : Tracing ε α)
      (MonadExcept.throw e' : EStateM ε Store β) := by
  intro t
  exact ⟨List.Subset.refl _, fun _ => .error h rfl⟩

theorem bind {x : Tracing ε α} {y : EStateM ε Store β} {k : α → Tracing ε γ}
    {l : β → EStateM ε Store δ} (hx : Mirrors words f x y)
    (hk : ∀ value, Mirrors words g (k value) (l (f value))) :
    Mirrors words g (x >>= k) (y >>= l) := by
  intro t
  have hfirst := hx t
  show _ ⊆ (Trace.ended (EStateM.bind x k t)).events ∧
    (AllReach (Trace.ended (EStateM.bind x k t)).events →
      Alike words g (Trace.forget (EStateM.bind x k t))
        (EStateM.bind y l (t.store.fold words)))
  unfold EStateM.bind
  cases hrun : x t with
  | error e t' =>
      rw [hrun] at hfirst
      refine ⟨hfirst.1, fun hreach => ?_⟩
      rcases (hfirst.2 hreach).of_error with ⟨e', he, hrun'⟩
      rw [hrun']
      exact .error he rfl
  | ok value t' =>
      rw [hrun] at hfirst
      have hrest := hk value t'
      refine ⟨List.Subset.trans hfirst.1 hrest.1, fun hreach => ?_⟩
      -- what is on record after the first part is on record in the end
      rw [(hfirst.2 (hreach.mono hrest.1)).of_ok]
      exact hrest.2 hreach

theorem keep {x : EStateM ε Store α} {y : EStateM ε Store β}
    (h : ∀ s, Alike words f (x s) (y (s.fold words))) : Mirrors words f (Trace.keep x) y := by
  intro t
  have hevents : (Trace.ended (Trace.keep x t)).events = t.events := by
    unfold Trace.keep
    cases x t.store with
    | ok value s => rfl
    | error e s => rfl
  rw [hevents, Trace.Erases.keep x t]
  exact ⟨List.Subset.refl _, fun _ => h t.store⟩

theorem keep_bind {x : EStateM ε Store α} {y : EStateM ε Store β} {k : α → EStateM ε Store γ}
    {l : β → EStateM ε Store δ} (hx : Mirrors words f (Trace.keep x) y)
    (hk : ∀ value, Mirrors words g (Trace.keep (k value)) (l (f value))) :
    Mirrors words g (Trace.keep (x >>= k)) (y >>= l) := by
  rw [Trace.keep_bind]
  exact hx.bind hk

theorem keep_pure {value : α} {value' : β} (h : value' = f value) :
    Mirrors (ε := ε) words f (Trace.keep (Pure.pure value)) (Pure.pure value') :=
  keep fun _ => .ok h rfl

theorem look : Mirrors (ε := ε) words (Store.fold words) (Trace.keep get) get :=
  keep fun _ => .ok rfl rfl

theorem keep_modify {change change' : Store → Store}
    (h : ∀ s, change' (s.fold words) = (change s).fold words) :
    Mirrors (ε := ε) words id (Trace.keep (modify change)) (modify change') :=
  keep fun s => .ok rfl (h s)

theorem keep_modifyGet {change : Store → α × Store} {change' : Store → β × Store}
    (h : ∀ s, change' (s.fold words) = (f (change s).1, (change s).2.fold words)) :
    Mirrors (ε := ε) words f (Trace.keep (modifyGet change)) (modifyGet change') := by
  apply keep
  intro s
  have hs := h s
  show Alike words f (.ok (change s).1 (change s).2)
    (.ok (change' (s.fold words)).1 (change' (s.fold words)).2)
  rw [hs]
  exact .ok rfl rfl

theorem note {event : Store → Event} {x : Tracing ε α} {y : EStateM ε Store β}
    (hx : Mirrors words f x y) : Mirrors words f (Trace.note event >>= fun _ => x) y := by
  intro t
  have hrest := hx { t with events := event t.store :: t.events }
  exact ⟨fun _ hmem => hrest.1 (List.mem_cons_of_mem _ hmem), hrest.2⟩

theorem discard {x : Tracing ε α} {y : EStateM ε Store β} (hx : Mirrors words f x y) :
    Mirrors words id (Functor.discard x) (Functor.discard y) := by
  show Mirrors words id (x >>= fun _ => Pure.pure ()) (y >>= fun _ => Pure.pure ())
  exact hx.bind fun _ => pure rfl

end Mirrors

/-! ## Names -/

namespace Trace

section Names

variable {words}

theorem failAt_mirrors {f : α → β} {token token' : Token} {fault fault' : RuntimeFault}
    (htoken : token'.fold (fun _ => true) = token.fold (fun _ => true)) (hfault : fault' = fault) :
    Mirrors words f (keep (Eval.failAt token fault)) (Eval.failAt token' fault') :=
  Mirrors.keep fun _ => .error (.error ⟨htoken, hfault, rfl⟩) rfl

theorem orFail_mirrors {f : α → β} {token token' : Token}
    {result : Except RuntimeFault α} {result' : Except RuntimeFault β}
    (htoken : token'.fold (fun _ => true) = token.fold (fun _ => true))
    (hresult : result' = result.map f) :
    Mirrors words f (keep (Eval.orFail token result)) (Eval.orFail token' result') := by
  subst hresult
  cases result with
  | ok value => exact Mirrors.keep_pure rfl
  | error fault => exact failAt_mirrors htoken rfl

theorem enter_mirrors (region : Region) (env : Env) {bindings bindings' : Table Value}
    (h : bindings' = bindings.map (Value.fold words)) :
    Mirrors words id (enter region env bindings) (Eval.child env bindings') := by
  subst h
  apply Mirrors.note
  apply Mirrors.keep_bind
  · exact Mirrors.keep_modifyGet (f := id) fun s => s.newFrame_fold words bindings
  · intro frame
    exact Mirrors.keep_pure rfl

theorem bindMethod_mirrors (method : Fn) (self : Instance) :
    Mirrors words (Fn.fold words) (bindMethod method self)
      (Eval.bindMethod (method.fold words) (self.fold words)) := by
  apply Mirrors.note
  exact Mirrors.keep_modifyGet fun s => s.bindMethod_fold words method self

theorem define_mirrors (env : Env) (name : Token) {value value' : Value}
    (h : value' = value.fold words) :
    Mirrors words id (keep (Eval.define env name value)) (Eval.define env name value') := by
  subst h
  apply Mirrors.keep_bind Mirrors.look
  intro s
  rw [Store.definition_fold]
  cases s.definition env name.lexeme value with
  | fresh => exact Mirrors.keep_modify fun s => (s.bindHere_fold words _ _ _).symm
  | overload existing added =>
      exact Mirrors.keep_modify fun s => (s.addOverload_fold words existing added).symm
  | refused => exact failAt_mirrors rfl rfl

theorem thisInstance?_mirrors (env : Env) :
    Mirrors words (Option.map (Instance.fold words)) (keep (Eval.thisInstance? env))
      (Eval.thisInstance? env) := by
  apply Mirrors.keep_bind Mirrors.look
  intro s
  rw [Store.find?_fold]
  cases s.find? env "this" with
  | none => exact Mirrors.keep_pure rfl
  | some value => cases value <;> exact Mirrors.keep_pure rfl

theorem property?_mirrors (self : Instance) (name : String) :
    Mirrors words (Option.map (Value.fold words)) (property? self name)
      (Eval.property? (self.fold words) name) := by
  unfold property? Eval.property?
  split
  · apply Mirrors.pure
    simp [Value.fold]
  · apply Mirrors.bind Mirrors.look
    intro s
    rw [Store.fieldsOf_fold, Table.find?_map, Instance.cls_fold, Class.findMethod_fold]
    cases (s.fieldsOf self).find? name with
    | some value => exact Mirrors.pure rfl
    | none =>
        cases self.cls.findMethod name with
        | some method =>
            apply (bindMethod_mirrors method self).bind
            intro bound
            exact Mirrors.pure rfl
        | none => exact Mirrors.pure rfl

theorem readVariable_mirrors (cx : Context) (id : NodeId) (name : String) :
    Mirrors words (Option.map (Value.fold words)) (keep (Eval.readVariable cx id name))
      (Eval.readVariable cx id name) := by
  apply Mirrors.keep_bind Mirrors.look
  intro s
  cases cx.locals[id]? with
  | some distance => exact Mirrors.keep_pure (s.findAt?_fold words _ _ _)
  | none =>
      apply Mirrors.keep_pure
      rw [Store.find?_fold, Store.find?_fold, Option.map_or]

theorem lookUp_mirrors (cx : Context) (id : NodeId) (name : Token) :
    Mirrors words (Value.fold words) (lookUp cx id name) (Eval.lookUp cx id name) := by
  apply (readVariable_mirrors cx id name.lexeme).bind
  intro found
  cases found with
  | some value => exact Mirrors.pure rfl
  | none =>
      apply (thisInstance?_mirrors cx.env).bind
      intro receiver
      cases receiver with
      | none => exact failAt_mirrors rfl rfl
      | some self =>
          apply (property?_mirrors self name.lexeme).bind
          intro found
          cases found with
          | some value => exact Mirrors.pure rfl
          | none => exact failAt_mirrors rfl rfl

theorem targetFrame?_mirrors (cx : Context) (id : NodeId) (name : String) :
    Mirrors words (fun frame => frame) (keep (Eval.targetFrame? cx id name))
      (Eval.targetFrame? cx id name) := by
  unfold Eval.targetFrame?
  cases cx.locals[id]? with
  | some distance => exact Mirrors.keep_pure rfl
  | none =>
      apply Mirrors.keep_bind Mirrors.look
      intro s
      exact Mirrors.keep_pure (s.frameOf?_fold words _ _)

theorem assign_mirrors (cx : Context) (id : NodeId) (name : Token) (value : Value) :
    Mirrors words (Value.fold words) (keep (Eval.assign cx id name value))
      (Eval.assign cx id name (value.fold words)) := by
  apply Mirrors.keep_bind (targetFrame?_mirrors cx id name.lexeme)
  intro target
  cases target with
  | some frame =>
      apply Mirrors.keep_bind
      · exact Mirrors.keep_modify fun s => (s.bindIn_fold words frame name.lexeme value).symm
      · intro _
        exact Mirrors.keep_pure rfl
  | none =>
      apply Mirrors.keep_bind (thisInstance?_mirrors cx.env)
      intro receiver
      cases receiver with
      | none => exact failAt_mirrors rfl rfl
      | some self =>
          apply Mirrors.keep_bind
          · exact Mirrors.keep_modify fun s => (s.setField_fold words self name.lexeme value).symm
          · intro _
            exact Mirrors.keep_pure rfl

/-- Where the superclass is reached, the lexeme of `super` does not matter. -/
theorem superMethod_alike {cx : Context} {id : NodeId} {t : Traced}
    (h : ReachesSuper cx id t.store) (keyword keyword' method : Token) :
    t.events ⊆ (ended (superMethod cx id keyword method t)).events ∧
      (AllReach (ended (superMethod cx id keyword method t)).events →
        Alike words (Value.fold words) (forget (superMethod cx id keyword method t))
          (Eval.superMethod cx id keyword' method (t.store.fold words))) := by
  rcases h with ⟨nearer, superclass, self, hlocal, hsuper, hself⟩
  have hsuper' : (t.store.fold words).findAt? cx.env (nearer + 1) "super" =
      some (.class (superclass.fold words)) := by
    rw [Store.findAt?_fold, hsuper]
    rfl
  have hself' : (t.store.fold words).findAt? cx.env nearer "this" =
      some (.object (self.fold words)) := by
    rw [Store.findAt?_fold, hself]
    rfl
  have hlook (k : Store → Tracing Failure Value) : (keep get >>= k) t = k t.store t := rfl
  have hlook' (k : Store → Eval Value) (s : Store) : (get >>= k) s = k s s := rfl
  unfold superMethod Eval.superMethod
  rw [hlocal]
  simp only [hlook, hlook', hsuper, hsuper', hself, hself', Class.findMethod_fold]
  cases superclass.findMethod method.lexeme with
  | none => exact failAt_mirrors rfl rfl t
  | some found =>
      have hbound : Mirrors words (Value.fold words)
          (bindMethod found self >>= fun bound => pure (.function bound))
          (Eval.bindMethod (found.fold words) (self.fold words) >>= fun bound =>
            pure (.function bound)) := by
        apply (bindMethod_mirrors found self).bind
        intro bound
        exact Mirrors.pure rfl
      exact hbound t

theorem superMethod_mirrors (cx : Context) (id : NodeId) (keyword method : Token) :
    Mirrors words (Value.fold words)
      (note (fun s => .reaching cx id s) >>= fun _ => superMethod cx id keyword method)
      (Eval.superMethod cx id (keyword.fold words) method) := by
  intro t
  let noted : Traced := { t with events := .reaching cx id t.store :: t.events }
  have hnoted : noted.events ⊆ (ended (superMethod cx id keyword method noted)).events := by
    rcases superMethod_run ⟨noted.store, noted.events, fun _ => .plain⟩ cx id keyword method with
      ⟨error, hrun, -⟩ | ⟨nearer, superclass, self, found, -, -, -, -, hrun⟩
    · change superMethod cx id keyword method noted = _ at hrun
      rw [hrun]
      exact List.Subset.refl _
    · have hplain := hrun .plain
      change superMethod cx id keyword method noted = _ at hplain
      rw [hplain]
      exact List.subset_cons_self _ _
  constructor
  · intro event hmem
    exact hnoted (List.mem_cons_of_mem _ hmem)
  · -- the record says that the superclass was reached
    intro hreach
    have hreaches : ReachesSuper cx id noted.store :=
      hreach cx id t.store (hnoted List.mem_cons_self)
    exact (superMethod_alike hreaches keyword (keyword.fold words) method).2 hreach

theorem memberValue_mirrors (member : Member) :
    Mirrors words (Value.fold words) (keep (Eval.memberValue member))
      (Eval.memberValue member) := by
  cases member with
  | length count => exact Mirrors.keep_pure rfl
  | method op target =>
      apply Mirrors.keep_bind
      · exact Mirrors.keep_modifyGet (f := id) fun s => s.newNative_fold words _
      · intro native
        exact Mirrors.keep_pure rfl

theorem getProperty_mirrors (target : Value) (name : Token) :
    Mirrors words (Value.fold words) (getProperty target name)
      (Eval.getProperty (target.fold words) name) := by
  unfold getProperty Eval.getProperty
  cases target with
  | object self =>
      apply (property?_mirrors self name.lexeme).bind
      intro found
      cases found with
      | some value => exact Mirrors.pure rfl
      | none => exact failAt_mirrors rfl rfl
  | _ =>
      apply Mirrors.keep_bind Mirrors.look
      intro s
      rw [Store.member?_fold]
      generalize s.member? _ _ = member
      cases member with
      | none => exact failAt_mirrors rfl rfl
      | some member =>
          cases member with
          | none => exact failAt_mirrors rfl rfl
          | some member => exact memberValue_mirrors member

theorem fieldOwner_mirrors (target : Value) (name : Token) :
    Mirrors words (Instance.fold words) (keep (Eval.fieldOwner target name))
      (Eval.fieldOwner (target.fold words) name) := by
  cases target with
  | object self => exact Mirrors.keep_pure rfl
  | _ => exact failAt_mirrors rfl rfl

end Names

/-! ## Calls -/

/-- On folded functions and arguments, `caller` goes as `call` does. -/
def CallerMirrors (call : Caller) (caller : Eval.Caller) : Prop :=
  ∀ f arguments, Mirrors words (Value.fold words) (call f arguments)
    (caller (f.fold words) (arguments.map (Value.fold words)))

section Calls

variable {words} {call : Caller} {caller : Eval.Caller}

theorem checkArity_mirrors {paren paren' : Token} (expected got : Nat)
    (htoken : paren'.fold (fun _ => true) = paren.fold (fun _ => true)) :
    Mirrors words id (keep (Eval.checkArity paren expected got))
      (Eval.checkArity paren' expected got) := by
  unfold Eval.checkArity
  split
  · exact Mirrors.keep_pure rfl
  · exact failAt_mirrors htoken rfl

theorem instantiate_mirrors (hcall : CallerMirrors words call caller) (cls : Class)
    {paren paren' : Token} (arguments : List Value)
    (htoken : paren'.fold (fun _ => true) = paren.fold (fun _ => true)) :
    Mirrors words (Value.fold words) (instantiate call cls paren arguments)
      (Eval.instantiate caller (cls.fold words) paren' (arguments.map (Value.fold words))) := by
  unfold instantiate Eval.instantiate
  apply Mirrors.bind Mirrors.look
  intro s
  rw [Value.map_typeName_fold, Eval.initializer?_fold, List.length_map]
  cases Eval.initializer? s cls (arguments.map Value.typeName) with
  | none =>
      apply (checkArity_mirrors 0 arguments.length htoken).bind
      intro _
      apply Mirrors.bind
      · exact Mirrors.keep_modifyGet fun s => s.newInstance_fold words cls
      · intro self
        exact Mirrors.pure rfl
  | some initializer =>
      apply (checkArity_mirrors initializer.arity arguments.length htoken).bind
      intro _
      apply Mirrors.bind
      · exact Mirrors.keep_modifyGet fun s => s.newInstance_fold words cls
      · intro self
        apply (bindMethod_mirrors initializer self).bind
        intro bound
        apply (hcall bound arguments).discard.bind
        intro _
        exact Mirrors.pure rfl

theorem bindChoice_mirrors (choice : Store.Choice) :
    Mirrors words (Fn.fold words) (bindChoice choice)
      (Eval.bindChoice (choice.fold words)) := by
  cases choice with
  | function f => exact Mirrors.pure rfl
  | method f self => exact bindMethod_mirrors f self

theorem callNative_applied (host : Host) (op : NativeOp) (paren : Token)
    (arguments : List Value) (s : Store) :
    Eval.callNative host op paren arguments s =
      match (s.entering op).applied ((s.entering op).callNative host op arguments) with
      | .ok (value, s') => .ok value s'
      | .error fault => Eval.failAt paren fault (s.entering op) := by
  rw [Eval.callNative_apply]
  cases (s.entering op).callNative host op arguments with
  | ok called => rfl
  | error fault => rfl

theorem callNative_mirrors (host : Host) (op : NativeOp) {paren paren' : Token}
    (arguments : List Value)
    (htoken : paren'.fold (fun _ => true) = paren.fold (fun _ => true)) :
    Mirrors words (Value.fold words) (keep (Eval.callNative host op paren arguments))
      (Eval.callNative host op paren' (arguments.map (Value.fold words))) := by
  apply Mirrors.keep
  intro s
  rw [callNative_applied, callNative_applied, ← Store.entering_fold, Store.callNative_fold]
  cases (s.entering op).applied ((s.entering op).callNative host op arguments) with
  | ok called => exact .ok rfl rfl
  | error fault => exact .error (.error ⟨htoken, rfl, rfl⟩) rfl

theorem applyValue_mirrors (hcall : CallerMirrors words call caller) (cx : Context)
    (callee : Value) {paren paren' : Token} (arguments : List Value)
    (htoken : paren'.fold (fun _ => true) = paren.fold (fun _ => true)) :
    Mirrors words (Value.fold words) (applyValue call cx callee paren arguments)
      (Eval.applyValue caller cx (callee.fold words) paren'
        (arguments.map (Value.fold words))) := by
  unfold applyValue Eval.applyValue
  cases callee with
  | function f =>
      apply Mirrors.bind Mirrors.look
      intro s
      rw [Value.map_typeName_fold, Store.chooseOverload_fold, List.length_map]
      cases s.chooseOverload cx.env f (arguments.map Value.typeName) with
      | none => exact failAt_mirrors htoken rfl
      | some choice =>
          apply (bindChoice_mirrors choice).bind
          intro selected
          apply (checkArity_mirrors selected.arity arguments.length htoken).bind
          intro _
          exact hcall selected arguments
  | native native =>
      rw [List.length_map]
      apply Mirrors.keep_bind (checkArity_mirrors native.op.arity arguments.length htoken)
      intro _
      exact callNative_mirrors cx.host native.op arguments htoken
  | «class» cls => exact instantiate_mirrors hcall cls arguments htoken
  | _ => exact failAt_mirrors htoken rfl

/-! ## Expressions -/

mutual

theorem expr_mirrors (hcall : CallerMirrors words call caller) (hthis : words .this = false)
    (cx : Context) :
    ∀ e, Mirrors words (Value.fold words) (expr call cx e) (Eval.expr caller cx (e.fold words))
  | .literal value => Mirrors.pure (Value.fold_ofLiteral words value).symm
  | .cast inner _ => expr_mirrors hcall hthis cx inner
  | .grouping inner => expr_mirrors hcall hthis cx inner
  | .unary op token operand => by
      apply (expr_mirrors hcall hthis cx operand).bind
      intro value
      exact orFail_mirrors (token.fold_fold_all words) (Value.applyUnary_fold words op value)
  | .binary left op token right => by
      apply (expr_mirrors hcall hthis cx left).bind
      intro leftValue
      apply (expr_mirrors hcall hthis cx right).bind
      intro rightValue
      apply Mirrors.keep_bind Mirrors.look
      intro s
      exact orFail_mirrors (token.fold_fold_all words)
        (s.applyBinary_fold words op leftValue rightValue)
  | .logical left op token right => by
      have hdecides (value : Value) :
          Eval.decides op (value.fold words) = Eval.decides op value := by
        cases op <;> simp [Eval.decides]
      apply (expr_mirrors hcall hthis cx left).bind
      intro value
      rw [hdecides]
      cases Eval.decides op value with
      | true => exact Mirrors.pure rfl
      | false => exact expr_mirrors hcall hthis cx right
  | .variable id name => (lookUp_mirrors cx id name).note
  | .this id keyword => by
      -- `this` itself is not folded
      rw [Expr.fold, hthis]
      exact lookUp_mirrors cx id keyword
  | .super id keyword method => superMethod_mirrors cx id keyword method
  | .assign id name value => by
      apply (expr_mirrors hcall hthis cx value).bind
      intro result
      exact assign_mirrors cx id name result
  | .call callee paren arguments => by
      intro t
      -- the store in front of the call is read for the record only
      have hrecord (before : Store) : Mirrors words (Value.fold words)
          (expr call cx callee >>= fun target => exprs call cx arguments >>= fun values =>
            note (fun after => .called cx callee before target values after) >>= fun _ =>
              applyValue call cx target paren values)
          (Eval.expr caller cx (callee.fold words) >>= fun target =>
            Eval.exprs caller cx (Expr.foldList words arguments) >>= fun values =>
              Eval.applyValue caller cx target (paren.fold words) values) := by
        apply (expr_mirrors hcall hthis cx callee).bind
        intro target
        apply (exprs_mirrors hcall hthis cx arguments).bind
        intro values
        apply Mirrors.note
        exact applyValue_mirrors hcall cx target values (paren.fold_fold_all words)
      have hrest := hrecord t.store { t with events := .calling cx callee t.store :: t.events }
      exact ⟨fun _ hmem => hrest.1 (List.mem_cons_of_mem _ hmem), hrest.2⟩
  | .get object name => by
      apply (expr_mirrors hcall hthis cx object).bind
      intro target
      exact getProperty_mirrors target name
  | .set object name value => by
      apply (expr_mirrors hcall hthis cx object).bind
      intro target
      apply (fieldOwner_mirrors target name).bind
      intro self
      apply (expr_mirrors hcall hthis cx value).bind
      intro result
      apply Mirrors.bind
      · exact Mirrors.keep_modify fun s => (s.setField_fold words self name.lexeme result).symm
      · intro _
        exact Mirrors.pure rfl
  | .subscript bracket object index => by
      apply (expr_mirrors hcall hthis cx object).bind
      intro target
      apply (expr_mirrors hcall hthis cx index).bind
      intro position
      apply Mirrors.keep_bind Mirrors.look
      intro s
      exact orFail_mirrors (bracket.fold_fold_all words) (s.subscript_fold words target position)
  | .map _ items => by
      apply (entries_mirrors hcall hthis cx items []).bind
      intro contents
      apply Mirrors.bind
      · exact Mirrors.keep_modifyGet (f := id) fun s => s.newMap_fold words contents
      · intro id
        exact Mirrors.pure rfl

theorem exprs_mirrors (hcall : CallerMirrors words call caller) (hthis : words .this = false)
    (cx : Context) :
    ∀ list, Mirrors words (List.map (Value.fold words)) (exprs call cx list)
      (Eval.exprs caller cx (Expr.foldList words list))
  | [] => Mirrors.pure rfl
  | e :: rest => by
      apply (expr_mirrors hcall hthis cx e).bind
      intro value
      apply (exprs_mirrors hcall hthis cx rest).bind
      intro values
      exact Mirrors.pure rfl

theorem entries_mirrors (hcall : CallerMirrors words call caller) (hthis : words .this = false)
    (cx : Context) :
    ∀ items contents, Mirrors words (List.map (foldItem words)) (entries call cx items contents)
      (Eval.entries caller cx (Expr.foldEntries words items) (contents.map (foldItem words)))
  | [], _ => Mirrors.pure rfl
  | (key, item) :: rest, contents => by
      apply (expr_mirrors hcall hthis cx key).bind
      intro keyValue
      apply (expr_mirrors hcall hthis cx item).bind
      intro itemValue
      rw [← putEntry_fold]
      exact entries_mirrors hcall hthis cx rest _

end

end Calls

end Trace

end MiniPascal
