import MiniPascal.Proofs.Machine.Trace

/-!
# Sound worlds

A world is a store, the record of the run up to it, and what each function was made as.  In a sound
world every function that may be called has an environment whose frames were made for the scopes
around its body, and the frames of `this` and `super` bind what they were made with.  Running a
program only extends a world, and whatever is said of values here stays true of them.
-/

namespace MiniPascal

namespace Region

/-- The names that a scope binds of itself. -/
def reserved : Region → List String
  | .parent _ => ["super"]
  | .receiver _ => ["this"]
  | _ => []

def isParent : Region → Bool
  | .parent _ => true
  | _ => false

def isReceiver : Region → Bool
  | .receiver _ => true
  | _ => false

end Region

/-- Whether statements may stand at a place: they stand in a method, not around all of them. -/
def Place.Open : Place → Prop
  | [] => True
  | scope :: _ => scope.region.isParent = false

namespace Class

def superclass : Class → Option Class
  | mk _ _ superclass _ => superclass

end Class

/-- A class declares a function as one of its methods, or as an overload of one. -/
def Store.Declares (s : Store) (cls : Class) (f : Fn) : Prop :=
  ∃ name first, cls.methods.find? name = some first ∧ (f = first ∨ f ∈ s.overloadsOf first)

/-! ## Environments -/

/-- The frames of an environment were made from the outside in, the one of top-level code first. -/
def Env.Nested (env : Env) : Prop :=
  env.Pairwise (· > ·) ∧ env.getLast? = some Store.globalFrame

/-- What has a variable in one store has it in the other one. -/
def Store.Grows (s s' : Store) : Prop :=
  ∀ frame name, ((s.frame frame).find? name).isSome → ((s'.frame frame).find? name).isSome

theorem Store.Grows.refl (s : Store) : s.Grows s :=
  fun _ _ h => h

theorem Store.Grows.trans {s s' s'' : Store} (h : s.Grows s') (h' : s'.Grows s'') : s.Grows s'' :=
  fun frame name hbound => h' frame name (h frame name hbound)

/-- The frames of an environment were made for the scopes of a place and have their names. -/
inductive Fits (events : List Event) (s : Store) : Place → Env → Prop
  | top (hglobal : Store.globalFrame < s.frames.size) : Fits events s [] Store.globals
  | inside {region : Region} {names : List String} {p : Place} {env : Env} {frame : FrameId}
      (hentered : .entered region env frame ∈ events) (hframe : frame < s.frames.size)
      (hnewer : ∀ outer ∈ env, outer < frame)
      (hbound : ∀ name ∈ names, ((s.frame frame).find? name).isSome)
      (hnames : ∀ name ∈ names, Declarable name ∨ name ∈ region.reserved)
      (hover : region.isReceiver = true ∨ p.Open) (houter : Fits events s p env) :
      Fits events s (⟨region, names⟩ :: p) (frame :: env)

/-- What a function was made as. -/
inductive Made where
  | plain
  /-- A method, or an overload of the method `first`. -/
  | method (first : Fn)
  /-- A bound method that nothing else refers to. -/
  | apart

/-- A store with its record, and what its functions were made as. -/
structure World where
  store : Store
  events : List Event
  made : Nat → Made

namespace World

def trace (w : World) : Traced where
  store := w.store
  events := w.events

/-- A world that a run may get to from another one. -/
structure Extends (w w' : World) : Prop where
  events : w.events <:+ w'.events
  frames : w.store.frames.size ≤ w'.store.frames.size
  bound : w.store.Grows w'.store
  fixed : ∀ frame, frame < w.store.frames.size → ∀ name, ¬Declarable name →
    (w'.store.frame frame).find? name = (w.store.frame frame).find? name
  functions : w.store.overloads.size ≤ w'.store.overloads.size
  made : ∀ id, id < w.store.overloads.size → w'.made id = w.made id
  overloads : ∀ f, w.store.overloadsOf f <+: w'.store.overloadsOf f

end World

/-- What a call of a method of the superclass rests on: the instance and the class at the distance
of `super`, the class whose method is around the call, and the bound copy that is called. -/
structure SuperCall (cx : Context) (p : Place) (id : NodeId) (method : Token) (before : Store)
    (target : Value) (after : Store) (nearer : Nat) (superclass : Class) (object : Instance)
    (home : Class) (around found bound : Fn) : Prop where
  distance : cx.locals[id]? = some (nearer + 1)
  super_eq : before.findAt? cx.env (nearer + 1) "super" = some (.class superclass)
  self_eq : before.findAt? cx.env nearer "this" = some (.object object)
  home_mem : home ∈ object.cls.ancestry
  parent : home.superclass = some superclass
  declared : before.Declares home around
  closure : around.closure = cx.env.drop (nearer + 1)
  place : p[nearer]?.map LexicalScope.region = some (.receiver around.decl)
  found_eq : superclass.findMethod method.lexeme = some found
  name : found.name = method.lexeme
  target_eq : target = .function bound
  copy : bound.decl = found.decl
  outside : bound.closure.tail = found.closure
  overloads : after.overloadsOf bound = []
  receiver : after.boundInstance bound = some object
  siblings : ∀ f ∈ after.overloadsOf found, f.closure = found.closure
  lower : ∀ cls ∈ object.cls.ancestry, home ∈ cls.ancestry → ∀ f, after.Declares cls f →
    f.closure ≠ found.closure
  apart : ∀ first, object.cls.findMethod method.lexeme = some first →
    ∀ f, (f = found ∨ f ∈ after.overloadsOf found) → (f = first ∨ f ∈ after.overloadsOf first) →
      first = found

section Records

variable (known : Reference → Prop)

/-- Known references, none of which reads a name that is just being declared, with the distances
that the resolver found for them. -/
structure Resolved (locals : Locals) : Prop where
  written : ∀ r, known r → r.mention.use = .write → Declarable r.mention.name
  pending : ∀ r, known r → r.pending = false
  distance : ∀ r, known r → r.mention.use = .read ∨ ¬Declarable r.mention.name →
    ∀ d, locals[r.mention.id]? = some d → r.distance? = some d
  recorded : ∀ r, known r → r.mention.use = .read → locals[r.mention.id]? = r.distance?
  derived : ∀ r, known r → r.mention.use = .receiver → r.mention.name = "super" →
    r.place.Derived ∧ (locals[r.mention.id]?).isSome

/-- A name with a distance is bound in the frame at that distance, and this frame was made for the
nearest scope around the reference that has the name. -/
def ReadsDeclared (earlier : List Event) (cx : Context) (id : NodeId) (name : String) (s : Store) :
    Prop :=
  ∀ d, cx.locals[id]? = some d → ∃ r, known r ∧ r.mention = ⟨id, name, .read⟩ ∧
    r.distance? = some d ∧ ∃ scope frame, r.place[d]? = some scope ∧ cx.env[d]? = some frame ∧
      .entered scope.region (cx.env.drop (d + 1)) frame ∈ earlier ∧
      (s.findAt? cx.env d name).isSome

/-- Where a method of the superclass is looked up, the class and the instance are at their
distances. -/
def ReachesSuper (cx : Context) (id : NodeId) (s : Store) : Prop :=
  ∃ nearer superclass self, cx.locals[id]? = some (nearer + 1) ∧
    s.findAt? cx.env (nearer + 1) "super" = some (.class superclass) ∧
    s.findAt? cx.env nearer "this" = some (.object self)

/-- What the record says of an event and those before it. -/
def Justified (earlier : List Event) : Event → Prop
  | .read cx id name s => ReadsDeclared known earlier cx id name s
  | .reaching cx id s => ReachesSuper cx id s
  | .calling cx (.super id _ _) s => ReachesSuper cx id s
  | .called cx (.super id _ method) before target _ after =>
      ∃ r nearer superclass self home around found bound, known r ∧
        r.mention = ⟨id, "super", .receiver⟩ ∧ r.place.distance? "this" = some nearer ∧
        SuperCall cx r.place id method before target after nearer superclass self home around
          found bound
  | _ => True

/-- Every event of a record is justified by those before it. -/
def AllJustified : List Event → Prop
  | [] => True
  | event :: earlier => Justified known earlier event ∧ AllJustified earlier

/-- A known reference is read at its own distance, in an environment as deep as its place. -/
def ReadsInPlace (cx : Context) (id : NodeId) (name : String) : Prop :=
  ∃ r, known r ∧ r.mention = ⟨id, name, .read⟩ ∧ cx.locals[id]? = r.distance? ∧
    cx.env.length = r.place.length + 1 ∧ cx.env.Nested

/-- Names are read one after the other, on the way to a store. -/
def InOrder (s : Store) : List Event → Prop
  | [] => True
  | .read cx id name s' :: earlier =>
      s'.Grows s ∧ ReadsInPlace known cx id name ∧ InOrder s' earlier
  | _ :: earlier => InOrder s earlier

end Records

/-! ## Values -/

section Values

variable (known : Reference → Prop)

/-- Statements that stand at a place. -/
def Knows (p : Place) (list : List Stmt) : Prop :=
  Stmt.TidyList Declarable list ∧ ∀ r ∈ Stmt.listReferences p list, known r

/-- A function whose body stands right inside a place. -/
def KnowsBody (p : Place) (decl : Function) : Prop :=
  (∀ param ∈ decl.params, Declarable param.name.lexeme) ∧
    Knows known (p.enter (.function decl) decl.paramNames) decl.body

/-- A function that may be called. -/
def PlainFn (w : World) (f : Fn) : Prop :=
  ∃ p, Fits w.events w.store p f.closure ∧ p.Open ∧ KnowsBody known p f.decl

/-- A method that may be called once it is bound. -/
def MethodFn (w : World) (f : Fn) : Prop :=
  ∃ p, Fits w.events w.store p f.closure ∧
    KnowsBody known (p.enter (.receiver f.decl) ["this"]) f.decl

/-- The method that a class has under a name. -/
structure MethodOk (w : World) (superclass : Option Class) (name : String) (first : Fn) :
    Prop where
  name : first.name = name
  id : first.id < w.store.overloads.size
  made : w.made first.id = .method first
  known : MethodFn known w first
  parent : w.store.findHere? first.closure "super" = superclass.map .class

/-- A class all of whose methods may be bound, those of its ancestors included. -/
def ClassOk (w : World) (cls : Class) : Prop :=
  ∀ ancestor ∈ cls.ancestry, ∀ name first, ancestor.methods.find? name = some first →
    MethodOk known w ancestor.superclass name first

/-- A value that a program may hold. -/
def ValueOk (w : World) : Value → Prop
  | .function f => f.id < w.store.overloads.size ∧ w.made f.id = .plain ∧ PlainFn known w f
  | .class cls => ClassOk known w cls
  | .object self => ClassOk known w self.cls
  | _ => True

/-- What the overloads of a function are, by what the function was made as. -/
def OverloadsOk (w : World) (id : Nat) : Prop :=
  match w.made id with
  | .plain => ∀ f ∈ w.store.overloads.getD id [], PlainFn known w f
  | .method first => ∀ f ∈ w.store.overloads.getD id [], f.id < w.store.overloads.size ∧
      w.made f.id = .method first ∧ f.closure = first.closure ∧ MethodFn known w f
  | .apart => w.store.overloads.getD id [] = []

end Values

namespace OverloadsOk

variable {known : Reference → Prop} {w : World} {id : Nat} (h : OverloadsOk known w id)
include h

theorem of_plain (hmade : w.made id = .plain) :
    ∀ f ∈ w.store.overloads.getD id [], PlainFn known w f := by
  unfold OverloadsOk at h
  rw [hmade] at h
  exact h

theorem of_method {first : Fn} (hmade : w.made id = .method first) :
    ∀ f ∈ w.store.overloads.getD id [], f.id < w.store.overloads.size ∧
      w.made f.id = .method first ∧ f.closure = first.closure ∧ MethodFn known w f := by
  unfold OverloadsOk at h
  rw [hmade] at h
  exact h

theorem of_apart (hmade : w.made id = .apart) : w.store.overloads.getD id [] = [] := by
  unfold OverloadsOk at h
  rw [hmade] at h
  exact h

end OverloadsOk

/-- What a frame binds by what it was made for. -/
def FrameOk (s : Store) (region : Region) (outer : Env) (frame : FrameId) : Prop :=
  match region with
  | .receiver decl => (s.frame frame).find? "super" = none ∧
      ∃ self cls f, (s.frame frame).find? "this" = some (.object self) ∧
        cls ∈ self.cls.ancestry ∧ s.Declares cls f ∧ f.decl = decl ∧ f.closure = outer
  | .parent _ => (s.frame frame).find? "this" = none ∧
      ∃ cls, (s.frame frame).find? "super" = some (.class cls)
  | _ => (s.frame frame).find? "this" = none ∧ (s.frame frame).find? "super" = none

/-- A world that a run may be in. -/
structure Sound (known : Reference → Prop) (w : World) : Prop where
  overloads : ∀ id, id < w.store.overloads.size → OverloadsOk known w id
  frames : ∀ frame name value, (w.store.frame frame).find? name = some value →
    ValueOk known w value
  fields : ∀ self name value, (w.store.fieldsOf self).find? name = some value →
    ValueOk known w value
  sequences : ∀ id, ∀ value ∈ w.store.sequence id, ValueOk known w value
  maps : ∀ id, ∀ entry ∈ w.store.mapEntries id, ValueOk known w entry.2
  entered : ∀ region outer frame, .entered region outer frame ∈ w.events →
    frame < w.store.frames.size ∧ FrameOk w.store region outer frame
  globalFrame : Store.globalFrame < w.store.frames.size
  global : ∀ name, ¬Declarable name → (w.store.frame Store.globalFrame).find? name = none
  events : AllJustified known w.events
  reads : InOrder known w.store w.events

/-! ## Extended worlds -/

namespace Fits

variable {events : List Event} {s : Store} {p : Place} {env : Env}

theorem frame_lt (h : Fits events s p env) :
    ∃ frame outer, env = frame :: outer ∧ frame < s.frames.size := by
  cases h with
  | top hglobal => exact ⟨_, _, rfl, hglobal⟩
  | inside _ hframe _ _ _ _ _ => exact ⟨_, _, rfl, hframe⟩

theorem mem_lt (h : Fits events s p env) : ∀ frame ∈ env, frame < s.frames.size := by
  induction h with
  | top hglobal =>
      intro frame hmem
      rw [List.mem_singleton.mp hmem]
      exact hglobal
  | inside _ hframe _ _ _ _ _ ih =>
      intro frame hmem
      rcases List.mem_cons.mp hmem with rfl | hmem
      · exact hframe
      · exact ih frame hmem

theorem length (h : Fits events s p env) : env.length = p.length + 1 := by
  induction h with
  | top _ => rfl
  | inside _ _ _ _ _ _ _ ih => exact congrArg (· + 1) ih

theorem nested (h : Fits events s p env) : env.Nested := by
  induction h with
  | top _ => exact ⟨List.pairwise_singleton _ _, rfl⟩
  | inside _ _ hnewer _ _ _ _ ih =>
      refine ⟨List.pairwise_cons.mpr ⟨hnewer, ih.1⟩, ?_⟩
      rw [List.getLast?_cons, ih.2]
      rfl

theorem mono {events' : List Event} {s' : Store} (h : Fits events s p env)
    (hevents : events <:+ events') (hframes : s.frames.size ≤ s'.frames.size)
    (hbound : s.Grows s') : Fits events' s' p env := by
  induction h with
  | top hglobal => exact .top (Nat.lt_of_lt_of_le hglobal hframes)
  | inside hentered hframe hnewer hnames hallowed hover _ ih =>
      refine .inside (hevents.subset hentered) (Nat.lt_of_lt_of_le hframe hframes) hnewer ?_
        hallowed hover ih
      intro name hname
      exact hbound _ name (hnames name hname)

/-- Names that the innermost frame has may be declared. -/
theorem declare {names : List String} (h : Fits events s p env)
    (hnames : ∀ name ∈ names, Declarable name)
    (hbound : ∀ name ∈ names, (s.findHere? env name).isSome) :
    Fits events s (p.declare names) env := by
  cases h with
  | top hglobal => exact .top hglobal
  | inside hentered hframe hnewer hbefore hallowed hover houter =>
      refine .inside hentered hframe hnewer ?_ ?_ hover houter
      · intro name hname
        rcases List.mem_append.mp hname with hname | hname
        · exact hbefore name hname
        · exact hbound name hname
      · intro name hname
        rcases List.mem_append.mp hname with hname | hname
        · exact hallowed name hname
        · exact .inl (hnames name hname)

end Fits

theorem Place.Open.declare {p : Place} {names : List String} (h : p.Open) :
    (p.declare names).Open := by
  cases p with
  | nil => exact h
  | cons scope outer => exact h

namespace World.Extends

variable {w w' w'' : World}

theorem refl (w : World) : w.Extends w where
  events := List.suffix_refl _
  frames := Nat.le_refl _
  bound _ _ h := h
  fixed _ _ _ _ := rfl
  functions := Nat.le_refl _
  made _ _ := rfl
  overloads _ := List.prefix_refl _

theorem trans (h : w.Extends w') (h' : w'.Extends w'') : w.Extends w'' where
  events := h.events.trans h'.events
  frames := Nat.le_trans h.frames h'.frames
  bound frame name hbound := h'.bound frame name (h.bound frame name hbound)
  fixed frame hframe name hname :=
    (h'.fixed frame (Nat.lt_of_lt_of_le hframe h.frames) name hname).trans
      (h.fixed frame hframe name hname)
  functions := Nat.le_trans h.functions h'.functions
  made id hid :=
    (h'.made id (Nat.lt_of_lt_of_le hid h.functions)).trans (h.made id hid)
  overloads f := (h.overloads f).trans (h'.overloads f)

theorem fits {p : Place} {env : Env} (h : w.Extends w') (hp : Fits w.events w.store p env) :
    Fits w'.events w'.store p env :=
  hp.mono h.events h.frames h.bound

/-- What the innermost frame of an environment binds of itself stays. -/
theorem findHere? {p : Place} {env : Env} {name : String} (h : w.Extends w')
    (hp : Fits w.events w.store p env) (hname : ¬Declarable name) :
    w'.store.findHere? env name = w.store.findHere? env name := by
  rcases hp.frame_lt with ⟨frame, outer, rfl, hframe⟩
  exact h.fixed frame hframe name hname

theorem declares {cls : Class} {f : Fn} (h : w.Extends w') (hf : w.store.Declares cls f) :
    w'.store.Declares cls f := by
  rcases hf with ⟨name, first, hfirst, hf⟩
  refine ⟨name, first, hfirst, ?_⟩
  rcases hf with hf | hf
  · exact .inl hf
  · exact .inr ((h.overloads first).subset hf)

variable {known : Reference → Prop}

theorem plainFn {f : Fn} (h : w.Extends w') (hf : PlainFn known w f) : PlainFn known w' f := by
  rcases hf with ⟨p, hp, hopen, hbody⟩
  exact ⟨p, h.fits hp, hopen, hbody⟩

theorem methodFn {f : Fn} (h : w.Extends w') (hf : MethodFn known w f) : MethodFn known w' f := by
  rcases hf with ⟨p, hp, hbody⟩
  exact ⟨p, h.fits hp, hbody⟩

theorem methodOk {superclass : Option Class} {name : String} {first : Fn} (h : w.Extends w')
    (hfirst : MethodOk known w superclass name first) :
    MethodOk known w' superclass name first := by
  refine ⟨hfirst.name, Nat.lt_of_lt_of_le hfirst.id h.functions, ?_, h.methodFn hfirst.known, ?_⟩
  · exact (h.made first.id hfirst.id).trans hfirst.made
  · rcases hfirst.known with ⟨p, hp, -⟩
    exact (h.findHere? hp not_declarable_super).trans hfirst.parent

theorem classOk {cls : Class} (h : w.Extends w') (hcls : ClassOk known w cls) :
    ClassOk known w' cls := by
  intro ancestor hancestor name first hfirst
  exact h.methodOk (hcls ancestor hancestor name first hfirst)

theorem valueOk {value : Value} (h : w.Extends w') (hvalue : ValueOk known w value) :
    ValueOk known w' value := by
  cases value with
  | function f =>
      rcases hvalue with ⟨hid, hmade, hf⟩
      exact ⟨Nat.lt_of_lt_of_le hid h.functions, (h.made f.id hid).trans hmade, h.plainFn hf⟩
  | «class» cls => exact h.classOk hvalue
  | object self => exact h.classOk hvalue
  | _ => trivial

theorem frameOk {region : Region} {outer : Env} {frame : FrameId} (h : w.Extends w')
    (hframe : frame < w.store.frames.size) (hok : FrameOk w.store region outer frame) :
    FrameOk w'.store region outer frame := by
  have hthis := h.fixed frame hframe "this" not_declarable_this
  have hsuper := h.fixed frame hframe "super" not_declarable_super
  cases region with
  | receiver decl =>
      rcases hok with ⟨hnone, self, cls, f, hself, hcls, hf, hdecl, hclosure⟩
      exact ⟨hsuper.trans hnone, self, cls, f, hthis.trans hself, hcls, h.declares hf, hdecl,
        hclosure⟩
  | parent decl =>
      rcases hok with ⟨hnone, cls, hcls⟩
      exact ⟨hthis.trans hnone, cls, hsuper.trans hcls⟩
  | _ => exact ⟨hthis.trans hok.1, hsuper.trans hok.2⟩

end World.Extends

/-! ## More references -/

section More

variable {known others : Reference → Prop} (hmore : ∀ r, known r → others r) {w : World}
include hmore

theorem KnowsBody.mono {p : Place} {decl : Function} (h : KnowsBody known p decl) :
    KnowsBody others p decl := by
  rcases h with ⟨hparams, htidy, hknown⟩
  exact ⟨hparams, htidy, fun r hr => hmore r (hknown r hr)⟩

theorem PlainFn.mono {f : Fn} (h : PlainFn known w f) : PlainFn others w f := by
  rcases h with ⟨p, hp, hopen, hbody⟩
  exact ⟨p, hp, hopen, hbody.mono hmore⟩

theorem MethodFn.mono {f : Fn} (h : MethodFn known w f) : MethodFn others w f := by
  rcases h with ⟨p, hp, hbody⟩
  exact ⟨p, hp, hbody.mono hmore⟩

theorem ClassOk.mono {cls : Class} (h : ClassOk known w cls) : ClassOk others w cls := by
  intro ancestor hancestor name first hfirst
  have hok := h ancestor hancestor name first hfirst
  exact ⟨hok.name, hok.id, hok.made, hok.known.mono hmore, hok.parent⟩

theorem ValueOk.mono {value : Value} (h : ValueOk known w value) : ValueOk others w value := by
  cases value with
  | function f => exact ⟨h.1, h.2.1, h.2.2.mono hmore⟩
  | «class» cls => exact ClassOk.mono hmore h
  | object self => exact ClassOk.mono hmore h
  | _ => trivial

theorem OverloadsOk.mono {id : Nat} (h : OverloadsOk known w id) : OverloadsOk others w id := by
  unfold OverloadsOk
  cases hmade : w.made id with
  | plain =>
      intro f hf
      exact (h.of_plain hmade f hf).mono hmore
  | method first =>
      intro f hf
      rcases h.of_method hmade f hf with ⟨hlt, hfirst, hclosure, hf⟩
      exact ⟨hlt, hfirst, hclosure, hf.mono hmore⟩
  | apart => exact h.of_apart hmade

theorem Justified.mono {earlier : List Event} {event : Event}
    (h : Justified known earlier event) : Justified others earlier event := by
  cases event with
  | read cx id name s =>
      intro d hlocal
      rcases h d hlocal with ⟨r, hr, hfound⟩
      exact ⟨r, hmore r hr, hfound⟩
  | reaching cx id s => exact h
  | calling cx callee s =>
      cases callee with
      | super id keyword method => exact h
      | _ => trivial
  | called cx callee before target arguments after =>
      cases callee with
      | super id keyword method =>
          rcases h with ⟨r, nearer, superclass, self, home, around, found, bound, hr, hcall⟩
          exact ⟨r, nearer, superclass, self, home, around, found, bound, hmore r hr, hcall⟩
      | _ => trivial
  | entered region outer frame => trivial

theorem AllJustified.mono {events : List Event} (h : AllJustified known events) :
    AllJustified others events := by
  induction events with
  | nil => trivial
  | cons event earlier ih => exact ⟨h.1.mono hmore, ih h.2⟩

theorem InOrder.mono {s : Store} {events : List Event} (h : InOrder known s events) :
    InOrder others s events := by
  induction events generalizing s with
  | nil => trivial
  | cons event earlier ih =>
      cases event with
      | read cx id name s' =>
          rcases h with ⟨hgrows, ⟨r, hr, hplace⟩, hearlier⟩
          exact ⟨hgrows, ⟨r, hmore r hr, hplace⟩, ih hearlier⟩
      | _ => exact ih h

/-- A sound world stays sound when more references become known. -/
theorem Sound.mono (h : Sound known w) : Sound others w where
  overloads id hid := (h.overloads id hid).mono hmore
  frames frame name value hvalue := (h.frames frame name value hvalue).mono hmore
  fields self name value hvalue := (h.fields self name value hvalue).mono hmore
  sequences id value hvalue := (h.sequences id value hvalue).mono hmore
  maps id entry hentry := (h.maps id entry hentry).mono hmore
  entered := h.entered
  globalFrame := h.globalFrame
  global := h.global
  events := h.events.mono hmore
  reads := h.reads.mono hmore

end More

namespace InOrder

variable {known : Reference → Prop} {s s' : Store} {events : List Event}

/-- Names stay where they are, so the way may go on. -/
theorem grow (h : InOrder known s events) (hgrows : s.Grows s') : InOrder known s' events := by
  induction events with
  | nil => trivial
  | cons event earlier ih =>
      cases event with
      | read cx id name before => exact ⟨h.1.trans hgrows, h.2⟩
      | _ => exact ih h

/-- What is on record for a name that was read, and that the stores have grown since. -/
theorem split {later earlier : List Event} {cx : Context} {id : NodeId} {name : String}
    (h : InOrder known s (later ++ .read cx id name s' :: earlier)) :
    s'.Grows s ∧ ReadsInPlace known cx id name ∧ InOrder known s' earlier := by
  induction later generalizing s with
  | nil => exact h
  | cons event rest ih =>
      cases event with
      | read cx' id' name' between =>
          rcases h with ⟨hgrows, -, hrest⟩
          rcases ih hrest with ⟨hgrows', hplace, hearlier⟩
          exact ⟨hgrows'.trans hgrows, hplace, hearlier⟩
      | _ => exact ih h

end InOrder

/-- Every event stands in a justified record at its own place. -/
theorem AllJustified.split {known : Reference → Prop} {later earlier : List Event} {event : Event}
    (h : AllJustified known (later ++ event :: earlier)) : Justified known earlier event := by
  induction later with
  | nil => exact h.1
  | cons _ rest ih => exact ih h.2

end MiniPascal
