import MiniPascal.Proofs.Machine.Bindings
import MiniPascal.Proofs.Session.Recording

/-!
# Names that are read again

Where a reference in the body of a function is found, call after call.  A name that a scope around
the reference declares in front of it is found in one and the same frame in all calls of a function.
Any other name is looked up in the frames as they are by then: it is found again, and in the same
frame exactly as long as no nearer one has got the name.
-/

namespace MiniPascal

/-! ## Owners -/

namespace Store

/-- The frame that has the variable of a name: the one at its distance if it has one, else the
nearest one, or that of top-level code. -/
def owner? (s : Store) (cx : Context) (id : NodeId) (name : String) : Option FrameId :=
  match cx.locals[id]? with
  | some distance =>
      (frameAt? cx.env distance).filter fun frame => (s.frame frame).contains name
  | none => (s.frameOf? cx.env name).or (s.frameOf? globals name)

variable {s s' : Store} {env : Env} {name : String} {owner : FrameId}

theorem readVariable_eq_owner (cx : Context) (id : NodeId) (name : String) (s : Store) :
    Eval.readVariable cx id name s =
      .ok ((s.owner? cx id name).bind fun frame => (s.frame frame).find? name) s := by
  unfold Eval.readVariable owner?
  cases cx.locals[id]? with
  | some distance =>
      show EStateM.Result.ok (s.findHere? (cx.env.drop distance) name) s =
        .ok (((cx.env.drop distance).head?.filter fun frame =>
          (s.frame frame).contains name).bind _) s
      cases cx.env.drop distance with
      | nil => rfl
      | cons frame outer =>
          cases hfound : (s.frame frame).find? name with
          | some value => simp [findHere?, Table.contains, Option.filter_some, hfound]
          | none => simp [findHere?, Table.contains, Option.filter_some, hfound]
  | none =>
      show EStateM.Result.ok ((s.find? cx.env name).or (s.find? globals name)) s =
        .ok (((s.frameOf? cx.env name).or (s.frameOf? globals name)).bind _) s
      rw [find?_eq_frameOf?, find?_eq_frameOf?]
      cases howner : s.frameOf? cx.env name with
      | none => rfl
      | some frame =>
          rcases Option.isSome_iff_exists.mp (frameOf?_eq_some_iff.mp howner).2.1 with
            ⟨value, hvalue⟩
          simp [hvalue]

section Owners

variable {cx : Context} {id : NodeId}

theorem owner?_of_distance {d : Nat} (hlocal : cx.locals[id]? = some d) :
    s.owner? cx id name = some owner ↔
      cx.env[d]? = some owner ∧ (s.frame owner).contains name = true := by
  unfold owner? frameAt?
  rw [hlocal]
  simp only [List.head?_drop, Option.filter_eq_some_iff]

/-- Without a distance, the frame of top-level code is just the last one. -/
theorem owner?_of_no_distance (hlocal : cx.locals[id]? = none) (henv : cx.env.Nested) :
    s.owner? cx id name = s.frameOf? cx.env name := by
  unfold owner?
  rw [hlocal]
  show (s.frameOf? cx.env name).or (s.frameOf? globals name) = s.frameOf? cx.env name
  cases hnearest : s.frameOf? cx.env name with
  | some frame => rfl
  | none =>
      cases hglobal : s.frameOf? globals name with
      | none => rfl
      | some frame =>
          rcases frameOf?_eq_some_iff.mp hglobal with ⟨hmem, hfound, -⟩
          rw [List.mem_singleton.mp hmem] at hfound
          have hsome := frameOf?_isSome_iff.mpr
            ⟨globalFrame, List.mem_of_getLast? henv.2, hfound⟩
          rw [hnearest] at hsome
          cases hsome

end Owners

end Store

/-! ## Environments with a common end -/

/-- Environments that are equally deep and end in the same frames have each of these at one
distance. -/
theorem Env.Nested.getElem?_of_suffix {env env' shared : Env} {owner : FrameId} {d : Nat}
    (h : env.Nested) (hlength : env'.length = env.length) (hshared : shared <:+ env)
    (hshared' : shared <:+ env') (howner : owner ∈ shared) (hd : env[d]? = some owner) :
    env'[d]? = some owner := by
  rcases hshared with ⟨inner, rfl⟩
  rcases hshared' with ⟨inner', rfl⟩
  have hinner : inner'.length = inner.length := by
    simpa using hlength
  rcases List.getElem?_of_mem howner with ⟨k, hk⟩
  have hplace : (inner ++ shared)[inner.length + k]? = some owner := by
    rw [List.getElem?_append_right (Nat.le_add_right _ _), Nat.add_sub_cancel_left, hk]
  -- no frame is twice in an environment
  have hdistinct : (inner ++ shared).Nodup := h.1.imp Nat.ne_of_gt
  have hsame : d = inner.length + k :=
    (List.getElem?_inj (List.getElem?_eq_some_iff.mp hd).1 hdistinct).mp (hd.trans hplace.symm)
  rw [hsame, List.getElem?_append_right (by omega), hinner, Nat.add_sub_cancel_left, hk]

/-! ## Readings in calls -/

/-- An environment inside a call of a function: the frame of the call was made right inside the
environment of the function. -/
def InCall (events : List Event) (f : Fn) (env : Env) : Prop :=
  ∃ inner frame, env = inner ++ frame :: f.closure ∧
    .entered (.function f.decl) f.closure frame ∈ events

/-- A name is read in a call of a function, after the events `earlier`. -/
structure ReadInCall (events : List Event) (f : Fn) (id : NodeId) (name : String) (cx : Context)
    (s : Store) (earlier : List Event) : Prop where
  read : .read cx id name s :: earlier <:+ events
  call : InCall earlier f cx.env

theorem InCall.closure_suffix {events : List Event} {f : Fn} {env : Env}
    (h : InCall events f env) : f.closure <:+ env := by
  rcases h with ⟨inner, frame, rfl, -⟩
  exact (List.suffix_cons frame f.closure).trans (List.suffix_append inner _)

theorem Env.Nested.global_suffix {env : Env} (h : env.Nested) : Store.globals <:+ env := by
  rcases List.getLast?_eq_some_iff.mp h.2 with ⟨inner, rfl⟩
  exact List.suffix_append inner _

/-- Two readings of one reference: they have the same distance and are equally deep. -/
theorem ReadsInPlace.same {known : Reference → Prop} {cx cx' : Context} {id : NodeId}
    {name : String} (hcoherent : ∀ v w, known v → known w → v.Coherent Declarable w)
    (h : ReadsInPlace known cx id name) (h' : ReadsInPlace known cx' id name) :
    ∃ r, known r ∧ r.mention = ⟨id, name, .read⟩ ∧ cx.locals[id]? = r.distance? ∧
      cx'.locals[id]? = r.distance? ∧ cx'.env.length = cx.env.length ∧ cx.env.Nested ∧
      cx'.env.Nested := by
  rcases h with ⟨r, hr, hmention, hlocal, hlength, hnested⟩
  rcases h' with ⟨r', hr', hmention', hlocal', hlength', hnested'⟩
  rcases hcoherent r r' hr hr' (.inl (by rw [hmention])) (by rw [hmention, hmention']) with
    ⟨-, hdistance, hdepth⟩
  refine ⟨r, hr, hmention, hlocal, hlocal'.trans hdistance, ?_, hnested, hnested'⟩
  rw [hlength, hlength', hdepth]

section Again

variable {s s' : Store} {cx cx' : Context} {id : NodeId} {name : String} {owner : FrameId}
variable {shared : Env}

/-- At its distance, a name is found again in a frame that both environments end in. -/
theorem Store.owner?_again {d : Nat} (hgrows : s.Grows s') (hlocal : cx.locals[id]? = some d)
    (hlocal' : cx'.locals[id]? = some d) (hnested : cx.env.Nested)
    (hlength : cx'.env.length = cx.env.length) (hshared : shared <:+ cx.env)
    (hshared' : shared <:+ cx'.env) (howner : owner ∈ shared)
    (hfound : s.owner? cx id name = some owner) : s'.owner? cx' id name = some owner := by
  rcases (owner?_of_distance hlocal).mp hfound with ⟨hd, hbound⟩
  apply (owner?_of_distance hlocal').mpr
  exact ⟨hnested.getElem?_of_suffix hlength hshared hshared' howner hd, hgrows owner name hbound⟩

/-- Without a distance, it is found again, and there as long as nothing nearer has it. -/
theorem Store.owner?_nearest (hbound : (s'.frame owner).contains name = true)
    (hlocal' : cx'.locals[id]? = none) (hnested' : cx'.env.Nested) (howner : owner ∈ cx'.env) :
    ∃ found, s'.owner? cx' id name = some found ∧ (found = owner ↔
      ∀ nearer ∈ cx'.env.takeWhile (· ≠ owner), (s'.frame nearer).contains name = false) := by
  rw [owner?_of_no_distance hlocal' hnested']
  rcases Option.isSome_iff_exists.mp (frameOf?_isSome_iff.mpr ⟨owner, howner, hbound⟩) with
    ⟨found, hfound⟩
  refine ⟨found, hfound, ?_⟩
  constructor
  · rintro rfl
    exact (frameOf?_eq_some_iff.mp hfound).2.2
  · intro hnearer
    have hsame := frameOf?_eq_some_iff.mpr ⟨howner, hbound, hnearer⟩
    exact Option.some.inj (hfound.symm.trans hsame)

theorem Store.contains_of_owner? (h : s.owner? cx id name = some owner) :
    (s.frame owner).contains name = true := by
  cases hlocal : cx.locals[id]? with
  | some d => exact ((owner?_of_distance hlocal).mp h).2
  | none =>
      unfold owner? at h
      rw [hlocal] at h
      rcases Option.or_eq_some_iff.mp h with h | ⟨-, h⟩
      · exact (frameOf?_eq_some_iff.mp h).2.1
      · exact (frameOf?_eq_some_iff.mp h).2.1

end Again

namespace RecordedSession

/-- Whatever a session is fed with: if a name is read in calls of one function and is at first found
outside of the call, it is found in the same frame again if it is declared around the reference and
in front of it.  Any other name is found again as well, but in the nearest frame that has it by
then. -/
theorem reads_owner_again (options : CompileOptions) (host : Host) (inputs : List Input) :
    let r := (start options host).feedAll inputs
    r.session = (Session.start options host).feedAll inputs ∧
      (∀ cx id name s, Eval.readVariable cx id name s =
        .ok ((s.owner? cx id name).bind fun frame => (s.frame frame).find? name) s) ∧
      ∀ f id name cx s earlier cx' s' earlier' owner,
        ReadInCall r.events f id name cx' s' earlier' →
        ReadInCall earlier' f id name cx s earlier → s.owner? cx id name = some owner →
        owner ∈ f.closure ∨ owner = Store.globalFrame →
        ∃ compilation ∈ r.compiled, ∃ ref ∈ Stmt.listReferences [] compilation.program,
          ref.mention = ⟨id, name, .read⟩ ∧
          ((ref.distance?).isSome → s'.owner? cx' id name = some owner) ∧
          (ref.distance? = none → ∃ found, s'.owner? cx' id name = some found ∧
            (found = owner ↔ ∀ nearer ∈ cx'.env.takeWhile (· ≠ owner),
              (s'.frame nearer).contains name = false)) := by
  refine ⟨feedAll_session inputs _, Store.readVariable_eq_owner, ?_⟩
  intro f id name cx s earlier cx' s' earlier' owner hagain hfirst hfound houtside
  have hvalid := (valid_start options host).feedAll inputs
  rcases hvalid.sound with ⟨made, hsound⟩
  have hreads := hsound.reads
  change InOrder _ _ ((start options host).feedAll inputs).events at hreads
  rcases hagain.read with ⟨later, hlater⟩
  rcases hfirst.read with ⟨between, hbetween⟩
  rw [← hlater] at hreads
  rcases hreads.split with ⟨-, hplace', hearlier⟩
  rw [← hbetween] at hearlier
  rcases hearlier.split with ⟨hgrows, hplace, -⟩
  rcases hplace.same hvalid.coherent hplace' with
    ⟨ref, ⟨compilation, hcompiled, href⟩, hmention, hlocal, hlocal', hlength, hnested, hnested'⟩
  have hshared : ∃ shared, shared <:+ cx.env ∧ shared <:+ cx'.env ∧ owner ∈ shared := by
    rcases houtside with howner | rfl
    · exact ⟨f.closure, hfirst.call.closure_suffix, hagain.call.closure_suffix, howner⟩
    · exact ⟨Store.globals, hnested.global_suffix, hnested'.global_suffix,
        List.mem_singleton_self _⟩
  rcases hshared with ⟨shared, hshared, hshared', howner⟩
  refine ⟨compilation, hcompiled, ref, href, hmention, ?_, ?_⟩
  · intro hdistance
    rcases Option.isSome_iff_exists.mp hdistance with ⟨d, hd⟩
    exact Store.owner?_again hgrows (hlocal.trans hd) (hlocal'.trans hd) hnested hlength hshared
      hshared' howner hfound
  · intro hnone
    apply Store.owner?_nearest
    · exact hgrows owner name (Store.contains_of_owner? hfound)
    · exact hlocal'.trans hnone
    · exact hnested'
    · exact hshared'.subset howner

/-! ## Two programs -/

/-- A procedure prints a variable that is declared in front of it. -/
def declaredBefore : List Input :=
  [⟨.empty, 20, ⟨"main.pas",
    "var A := 'global'; " ++
    "begin " ++
    "var A := 'block'; " ++
    "procedure Show; begin print A; end " ++
    "Show(); Show(); " ++
    "end"⟩⟩]

/-- A procedure prints a variable that is declared behind it, between two calls. -/
def declaredBetween : List Input :=
  [⟨.empty, 20, ⟨"main.pas",
    "var A := 'global'; " ++
    "begin " ++
    "procedure Show; begin print A; end " ++
    "Show(); var A := 'block'; Show(); " ++
    "end"⟩⟩]

/-- A procedure that only prints a variable, taken apart. -/
def printer? : Function → Option (FunctionKind × Token × String × Token × NodeId × Token)
  | ⟨kind, name, [], returnType, [.print keyword (.variable id shown)]⟩ =>
      some (kind, name, returnType, keyword, id, shown)
  | _ => none

theorem printer?_inj {decl decl' : Function} (hsome : (printer? decl).isSome)
    (h : printer? decl' = printer? decl) : decl' = decl := by
  unfold printer? at h hsome
  split at hsome
  · split at h
    · cases h
      rfl
    · cases h
  · cases hsome

/-- Where the last two readings found their name, if they stand right inside calls of one printing
procedure; with the environment of the procedure. -/
def lastOwners? : List Event → Option (Env × Option FrameId × Option FrameId)
  | .read cx' id' name' s' :: .entered (.function decl') outer' frame' :: _ :: _ :: _ ::
      .read cx id name s :: .entered (.function decl) outer frame :: _ =>
      if (id' = id ∧ name' = name ∧ outer' = outer) ∧
          (cx'.env = frame' :: outer ∧ cx.env = frame :: outer) ∧
          (printer? decl).isSome ∧ printer? decl' = printer? decl then
        some (outer, s.owner? cx id name, s'.owner? cx' id name)
      else none
  | _ => none

theorem readInCall_of_lastOwners? {events : List Event} {outer : Env} {owner found : FrameId}
    (h : lastOwners? events = some (outer, some owner, some found)) :
    ∃ f id name cx s earlier cx' s' earlier', f.closure = outer ∧
      ReadInCall events f id name cx' s' earlier' ∧
      ReadInCall earlier' f id name cx s earlier ∧ s.owner? cx id name = some owner ∧
      s'.owner? cx' id name = some found := by
  unfold lastOwners? at h
  split at h
  · next cx' id' name' s' decl' outer' frame' e₁ e₂ e₃ cx id name s decl outer'' frame earlier =>
      split at h
      · next hsame =>
          rcases hsame with ⟨⟨rfl, rfl, rfl⟩, ⟨henv', henv⟩, hsome, hdecl⟩
          cases printer?_inj hsome hdecl
          simp only [Option.some.injEq, Prod.mk.injEq] at h
          rcases h with ⟨rfl, howner, hfound⟩
          exact ⟨⟨0, decl', outer', false⟩, id', name', cx, s, _, cx', s', _, rfl,
            ⟨List.suffix_refl _, [], frame', henv', List.mem_cons_self⟩,
            ⟨⟨[_, e₁, e₂, e₃], rfl⟩, [], frame, henv, List.mem_cons_self⟩, howner, hfound⟩
      · cases h
  · cases h

theorem reads_owner_again_before :
    let r := (start {} (.still 0)).feedAll declaredBefore
    ∃ f id name cx s earlier cx' s' earlier',
      ReadInCall r.events f id name cx' s' earlier' ∧
      ReadInCall earlier' f id name cx s earlier ∧ s.owner? cx id name = some 1 ∧
      1 ∈ f.closure ∧
      ∃ compilation ∈ r.compiled, ∃ ref ∈ Stmt.listReferences [] compilation.program,
        ref.mention = ⟨id, name, .read⟩ ∧
        ((ref.distance?).isSome → s'.owner? cx' id name = some 1) ∧
        (ref.distance? = none → ∃ found, s'.owner? cx' id name = some found ∧
          (found = 1 ↔ ∀ nearer ∈ cx'.env.takeWhile (· ≠ 1),
            (s'.frame nearer).contains name = false)) := by
  have hlast : lastOwners? ((start {} (.still 0)).feedAll declaredBefore).events =
      some ([1, 0], some 1, some 1) := by
    decide +kernel
  rcases readInCall_of_lastOwners? hlast with
    ⟨f, id, name, cx, s, earlier, cx', s', earlier', hclosure, hagain, hfirst, howner, -⟩
  have hmem : 1 ∈ f.closure := by
    rw [hclosure]
    decide
  exact ⟨f, id, name, cx, s, earlier, cx', s', earlier', hagain, hfirst, howner, hmem,
    (reads_owner_again {} (.still 0) declaredBefore).2.2 f id name cx s earlier cx' s' earlier' 1
      hagain
      hfirst howner (.inl hmem)⟩

/-- A declaration between two calls redirects a name from the frame of top-level code. -/
theorem not_reads_owner_again_between :
    let r := (start {} (.still 0)).feedAll declaredBetween
    ¬∀ f id name cx s earlier cx' s' earlier' owner,
      ReadInCall r.events f id name cx' s' earlier' →
      ReadInCall earlier' f id name cx s earlier → s.owner? cx id name = some owner →
      owner ∈ f.closure ∨ owner = Store.globalFrame → s'.owner? cx' id name = some owner := by
  intro r hstable
  have hlast : lastOwners? ((start {} (.still 0)).feedAll declaredBetween).events =
      some ([1, 0], some 0, some 1) := by
    decide +kernel
  rcases readInCall_of_lastOwners? hlast with
    ⟨f, id, name, cx, s, earlier, cx', s', earlier', -, hagain, hfirst, howner, hfound⟩
  have hsame := hstable f id name cx s earlier cx' s' earlier' 0 hagain hfirst howner (.inr rfl)
  rw [hfound] at hsame
  cases hsame

end RecordedSession

end MiniPascal
