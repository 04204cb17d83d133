import MiniPascal.Proofs.Machine.Bindings

/-!
# Graphs of environments

Environments share frames: any number of them can be made in one and the same environment, and each
has a new frame in front of the frames of that one.  An assignment binds its name anew in the
nearest frame that has it.  All environments that come to this frame for the name see the new value,
and whatever else can be looked up in the graph stays as it was.
-/

namespace MiniPascal

/-! ## The nearest frame -/

namespace Store

variable {s : Store} {env : Env} {name : String} {frame : FrameId}

/-- The nearest frame of an environment that has a name: it has the name, and no frame in front of
it does. -/
def Reaches (s : Store) (env : Env) (name : String) (frame : FrameId) : Prop :=
  frame ∈ env ∧ (s.frame frame).contains name = true ∧
    ∀ nearer ∈ env.takeWhile (· ≠ frame), (s.frame nearer).contains name = false

theorem reaches_iff : s.Reaches env name frame ↔ s.frameOf? env name = some frame :=
  frameOf?_eq_some_iff.symm

/-- The value of a name is the one that it has in the nearest frame that has it. -/
theorem find?_of_reaches (h : s.Reaches env name frame) :
    s.find? env name = (s.frame frame).find? name := by
  rw [find?_eq_frameOf?, reaches_iff.mp h]
  rfl

theorem find?_isSome_iff : (s.find? env name).isSome ↔ ∃ frame, s.Reaches env name frame := by
  rw [find?_eq_frameOf?]
  simp only [reaches_iff]
  cases hframe : s.frameOf? env name with
  | none => simp
  | some frame => exact iff_of_true (reaches_iff.mpr hframe).2.1 ⟨frame, rfl⟩

theorem lt_of_contains (h : (s.frame frame).contains name = true) : frame < s.frames.size := by
  refine Nat.lt_of_not_le fun hge => ?_
  rw [Store.frame, Array.getD_eq_getD_getElem?, Array.getElem?_eq_none hge] at h
  cases h

/-! ## Assigning -/

variable {value : Value}

theorem assign?_of_reaches (h : s.Reaches env name frame) :
    s.assign? env name value = some (s.bindIn frame name value) := by
  rw [assign?, reaches_iff.mp h]

theorem assign?_isSome_iff (s : Store) (env : Env) (name : String) (value : Value) :
    (s.assign? env name value).isSome ↔ (s.find? env name).isSome := by
  rw [find?_isSome_iff]
  simp only [reaches_iff]
  unfold assign?
  cases s.frameOf? env name <;> simp

/-- To bind a name anew in a frame that has it is all that changes. -/
theorem find?_rebound (h : (s.frame frame).contains name = true) (other : FrameId)
    (key : String) : ((s.bindIn frame name value).frame other).find? key =
      if other = frame ∧ key = name then some value else (s.frame other).find? key := by
  rw [find?_bindIn]
  simp only [lt_of_contains h, and_true]

theorem contains_rebound (h : (s.frame frame).contains name = true) (other : FrameId)
    (key : String) : ((s.bindIn frame name value).frame other).contains key =
      (s.frame other).contains key := by
  unfold Table.contains
  rw [find?_rebound h]
  split
  · next hsame =>
      rw [hsame.1, hsame.2]
      exact h.symm
  · rfl

theorem reaches_rebound (h : (s.frame frame).contains name = true) {other : FrameId}
    {key : String} : (s.bindIn frame name value).Reaches env key other ↔
      s.Reaches env key other := by
  unfold Reaches
  simp only [contains_rebound h]

/-- What environments look up behind an assignment: the value where they come to the frame for the
name, and otherwise what they looked up in front of it. -/
theorem lookup_rebound (h : s.Reaches env name frame) (other : Env) :
    (s.Reaches other name frame → (s.bindIn frame name value).find? other name = some value) ∧
      ∀ key, ¬(key = name ∧ s.Reaches other name frame) →
        (s.bindIn frame name value).find? other key = s.find? other key := by
  have hfound := h.2.1
  refine ⟨fun hother => ?_, fun key hkey => ?_⟩
  · rw [find?_of_reaches ((reaches_rebound hfound).mpr hother), find?_rebound hfound,
      if_pos ⟨rfl, rfl⟩]
  · by_cases hsome : ∃ owner, s.Reaches other key owner
    · rcases hsome with ⟨owner, howner⟩
      rw [find?_of_reaches ((reaches_rebound hfound).mpr howner), find?_of_reaches howner,
        find?_rebound hfound, if_neg]
      rintro ⟨rfl, rfl⟩
      exact hkey ⟨rfl, howner⟩
    · have hafter : ¬∃ owner, (s.bindIn frame name value).Reaches other key owner := by
        simpa only [reaches_rebound hfound] using hsome
      rw [← find?_isSome_iff, Option.not_isSome_iff_eq_none] at hsome hafter
      rw [hsome, hafter]

end Store

/-! ## Steps -/

/-- Environments over one store, in the order in which they were made. -/
structure EnvGraph where
  store : Store
  envs : List Env

namespace EnvGraph

/-- What is done to an environment. -/
inductive Write where
  /-- Declares a name. -/
  | define (name : Token) (value : Value)
  /-- Binds a name in the innermost frame, whatever it was bound to. -/
  | bind (name : String) (value : Value)
  | assign (name : Token) (value : Value)
  /-- Binds a name in the frame that lies so many frames outward. -/
  | assignAt (distance : Nat) (name : Token) (value : Value)

/-- A step on a graph; environments are given by their numbers. -/
inductive Step where
  | new
  | child (env : Nat)
  | write (env : Nat) (change : Write)

/-- Goes on with a store, or fails at a name that was not found. -/
def orUndefined (name : Token) : Option Store → Eval Unit
  | some s => set s
  | none => Eval.failAt name (.undefinedVariable name.lexeme)

theorem stateAfter_orUndefined (name : Token) (result : Option Store) (s : Store) :
    stateAfter (orUndefined name result) s = result.getD s := by
  cases result <;> rfl

theorem orUndefined_error {name : Token} {result : Option Store} {s s' : Store} {e : Failure}
    (h : orUndefined name result s = .error e s') : s' = s := by
  cases result with
  | none =>
      cases h
      rfl
  | some after => cases h

namespace Write

def run (env : Env) : Write → Eval Unit
  | define name value => Eval.define env name value
  | bind name value => modify (·.bindHere env name value)
  | assign name value => do orUndefined name ((← get).assign? env name.lexeme value)
  | assignAt distance name value => do
      orUndefined name ((← get).assignAt? env distance name.lexeme value)

end Write

/-- The environment of a number; a number that was not given out stands for no frame at all. -/
def env (g : EnvGraph) (number : Nat) : Env :=
  g.envs.getD number []

def extend (g : EnvGraph) (outer : Env) : EnvGraph where
  store := (g.store.newFrame ∅).2
  envs := g.envs ++ [(g.store.newFrame ∅).1 :: outer]

/-- Takes a step, and goes on with what a failing one leaves behind. -/
def step (g : EnvGraph) : Step → EnvGraph
  | .new => g.extend []
  | .child number => g.extend (g.env number)
  | .write number change => { g with store := stateAfter (change.run (g.env number)) g.store }

def run (g : EnvGraph) (steps : List Step) : EnvGraph :=
  steps.foldl step g

/-! ## Environments and their frames -/

/-- Each environment has a frame of its own, the frames numbered as the environments are, from
`first` on; it stands in front of the frames of an earlier environment, or of none. -/
structure Linked (first : FrameId) (g : EnvGraph) : Prop where
  size : g.store.frames.size = first + g.envs.length
  shape : ∀ number env, g.envs[number]? = some env →
    ∃ outer, env = (first + number) :: outer ∧
      (outer = [] ∨ ∃ earlier < number, g.envs[earlier]? = some outer)

variable {g : EnvGraph} {first : FrameId}

theorem Linked.extend (h : g.Linked first) {outer : Env}
    (houter : outer = [] ∨ ∃ number < g.envs.length, g.envs[number]? = some outer) :
    (g.extend outer).Linked first := by
  have hold {number : Nat} {env : Env} (hnumber : g.envs[number]? = some env) :
      (g.extend outer).envs[number]? = some env :=
    (List.getElem?_append_left (List.getElem?_eq_some_iff.mp hnumber).1).trans hnumber
  have hearlier {rest : Env} {number : Nat}
      (h : rest = [] ∨ ∃ earlier < number, g.envs[earlier]? = some rest) :
      rest = [] ∨ ∃ earlier < number, (g.extend outer).envs[earlier]? = some rest := by
    rcases h with hnone | ⟨earlier, hless, hfound⟩
    · exact .inl hnone
    · exact .inr ⟨earlier, hless, hold hfound⟩
  constructor
  · simp [EnvGraph.extend, Store.newFrame, h.size, Nat.add_assoc]
  · intro number env hnumber
    rcases Nat.lt_trichotomy number g.envs.length with hless | rfl | hmore
    · rw [EnvGraph.extend, List.getElem?_append_left hless] at hnumber
      rcases h.shape number env hnumber with ⟨rest, henv, hrest⟩
      exact ⟨rest, henv, hearlier hrest⟩
    · simp only [EnvGraph.extend, List.getElem?_concat_length, Option.some_inj] at hnumber
      refine ⟨outer, ?_, hearlier houter⟩
      rw [← hnumber, ← h.size]
      rfl
    · rw [List.getElem?_eq_none] at hnumber
      · cases hnumber
      · simpa [EnvGraph.extend] using Nat.succ_le_of_lt hmore

theorem Write.frames_size (change : Write) (env : Env) (s : Store) :
    (stateAfter (change.run env) s).frames.size = s.frames.size := by
  have hbind (frame : FrameId) (name : String) (value : Value) :
      (s.bindIn frame name value).frames.size = s.frames.size :=
    Array.size_modify ..
  have hbindHere (name : String) (value : Value) :
      (s.bindHere env name value).frames.size = s.frames.size := by
    cases env with
    | nil => rfl
    | cons frame outer => exact hbind frame name value
  cases change with
  | define name value =>
      change (stateAfter (Eval.define env name value) s).frames.size = _
      unfold stateAfter
      rw [Eval.define_run]
      cases s.definition env name.lexeme value with
      | fresh => exact hbindHere _ _
      | overload existing added => rfl
      | refused => rfl
  | bind name value => exact hbindHere name value
  | assign name value =>
      change (stateAfter (orUndefined name (s.assign? env name.lexeme value)) s).frames.size = _
      rw [stateAfter_orUndefined, Store.assign?]
      cases s.frameOf? env name.lexeme with
      | none => rfl
      | some frame => exact hbind frame name.lexeme value
  | assignAt distance name value =>
      change (stateAfter (orUndefined name
        (s.assignAt? env distance name.lexeme value)) s).frames.size = _
      rw [stateAfter_orUndefined, Store.assignAt?]
      cases Store.frameAt? env distance with
      | none => rfl
      | some frame => exact hbind frame name.lexeme value

theorem Linked.step (h : g.Linked first) (step : Step) : (g.step step).Linked first := by
  cases step with
  | new => exact h.extend (.inl rfl)
  | child number =>
      refine h.extend ?_
      unfold EnvGraph.env
      cases hnumber : g.envs[number]? with
      | none => exact .inl (by rw [List.getD_eq_getElem?_getD, hnumber]; rfl)
      | some outer =>
          refine .inr ⟨number, (List.getElem?_eq_some_iff.mp hnumber).1, ?_⟩
          rw [List.getD_eq_getElem?_getD, hnumber]
          rfl
  | write number change =>
      exact ⟨(change.frames_size (g.env number) g.store).trans h.size, h.shape⟩

theorem Linked.run (h : g.Linked first) (steps : List Step) : (g.run steps).Linked first := by
  induction steps generalizing g with
  | nil => exact h
  | cons step rest ih => exact ih (h.step step)

/-! ## Failing -/

theorem Write.store_of_error {change : Write} {env : Env} {s s' : Store} {e : Failure}
    (h : change.run env s = .error e s') : s' = s := by
  cases change with
  | define name value =>
      change Eval.define env name value s = .error e s' at h
      rw [Eval.define_run] at h
      split at h
      · cases h
      · cases h
      · cases h
        rfl
  | bind name value => cases h
  | assign name value => exact orUndefined_error h
  | assignAt distance name value => exact orUndefined_error h

/-- No frame lies farther outward than an environment is deep. -/
theorem Write.assignAt_too_far {env : Env} {distance : Nat} (h : env.length ≤ distance)
    (name : Token) (value : Value) (s : Store) :
    (assignAt distance name value).run env s =
      .error (.error ⟨name, .undefinedVariable name.lexeme, none⟩) s := by
  change orUndefined name (s.assignAt? env distance name.lexeme value) s = _
  rw [Store.assignAt?, Store.frameAt?, List.drop_eq_nil_of_le h]
  rfl

/-! ## Assigning -/

/-- What is the same and what is not behind the assignment of a name in a frame. -/
structure Rebinds (g : EnvGraph) (frame : FrameId) (name : String) (value : Value) (s : Store) :
    Prop where
  /-- One binding of one frame changes. -/
  frames : ∀ other key, (s.frame other).find? key =
    if other = frame ∧ key = name then some value else (g.store.frame other).find? key
  /-- The environments that come to the frame for the name see the new value. -/
  seen : ∀ reader, g.store.Reaches (g.env reader) name frame →
    s.find? (g.env reader) name = some value
  /-- All other lookups are as they were. -/
  others : ∀ reader key, ¬(key = name ∧ g.store.Reaches (g.env reader) name frame) →
    s.find? (g.env reader) key = g.store.find? (g.env reader) key

variable {number : Nat} {name : Token} {value : Value} {s : Store}

theorem assign_ok_iff : (∃ s, (Write.assign name value).run (g.env number) g.store = .ok () s) ↔
    (g.store.find? (g.env number) name.lexeme).isSome := by
  rw [← Store.assign?_isSome_iff g.store (g.env number) name.lexeme value]
  change (∃ s, orUndefined name _ g.store = _) ↔ _
  cases g.store.assign? (g.env number) name.lexeme value with
  | none =>
      constructor
      · rintro ⟨s, h⟩
        cases h
      · intro h
        cases h
  | some after => exact iff_of_true ⟨after, rfl⟩ rfl

theorem rebinds_of_assign
    (h : (Write.assign name value).run (g.env number) g.store = .ok () s) :
    ∃ frame, g.store.Reaches (g.env number) name.lexeme frame ∧
      g.Rebinds frame name.lexeme value s := by
  rcases Store.find?_isSome_iff.mp (assign_ok_iff.mp ⟨s, h⟩) with ⟨frame, hframe⟩
  change orUndefined name _ g.store = _ at h
  rw [Store.assign?_of_reaches hframe] at h
  cases h
  exact ⟨frame, hframe, Store.find?_rebound hframe.2.1,
    fun reader => (Store.lookup_rebound hframe (g.env reader)).1,
    fun reader => (Store.lookup_rebound hframe (g.env reader)).2⟩

/-- In a graph of environments a name can be assigned through an environment just if it can be
looked up there.  The assignment binds the name anew in the nearest frame that has it, for all
environments that come to this frame for the name, and is seen nowhere else; and what fails, for
one an assignment at a distance at which there is no frame, changes nothing. -/
theorem assignment_rebinds_nearest (start : Store) (steps : List Step) :
    let g := run ⟨start, []⟩ steps
    g.Linked start.frames.size ∧
      (∀ number name value,
        ((∃ s, (Write.assign name value).run (g.env number) g.store = .ok () s) ↔
          (g.store.find? (g.env number) name.lexeme).isSome) ∧
        ∀ s, (Write.assign name value).run (g.env number) g.store = .ok () s →
          ∃ frame, g.store.Reaches (g.env number) name.lexeme frame ∧
            g.Rebinds frame name.lexeme value s) ∧
      (∀ number (change : Write) e s,
        change.run (g.env number) g.store = .error e s → s = g.store) ∧
      ∀ number distance name value, (g.env number).length ≤ distance →
        (Write.assignAt distance name value).run (g.env number) g.store =
          .error (.error ⟨name, .undefinedVariable name.lexeme, none⟩) g.store := by
  intro g
  have hempty : EnvGraph.Linked start.frames.size ⟨start, []⟩ :=
    ⟨rfl, fun number env h => by cases h⟩
  refine ⟨hempty.run steps, fun number name value => ⟨assign_ok_iff, fun s => rebinds_of_assign⟩,
    fun number change e s => change.store_of_error, ?_⟩
  exact fun number distance name value hfar => Write.assignAt_too_far hfar name value g.store

def nameX : Token :=
  ⟨.identifier, "X", ⟨1, 1⟩, "main.pas"⟩

/-- Two environments in one that has an `X`, the first of them with an `X` of its own, and one more
in the first. -/
def shadowing : List Step :=
  [.new, .child 0, .child 0, .child 1, .write 0 (.define nameX (.integer 0)),
    .write 1 (.define nameX (.integer 1))]

/-- What is assigned through the innermost environment is seen by the one around it that has the
name, and not by the others; to declare the name there again changes nothing. -/
theorem assignment_rebinds_nearest_shadowing :
    let g := run ⟨.empty, []⟩ shadowing
    ∃ s, (Write.assign nameX (.integer 2)).run (g.env 3) g.store = .ok () s ∧
      (∃ frame, g.store.Reaches (g.env 3) "X" frame ∧ g.Rebinds frame "X" (.integer 2) s) ∧
      (List.range 4).map (fun number => s.find? (g.env number) "X") =
        [some (.integer 0), some (.integer 2), some (.integer 0), some (.integer 2)] ∧
      stateAfter ((Write.define nameX .nil).run (g.env 1)) g.store = g.store := by
  have hall := assignment_rebinds_nearest .empty shadowing
  refine ⟨_, rfl, (hall.2.1 3 nameX (.integer 2)).2 _ rfl, by rfl, ?_⟩
  exact hall.2.2.1 1 (.define nameX .nil) _ _ rfl

end EnvGraph

/-! ## Assignments of the machine -/

/-- A variable is assigned where its environment says: at the distance of its name, or else in the
nearest frame that has it. -/
theorem Eval.assign_variable {cx : Context} {id : NodeId} {name : Token} {value : Value}
    {s s' : Store}
    (h : (match cx.locals[id]? with
      | some distance => s.assignAt? cx.env distance name.lexeme value
      | none => s.assign? cx.env name.lexeme value) = some s') :
    Eval.assign cx id name value s = .ok value s' := by
  unfold Eval.assign Eval.targetFrame?
  cases hdistance : cx.locals[id]? with
  | some distance =>
      rw [hdistance] at h
      unfold Store.assignAt? at h
      cases hframe : Store.frameAt? cx.env distance with
      | none => simp [hframe] at h
      | some frame =>
          simp only [hframe, Option.some_inj] at h
          subst h
          simp only [hframe]
          rfl
  | none =>
      rw [hdistance] at h
      unfold Store.assign? at h
      cases hframe : s.frameOf? cx.env name.lexeme with
      | none => simp [hframe] at h
      | some frame =>
          simp only [hframe, Option.some_inj] at h
          subst h
          have hget : (do return (← get).frameOf? cx.env name.lexeme : Eval (Option FrameId)) s =
              .ok (some frame) s := by
            change EStateM.Result.ok (s.frameOf? cx.env name.lexeme) s = _
            rw [hframe]
          dsimp only
          rw [bind_of_ok hget]
          rfl

end MiniPascal
