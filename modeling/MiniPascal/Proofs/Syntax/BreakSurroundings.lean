import MiniPascal.Syntax.Stmt

/-!
# What stands around a `break`

Every `break` of a program has loops and bodies of functions around it.  It belongs to the innermost
loop, but only as long as no body of a function comes between the two.  Statements are looped if
every `break` in them, however deep, has a loop of theirs around it; they are confined if no `break`
gets out of them when they are run.
-/

namespace MiniPascal

/-- What may stand around a `break`: a loop, or the body of a function or method. -/
inductive Surrounding where
  | loop
  | body
deriving DecidableEq, Repr

namespace Stmt

mutual

/-- For every `break` in a statement the loops and bodies around it, innermost first, where
`around` stand around the statement itself. -/
def breaks (around : List Surrounding) : Stmt → List (List Surrounding)
  | .block body => listBreaks around body
  | .classDecl ⟨_, _, _, _, methods⟩ => methodBreaks around methods
  | .function ⟨_, _, _, _, body⟩ => listBreaks (.body :: around) body
  | .ifThen _ thenBranch none => breaks around thenBranch
  | .ifThen _ thenBranch (some elseBranch) =>
      breaks around thenBranch ++ breaks around elseBranch
  | .while _ body => breaks (.loop :: around) body
  | .try _ body handlers otherwise =>
      listBreaks around body ++ handlerBreaks around handlers ++ listBreaks around otherwise
  | .break _ => [around]
  | .enumDecl _ | .print _ _ | .exit _ _ | .raise _ _ | .var _ | .expression _ | .uses _ _ => []

/-- For every `break` in a list of statements the loops and bodies around it. -/
def listBreaks (around : List Surrounding) : List Stmt → List (List Surrounding)
  | [] => []
  | s :: rest => breaks around s ++ listBreaks around rest

def methodBreaks (around : List Surrounding) : List Function → List (List Surrounding)
  | [] => []
  | ⟨_, _, _, _, body⟩ :: rest => listBreaks (.body :: around) body ++ methodBreaks around rest

def handlerBreaks (around : List Surrounding) : List (Handler Stmt) → List (List Surrounding)
  | [] => []
  | ⟨_, _, body⟩ :: rest => breaks around body ++ handlerBreaks around rest

end

mutual

/-- The functions and methods that a statement declares, however deep, each with the loops and
bodies around its declaration. -/
def functions (around : List Surrounding) : Stmt → List (List Surrounding × Function)
  | .block body => listFunctions around body
  | .classDecl ⟨_, _, _, _, methods⟩ => methodFunctions around methods
  | .function ⟨kind, name, params, returnType, body⟩ =>
      (around, ⟨kind, name, params, returnType, body⟩) :: listFunctions (.body :: around) body
  | .ifThen _ thenBranch none => functions around thenBranch
  | .ifThen _ thenBranch (some elseBranch) =>
      functions around thenBranch ++ functions around elseBranch
  | .while _ body => functions (.loop :: around) body
  | .try _ body handlers otherwise =>
      listFunctions around body ++ handlerFunctions around handlers ++
        listFunctions around otherwise
  | .break _ | .enumDecl _ | .print _ _ | .exit _ _ | .raise _ _ | .var _ | .expression _
  | .uses _ _ => []

def listFunctions (around : List Surrounding) : List Stmt → List (List Surrounding × Function)
  | [] => []
  | s :: rest => functions around s ++ listFunctions around rest

def methodFunctions (around : List Surrounding) :
    List Function → List (List Surrounding × Function)
  | [] => []
  | ⟨kind, name, params, returnType, body⟩ :: rest =>
      (around, ⟨kind, name, params, returnType, body⟩) ::
        listFunctions (.body :: around) body ++ methodFunctions around rest

def handlerFunctions (around : List Surrounding) :
    List (Handler Stmt) → List (List Surrounding × Function)
  | [] => []
  | ⟨_, _, body⟩ :: rest => functions around body ++ handlerFunctions around rest

end

theorem mem_listBreaks {around b : List Surrounding} {list : List Stmt} :
    b ∈ listBreaks around list ↔ ∃ s ∈ list, b ∈ s.breaks around := by
  induction list with
  | nil => simp [listBreaks]
  | cons s rest ih =>
      rw [listBreaks, List.mem_append, ih]
      simp

theorem mem_handlerBreaks {around b : List Surrounding} {handlers : List (Handler Stmt)} :
    b ∈ handlerBreaks around handlers ↔ ∃ handler ∈ handlers, b ∈ handler.body.breaks around := by
  induction handlers with
  | nil => simp [handlerBreaks]
  | cons handler rest ih =>
      rw [handlerBreaks, List.mem_append, ih]
      simp

theorem mem_methodBreaks {around b : List Surrounding} {methods : List Function} :
    b ∈ methodBreaks around methods ↔
      ∃ method ∈ methods, b ∈ listBreaks (.body :: around) method.body := by
  induction methods with
  | nil => simp [methodBreaks]
  | cons method rest ih =>
      rw [methodBreaks, List.mem_append, ih]
      simp

/-! ## Inner and outer surroundings -/

mutual

/-- What is around a statement is around all of its `break`s, outside of what is in it. -/
theorem breaks_eq_map (around : List Surrounding) :
    ∀ s : Stmt, s.breaks around = (s.breaks []).map (· ++ around)
  | .block body => listBreaks_eq_map around body
  | .classDecl ⟨_, _, _, _, methods⟩ => methodBreaks_eq_map around methods
  | .function ⟨_, _, _, _, body⟩ => by
      rw [breaks, breaks, listBreaks_eq_map (.body :: around), listBreaks_eq_map [.body]]
      simp
  | .ifThen _ thenBranch none => breaks_eq_map around thenBranch
  | .ifThen _ thenBranch (some elseBranch) => by
      rw [breaks, breaks, breaks_eq_map around thenBranch, breaks_eq_map around elseBranch,
        List.map_append]
  | .while _ body => by
      rw [breaks, breaks, breaks_eq_map (.loop :: around) body, breaks_eq_map [.loop] body]
      simp
  | .try _ body handlers otherwise => by
      rw [breaks, breaks, listBreaks_eq_map around body, handlerBreaks_eq_map around handlers,
        listBreaks_eq_map around otherwise, List.map_append, List.map_append]
  | .break _ | .enumDecl _ | .print _ _ | .exit _ _ | .raise _ _ | .var _ | .expression _
  | .uses _ _ => rfl

theorem listBreaks_eq_map (around : List Surrounding) :
    ∀ list : List Stmt, listBreaks around list = (listBreaks [] list).map (· ++ around)
  | [] => rfl
  | s :: rest => by
      rw [listBreaks, listBreaks, breaks_eq_map around s, listBreaks_eq_map around rest,
        List.map_append]

theorem methodBreaks_eq_map (around : List Surrounding) :
    ∀ methods : List Function,
      methodBreaks around methods = (methodBreaks [] methods).map (· ++ around)
  | [] => rfl
  | ⟨_, _, _, _, body⟩ :: rest => by
      rw [methodBreaks, methodBreaks, listBreaks_eq_map (.body :: around),
        listBreaks_eq_map [.body], methodBreaks_eq_map around rest]
      simp

theorem handlerBreaks_eq_map (around : List Surrounding) :
    ∀ handlers : List (Handler Stmt),
      handlerBreaks around handlers = (handlerBreaks [] handlers).map (· ++ around)
  | [] => rfl
  | ⟨_, _, body⟩ :: rest => by
      rw [handlerBreaks, handlerBreaks, breaks_eq_map around body,
        handlerBreaks_eq_map around rest, List.map_append]

end

mutual

/-- The `break`s in the body of a declared function are among those of the statement. -/
theorem mem_breaks_of_function (around : List Surrounding) :
    ∀ (s : Stmt) {site : List Surrounding × Function}, site ∈ s.functions around →
      ∀ b ∈ listBreaks (.body :: site.1) site.2.body, b ∈ s.breaks around
  | .block body, _, h, b, hb => mem_listBreaks_of_function around body h b hb
  | .classDecl ⟨_, _, _, _, methods⟩, _, h, b, hb =>
      mem_methodBreaks_of_function around methods h b hb
  | .function ⟨_, _, _, _, body⟩, _, h, b, hb => by
      rcases List.mem_cons.mp h with rfl | h
      · exact hb
      · exact mem_listBreaks_of_function (.body :: around) body h b hb
  | .ifThen _ thenBranch none, _, h, b, hb => mem_breaks_of_function around thenBranch h b hb
  | .ifThen _ thenBranch (some elseBranch), _, h, b, hb => by
      rcases List.mem_append.mp h with h | h
      · exact List.mem_append_left _ (mem_breaks_of_function around thenBranch h b hb)
      · exact List.mem_append_right _ (mem_breaks_of_function around elseBranch h b hb)
  | .while _ body, _, h, b, hb => mem_breaks_of_function (.loop :: around) body h b hb
  | .try _ body handlers otherwise, _, h, b, hb => by
      rcases List.mem_append.mp h with h | h
      · refine List.mem_append_left _ ?_
        rcases List.mem_append.mp h with h | h
        · exact List.mem_append_left _ (mem_listBreaks_of_function around body h b hb)
        · exact List.mem_append_right _ (mem_handlerBreaks_of_function around handlers h b hb)
      · exact List.mem_append_right _ (mem_listBreaks_of_function around otherwise h b hb)
  | .break _, _, h, _, _ | .enumDecl _, _, h, _, _ | .print _ _, _, h, _, _
  | .exit _ _, _, h, _, _ | .raise _ _, _, h, _, _ | .var _, _, h, _, _
  | .expression _, _, h, _, _ | .uses _ _, _, h, _, _ => nomatch h

theorem mem_listBreaks_of_function (around : List Surrounding) :
    ∀ (list : List Stmt) {site : List Surrounding × Function}, site ∈ listFunctions around list →
      ∀ b ∈ listBreaks (.body :: site.1) site.2.body, b ∈ listBreaks around list
  | [], _, h, _, _ => nomatch h
  | s :: rest, _, h, b, hb => by
      rcases List.mem_append.mp h with h | h
      · exact List.mem_append_left _ (mem_breaks_of_function around s h b hb)
      · exact List.mem_append_right _ (mem_listBreaks_of_function around rest h b hb)

theorem mem_methodBreaks_of_function (around : List Surrounding) :
    ∀ (methods : List Function) {site : List Surrounding × Function},
      site ∈ methodFunctions around methods →
      ∀ b ∈ listBreaks (.body :: site.1) site.2.body, b ∈ methodBreaks around methods
  | [], _, h, _, _ => nomatch h
  | ⟨_, _, _, _, body⟩ :: rest, _, h, b, hb => by
      rcases List.mem_append.mp h with h | h
      · refine List.mem_append_left _ ?_
        rcases List.mem_cons.mp h with rfl | h
        · exact hb
        · exact mem_listBreaks_of_function (.body :: around) body h b hb
      · exact List.mem_append_right _ (mem_methodBreaks_of_function around rest h b hb)

theorem mem_handlerBreaks_of_function (around : List Surrounding) :
    ∀ (handlers : List (Handler Stmt)) {site : List Surrounding × Function},
      site ∈ handlerFunctions around handlers →
      ∀ b ∈ listBreaks (.body :: site.1) site.2.body, b ∈ handlerBreaks around handlers
  | [], _, h, _, _ => nomatch h
  | ⟨_, _, body⟩ :: rest, _, h, b, hb => by
      rcases List.mem_append.mp h with h | h
      · exact List.mem_append_left _ (mem_breaks_of_function around body h b hb)
      · exact List.mem_append_right _ (mem_handlerBreaks_of_function around rest h b hb)

end

/-! ## Looped statements -/

/-- Every `break` in a statement has a loop of the statement around it. -/
def Looped (s : Stmt) : Prop :=
  ∀ b ∈ s.breaks [], .loop ∈ b

theorem looped_of_breaks_eq_nil {s : Stmt} (h : s.breaks [] = []) : s.Looped := by
  intro b hb
  rw [h] at hb
  cases hb

theorem looped_list {list : List Stmt} (h : ∀ s ∈ list, s.Looped) :
    ∀ b ∈ listBreaks [] list, .loop ∈ b := by
  intro b hb
  rcases mem_listBreaks.mp hb with ⟨s, hs, hb⟩
  exact h s hs b hb

theorem looped_block {body : List Stmt} (h : ∀ s ∈ body, s.Looped) : (block body).Looped :=
  looped_list h

/-- A loop around a list of statements may also lie outside of a body. -/
theorem looped_body {body : List Stmt} (h : ∀ s ∈ body, s.Looped) :
    ∀ b ∈ listBreaks [.body] body, .loop ∈ b := by
  intro b hb
  rw [listBreaks_eq_map] at hb
  rcases List.mem_map.mp hb with ⟨inner, hinner, rfl⟩
  exact List.mem_append_left _ (looped_list h inner hinner)

theorem looped_function {decl : Function} (h : ∀ s ∈ decl.body, s.Looped) :
    (function decl).Looped :=
  looped_body h

theorem looped_classDecl {decl : ClassDecl Stmt}
    (h : ∀ method ∈ decl.methods, ∀ s ∈ method.body, s.Looped) : (classDecl decl).Looped := by
  intro b hb
  rcases mem_methodBreaks.mp hb with ⟨method, hmethod, hb⟩
  exact looped_body (h method hmethod) b hb

theorem looped_ifThen {condition : Expr} {thenBranch : Stmt} {elseBranch : Option Stmt}
    (hthen : thenBranch.Looped) (helse : ∀ s ∈ elseBranch, s.Looped) :
    (ifThen condition thenBranch elseBranch).Looped := by
  intro b hb
  cases elseBranch with
  | none => exact hthen b hb
  | some branch =>
      rcases List.mem_append.mp hb with hb | hb
      · exact hthen b hb
      · exact helse branch rfl b hb

/-- A loop is around all that is in it. -/
theorem looped_while {condition : Expr} {body : Stmt} :
    Looped («while» condition body) := by
  intro b hb
  change b ∈ body.breaks [.loop] at hb
  rw [breaks_eq_map] at hb
  rcases List.mem_map.mp hb with ⟨inner, -, rfl⟩
  exact List.mem_append_right _ List.mem_cons_self

theorem looped_try {keyword : Token} {body otherwise : List Stmt}
    {handlers : List (Handler Stmt)} (hbody : ∀ s ∈ body, s.Looped)
    (hhandlers : ∀ handler ∈ handlers, handler.body.Looped)
    (hotherwise : ∀ s ∈ otherwise, s.Looped) :
    Looped («try» keyword body handlers otherwise) := by
  intro b hb
  rcases List.mem_append.mp hb with hb | hb
  · rcases List.mem_append.mp hb with hb | hb
    · exact looped_list hbody b hb
    · rcases mem_handlerBreaks.mp hb with ⟨handler, hhandler, hb⟩
      exact hhandlers handler hhandler b hb
  · exact looped_list hotherwise b hb

/-- A counting loop is a loop behind its first statement. -/
theorem looped_lowerFor {initial : Option Stmt} {condition increment : Option Expr}
    {body : Stmt} (h : ∀ s ∈ initial, s.Looped) :
    (lowerFor initial condition increment body).Looped := by
  cases initial with
  | none => exact looped_while
  | some first =>
      refine looped_block (List.forall_mem_cons.mpr ⟨h first rfl, ?_⟩)
      exact List.forall_mem_singleton.mpr looped_while

theorem looped_lowerCase {arms : List (Expr × Stmt)} {otherwise : Option Stmt}
    (harms : ∀ arm ∈ arms, arm.2.Looped) (hotherwise : ∀ s ∈ otherwise, s.Looped) :
    ∀ s ∈ lowerCase arms otherwise, s.Looped := by
  induction arms with
  | nil => exact hotherwise
  | cons arm rest ih =>
      rcases List.forall_mem_cons.mp harms with ⟨harm, hrest⟩
      intro s hs
      cases hs
      exact looped_ifThen harm (ih hrest)

/-! ## Owned by a loop -/

/-- The loop of a `break` is in the same body as the `break`. -/
def OwnLoop (around : List Surrounding) : Prop :=
  around.head? = some .loop

/-- Either the loop of a `break` is in its own body, or that body is declared in a loop. -/
theorem ownLoop_or_outer {around : List Surrounding} (h : .loop ∈ around) :
    OwnLoop around ∨ ∃ outer, around = .body :: outer ∧ .loop ∈ outer := by
  cases around with
  | nil => cases h
  | cons innermost outer =>
      cases innermost with
      | loop => exact .inl rfl
      | body =>
          cases h with
          | tail _ houter => exact .inr ⟨outer, rfl, houter⟩

/-- A function that is declared outside of loops has a looped body. -/
theorem looped_of_function {program : List Stmt} (h : ∀ s ∈ program, s.Looped)
    {site : List Surrounding × Function} (hsite : site ∈ listFunctions [] program)
    (houtside : .loop ∉ site.1) : ∀ b ∈ listBreaks [] site.2.body, .loop ∈ b := by
  intro b hb
  have hmem : b ++ .body :: site.1 ∈ listBreaks [] program := by
    refine mem_listBreaks_of_function [] program hsite _ ?_
    rw [listBreaks_eq_map]
    exact List.mem_map_of_mem hb
  have hloop := looped_list h _ hmem
  rw [List.mem_append, List.mem_cons] at hloop
  simpa [houtside] using hloop

/-! ## Confined statements -/

mutual

/-- No `break` gets out of a statement. -/
def Confined : Stmt → Prop
  | .block body => ConfinedList body
  | .ifThen _ thenBranch none => Confined thenBranch
  | .ifThen _ thenBranch (some elseBranch) => Confined thenBranch ∧ Confined elseBranch
  | .try _ body handlers otherwise =>
      ConfinedList body ∧ ConfinedHandlers handlers ∧ ConfinedList otherwise
  | .break _ => False
  | .classDecl _ | .enumDecl _ | .function _ | .while _ _ | .print _ _ | .exit _ _ | .raise _ _
  | .var _ | .expression _ | .uses _ _ => True

def ConfinedList : List Stmt → Prop
  | [] => True
  | s :: rest => Confined s ∧ ConfinedList rest

def ConfinedHandlers : List (Handler Stmt) → Prop
  | [] => True
  | ⟨_, _, body⟩ :: rest => Confined body ∧ ConfinedHandlers rest

end

theorem confinedList_iff {list : List Stmt} : ConfinedList list ↔ ∀ s ∈ list, s.Confined := by
  induction list with
  | nil => simp [ConfinedList]
  | cons s rest ih => rw [ConfinedList, ih, List.forall_mem_cons]

mutual

theorem Looped.confined : ∀ s : Stmt, s.Looped → s.Confined
  | .block body, h => confinedList_of_looped body h
  | .ifThen _ thenBranch none, h => Looped.confined thenBranch h
  | .ifThen _ thenBranch (some elseBranch), h =>
      ⟨Looped.confined thenBranch fun b hb => h b (List.mem_append_left _ hb),
        Looped.confined elseBranch fun b hb => h b (List.mem_append_right _ hb)⟩
  | .try _ body handlers otherwise, h =>
      ⟨confinedList_of_looped body fun b hb =>
          h b (List.mem_append_left _ (List.mem_append_left _ hb)),
        confinedHandlers_of_looped handlers fun b hb =>
          h b (List.mem_append_left _ (List.mem_append_right _ hb)),
        confinedList_of_looped otherwise fun b hb => h b (List.mem_append_right _ hb)⟩
  | .break _, h => nomatch h [] List.mem_cons_self
  | .classDecl _, _ | .enumDecl _, _ | .function _, _ | .while _ _, _ | .print _ _, _
  | .exit _ _, _ | .raise _ _, _ | .var _, _ | .expression _, _ | .uses _ _, _ => trivial

theorem confinedList_of_looped :
    ∀ list : List Stmt, (∀ b ∈ listBreaks [] list, .loop ∈ b) → ConfinedList list
  | [], _ => trivial
  | s :: rest, h =>
      ⟨Looped.confined s fun b hb => h b (List.mem_append_left _ hb),
        confinedList_of_looped rest fun b hb => h b (List.mem_append_right _ hb)⟩

theorem confinedHandlers_of_looped :
    ∀ handlers : List (Handler Stmt), (∀ b ∈ handlerBreaks [] handlers, .loop ∈ b) →
      ConfinedHandlers handlers
  | [], _ => trivial
  | ⟨_, _, body⟩ :: rest, h =>
      ⟨Looped.confined body fun b hb => h b (List.mem_append_left _ hb),
        confinedHandlers_of_looped rest fun b hb => h b (List.mem_append_right _ hb)⟩

end

end Stmt

end MiniPascal
