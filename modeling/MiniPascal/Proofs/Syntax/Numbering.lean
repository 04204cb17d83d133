import Mathlib.Tactic.Tauto
import MiniPascal.Proofs.Syntax.Variables

/-!
# Numbering of references

The parser numbers the references of a program.  Some trees stand in a program more than once: the
first value of several variables declared together, and the subject of a `case`.  Their references
share numbers, but as long as no declaration reads its own name they also share distances and
depths.  Assignments share distances as well, but for those to a local variable in its own first
value.
-/

namespace MiniPascal

/-- References have numbers from `first` up to `limit`, those that share one are coherent and in the
same outer scopes, and the names that are written satisfy `N`. -/
structure Settled (N : String → Prop) (first : Nat) (refs : Place → List Reference)
    (limit : Nat) : Prop where
  le : first ≤ limit
  bounds : ∀ p, ∀ r ∈ refs p, first ≤ r.mention.id ∧ r.mention.id < limit
  coherent : ∀ p, (∀ r ∈ refs p, r.pending = false) → ∀ v ∈ refs p, ∀ w ∈ refs p, v.Coherent N w
  twins : ∀ p, ∀ v ∈ refs p, ∀ w ∈ refs p, v.Twins w
  written : ∀ p, ∀ r ∈ refs p, r.mention.use = .write → N r.mention.name

namespace Settled

variable {first middle limit : Nat} {refs others : Place → List Reference}

theorem of_nil (hle : first ≤ limit) (h : ∀ p, refs p = []) : Settled N first refs limit := by
  refine ⟨hle, ?_, ?_, ?_, ?_⟩
  · intro p r hr
    rw [h p] at hr
    cases hr
  · intro p _ v hv
    rw [h p] at hv
    cases hv
  · intro p v hv
    rw [h p] at hv
    cases hv
  · intro p r hr
    rw [h p] at hr
    cases hr

theorem congr (hrefs : Settled N first refs limit) (h : ∀ p r, r ∈ others p ↔ r ∈ refs p) :
    Settled N first others limit := by
  refine ⟨hrefs.le, ?_, ?_, ?_, ?_⟩
  · intro p r hr
    exact hrefs.bounds p r ((h p r).mp hr)
  · intro p hpending v hv w hw
    refine hrefs.coherent p ?_ v ((h p v).mp hv) w ((h p w).mp hw)
    intro r hr
    exact hpending r ((h p r).mpr hr)
  · intro p v hv w hw
    exact hrefs.twins p v ((h p v).mp hv) w ((h p w).mp hw)
  · intro p r hr
    exact hrefs.written p r ((h p r).mp hr)

theorem widen {first' limit' : Nat} (h : Settled N first refs limit) (hfirst : first' ≤ first)
    (hlimit : limit ≤ limit') : Settled N first' refs limit' := by
  have hle := h.le
  refine ⟨by omega, ?_, h.coherent, h.twins, h.written⟩
  intro p r hr
  have := h.bounds p r hr
  omega

theorem comap (h : Settled N first refs limit) (move : Place → Place) :
    Settled N first (fun p => refs (move p)) limit :=
  ⟨h.le, fun p => h.bounds (move p), fun p => h.coherent (move p), fun p => h.twins (move p),
    fun p => h.written (move p)⟩

theorem append (hrefs : Settled N first refs middle) (hothers : Settled N middle others limit) :
    Settled N first (fun p => refs p ++ others p) limit := by
  have hle := hrefs.le
  have hle' := hothers.le
  refine ⟨by omega, ?_, ?_, ?_, ?_⟩
  · intro p r hr
    rcases List.mem_append.mp hr with h | h
    · have := hrefs.bounds p r h
      omega
    · have := hothers.bounds p r h
      omega
  · intro p hpending v hv w hw
    have hfirst (r : Reference) (hr : r ∈ refs p) : r.pending = false :=
      hpending r (List.mem_append_left _ hr)
    have hsecond (r : Reference) (hr : r ∈ others p) : r.pending = false :=
      hpending r (List.mem_append_right _ hr)
    rcases List.mem_append.mp hv with h | h
    · rcases List.mem_append.mp hw with h' | h'
      · exact hrefs.coherent p hfirst v h w h'
      · intro _ hid
        have := hrefs.bounds p v h
        have := hothers.bounds p w h'
        omega
    · rcases List.mem_append.mp hw with h' | h'
      · intro _ hid
        have := hothers.bounds p v h
        have := hrefs.bounds p w h'
        omega
      · exact hothers.coherent p hsecond v h w h'
  · intro p v hv w hw
    rcases List.mem_append.mp hv with h | h
    · rcases List.mem_append.mp hw with h' | h'
      · exact hrefs.twins p v h w h'
      · intro hid
        have := hrefs.bounds p v h
        have := hothers.bounds p w h'
        omega
    · rcases List.mem_append.mp hw with h' | h'
      · intro hid
        have := hothers.bounds p v h
        have := hrefs.bounds p w h'
        omega
      · exact hothers.twins p v h w h'
  · intro p r hr
    rcases List.mem_append.mp hr with h | h
    · exact hrefs.written p r h
    · exact hothers.written p r h

end Settled

/-- Besides, assignments that share a number are at one distance, unless they assign to one of the
given variables in its own first value. -/
structure Aligned (N : String → Prop) (first : Nat) (refs : Place → List Reference)
    (vars : Place → List LocatedVariable) (limit : Nat) : Prop
    extends Settled N first refs limit where
  copies : ∀ p, ∀ v ∈ refs p, ∀ w ∈ refs p, v.mention.use = .write →
    v.mention.id = w.mention.id →
      w.distance? = v.distance? ∨ ∃ var ∈ vars p, var.AssignsOwn v.mention

namespace Aligned

variable {first middle limit : Nat} {refs others : Place → List Reference}
  {vars otherVars : Place → List LocatedVariable}

theorem of_nil (hle : first ≤ limit) (h : ∀ p, refs p = []) : Aligned N first refs vars limit := by
  refine ⟨.of_nil hle h, ?_⟩
  intro p v hv
  rw [h p] at hv
  cases hv

theorem congr (hrefs : Aligned N first refs vars limit) (h : ∀ p r, r ∈ others p ↔ r ∈ refs p)
    (hvars : ∀ p, ∀ var ∈ vars p, var ∈ otherVars p) :
    Aligned N first others otherVars limit := by
  refine ⟨hrefs.toSettled.congr h, ?_⟩
  intro p v hv w hw huse hid
  rcases hrefs.copies p v ((h p v).mp hv) w ((h p w).mp hw) huse hid with hsame | ⟨var, hvar, hown⟩
  · exact .inl hsame
  · exact .inr ⟨var, hvars p var hvar, hown⟩

theorem widen {first' limit' : Nat} (h : Aligned N first refs vars limit) (hfirst : first' ≤ first)
    (hlimit : limit ≤ limit') : Aligned N first' refs vars limit' :=
  ⟨h.toSettled.widen hfirst hlimit, h.copies⟩

theorem comap (h : Aligned N first refs vars limit) (move : Place → Place) :
    Aligned N first (fun p => refs (move p)) (fun p => vars (move p)) limit :=
  ⟨h.toSettled.comap move, fun p => h.copies (move p)⟩

theorem append (hrefs : Aligned N first refs vars middle)
    (hothers : Aligned N middle others otherVars limit) :
    Aligned N first (fun p => refs p ++ others p) (fun p => vars p ++ otherVars p) limit := by
  refine ⟨hrefs.toSettled.append hothers.toSettled, ?_⟩
  intro p v hv w hw huse hid
  rcases List.mem_append.mp hv with h | h
  · rcases List.mem_append.mp hw with h' | h'
    · refine (hrefs.copies p v h w h' huse hid).imp_right ?_
      rintro ⟨var, hvar, hown⟩
      exact ⟨var, List.mem_append_left _ hvar, hown⟩
    · have := hrefs.bounds p v h
      have := hothers.bounds p w h'
      omega
  · rcases List.mem_append.mp hw with h' | h'
    · have := hothers.bounds p v h
      have := hrefs.bounds p w h'
      omega
    · refine (hothers.copies p v h w h' huse hid).imp_right ?_
      rintro ⟨var, hvar, hown⟩
      exact ⟨var, List.mem_append_right _ hvar, hown⟩

end Aligned

/-- Mentions with numbers of their own are aligned at any place. -/
theorem Fresh.settled {first limit : Nat} {ms : List Mention} (h : Fresh N first ms limit) :
    Aligned N first (fun p => ms.map (Mention.located p)) (fun _ => []) limit := by
  refine ⟨⟨h.le, ?_, ?_, ?_, ?_⟩, ?_⟩
  · intro p r hr
    rcases List.mem_map.mp hr with ⟨m, hm, rfl⟩
    exact h.bounds m hm
  · intro p _ v hv w hw
    rcases List.mem_map.mp hv with ⟨m, hm, rfl⟩
    rcases List.mem_map.mp hw with ⟨n, hn, rfl⟩
    intro _ hid
    rw [h.apart m hm n hn hid]
    exact ⟨rfl, rfl, rfl⟩
  · intro p v hv w hw
    rcases List.mem_map.mp hv with ⟨m, hm, rfl⟩
    rcases List.mem_map.mp hw with ⟨n, hn, rfl⟩
    intro hid
    rw [h.apart m hm n hn hid]
    exact ⟨rfl, rfl⟩
  · intro p r hr
    rcases List.mem_map.mp hr with ⟨m, hm, rfl⟩
    exact h.written m hm
  · intro p v hv w hw _ hid
    rcases List.mem_map.mp hv with ⟨m, hm, rfl⟩
    rcases List.mem_map.mp hw with ⟨n, hn, rfl⟩
    rw [h.apart m hm n hn hid]
    exact .inl rfl

/-! ## Statements -/

namespace Stmt

/-- Statements as the parser makes them, with numbers from `first` up to `limit`. -/
structure Numbered (N : String → Prop) (first : Nat) (list : List Stmt) (limit : Nat) :
    Prop where
  tidy : TidyList N list
  settled : Aligned N first (fun p => listReferences p list) (fun p => listVariables p list) limit

/-- One statement that declares nothing. -/
structure NumberedOne (N : String → Prop) (first : Nat) (s : Stmt) (limit : Nat) :
    Prop where
  declared : s.declared = []
  tidy : s.Tidy N
  settled : Aligned N first (fun p => references p s) (fun p => locatedVariables p s) limit

/-- A function with its parameters. -/
structure NumberedFunction (N : String → Prop) (first : Nat) (decl : Function) (limit : Nat) :
    Prop where
  name : N decl.name.lexeme
  params : ∀ param ∈ decl.params, N param.name.lexeme
  body : Numbered N first decl.body limit

structure NumberedMethods (N : String → Prop) (first : Nat) (methods : List Function)
    (limit : Nat) : Prop where
  tidy : TidyMethods N methods
  settled : Aligned N first (fun p => methodReferences p methods)
    (fun p => methodVariables p methods) limit

structure NumberedHandlers (N : String → Prop) (first : Nat) (handlers : List (Handler Stmt))
    (limit : Nat) : Prop where
  tidy : TidyHandlers N handlers
  settled : Aligned N first (fun p => handlerReferences p handlers)
    (fun p => handlerVariables p handlers) limit

theorem listReferences_append (p : Place) (xs ys : List Stmt) :
    listReferences p (xs ++ ys) =
      listReferences p xs ++ listReferences (p.declare (declaredBy xs)) ys := by
  induction xs generalizing p with
  | nil => simp [listReferences, declaredBy]
  | cons s rest ih =>
      simp [listReferences, ih, declaredBy, Place.declare_append]

theorem TidyList.mem {list : List Stmt} {s : Stmt} (h : TidyList N list) (hs : s ∈ list) :
    s.Tidy N := by
  induction list with
  | nil => cases hs
  | cons head rest ih =>
      rcases List.mem_cons.mp hs with rfl | hs
      · exact h.1
      · exact ih h.2 hs

theorem tidyList_append {xs ys : List Stmt} (hxs : TidyList N xs) (hys : TidyList N ys) :
    TidyList N (xs ++ ys) := by
  induction xs with
  | nil => exact hys
  | cons s rest ih => exact ⟨hxs.1, ih hxs.2⟩

namespace Numbered

theorem nil {first limit : Nat} (h : first ≤ limit) : Numbered N first [] limit :=
  ⟨trivial, Aligned.of_nil h fun _ => rfl⟩

theorem append {first middle limit : Nat} {xs ys : List Stmt} (hxs : Numbered N first xs middle)
    (hys : Numbered N middle ys limit) : Numbered N first (xs ++ ys) limit := by
  refine ⟨tidyList_append hxs.tidy hys.tidy, ?_⟩
  have hsettled := hxs.settled.append
    (hys.settled.comap fun p => p.declare (declaredBy xs))
  simpa only [listReferences_append, listVariables_append] using hsettled

theorem widen {first first' limit limit' : Nat} {xs : List Stmt} (h : Numbered N first xs limit)
    (hfirst : first' ≤ first) (hlimit : limit ≤ limit') : Numbered N first' xs limit' :=
  ⟨h.tidy, h.settled.widen hfirst hlimit⟩

theorem single {first limit : Nat} {s : Stmt} (htidy : s.Tidy N)
    (hsettled : Aligned N first (fun p => references p s) (fun p => locatedVariables p s) limit) :
    Numbered N first [s] limit := by
  refine ⟨⟨htidy, trivial⟩, ?_⟩
  simpa [listReferences, listVariables] using hsettled

end Numbered

structure NumberedProgram (N : String → Prop) (first : Nat) (list : List Stmt) (limit : Nat) :
    Prop where
  tidy : TidyList N list
  settled : Aligned N first (fun _ => listReferences [] list) (fun _ => listVariables [] list) limit

theorem Numbered.program {first limit : Nat} {list : List Stmt} (h : Numbered N first list limit) :
    NumberedProgram N first list limit :=
  ⟨h.tidy, h.settled.comap fun _ => []⟩

theorem NumberedOne.list {first limit : Nat} {s : Stmt} (h : NumberedOne N first s limit) :
    Numbered N first [s] limit :=
  Numbered.single h.tidy h.settled

namespace NumberedMethods

theorem nil {first limit : Nat} (h : first ≤ limit) : NumberedMethods N first [] limit :=
  ⟨trivial, Aligned.of_nil h fun _ => rfl⟩

theorem cons {first middle limit : Nat} {decl : Function} {rest : List Function}
    (hdecl : NumberedFunction N first decl middle) (hrest : NumberedMethods N middle rest limit) :
    NumberedMethods N first (decl :: rest) limit :=
  ⟨⟨hdecl.params, hdecl.body.tidy, hrest.tidy⟩, (hdecl.body.settled.comap fun p =>
    (p.enter (.receiver decl) ["this"]).enter (.function decl) decl.paramNames).append
      hrest.settled⟩

end NumberedMethods

namespace NumberedHandlers

theorem nil {first limit : Nat} (h : first ≤ limit) : NumberedHandlers N first [] limit :=
  ⟨trivial, Aligned.of_nil h fun _ => rfl⟩

theorem cons {first middle limit : Nat} {h : Handler Stmt} {rest : List (Handler Stmt)}
    (hname : N h.name.lexeme) (hbody : NumberedOne N first h.body middle)
    (hrest : NumberedHandlers N middle rest limit) :
    NumberedHandlers N first (h :: rest) limit :=
  ⟨⟨hname, hbody.declared, hbody.tidy, hrest.tidy⟩, (hbody.settled.comap fun p =>
    p.enter (.handler h) [h.name.lexeme]).append hrest.settled⟩

end NumberedHandlers

/-! ## Forms of statements -/

section Forms

variable {first middle middle' limit : Nat}

theorem numbered_block {body : List Stmt} (h : Numbered N first body limit) :
    NumberedOne N first (.block body) limit :=
  ⟨rfl, h.tidy, h.settled.comap fun p => p.enter (.block body) []⟩

theorem numbered_function {decl : Function} (h : NumberedFunction N first decl limit) :
    Numbered N first [.function decl] limit :=
  Numbered.single ⟨h.name, h.params, h.body.tidy⟩ (h.body.settled.comap fun p =>
    (p.declare [decl.name.lexeme]).enter (.function decl) decl.paramNames)

theorem parent_settled {decl : ClassDecl Stmt} {id : NodeId} {name : Token}
    (h : decl.superclass = some ⟨id, name⟩) :
    Aligned N id (fun p => parentReferences p decl) (fun _ => []) (id + 1) := by
  refine ⟨⟨Nat.le_succ id, ?_, ?_, ?_, ?_⟩, ?_⟩
  · intro p r hr
    rw [parentReferences, h] at hr
    cases List.mem_singleton.mp hr
    exact ⟨Nat.le_refl id, Nat.lt_succ_self id⟩
  · intro p _ v hv w hw _ _
    rw [parentReferences, h] at hv hw
    rw [List.mem_singleton.mp hv, List.mem_singleton.mp hw]
    exact ⟨rfl, rfl, rfl⟩
  · intro p v hv w hw _
    rw [parentReferences, h] at hv hw
    rw [List.mem_singleton.mp hv, List.mem_singleton.mp hw]
    exact ⟨rfl, rfl⟩
  · intro p r hr huse
    rw [parentReferences, h] at hr
    rw [List.mem_singleton.mp hr] at huse
    cases huse
  · intro p v hv w hw _ _
    rw [parentReferences, h] at hv hw
    rw [List.mem_singleton.mp hv, List.mem_singleton.mp hw]
    exact .inl rfl

theorem numbered_classDecl {decl : ClassDecl Stmt} (hname : N decl.name.lexeme)
    (henums : ∀ enum ∈ decl.enums, ∀ member ∈ enum.members, N member.lexeme)
    (hparent : Aligned N first (fun p => parentReferences p decl) (fun _ => []) middle)
    (hmethods : NumberedMethods N middle decl.methods limit) :
    Numbered N first [.classDecl decl] limit :=
  Numbered.single ⟨hname, henums, hmethods.tidy⟩
    (hparent.append (hmethods.settled.comap fun p => p.insideClass decl))

theorem numbered_ifThen {condition : Expr} {thenBranch : Stmt}
    (hcondition : Fresh N first condition.mentions middle)
    (hthen : NumberedOne N middle thenBranch limit) :
    NumberedOne N first (.ifThen condition thenBranch none) limit :=
  ⟨rfl, ⟨hthen.declared, hthen.tidy⟩, hcondition.settled.append hthen.settled⟩

theorem numbered_ifThenElse {condition : Expr} {thenBranch elseBranch : Stmt}
    (hcondition : Fresh N first condition.mentions middle)
    (hthen : NumberedOne N middle thenBranch middle')
    (helse : NumberedOne N middle' elseBranch limit) :
    NumberedOne N first (.ifThen condition thenBranch (some elseBranch)) limit :=
  ⟨rfl, ⟨hthen.declared, hthen.tidy, helse.declared, helse.tidy⟩,
    (hcondition.settled.append hthen.settled).append helse.settled⟩

theorem numbered_while {condition : Expr} {body : Stmt}
    (hcondition : Fresh N first condition.mentions middle)
    (hbody : NumberedOne N middle body limit) :
    NumberedOne N first (.while condition body) limit :=
  ⟨rfl, ⟨hbody.declared, hbody.tidy⟩, hcondition.settled.append hbody.settled⟩

theorem numbered_try {keyword : Token} {body otherwise : List Stmt}
    {handlers : List (Handler Stmt)} (hbody : Numbered N first body middle)
    (hhandlers : NumberedHandlers N middle handlers middle')
    (hotherwise : Numbered N middle' otherwise limit) :
    NumberedOne N first (.try keyword body handlers otherwise) limit :=
  ⟨rfl, ⟨hbody.tidy, hhandlers.tidy, hotherwise.tidy⟩,
    ((hbody.settled.comap fun p => p.enter (.block body) []).append hhandlers.settled).append
      (hotherwise.settled.comap fun p => p.enter (.block otherwise) [])⟩

theorem numbered_print {keyword : Token} {value : Expr}
    (h : Fresh N first value.mentions limit) : NumberedOne N first (.print keyword value) limit :=
  ⟨rfl, trivial, h.settled⟩

theorem numbered_expression {value : Expr} (h : Fresh N first value.mentions limit) :
    NumberedOne N first (.expression value) limit :=
  ⟨rfl, trivial, h.settled⟩

theorem optionalReferences_eq (p : Place) (value : Option Expr) :
    optionalReferences p value = (optionalMentions value).map (Mention.located p) := by
  cases value <;> rfl

theorem numbered_exit {keyword : Token} {value : Option Expr}
    (h : Fresh N first (optionalMentions value) limit) :
    NumberedOne N first (.exit keyword value) limit := by
  refine ⟨rfl, trivial, ?_⟩
  simpa only [references, optionalReferences_eq, locatedVariables] using h.settled

theorem numbered_raise {keyword : Token} {value : Option Expr}
    (h : Fresh N first (optionalMentions value) limit) :
    NumberedOne N first (.raise keyword value) limit := by
  refine ⟨rfl, trivial, ?_⟩
  simpa only [references, optionalReferences_eq, locatedVariables] using h.settled

theorem numbered_of_references_nil {s : Stmt} (htidy : s.Tidy N) (hle : first ≤ limit)
    (h : ∀ p, references p s = []) : Numbered N first [s] limit :=
  Numbered.single htidy (Aligned.of_nil hle h)

end Forms

/-! ## Variables declared together -/

def group (typeName generic : String) (initial : Option Expr) (names : List Token) :
    List Stmt :=
  names.map fun name => .var { name, typeName, generic, initial }

section Group

variable {typeName generic : String} {e : Expr}

theorem mention_mem_of_group {names : List Token} {p : Place} {r : Reference}
    (h : r ∈ listReferences p (group typeName generic (some e) names)) :
    r.mention ∈ e.mentions := by
  induction names generalizing p with
  | nil => cases h
  | cons name rest ih =>
      rcases List.mem_append.mp h with h | h
      · rcases List.mem_map.mp h with ⟨m, hm, rfl⟩
        exact hm
      · exact ih h

theorem length_place_of_group {names : List Token} {p : Place} {r : Reference}
    (h : r ∈ listReferences p (group typeName generic (some e) names)) :
    r.place.length = p.length := by
  induction names generalizing p with
  | nil => cases h
  | cons name rest ih =>
      rcases List.mem_append.mp h with h | h
      · rcases List.mem_map.mp h with ⟨m, hm, rfl⟩
        rfl
      · rw [ih h, Place.length_declare]

theorem tail_place_of_group {names : List Token} {p : Place} {r : Reference}
    (h : r ∈ listReferences p (group typeName generic (some e) names)) :
    r.place.tail = p.tail := by
  induction names generalizing p with
  | nil => cases h
  | cons name rest ih =>
      rcases List.mem_append.mp h with h | h
      · rcases List.mem_map.mp h with ⟨m, hm, rfl⟩
        rfl
      · rw [ih h, Place.tail_declare]

/-- Where no first value reads its own variable, all copies of it read at one distance. -/
theorem distance?_of_group {names : List Token} {p : Place}
    (hpending : ∀ r ∈ listReferences p (group typeName generic (some e) names),
      r.pending = false) {r : Reference}
    (hr : r ∈ listReferences p (group typeName generic (some e) names))
    (hfixed : r.mention.use = .read ∨ r.mention.name ∉ names.map Token.lexeme) :
    r.distance? = p.distance? r.mention.name := by
  induction names generalizing p with
  | nil => cases hr
  | cons name rest ih =>
      rcases List.mem_append.mp hr with h | h
      · rcases List.mem_map.mp h with ⟨m, hm, rfl⟩
        rfl
      · have hrest := ih (fun r hr => hpending r (List.mem_append_right _ hr)) h
          (hfixed.imp_right fun hname => mt (List.mem_cons_of_mem _) hname)
        have hmention := mention_mem_of_group h
        have hcopy := hpending (Mention.initial p name.lexeme r.mention)
          (List.mem_append_left _ (List.mem_map_of_mem hmention))
        rw [hrest]
        refine Place.distance?_declare ?_
        cases p with
        | nil => exact .inl rfl
        | cons scope outer =>
            refine .inr fun hname => ?_
            have hown : r.mention.name = name.lexeme := List.mem_singleton.mp hname
            rcases hfixed with huse | hother
            · simp [Mention.initial, huse, hown] at hcopy
            · exact hother (hown ▸ List.mem_cons_self)

/-- What none of the variables is called is at one distance in all copies of their first value. -/
theorem distance?_of_group_of_not_mem {names : List Token} {p : Place} {r : Reference}
    (hr : r ∈ listReferences p (group typeName generic (some e) names))
    (hname : r.mention.name ∉ names.map Token.lexeme) :
    r.distance? = p.distance? r.mention.name := by
  induction names generalizing p with
  | nil => cases hr
  | cons name rest ih =>
      rcases List.mem_append.mp hr with h | h
      · rcases List.mem_map.mp h with ⟨m, hm, rfl⟩
        rfl
      · rw [ih h (mt (List.mem_cons_of_mem _) hname)]
        refine Place.distance?_declare (.inr fun hown => hname ?_)
        exact List.mem_singleton.mp hown ▸ List.mem_cons_self

theorem mem_listVariables_group (typeName generic : String) (initial : Option Expr) (p : Place)
    {names : List Token} {name : Token} (hname : name ∈ names) :
    ∃ var ∈ listVariables p (group typeName generic initial names),
      var.place.length = p.length ∧ var.decl.name = name ∧ var.decl.initial = initial := by
  induction names generalizing p with
  | nil => cases hname
  | cons head rest ih =>
      rcases List.mem_cons.mp hname with rfl | hname
      · exact ⟨_, List.mem_cons_self, rfl, rfl, rfl⟩
      · rcases ih (p.declare [head.lexeme]) hname with ⟨var, hvar, hlength, hrest⟩
        refine ⟨var, List.mem_cons_of_mem _ hvar, ?_, hrest⟩
        rw [hlength, Place.length_declare]

/-- All copies of a first value assign at one distance, but for assignments to the variables. -/
theorem group_copies {names : List Token} {p : Place} {v w : Reference}
    (hv : v ∈ listReferences p (group typeName generic (some e) names))
    (hw : w ∈ listReferences p (group typeName generic (some e) names))
    (huse : v.mention.use = .write) (hsame : w.mention = v.mention) :
    w.distance? = v.distance? ∨
      ∃ var ∈ listVariables p (group typeName generic (some e) names),
        var.AssignsOwn v.mention := by
  by_cases hname : v.mention.name ∈ names.map Token.lexeme
  · cases p with
    | nil =>
        left
        have hnil (r : Reference) (hr : r.place.length = 0) : r.distance? = none := by
          rw [Reference.distance?, List.length_eq_zero_iff.mp hr]
          rfl
        rw [hnil v (length_place_of_group hv), hnil w (length_place_of_group hw)]
    | cons scope outer =>
        rcases List.mem_map.mp hname with ⟨name, hmem, hlexeme⟩
        rcases mem_listVariables_group typeName generic (some e) (scope :: outer) hmem with
          ⟨var, hvar, hlength, hdecl, hinitial⟩
        refine .inr ⟨var, hvar, ?_, huse, ?_, ?_⟩
        · intro hnil
          rw [hnil] at hlength
          cases hlength
        · rw [hdecl, hlexeme]
        · rw [hinitial]
          exact mention_mem_of_group hv
  · left
    rw [distance?_of_group_of_not_mem hv hname,
      distance?_of_group_of_not_mem hw (hsame ▸ hname), hsame]

theorem group_settled {first limit : Nat} {names : List Token}
    (hnames : ∀ name ∈ names, N name.lexeme) (h : Fresh N first e.mentions limit) :
    Aligned N first (fun p => listReferences p (group typeName generic (some e) names))
      (fun p => listVariables p (group typeName generic (some e) names)) limit := by
  refine ⟨⟨h.le, ?_, ?_, ?_, ?_⟩, ?_⟩
  · intro p r hr
    exact h.bounds r.mention (mention_mem_of_group hr)
  · intro p hpending v hv w hw hfixed hid
    have hsame := h.apart v.mention (mention_mem_of_group hv) w.mention
      (mention_mem_of_group hw) hid
    have hfixed' : v.mention.use = .read ∨ v.mention.name ∉ names.map Token.lexeme := by
      refine hfixed.imp_right fun hname hmem => ?_
      rcases List.mem_map.mp hmem with ⟨name, hin, heq⟩
      exact hname (heq ▸ hnames name hin)
    refine ⟨hsame.symm, ?_, ?_⟩
    · rw [distance?_of_group hpending hv hfixed',
        distance?_of_group hpending hw (hsame ▸ hfixed'), hsame]
    · rw [length_place_of_group hv, length_place_of_group hw]
  · intro p v hv w hw hid
    refine ⟨(h.apart v.mention (mention_mem_of_group hv) w.mention
      (mention_mem_of_group hw) hid).symm, ?_⟩
    rw [tail_place_of_group hv, tail_place_of_group hw]
  · intro p r hr
    exact h.written r.mention (mention_mem_of_group hr)
  · intro p v hv w hw huse hid
    exact group_copies hv hw huse (h.apart v.mention (mention_mem_of_group hv) w.mention
      (mention_mem_of_group hw) hid).symm

theorem listReferences_group_none (p : Place) (names : List Token) :
    listReferences p (group typeName generic none names) = [] := by
  induction names generalizing p with
  | nil => rfl
  | cons name rest ih => exact ih _

theorem tidyList_group {initial : Option Expr} {names : List Token}
    (hnames : ∀ name ∈ names, N name.lexeme) :
    TidyList N (group typeName generic initial names) := by
  induction names with
  | nil => trivial
  | cons name rest ih =>
      refine ⟨hnames name List.mem_cons_self, ih fun other hother => ?_⟩
      exact hnames other (List.mem_cons_of_mem _ hother)

theorem numbered_group {first limit : Nat} {names : List Token} {initial : Option Expr}
    (hnames : ∀ name ∈ names, N name.lexeme)
    (h : Fresh N first (optionalMentions initial) limit) :
    Numbered N first (group typeName generic initial names) limit := by
  refine ⟨tidyList_group hnames, ?_⟩
  cases initial with
  | none => exact Aligned.of_nil h.le fun p => listReferences_group_none p names
  | some e => exact group_settled hnames h

end Group

/-! ## Lowered loops -/

section LoweredLoops

variable {first second third fourth limit : Nat}

/-- The increment of a loop is numbered in front of its body and runs behind it. -/
theorem numbered_loopStep {increment : Expr} {body : Stmt}
    (hincrement : Fresh N first increment.mentions second)
    (hbody : NumberedOne N second body limit) :
    NumberedOne N first (.block [body, .expression increment]) limit := by
  refine ⟨rfl, ⟨hbody.tidy, trivial, trivial⟩, ?_⟩
  have hsettled := (hincrement.settled.append hbody.settled).comap
    fun p => p.enter (.block [body, .expression increment]) []
  refine hsettled.congr (fun p r => ?_) fun p var hvar => List.mem_append_left _ hvar
  simp only [references, listReferences, hbody.declared, Place.declare_nil, List.mem_append]
  tauto

theorem numbered_loop {condition increment : Option Expr} {body : Stmt}
    (hcondition : Fresh N second (optionalMentions condition) third)
    (hincrement : Fresh N third (optionalMentions increment) fourth)
    (hbody : NumberedOne N fourth body limit) :
    NumberedOne N second (lowerFor none condition increment body) limit := by
  have hcondition' :
      Fresh N second (condition.getD (.literal (.boolean true))).mentions third := by
    cases condition <;> exact hcondition
  cases increment with
  | none =>
      have hbody' : NumberedOne N third body limit :=
        ⟨hbody.declared, hbody.tidy, hbody.settled.widen hincrement.le (Nat.le_refl _)⟩
      exact numbered_while hcondition' hbody'
  | some value => exact numbered_while hcondition' (numbered_loopStep hincrement hbody)

theorem numbered_lowerFor {initial : Option Stmt} {condition increment : Option Expr} {body : Stmt}
    (hinitial : Numbered N first initial.toList second)
    (hcondition : Fresh N second (optionalMentions condition) third)
    (hincrement : Fresh N third (optionalMentions increment) fourth)
    (hbody : NumberedOne N fourth body limit) :
    NumberedOne N first (lowerFor initial condition increment body) limit := by
  have hloop := numbered_loop hcondition hincrement hbody
  cases initial with
  | none =>
      exact ⟨hloop.declared, hloop.tidy, hloop.settled.widen hinitial.settled.le (Nat.le_refl _)⟩
  | some statement => exact numbered_block (hinitial.append hloop.list)

end LoweredLoops

/-! ## Lowered choices -/

section LoweredChoices

variable {first middle middle' limit : Nat} {subject : Expr}

/-- A condition of a `case` mentions what its subject does, and fresh names besides. -/
def Labelled (N : String → Prop) (subject : Expr) (first : Nat) (condition : Expr)
    (limit : Nat) : Prop :=
  ∃ ms, Fresh N first ms limit ∧
    ∀ m, m ∈ condition.mentions ↔ m ∈ subject.mentions ∨ m ∈ ms

/-- A statement that a `case` is lowered to refers to what its subject does, and to fresh names
besides. -/
structure Chosen (N : String → Prop) (subject : Expr) (first : Nat) (s : Stmt) (limit : Nat) :
    Prop where
  declared : s.declared = []
  tidy : s.Tidy N
  settled : ∃ refs, Aligned N first refs (fun p => locatedVariables p s) limit ∧ ∀ p r,
    r ∈ references p s ↔ r ∈ subject.mentions.map (Mention.located p) ∨ r ∈ refs p

theorem labelled_equal {label : Expr} {token : Token} (h : Fresh N first label.mentions limit) :
    Labelled N subject first (.binary subject .equal token label) limit :=
  ⟨label.mentions, h, fun m => by simp [Expr.mentions]⟩

theorem Labelled.or {condition additional : Expr} {token : Token}
    (h : Labelled N subject first condition middle)
    (h' : Labelled N subject middle additional limit) :
    Labelled N subject first (.logical condition .or token additional) limit := by
  rcases h with ⟨ms, hms, hcondition⟩
  rcases h' with ⟨ns, hns, hadditional⟩
  refine ⟨ms ++ ns, hms.append hns, fun m => ?_⟩
  simp only [Expr.mentions, List.mem_append, hcondition, hadditional]
  tauto

theorem Labelled.mem_located {condition : Expr} {ms : List Mention} {p : Place} {r : Reference}
    (h : ∀ m, m ∈ condition.mentions ↔ m ∈ subject.mentions ∨ m ∈ ms) :
    r ∈ condition.mentions.map (Mention.located p) ↔
      r ∈ subject.mentions.map (Mention.located p) ∨ r ∈ ms.map (Mention.located p) := by
  simp only [List.mem_map, h]
  constructor
  · rintro ⟨m, hm | hm, rfl⟩
    · exact .inl ⟨m, hm, rfl⟩
    · exact .inr ⟨m, hm, rfl⟩
  · rintro (⟨m, hm, rfl⟩ | ⟨m, hm, rfl⟩)
    · exact ⟨m, .inl hm, rfl⟩
    · exact ⟨m, .inr hm, rfl⟩

theorem chosen_arm {condition : Expr} {body : Stmt}
    (hcondition : Labelled N subject first condition middle)
    (hbody : NumberedOne N middle body limit) :
    Chosen N subject first (.ifThen condition body none) limit := by
  rcases hcondition with ⟨ms, hms, hmem⟩
  refine ⟨rfl, ⟨hbody.declared, hbody.tidy⟩, _, hms.settled.append hbody.settled, fun p r => ?_⟩
  simp only [references, List.mem_append, Labelled.mem_located hmem]
  tauto

theorem chosen_otherwise {condition : Expr} {body otherwise : Stmt}
    (hcondition : Labelled N subject first condition middle)
    (hbody : NumberedOne N middle body middle')
    (hotherwise : NumberedOne N middle' otherwise limit) :
    Chosen N subject first (.ifThen condition body (some otherwise)) limit := by
  rcases hcondition with ⟨ms, hms, hmem⟩
  refine ⟨rfl, ⟨hbody.declared, hbody.tidy, hotherwise.declared, hotherwise.tidy⟩, _,
    (hms.settled.append hbody.settled).append hotherwise.settled, fun p r => ?_⟩
  simp only [references, List.mem_append, Labelled.mem_located hmem]
  tauto

theorem chosen_cons {condition : Expr} {body rest : Stmt}
    (hcondition : Labelled N subject first condition middle)
    (hbody : NumberedOne N middle body middle') (hrest : Chosen N subject middle' rest limit) :
    Chosen N subject first (.ifThen condition body (some rest)) limit := by
  rcases hcondition with ⟨ms, hms, hmem⟩
  rcases hrest.settled with ⟨refs, hrefs, hmem'⟩
  refine ⟨rfl, ⟨hbody.declared, hbody.tidy, hrest.declared, hrest.tidy⟩, _,
    (hms.settled.append hbody.settled).append hrefs, fun p r => ?_⟩
  simp only [references, List.mem_append, Labelled.mem_located hmem, hmem']
  tauto

theorem Chosen.numbered {s : Stmt} (hsubject : Fresh N first subject.mentions middle)
    (h : Chosen N subject middle s limit) : NumberedOne N first s limit := by
  rcases h.settled with ⟨refs, hrefs, hmem⟩
  refine ⟨h.declared, h.tidy, (hsubject.settled.append hrefs).congr (fun p r => ?_)
    fun p var hvar => hvar⟩
  rw [hmem, List.mem_append]

end LoweredChoices

end Stmt

end MiniPascal
