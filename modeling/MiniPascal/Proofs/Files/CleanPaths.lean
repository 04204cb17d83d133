import MiniPascal.Files.Tree

/-!
# Clean paths

A clean path is the root or double dots, and then names.  Cleaning a clean path changes nothing, the
parts of its text are its parts, and the file it leads to has its last name.
-/

namespace MiniPascal
namespace Path

/-! ## Pieces -/

theorem pieces_append {cs : List Char} (h : '/' ∉ cs) (rest : List Char) :
    pieces (cs ++ '/' :: rest) = cs :: pieces rest := by
  induction cs with
  | nil => rw [List.nil_append, pieces, if_pos rfl]
  | cons c cs ih =>
      rw [List.mem_cons, not_or] at h
      rw [List.cons_append, pieces, if_neg (Ne.symm h.1), ih h.2]

theorem pieces_of_slashless {cs : List Char} (h : '/' ∉ cs) : pieces cs = [cs] := by
  induction cs with
  | nil => rfl
  | cons c cs ih =>
      rw [List.mem_cons, not_or] at h
      rw [pieces, if_neg (Ne.symm h.1), ih h.2]

theorem slashless_of_mem_pieces {cs : List Char} : ∀ piece ∈ pieces cs, '/' ∉ piece := by
  induction cs with
  | nil => simp [pieces]
  | cons c cs ih =>
      rw [pieces]
      split
      · exact List.forall_mem_cons.mpr ⟨List.not_mem_nil, ih⟩
      · next hslash =>
          cases hpieces : pieces cs with
          | nil => simpa using Ne.symm hslash
          | cons first others =>
              rw [hpieces] at ih
              rcases List.forall_mem_cons.mp ih with ⟨hfirst, hothers⟩
              refine List.forall_mem_cons.mpr ⟨?_, hothers⟩
              simpa [hfirst] using Ne.symm hslash

theorem pieces_intercalate {text : String} {texts : List String}
    (h : ∀ t ∈ text :: texts, '/' ∉ t.toList) :
    pieces ("/".intercalate (text :: texts)).toList = (text :: texts).map String.toList := by
  rw [String.toList_intercalate]
  induction texts generalizing text with
  | nil => simpa [List.intercalate] using pieces_of_slashless (h text List.mem_cons_self)
  | cons next texts ih =>
      rcases List.forall_mem_cons.mp h with ⟨htext, hrest⟩
      rw [List.map_cons, List.map_cons, List.intercalate_cons_cons, List.append_assoc]
      refine (pieces_append htext _).trans ?_
      rw [← List.map_cons]
      exact congrArg _ (ih hrest)

/-! ## Parts -/

/-- A name that a part of a path can have. -/
structure IsName (name : String) : Prop where
  slashless : '/' ∉ name.toList
  ne_empty : name ≠ ""
  ne_dot : name ≠ "."
  ne_dots : name ≠ ".."

/-- A part that may stand anywhere in a path. -/
inductive Plain : PathPart → Prop where
  | parent : Plain .parent
  | normal {name : String} (h : IsName name) : Plain (.normal name)

theorem plain_of_partOf? {piece : List Char} {part : PathPart} (hpiece : '/' ∉ piece)
    (h : partOf? piece = some part) : Plain part := by
  unfold partOf? at h
  split at h
  · cases h
  · cases h
  · cases h
    exact .parent
  · next hempty hdot hdots =>
      cases h
      exact .normal ⟨by rwa [String.toList_ofList], hempty, hdot, hdots⟩

theorem partOf?_partText {part : PathPart} (h : Plain part) :
    partOf? (partText part).toList = some part := by
  cases h with
  | parent => rfl
  | normal hname =>
      unfold partOf?
      rw [String.ofList_toList, partText]
      split
      · exact absurd rfl hname.ne_empty
      · exact absurd rfl hname.ne_dot
      · exact absurd rfl hname.ne_dots
      · rfl

theorem Plain.slashless {part : PathPart} (h : Plain part) : '/' ∉ (partText part).toList := by
  cases h with
  | parent => decide
  | normal hname => exact hname.slashless

theorem filterMap_partText {list : List PathPart} (h : ∀ part ∈ list, Plain part) :
    ((list.map partText).map String.toList).filterMap partOf? = list := by
  induction list with
  | nil => rfl
  | cons part rest ih =>
      rcases List.forall_mem_cons.mp h with ⟨hpart, hrest⟩
      rw [List.map_cons, List.map_cons, List.filterMap_cons_some (partOf?_partText hpart), ih hrest]

/-- The parts of a path: a dot or the root may stand only in front. -/
def Regular (list : List PathPart) : Prop :=
  ∃ lead inner, list = lead ++ inner ∧ (lead = [] ∨ lead = [.root] ∨ lead = [.current]) ∧
    ∀ part ∈ inner, Plain part

theorem regular_parts (path : String) : Regular (parts path) := by
  have hinner : ∀ part ∈ (pieces path.toList).filterMap partOf?, Plain part := by
    intro part hpart
    rcases List.mem_filterMap.mp hpart with ⟨piece, hpiece, hsome⟩
    exact plain_of_partOf? (slashless_of_mem_pieces piece hpiece) hsome
  unfold parts
  dsimp only
  split
  · exact ⟨[.root], _, rfl, .inr (.inl rfl), hinner⟩
  · exact ⟨[.current], _, rfl, .inr (.inr rfl), hinner⟩
  · exact ⟨[], _, rfl, .inl rfl, hinner⟩

theorem regular_directory (path : String) : Regular (directory path) := by
  rcases regular_parts path with ⟨lead, inner, hparts, hlead, hinner⟩
  have hempty : Regular [] := ⟨[], [], rfl, .inl rfl, List.forall_mem_nil _⟩
  unfold directory
  rw [hparts]
  rcases List.eq_nil_or_concat inner with rfl | ⟨front, last, rfl⟩
  · rcases hlead with rfl | rfl | rfl <;> exact hempty
  · rw [List.concat_eq_append] at hinner ⊢
    rw [← List.append_assoc, List.reverse_append]
    have hfront : Regular (lead ++ front) :=
      ⟨lead, front, rfl, hlead, fun part hpart => hinner part (List.mem_append_left _ hpart)⟩
    have hplain := hinner last (List.mem_append_right _ List.mem_cons_self)
    cases hplain <;> simpa using hfront

/-! ## Cleaning -/

/-- A clean path in reverse: names on top of the root or of double dots. -/
inductive CleanStack : List PathPart → Prop where
  | root : CleanStack [.root]
  | parents {stack : List PathPart} (h : ∀ part ∈ stack, part = .parent) : CleanStack stack
  | name {stack : List PathPart} {name : String} (h : CleanStack stack) (hname : IsName name) :
      CleanStack (.normal name :: stack)

theorem CleanStack.push {stack : List PathPart} (h : CleanStack stack) {part : PathPart}
    (hpart : Plain part) : CleanStack (pushClean stack part) := by
  cases hpart with
  | normal hname => exact .name h hname
  | parent =>
      cases h with
      | root => exact .root
      | name h _ => exact h
      | parents hparents =>
          have hmore : CleanStack (.parent :: stack) :=
            .parents (List.forall_mem_cons.mpr ⟨rfl, hparents⟩)
          cases stack with
          | nil => exact hmore
          | cons top rest =>
              cases hparents top List.mem_cons_self
              exact hmore

theorem CleanStack.foldl {list : List PathPart} (hlist : ∀ part ∈ list, Plain part) :
    ∀ {stack : List PathPart}, CleanStack stack → CleanStack (list.foldl pushClean stack) := by
  induction list with
  | nil =>
      intro stack h
      exact h
  | cons part rest ih =>
      intro stack h
      rcases List.forall_mem_cons.mp hlist with ⟨hpart, hrest⟩
      exact ih hrest (h.push hpart)

/-- Cleaning makes a path clean. -/
theorem cleanStack_cleanParts {list : List PathPart} (h : Regular list) :
    CleanStack (cleanParts list).reverse := by
  rcases h with ⟨lead, inner, rfl, hlead, hinner⟩
  unfold cleanParts
  rw [List.reverse_reverse, List.foldl_append]
  refine CleanStack.foldl hinner ?_
  rcases hlead with rfl | rfl | rfl
  · exact .parents (List.forall_mem_nil _)
  · exact .root
  · exact .parents (List.forall_mem_nil _)

theorem foldl_pushClean_parents {list : List PathPart} (hlist : ∀ part ∈ list, part = .parent) :
    ∀ {stack : List PathPart}, (∀ part ∈ stack, part = .parent) →
      list.foldl pushClean stack = list.reverse ++ stack := by
  induction list with
  | nil =>
      intro stack _
      rfl
  | cons part rest ih =>
      intro stack hstack
      rcases List.forall_mem_cons.mp hlist with ⟨rfl, hrest⟩
      have hpush : pushClean stack .parent = .parent :: stack := by
        cases stack with
        | nil => rfl
        | cons top below =>
            cases hstack top List.mem_cons_self
            rfl
      rw [List.foldl_cons, hpush, ih hrest (List.forall_mem_cons.mpr ⟨rfl, hstack⟩)]
      simp

/-- Cleaning a clean path changes nothing. -/
theorem cleanParts_of_clean {stack : List PathPart} (h : CleanStack stack) :
    cleanParts stack.reverse = stack.reverse := by
  unfold cleanParts
  congr 1
  induction h with
  | root => rfl
  | parents hparents =>
      rw [foldl_pushClean_parents (by simpa using hparents) (List.forall_mem_nil _)]
      simp
  | name _ _ ih =>
      rw [List.reverse_cons, List.foldl_append, ih]
      rfl

/-! ## The text of a clean path -/

theorem CleanStack.plain {stack : List PathPart} (h : CleanStack stack) :
    (∃ inner, stack.reverse = .root :: inner ∧ ∀ part ∈ inner, Plain part) ∨
      ∀ part ∈ stack.reverse, Plain part := by
  induction h with
  | root => exact .inl ⟨[], rfl, List.forall_mem_nil _⟩
  | parents hparents =>
      refine .inr fun part hpart => ?_
      cases hparents part (List.mem_reverse.mp hpart)
      exact .parent
  | name _ hname ih =>
      rw [List.reverse_cons]
      have hsingle : ∀ part ∈ [_], Plain part := List.forall_mem_singleton.mpr (.normal hname)
      rcases ih with ⟨inner, heq, hinner⟩ | hinner
      · exact .inl ⟨inner ++ [.normal _], by rw [heq]; rfl,
          List.forall_mem_append.mpr ⟨hinner, hsingle⟩⟩
      · exact .inr (List.forall_mem_append.mpr ⟨hinner, hsingle⟩)

theorem pieces_plain {list : List PathPart} (hne : list ≠ []) (h : ∀ part ∈ list, Plain part) :
    pieces ("/".intercalate (list.map partText)).toList =
      (list.map partText).map String.toList := by
  cases list with
  | nil => exact absurd rfl hne
  | cons part rest =>
      refine pieces_intercalate fun text htext => ?_
      rw [← List.map_cons] at htext
      rcases List.mem_map.mp htext with ⟨p, hp, rfl⟩
      exact (h p hp).slashless

theorem render_plain {list : List PathPart} (h : ∀ part ∈ list, Plain part) :
    render list = "/".intercalate (list.map partText) := by
  unfold render
  split
  · nomatch h .root List.mem_cons_self
  · rfl

theorem pieces_root (text : String) : pieces ("/" ++ text).toList = [] :: pieces text.toList := by
  rw [String.toList_append]
  exact pieces_append List.not_mem_nil text.toList

theorem parts_render {list : List PathPart} (h : CleanStack list.reverse) :
    parts (render list) = list := by
  have hplain := h.plain
  rw [List.reverse_reverse] at hplain
  unfold parts
  rcases hplain with ⟨inner, rfl, hinner⟩ | hinner
  · have hpieces : (pieces (render (.root :: inner)).toList).filterMap partOf? = inner ∧
        ∃ first others, pieces (render (.root :: inner)).toList = [] :: first :: others := by
      unfold render
      rw [pieces_root]
      cases inner with
      | nil => exact ⟨rfl, [], [], rfl⟩
      | cons part rest =>
          rw [pieces_plain (List.cons_ne_nil _ _) hinner]
          exact ⟨filterMap_partText hinner, _, _, rfl⟩
    rcases hpieces with ⟨hparts, first, others, hall⟩
    rw [hall] at hparts ⊢
    exact congrArg _ hparts
  · rw [render_plain hinner]
    cases list with
    | nil => rfl
    | cons part rest =>
        have hparts := filterMap_partText hinner
        rw [pieces_plain (List.cons_ne_nil _ _) hinner]
        dsimp only
        -- the first piece is neither empty nor a dot
        cases hinner part List.mem_cons_self with
        | parent => exact hparts
        | normal hname =>
            split
            · next heq =>
                have hempty := List.cons.inj heq
                exact absurd (String.toList_eq_nil_iff.mp hempty.1) hname.ne_empty
            · next heq =>
                have hdot := List.cons.inj heq
                exact absurd (String.toList_inj.mp hdot.1) hname.ne_dot
            · exact hparts

theorem pieces_render {list : List PathPart} {name : String} (hlist : CleanStack list.reverse)
    (hname : IsName name) :
    ∃ before, pieces (render (list ++ [.normal name])).toList = before ++ [name.toList] := by
  have hsingle : ∀ part ∈ [PathPart.normal name], Plain part :=
    List.forall_mem_singleton.mpr (.normal hname)
  have hplain := hlist.plain
  rw [List.reverse_reverse] at hplain
  rcases hplain with ⟨inner, rfl, hinner⟩ | hinner
  · rw [List.cons_append, render, pieces_root,
      pieces_plain (by simp) (List.forall_mem_append.mpr ⟨hinner, hsingle⟩), List.map_append,
      List.map_append]
    exact ⟨[] :: (inner.map partText).map String.toList, rfl⟩
  · have hall := List.forall_mem_append.mpr ⟨hinner, hsingle⟩
    rw [render_plain hall, pieces_plain (by simp) hall, List.map_append, List.map_append]
    exact ⟨(list.map partText).map String.toList, rfl⟩

end Path

/-! ## Reading a clean path -/

namespace FileTree

theorem locate_of_read {tree : FileTree} {path text : String} (h : tree.read path = .ok text) :
    ∃ key, tree.locate path = .ok key ∧ tree.node? key = some (.text text) := by
  unfold read stat at h
  cases hkey : tree.locate path with
  | error fault =>
      rw [hkey] at h
      cases h
  | ok key =>
      rw [hkey] at h
      refine ⟨key, rfl, ?_⟩
      cases hnode : tree.node? key with
      | none =>
          simp only [bind, Except.bind, hnode] at h
          cases h
      | some node =>
          simp only [bind, Except.bind, hnode] at h
          cases node with
          | text contents =>
              cases h
              rfl
          | binary => cases h
          | directory => cases h

theorem locate_last {tree : FileTree} {path name : String} {before : List (List Char)}
    {key : List String} (hpieces : Path.pieces path.toList = before ++ [name.toList])
    (hname : Path.IsName name) (h : tree.locate path = .ok key) : ∃ front, key = front ++ [name] := by
  unfold locate at h
  split at h
  · cases h
  split at h
  · cases h
  rw [hpieces, List.foldlM_append] at h
  cases hfront : before.foldlM tree.step (if path.startsWith "/" then [] else tree.current) with
  | error fault =>
      rw [hfront] at h
      cases h
  | ok front =>
      rw [hfront] at h
      refine ⟨front, ?_⟩
      have hstep : tree.step front name.toList = .ok key := by
        cases hlast : tree.step front name.toList with
        | error fault => simp [bind, Except.bind, hlast] at h
        | ok last => simpa [bind, Except.bind, hlast, pure, Except.pure] using h
      have hplain : Path.Plain (.normal name) := .normal hname
      have hpart := Path.partOf?_partText hplain
      rw [Path.partText] at hpart
      unfold step at hstep
      rw [hpart] at hstep
      split at hstep
      · cases hstep
      · dsimp only at hstep
        split at hstep
        · cases hstep
        · cases hstep
          rfl
      · cases hstep

/-- A text that is read is the text of an entry with the last name of the path. -/
theorem mem_entries_of_read {tree : FileTree} {path name text : String}
    {before : List (List Char)} (hpieces : Path.pieces path.toList = before ++ [name.toList])
    (hname : Path.IsName name) (h : tree.read path = .ok text) :
    ∃ front, front ++ [name] ∈ tree.entries.map Prod.fst := by
  rcases locate_of_read h with ⟨key, hkey, hnode⟩
  rcases locate_last hpieces hname hkey with ⟨front, rfl⟩
  refine ⟨front, ?_⟩
  unfold node? at hnode
  cases hentry : tree.entries.lookup (front ++ [name]) with
  | some node =>
      rcases List.lookup_eq_some_iff.mp hentry with ⟨earlier, later, hentries, -⟩
      rw [hentries, List.map_append]
      exact List.mem_append_right _ List.mem_cons_self
  | none =>
      rw [hentry] at hnode
      dsimp only at hnode
      split at hnode <;> cases hnode

end FileTree

end MiniPascal
