import MiniPascal.Machine.Run
import MiniPascal.Proofs.Machine.Signatures

/-!
# Runs of tests

The tests of a program are those of its top-level functions that a filter lets through, each name
once, at the first declaration of it that counts.  They are run in that order, each from the state
that the one before it left, whatever came of that one.  What is called is found only then, under
the global name, so that a test may be another function by the time it is its turn, or none at all.
-/

namespace MiniPascal

/-! ## Names up to letter case -/

namespace Text

theorem lower_append (front back : String) : lower (front ++ back) = lower front ++ lower back := by
  unfold lower
  rw [String.toList_append, List.map_append, String.ofList_append]

theorem toList_lower (text : String) : (lower text).toList = text.toList.map Char.toLower :=
  String.toList_ofList

theorem isPrefix_lower_iff {start text : String} :
    (lower start).toList <+: (lower text).toList ↔
      ∃ front rest, text = front ++ rest ∧ sameName front start = true := by
  constructor
  · rintro ⟨rest, hrest⟩
    rw [toList_lower text] at hrest
    obtain ⟨front, back, htext, hfront, -⟩ := List.map_eq_append_iff.mp hrest.symm
    refine ⟨String.ofList front, String.ofList back, ?_, ?_⟩
    · rw [← String.ofList_append, ← htext, String.ofList_toList]
    · rw [sameName_iff, ← String.toList_inj, toList_lower, String.toList_ofList, hfront]
  · rintro ⟨front, rest, rfl, hfront⟩
    rw [sameName_iff] at hfront
    rw [lower_append, String.toList_append, hfront]
    exact List.prefix_append _ _

theorem isInfix_lower_iff {needle text : String} :
    (lower needle).toList <:+: (lower text).toList ↔
      ∃ front part back, text = front ++ part ++ back ∧ sameName part needle = true := by
  constructor
  · rintro ⟨front, back, hsplit⟩
    rw [toList_lower text] at hsplit
    obtain ⟨first, last, htext, hfirst, -⟩ := List.map_eq_append_iff.mp hsplit.symm
    obtain ⟨before, part, hfirstText, -, hpart⟩ := List.map_eq_append_iff.mp hfirst
    refine ⟨String.ofList before, String.ofList part, String.ofList last, ?_, ?_⟩
    · rw [← String.ofList_append, ← String.ofList_append, ← hfirstText, ← htext,
        String.ofList_toList]
    · rw [sameName_iff, ← String.toList_inj, toList_lower, String.toList_ofList, hpart]
  · rintro ⟨front, part, back, rfl, hpart⟩
    rw [sameName_iff] at hpart
    rw [lower_append, lower_append, String.toList_append, String.toList_append, hpart]
    exact ⟨_, _, rfl⟩

end Text

namespace Machine

/-! ## Tests of a program -/

theorem occursIn_iff {needle text : List Char} : occursIn needle text = true ↔ needle <:+: text := by
  induction text with
  | nil => rw [occursIn, List.isEmpty_iff, List.infix_nil]
  | cons c rest ih =>
      rw [occursIn, Bool.or_eq_true, List.isPrefixOf_iff_prefix, ih, List.infix_cons_iff]

/-- A declaration counts as a test: it has no parameters, and its name starts with `test` and has
the filter in it, if there is one, both in any letter case. -/
structure Qualifies (filter : Option String) (decl : Function) : Prop where
  params : decl.params = []
  starts : ∃ front rest, decl.name.lexeme = front ++ rest ∧ Text.sameName front "test" = true
  passes : ∀ needle, filter = some needle →
    ∃ front part back, decl.name.lexeme = front ++ part ++ back ∧
      Text.sameName part needle = true

theorem isTest_iff {filter : Option String} {decl : Function} :
    isTest filter decl = true ↔ Qualifies filter decl := by
  have hstarts : "test".toList.isPrefixOf (Text.lower decl.name.lexeme).toList = true ↔
      ∃ front rest, decl.name.lexeme = front ++ rest ∧ Text.sameName front "test" = true := by
    rw [List.isPrefixOf_iff_prefix, ← Text.isPrefix_lower_iff]
    rfl
  unfold isTest
  rw [Bool.and_eq_true, Bool.and_eq_true, hstarts, List.isEmpty_iff]
  cases filter with
  | none =>
      constructor
      · rintro ⟨⟨hname, hparams⟩, -⟩
        exact ⟨hparams, hname, fun needle hneedle => by cases hneedle⟩
      · intro h
        exact ⟨⟨h.starts, h.params⟩, rfl⟩
  | some needle =>
      rw [occursIn_iff, Text.isInfix_lower_iff]
      constructor
      · rintro ⟨⟨hname, hparams⟩, hpart⟩
        have hpasses : ∀ other, some needle = some other → ∃ front part back,
            decl.name.lexeme = front ++ part ++ back ∧ Text.sameName part other = true := by
          intro other hother
          cases hother
          exact hpart
        exact ⟨hparams, hname, hpasses⟩
      · intro h
        exact ⟨⟨h.starts, h.params⟩, h.passes needle rfl⟩

/-- A position of a program has the first declaration of its name that counts as a test. -/
structure FirstTest (filter : Option String) (statements : List Stmt) (position : Nat)
    (decl : Function) : Prop where
  stands : statements[position]? = some (.function decl)
  qualifies : Qualifies filter decl
  first : ∀ earlier, earlier < position → ∀ other, statements[earlier]? = some (.function other) →
    Qualifies filter other → other.name.lexeme ≠ decl.name.lexeme

section Listing

variable {filter : Option String} {seen : List String} {statement : Stmt} {rest : List Stmt}
  {decl : Function}

theorem firstTest_zero_iff : FirstTest filter (statement :: rest) 0 decl ↔
    statement = .function decl ∧ Qualifies filter decl := by
  constructor
  · intro h
    exact ⟨Option.some.inj h.stands, h.qualifies⟩
  · rintro ⟨rfl, hqualifies⟩
    exact ⟨rfl, hqualifies, fun earlier hearlier => absurd hearlier (Nat.not_lt_zero _)⟩

theorem firstTest_succ_iff {position : Nat} :
    FirstTest filter (statement :: rest) (position + 1) decl ↔
      FirstTest filter rest position decl ∧ ∀ other, statement = .function other →
        Qualifies filter other → other.name.lexeme ≠ decl.name.lexeme := by
  constructor
  · intro h
    constructor
    · constructor
      · exact h.stands
      · exact h.qualifies
      · intro earlier hearlier
        exact h.first (earlier + 1) (Nat.succ_lt_succ hearlier)
    · intro other hother
      exact h.first 0 (Nat.succ_pos _) other (congrArg some hother)
  · rintro ⟨h, hother⟩
    constructor
    · exact h.stands
    · exact h.qualifies
    · intro earlier hearlier other hstands
      cases earlier with
      | zero => exact hother other (Option.some.inj hstands)
      | succ earlier => exact h.first earlier (Nat.lt_of_succ_lt_succ hearlier) other hstands

theorem testNames_cons_of_test (hqualifies : Qualifies filter decl)
    (hnew : decl.name.lexeme ∉ seen) : testNames filter seen (.function decl :: rest) =
      decl.name :: testNames filter (decl.name.lexeme :: seen) rest := by
  rw [testNames, if_pos]
  rw [isTest_iff.mpr hqualifies]
  simpa using hnew

theorem testNames_cons_of_other (h : ∀ decl, statement = .function decl → Qualifies filter decl →
    decl.name.lexeme ∈ seen) :
    testNames filter seen (statement :: rest) = testNames filter seen rest := by
  cases statement with
  | function decl =>
      rw [testNames, if_neg]
      rw [Bool.and_eq_true, isTest_iff]
      rintro ⟨hqualifies, hnew⟩
      simp [h decl rfl hqualifies] at hnew
  | _ => rfl

/-- The first declarations of a program that count as tests, in order, apart from those of names
that were seen before. -/
structure Lists (filter : Option String) (seen : List String) (statements : List Stmt)
    (firsts : List (Nat × Function)) : Prop where
  ordered : firsts.Pairwise fun a b => a.1 < b.1
  mem_iff : ∀ position decl, (position, decl) ∈ firsts ↔
    FirstTest filter statements position decl ∧ decl.name.lexeme ∉ seen

/-- A declaration one position further on. -/
def further (first : Nat × Function) : Nat × Function :=
  (first.1 + 1, first.2)

theorem ordered_further {firsts : List (Nat × Function)}
    (h : firsts.Pairwise fun a b => a.1 < b.1) :
    (firsts.map further).Pairwise fun a b => a.1 < b.1 :=
  List.pairwise_map.mpr (h.imp Nat.succ_lt_succ)

theorem zero_not_mem_further (firsts : List (Nat × Function)) (decl : Function) :
    (0, decl) ∉ firsts.map further := by
  intro hmem
  obtain ⟨first, -, hfirst⟩ := List.mem_map.mp hmem
  exact absurd (congrArg Prod.fst hfirst) (Nat.succ_ne_zero _)

theorem succ_mem_further_iff {firsts : List (Nat × Function)} {position : Nat} :
    (position + 1, decl) ∈ firsts.map further ↔ (position, decl) ∈ firsts := by
  constructor
  · intro hmem
    obtain ⟨⟨earlier, other⟩, hfirst, hsame⟩ := List.mem_map.mp hmem
    cases hsame
    exact hfirst
  · intro hmem
    exact List.mem_map.mpr ⟨_, hmem, rfl⟩

theorem Lists.test {firsts : List (Nat × Function)}
    (h : Lists filter (decl.name.lexeme :: seen) rest firsts) (hqualifies : Qualifies filter decl)
    (hnew : decl.name.lexeme ∉ seen) :
    Lists filter seen (.function decl :: rest) ((0, decl) :: firsts.map further) := by
  constructor
  · have hfirst : ∀ later ∈ firsts.map further, 0 < later.1 := by
      intro later hlater
      obtain ⟨first, -, rfl⟩ := List.mem_map.mp hlater
      exact Nat.succ_pos _
    exact List.pairwise_cons.mpr ⟨hfirst, ordered_further h.ordered⟩
  · intro position other
    cases position with
    | zero =>
        rw [firstTest_zero_iff, List.mem_cons, or_iff_left (zero_not_mem_further firsts other)]
        constructor
        · intro hsame
          cases hsame
          exact ⟨⟨rfl, hqualifies⟩, hnew⟩
        · rintro ⟨⟨hsame, -⟩, -⟩
          cases hsame
          rfl
    | succ position =>
        rw [firstTest_succ_iff, List.mem_cons, succ_mem_further_iff, h.mem_iff, List.mem_cons,
          not_or]
        constructor
        · rintro (hsame | ⟨hfirst, hother, hseen⟩)
          · cases hsame
          · have hnone : ∀ earlier, Stmt.function decl = .function earlier →
                Qualifies filter earlier → earlier.name.lexeme ≠ other.name.lexeme := by
              intro earlier hearlier _
              cases hearlier
              exact Ne.symm hother
            exact ⟨⟨hfirst, hnone⟩, hseen⟩
        · rintro ⟨⟨hfirst, hother⟩, hseen⟩
          exact .inr ⟨hfirst, Ne.symm (hother decl rfl hqualifies), hseen⟩

theorem Lists.other {firsts : List (Nat × Function)} (h : Lists filter seen rest firsts)
    (hother : ∀ decl, statement = .function decl → Qualifies filter decl →
      decl.name.lexeme ∈ seen) :
    Lists filter seen (statement :: rest) (firsts.map further) := by
  constructor
  · exact ordered_further h.ordered
  · intro position decl
    cases position with
    | zero =>
        rw [firstTest_zero_iff, iff_false_left (zero_not_mem_further firsts decl)]
        rintro ⟨⟨hsame, hqualifies⟩, hnew⟩
        exact hnew (hother decl hsame hqualifies)
    | succ position =>
        rw [firstTest_succ_iff, succ_mem_further_iff, h.mem_iff]
        constructor
        · rintro ⟨hfirst, hnew⟩
          have hnone : ∀ earlier, statement = .function earlier → Qualifies filter earlier →
              earlier.name.lexeme ≠ decl.name.lexeme := by
            intro earlier hearlier hqualifies hsame
            rw [← hsame] at hnew
            exact hnew (hother earlier hearlier hqualifies)
          exact ⟨⟨hfirst, hnone⟩, hnew⟩
        · rintro ⟨⟨hfirst, -⟩, hnew⟩
          exact ⟨hfirst, hnew⟩

/-- The names of tests are those of the first declarations that count, in order. -/
theorem exists_lists (filter : Option String) (statements : List Stmt) : ∀ seen,
    ∃ firsts, testNames filter seen statements = firsts.map (·.2.name) ∧
      Lists filter seen statements firsts := by
  induction statements with
  | nil =>
      intro seen
      refine ⟨[], rfl, .nil, fun position decl => ?_⟩
      constructor
      · intro hmem
        cases hmem
      · rintro ⟨hfirst, -⟩
        cases hfirst.stands
  | cons statement rest ih =>
      intro seen
      by_cases htest : ∃ decl, statement = .function decl ∧ Qualifies filter decl ∧
          decl.name.lexeme ∉ seen
      · obtain ⟨decl, rfl, hqualifies, hnew⟩ := htest
        obtain ⟨firsts, hnames, hlists⟩ := ih (decl.name.lexeme :: seen)
        refine ⟨(0, decl) :: firsts.map further, ?_, ?_⟩
        · rw [testNames_cons_of_test hqualifies hnew, hnames, List.map_cons, List.map_map]
          rfl
        · exact hlists.test hqualifies hnew
      · have hother : ∀ decl, statement = .function decl → Qualifies filter decl →
            decl.name.lexeme ∈ seen := by
          intro decl hdecl hqualifies
          by_contra hnew
          exact htest ⟨decl, hdecl, hqualifies, hnew⟩
        obtain ⟨firsts, hnames, hlists⟩ := ih seen
        refine ⟨firsts.map further, ?_, ?_⟩
        · rw [testNames_cons_of_other hother, hnames, List.map_map]
          rfl
        · exact hlists.other hother

theorem Lists.nodup {statements : List Stmt} {firsts : List (Nat × Function)}
    (h : Lists filter seen statements firsts) : (firsts.map (·.2.name.lexeme)).Nodup := by
  apply List.pairwise_map.mpr
  apply h.ordered.imp_of_mem
  intro a b ha hb hlt
  have hfirst := ((h.mem_iff a.1 a.2).mp ha).1
  exact ((h.mem_iff b.1 b.2).mp hb).1.first a.1 hlt a.2 hfirst.stands hfirst.qualifies

end Listing

/-! ## Running tests -/

/-- The function that a name stands for as a test at some moment: the global of that name holds a
function, and of that one and its overloads it is the first that takes no arguments. -/
def Provides (m : Machine) (name : String) (test : Fn) : Prop :=
  ∃ f, m.global? name = some (.function f) ∧
    m.store.FirstTaking (f :: m.store.overloadsOf f) [] test

/-- What has become of a test. -/
inductive Tested (fuel : Nat) (before : Machine) (name : Token) : TestOutcome → Machine → Prop where
  | passed {test : Fn} {value : Value} {store : Store} (htest : before.Provides name.lexeme test)
      (hrun : Exec.callFn before.context fuel test [] before.store = .ok value store) :
      Tested fuel before name ⟨name.lexeme, name.span, none⟩ { before with store }
  | failed {test : Fn} {failure : Failure} {store : Store}
      (htest : before.Provides name.lexeme test)
      (hrun : Exec.callFn before.context fuel test [] before.store = .error failure store) :
      Tested fuel before name ⟨name.lexeme, name.span, some (Signal.failed failure).message⟩
        { before with store }
  | missing (hnone : ∀ test, ¬before.Provides name.lexeme test) :
      Tested fuel before name
        ⟨name.lexeme, name.span, some (RuntimeFault.undefinedVariable name.lexeme).message⟩ before

/-- Tests have been run one after the other, each once and on the machine that the one before it
left. -/
inductive TestedInTurn (fuel : Nat) : Machine → List Token → List TestOutcome → Machine → Prop where
  | done (m : Machine) : TestedInTurn fuel m [] [] m
  | next {m m' m'' : Machine} {name : Token} {names : List Token} {outcome : TestOutcome}
      {outcomes : List TestOutcome} (h : Tested fuel m name outcome m')
      (hrest : TestedInTurn fuel m' names outcomes m'') :
      TestedInTurn fuel m (name :: names) (outcome :: outcomes) m''

section Running

variable {m m' : Machine} {name : String} {test : Fn} {fuel : Nat}

theorem testFunction?_eq_some_iff : m.testFunction? name = some test ↔ m.Provides name test := by
  unfold testFunction? Provides
  cases m.global? name with
  | none => simp
  | some value =>
      cases value with
      | function f => simp [Store.findOverload_eq_some_iff]
      | _ => simp

theorem runTest_tested (m : Machine) (fuel : Nat) (name : Token) :
    Tested fuel m name (m.runTest fuel name).1 (m.runTest fuel name).2 := by
  unfold runTest
  cases hfunction : m.testFunction? name.lexeme with
  | none =>
      apply Tested.missing
      intro test htest
      rw [testFunction?_eq_some_iff.mpr htest] at hfunction
      cases hfunction
  | some test =>
      have htest := testFunction?_eq_some_iff.mp hfunction
      cases hrun : Exec.callFn m.context fuel test [] m.store with
      | ok value store =>
          dsimp only
          rw [hrun]
          exact .passed htest hrun
      | error failure store =>
          dsimp only
          rw [hrun]
          exact .failed htest hrun

theorem runEach_testedInTurn (fuel : Nat) (names : List Token) : ∀ m : Machine,
    TestedInTurn fuel m names (runEach fuel m names).1 (runEach fuel m names).2 := by
  induction names with
  | nil =>
      intro m
      exact .done m
  | cons name rest ih =>
      intro m
      exact .next (runTest_tested m fuel name) (ih (m.runTest fuel name).2)

/-- A test has passed if and only if its name stood for a function, and calling that one
returned. -/
theorem Tested.failure_eq_none_iff {name : Token} {outcome : TestOutcome}
    (h : Tested fuel m name outcome m') : outcome.failure = none ↔
      ∃ test value store, m.Provides name.lexeme test ∧
        Exec.callFn m.context fuel test [] m.store = .ok value store := by
  cases h with
  | @passed test value store htest hrun =>
      constructor
      · intro _
        exact ⟨test, value, store, htest, hrun⟩
      · intro _
        rfl
  | failed htest hrun =>
      constructor
      · intro hnone
        cases hnone
      · rintro ⟨other, value, store, hother, hreturned⟩
        have hsame := (testFunction?_eq_some_iff.mpr htest).symm.trans
          (testFunction?_eq_some_iff.mpr hother)
        cases hsame
        rw [hrun] at hreturned
        cases hreturned
  | missing hnone =>
      constructor
      · intro hfailure
        cases hfailure
      · rintro ⟨test, value, store, htest, -⟩
        exact absurd htest (hnone test)

theorem Tested.name_eq {name : Token} {outcome : TestOutcome} (h : Tested fuel m name outcome m') :
    outcome.name = name.lexeme := by
  cases h <;> rfl

theorem TestedInTurn.names_eq {names : List Token} {outcomes : List TestOutcome}
    (h : TestedInTurn fuel m names outcomes m') :
    outcomes.map TestOutcome.name = names.map Token.lexeme := by
  induction h with
  | done m => rfl
  | next h _ ih => rw [List.map_cons, List.map_cons, h.name_eq, ih]

/-- Each outcome is that of one test, between those in front of it and those behind it. -/
theorem TestedInTurn.split {names : List Token} {front back : List TestOutcome}
    {outcome : TestOutcome} (h : TestedInTurn fuel m names (front ++ outcome :: back) m') :
    ∃ earlier name later before after, names = earlier ++ name :: later ∧
      TestedInTurn fuel m earlier front before ∧ Tested fuel before name outcome after ∧
      TestedInTurn fuel after later back m' := by
  induction front generalizing m names with
  | nil =>
      cases h with
      | next h hrest => exact ⟨[], _, _, _, _, rfl, .done _, h, hrest⟩
  | cons first front ih =>
      cases h with
      | next hfirst hrest =>
          obtain ⟨earlier, name, later, before, after, rfl, hfront, hname, hback⟩ := ih hrest
          exact ⟨_ :: earlier, name, later, before, after, rfl, .next hfirst hfront, hname, hback⟩

end Running

/-- If the top level of a program ends normally, there is one outcome for each name of a test, in
the order of the first declarations that count, and no other one.  The tests are run one after the
other, each once, whatever comes of those in front.  A test has passed if and only if the global of
its name held, when it was its turn, a function that takes no arguments or has such an overload,
and calling that one returned without an error. -/
theorem tests_run_in_turn {m m₀ : Machine} {fuel : Nat} {statements : List Stmt}
    (hended : m.interpret fuel statements = (.ok (), m₀)) (filter : Option String) :
    ∃ (firsts : List (Nat × Function)) (outcomes : List TestOutcome) (m' : Machine),
      m.runTests fuel filter statements = (.ok outcomes, m') ∧
      (firsts.Pairwise fun a b => a.1 < b.1) ∧
      (∀ position decl, (position, decl) ∈ firsts ↔ FirstTest filter statements position decl) ∧
      outcomes.map TestOutcome.name = firsts.map (·.2.name.lexeme) ∧
      (outcomes.map TestOutcome.name).Nodup ∧
      TestedInTurn fuel m₀ (firsts.map (·.2.name)) outcomes m' ∧
      ∀ front outcome back, outcomes = front ++ outcome :: back →
        ∃ earlier name later before after, firsts.map (·.2.name) = earlier ++ name :: later ∧
          TestedInTurn fuel m₀ earlier front before ∧ Tested fuel before name outcome after ∧
          TestedInTurn fuel after later back m' ∧
          (outcome.failure = none ↔ ∃ test value store, before.Provides outcome.name test ∧
            Exec.callFn before.context fuel test [] before.store = .ok value store) := by
  obtain ⟨firsts, hnames, hlists⟩ := exists_lists filter statements []
  have hturn := runEach_testedInTurn fuel (firsts.map (·.2.name)) m₀
  cases hrun : runEach fuel m₀ (firsts.map (·.2.name)) with
  | mk outcomes m' =>
      rw [hrun] at hturn
      have hruns : m.runTests fuel filter statements = (.ok outcomes, m') := by
        unfold runTests
        rw [hended, hnames]
        dsimp only
        rw [hrun]
      have hfirsts : ∀ position decl, (position, decl) ∈ firsts ↔
          FirstTest filter statements position decl := by
        intro position decl
        rw [hlists.mem_iff, and_iff_left List.not_mem_nil]
      have hlexemes : outcomes.map TestOutcome.name = firsts.map (·.2.name.lexeme) := by
        rw [hturn.names_eq, List.map_map]
        rfl
      have hnodup : (outcomes.map TestOutcome.name).Nodup := by
        rw [hlexemes]
        exact hlists.nodup
      refine ⟨firsts, outcomes, m', hruns, hlists.ordered, hfirsts, hlexemes, hnodup, hturn, ?_⟩
      intro front outcome back hsplit
      rw [hsplit] at hturn
      obtain ⟨earlier, name, later, before, after, heq, hfront, hname, hback⟩ := hturn.split
      have hpassed := hname.failure_eq_none_iff
      rw [← hname.name_eq] at hpassed
      exact ⟨earlier, name, later, before, after, heq, hfront, hname, hback, hpassed⟩

/-- `function name(params); begin body end` -/
def testDecl (name : String) (line : Nat) (params : List Param) (body : List Stmt) : Stmt :=
  .function ⟨.function, ⟨.identifier, name, ⟨line, 10⟩, "suite.pas"⟩, params, "", body⟩

/-- Two tests, the first of which fails and is declared again, and three functions besides. -/
def suite : List Stmt :=
  let keyword : Token := ⟨.keyword .raise, "raise", ⟨3, 3⟩, "suite.pas"⟩
  let param : Param := ⟨⟨.identifier, "X", ⟨9, 14⟩, "suite.pas"⟩, anyType⟩
  [testDecl "TestA" 1 [] [.raise keyword (some (.literal (.integer 1)))], testDecl "Helper" 5 [] [],
    testDecl "TestArguments" 9 [param] [], testDecl "testa" 13 [] [], testDecl "TestB" 17 [] [],
    testDecl "TestA" 21 [] []]

theorem tests_run_in_turn_suite :
    ∃ m₀, (start (.still 0)).interpret 2 suite = (.ok (), m₀) ∧
      ∃ (firsts : List (Nat × Function)) (outcomes : List TestOutcome) (m' : Machine),
        (start (.still 0)).runTests 2 (some "A") suite = (.ok outcomes, m') ∧
        (∀ position decl, (position, decl) ∈ firsts ↔
          FirstTest (some "A") suite position decl) ∧
        outcomes.map (fun outcome => (outcome.name, outcome.failure)) =
          [("TestA", some "1"), ("testa", none)] ∧
        TestedInTurn 2 m₀ (firsts.map (·.2.name)) outcomes m' := by
  have hended : (match (start (.still 0)).interpret 2 suite with
      | (.ok _, _) => true
      | (.error _, _) => false) = true := by
    decide +kernel
  have houtcomes : (match (start (.still 0)).runTests 2 (some "A") suite with
      | (.ok outcomes, _) => outcomes.map fun outcome => (outcome.name, outcome.failure)
      | (.error _, _) => []) = [("TestA", some "1"), ("testa", none)] := by
    decide +kernel
  cases hrun : (start (.still 0)).interpret 2 suite with
  | mk result m₀ =>
      rw [hrun] at hended
      cases result with
      | error signal => cases hended
      | ok _ =>
          obtain ⟨firsts, outcomes, m', htests, -, hfirsts, -, -, hturn, -⟩ :=
            tests_run_in_turn hrun (some "A")
          rw [htests] at houtcomes
          exact ⟨m₀, rfl, firsts, outcomes, m', htests, hfirsts, houtcomes, hturn⟩

end Machine

end MiniPascal
