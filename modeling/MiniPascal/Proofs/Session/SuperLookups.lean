import MiniPascal.Proofs.Session.Courses

/-!
# Lookups of methods of superclasses

Wherever `super` stands, in a function inside a method or in a class inside a method of another
class, the scopes that the resolver counts are the frames that the class and the method were given:
the distance of `super` leads to the superclass, and one frame nearer is the instance.
-/

namespace MiniPascal

namespace Course

/-- Whatever is compiled and run or tested: each evaluation of `super` finds the superclass at the
distance of its number and the instance one frame nearer, so all that may be missing is the
method. -/
theorem super_reaches_class (options : CompileOptions) (host : Host) (jobs : List Job) :
    let c := (start options host).workAll jobs
    c.session = (Session.start options host).workAll jobs ∧
      ∀ e ∈ c.runs.entries, ∀ id keyword method,
        e.activity = .expression (.super id keyword method) →
        e.LooksUpSuper id method ∧
          ((∃ f, e.ending = .value (.function f)) ∨ e.ending =
            .stopped (.failed (.error ⟨method, .undefinedProperty method.lexeme, none⟩))) := by
  refine ⟨workAll_session (.start host) jobs, ?_⟩
  intro e he id keyword method hactivity
  have hvouched := ((valid_start options host).workAll jobs).vouched.entries.vouched e he
  unfold Entry.Vouched at hvouched
  rw [hactivity] at hvouched
  refine ⟨hvouched, ?_⟩
  rcases hvouched with ⟨nearer, superclass, self, -, -, -, hending⟩
  rw [hending]
  cases superclass.findMethod method.lexeme with
  | some found => exact .inl ⟨_, rfl⟩
  | none => exact .inr rfl

/-- In a method of one class, another class is declared whose method uses `super`, and so does a
function, for a method that exists and for one that does not. -/
def nestedClasses : List Job :=
  [⟨⟨.empty, 20, ⟨"main.pas",
    "class A; begin M; begin print 'A'; end end " ++
    "class B(A); begin Run; begin " ++
    "class C(A); begin M; begin super.M(); end end " ++
    "procedure Inner; begin super.M(); super.N(); end " ++
    "C().M(); Inner(); end end B().Run();"⟩⟩, .run⟩]

/-- Whether an entry is that of `super` with a method, evaluated at a depth. -/
def looksUp (name : String) (depth : Nat) (e : Entry) : Bool :=
  match e.activity with
  | .expression (.super _ _ method) =>
      method.lexeme == name && e.before.cx.env.length == depth
  | _ => false

theorem exists_of_looksUp {entries : List Entry} {name : String} {depth : Nat}
    (h : entries.any (looksUp name depth) = true) :
    ∃ e ∈ entries, ∃ id keyword method, e.activity = .expression (.super id keyword method) ∧
      method.lexeme = name ∧ e.before.cx.env.length = depth := by
  rcases List.any_eq_true.mp h with ⟨e, he, hcheck⟩
  unfold looksUp at hcheck
  split at hcheck
  · next id keyword method hactivity =>
      rw [Bool.and_eq_true_iff, beq_iff_eq, beq_iff_eq] at hcheck
      exact ⟨e, he, id, keyword, method, hactivity, hcheck.1, hcheck.2⟩
  · cases hcheck

theorem super_reaches_class_nestedClasses :
    let c := (start {} (.still 0)).workAll nestedClasses
    (∃ e ∈ c.runs.entries, ∃ id keyword method,
      e.activity = .expression (.super id keyword method) ∧ method.lexeme = "M" ∧
      e.before.cx.env.length = 7 ∧ e.LooksUpSuper id method) ∧
    ∃ e ∈ c.runs.entries, ∃ id keyword method,
      e.activity = .expression (.super id keyword method) ∧ method.lexeme = "N" ∧
      e.before.cx.env.length = 5 ∧ e.LooksUpSuper id method := by
  have hreaches := (super_reaches_class {} (.still 0) nestedClasses).2
  have hfound : let c := (start {} (.still 0)).workAll nestedClasses
      c.runs.entries.any (looksUp "M" 7) = true ∧ c.runs.entries.any (looksUp "N" 5) = true := by
    decide +kernel
  generalize (start {} (.still 0)).workAll nestedClasses = c at *
  rcases hfound with ⟨hM, hN⟩
  rcases exists_of_looksUp hM with ⟨e, he, id, keyword, method, hactivity, hname, hdepth⟩
  rcases exists_of_looksUp hN with ⟨e', he', id', keyword', method', hactivity', hname', hdepth'⟩
  exact ⟨⟨e, he, id, keyword, method, hactivity, hname, hdepth,
      (hreaches e he id keyword method hactivity).1⟩,
    e', he', id', keyword', method', hactivity', hname', hdepth',
    (hreaches e' he' id' keyword' method' hactivity').1⟩

end Course

end MiniPascal
