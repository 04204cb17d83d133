import Mathlib
import MiniPascal.Machine.Eval
import MiniPascal.Proofs.Sequence

/-!
# Maps

A map is filled by its literal and by calls of `put`.  Each key stands in it once, in the place
where it came in first, with the item that was put under it last; so what `get` and `contains`
answer and how long the map is can be read off the puts.
-/

namespace MiniPascal

/-! ## Equality of keys -/

namespace Value

/-- The double that is not a number is the only value that is not equal to itself. -/
theorem same_self_iff {v : Value} : v.same v = true ↔ v ≠ .double .nan := by
  cases v with
  | double x =>
      show (x == x) = true ↔ _
      rw [Float.beq_self_iff]
      simp only [ne_eq, double.injEq]
  | _ => simp [same]

theorem same_comm (a b : Value) : a.same b = b.same a := by
  cases a <;> cases b
  case double.double x y =>
      show (x == y) = (y == x)
      rw [Bool.eq_iff_iff, Float.beq_iff_ne_nan_and_eq, Float.beq_iff_ne_nan_and_eq]
      tauto
  all_goals simp only [same, Bool.beq_comm]

theorem same_congr {a b : Value} (h : a.same b = true) (c : Value) : a.same c = b.same c := by
  cases a <;> cases b <;> try cases h
  case double.double x y =>
      cases c <;> try rfl
      next z =>
        show (x == z) = (y == z)
        replace h : (x == y) = true := h
        rw [Float.beq_iff_ne_nan_and_eq] at h
        rw [Bool.eq_iff_iff, Float.beq_iff_ne_nan_and_eq, Float.beq_iff_ne_nan_and_eq]
        grind
  all_goals cases c <;> simp_all only [same, Bool.and_eq_true, beq_iff_eq]

theorem same_equivalence :
    Equivalence fun a b : {v : Value // v ≠ .double .nan} => a.1.same b.1 = true where
  refl a := same_self_iff.mpr a.2
  symm h := (same_comm _ _).trans h
  trans h h' := (same_congr h _).trans h'

end Value

/-! ## Entries and puts -/

def putAll (puts entries : List (Value × Value)) : List (Value × Value) :=
  puts.foldl (fun entries put => putEntry put.1 put.2 entries) entries

def lastPut? (key : Value) (puts : List (Value × Value)) : Option Value :=
  (puts.reverse.find? fun put => put.1.same key).map Prod.snd

/-- The keys of puts, each in the place where it came in first. -/
def firstKeys (puts : List (Value × Value)) : List Value :=
  (puts.map Prod.fst).eraseDupsBy fun later earlier => earlier.same later

theorem putAll_append (puts more entries : List (Value × Value)) :
    putAll (puts ++ more) entries = putAll more (putAll puts entries) :=
  List.foldl_append

section Entries

variable {key value : Value}

theorem lookupEntry_putEntry (other : Value) (entries : List (Value × Value)) :
    lookupEntry other (putEntry key value entries) =
      if key.same other then some value else lookupEntry other entries := by
  induction entries with
  | nil => rfl
  | cons entry rest ih =>
      rcases entry with ⟨existing, old⟩
      cases hsame : existing.same key with
      | true =>
          simp only [putEntry, lookupEntry, hsame, Value.same_congr hsame other, if_true]
          split <;> rfl
      | false =>
          simp only [putEntry, lookupEntry, hsame, ih, Bool.false_eq_true, if_false]
          cases hexisting : existing.same other with
          | true =>
              -- A key cannot be equal to both, for they are not equal to each other.
              have hkey : key.same other = false := by
                rw [Value.same_comm, ← Value.same_congr hexisting]
                exact hsame
              simp only [hkey, Bool.false_eq_true, if_true, if_false]
          | false => rfl

theorem lookupEntry_putAll (puts entries : List (Value × Value)) :
    lookupEntry key (putAll puts entries) = (lastPut? key puts).or (lookupEntry key entries) := by
  induction puts generalizing entries with
  | nil => rfl
  | cons put rest ih =>
      have hlast : lastPut? key (put :: rest) =
          (lastPut? key rest).or (if put.1.same key then some put.2 else none) := by
        unfold lastPut?
        rw [List.reverse_cons, List.find?_append, Option.map_or]
        cases hsame : put.1.same key <;> simp [hsame]
      rw [putAll, List.foldl_cons, ← putAll, ih, lookupEntry_putEntry, hlast, Option.or_assoc]
      split <;> rfl

theorem isSome_lastPut? (puts : List (Value × Value)) :
    (lastPut? key puts).isSome = puts.any fun put => put.1.same key := by
  rw [lastPut?, Option.isSome_map, List.isSome_find?, List.any_reverse]

/-- A put under a new key adds the key behind the others; any other put leaves the keys alone. -/
theorem keys_putEntry (entries : List (Value × Value)) :
    (putEntry key value entries).map Prod.fst = entries.map Prod.fst ++
      if (entries.map Prod.fst).any (·.same key) then [] else [key] := by
  induction entries with
  | nil => rfl
  | cons entry rest ih =>
      rcases entry with ⟨existing, old⟩
      cases hsame : existing.same key with
      | true => simp [putEntry, hsame]
      | false =>
          rw [putEntry, hsame, if_neg Bool.false_ne_true, List.map_cons, ih, List.map_cons,
            List.any_cons, hsame, Bool.false_or, List.cons_append]

/-- The keys of puts that are not yet there come in one after the other, each of them once. -/
theorem keys_putAll (puts entries : List (Value × Value)) :
    (putAll puts entries).map Prod.fst = entries.map Prod.fst ++
      ((puts.map Prod.fst).filter fun key => !(entries.map Prod.fst).any (·.same key)).eraseDupsBy
        fun later earlier => earlier.same later := by
  induction puts generalizing entries with
  | nil => simp [putAll]
  | cons put rest ih =>
      rw [putAll, List.foldl_cons, ← putAll, ih, keys_putEntry, List.map_cons]
      cases hnew : (entries.map Prod.fst).any (·.same put.1) with
      | true =>
          rw [List.filter_cons_of_neg (by simp only [hnew]; decide), if_pos rfl, List.append_nil]
      | false =>
          rw [List.filter_cons_of_pos (by simp only [hnew]; decide), if_neg Bool.false_ne_true,
            List.eraseDupsBy_cons, List.filter_filter, List.append_assoc, List.singleton_append]
          congr 3
          refine List.filter_congr fun key _ => ?_
          rw [List.any_append, Bool.not_or]
          cases hsame : put.1.same key <;> simp [hsame]

theorem keys_pairwise_putEntry {entries : List (Value × Value)}
    (h : (entries.map Prod.fst).Pairwise fun a b => a.same b = false) :
    ((putEntry key value entries).map Prod.fst).Pairwise fun a b => a.same b = false := by
  rw [keys_putEntry]
  split
  · rwa [List.append_nil]
  · next hnew =>
      refine List.pairwise_append.mpr ⟨h, List.pairwise_singleton _ _, ?_⟩
      intro a ha b hb
      rw [List.mem_singleton.mp hb]
      by_contra hsame
      exact hnew (List.any_eq_true.mpr ⟨a, ha, Bool.eq_true_of_not_eq_false hsame⟩)

theorem keys_pairwise (puts : List (Value × Value)) {entries : List (Value × Value)}
    (h : (entries.map Prod.fst).Pairwise fun a b => a.same b = false) :
    ((putAll puts entries).map Prod.fst).Pairwise fun a b => a.same b = false := by
  induction puts generalizing entries with
  | nil => exact h
  | cons put rest ih => exact ih (keys_pairwise_putEntry h)

end Entries

/-! ## Maps and their puts -/

namespace Eval

/-- The values of the keys and items of a map literal, from left to right. -/
def pairs (call : Caller) (cx : Context) : List (Expr × Expr) → Eval (List (Value × Value))
  | [] => pure []
  | (key, item) :: rest => do
      let keyValue ← expr call cx key
      let itemValue ← expr call cx item
      let more ← pairs call cx rest
      return (keyValue, itemValue) :: more

theorem entries_eq_putAll (call : Caller) (cx : Context) (items : List (Expr × Expr)) :
    ∀ contents, entries call cx items contents =
      pairs call cx items >>= fun puts => pure (putAll puts contents) := by
  induction items with
  | nil =>
      intro contents
      rw [entries, pairs, pure_bind]
      rfl
  | cons item rest ih =>
      intro contents
      rcases item with ⟨key, item⟩
      simp only [entries, pairs, bind_assoc, pure_bind, ih]
      rfl

end Eval

/-- A map has been filled by puts: its literal has put its items into it in order, or it was made
empty, and calls of `put` have followed.  Whatever else has happened left its entries alone. -/
inductive Store.Filled (id : Nat) : List (Value × Value) → Store → Prop
  | literal {call : Eval.Caller} {cx : Context} {bracket : Token} {items : List (Expr × Expr)}
      {puts : List (Value × Value)} {s between s' : Store}
      (hpairs : Eval.pairs call cx items s = .ok puts between)
      (hliteral : Eval.expr call cx (.map bracket items) s = .ok (.map id) s') :
      Filled id puts s'
  | made {call : Eval.Caller} {cx : Context} {native : Native} {paren : Token} {s s' : Store}
      (hnative : native.op = .builtin .map)
      (hcall : Eval.applyValue call cx (.native native) paren [] s = .ok (.map id) s') :
      Filled id [] s'
  | put {call : Eval.Caller} {cx : Context} {native : Native} {paren : Token}
      {puts : List (Value × Value)} {key item result : Value} {s s' : Store}
      (hs : Filled id puts s) (hnative : native.op = .member .mapPut id)
      (hcall : Eval.applyValue call cx (.native native) paren [key, item] s = .ok result s') :
      Filled id (puts ++ [(key, item)]) s'
  | other {puts : List (Value × Value)} {s s' : Store} (hs : Filled id puts s)
      (hsame : s'.maps[id]? = s.maps[id]?) : Filled id puts s'

namespace Store

variable {id : Nat} {puts : List (Value × Value)} {s : Store}

theorem Filled.getElem?_maps (h : s.Filled id puts) : s.maps[id]? = some (putAll puts []) := by
  induction h with
  | literal hpairs hliteral =>
      rw [Eval.expr, Eval.entries_eq_putAll, bind_assoc, bind_of_ok hpairs] at hliteral
      cases hliteral
      exact Array.getElem?_push_size
  | @made call cx native paren s s' hnative hcall =>
      rcases native with ⟨number, op⟩
      cases hnative
      cases hcall
      exact Array.getElem?_push_size
  | @put call cx native paren puts key item result s s' _ hnative hcall ih =>
      rcases native with ⟨number, op⟩
      cases hnative
      have hrun : Eval.applyValue call cx (.native ⟨number, .member .mapPut id⟩) paren [key, item]
          s = .ok item (s.updateMap id (putEntry key item)) := rfl
      cases hrun.symm.trans hcall
      show (s.maps.modify id (putEntry key item))[id]? = _
      rw [Array.getElem?_modify, if_pos rfl, ih, putAll_append]
      rfl
  | other _ hsame ih => rw [hsame, ih]

theorem Filled.mapEntries (h : s.Filled id puts) : s.mapEntries id = putAll puts [] := by
  rw [Store.mapEntries, Array.getD_eq_getD_getElem?, h.getElem?_maps]
  rfl

theorem Filled.keys (h : s.Filled id puts) : (s.mapEntries id).map Prod.fst = firstKeys puts := by
  rw [h.mapEntries, keys_putAll, firstKeys]
  simp

end Store

/-- The methods of maps by their names in small letters. -/
def Store.mapMethods : List (String × ContainerOp) :=
  [("get", .mapGet), ("put", .mapPut), ("contains", .mapContains)]

theorem Store.member?_map {s : Store} {id : Nat} {name : String} {op : ContainerOp}
    (h : (name, op) ∈ mapMethods) :
    s.member? (.map id) name = some (some (.method op id)) := by
  simp only [mapMethods, List.mem_cons, Prod.mk.injEq, List.not_mem_nil, or_false] at h
  rcases h with ⟨rfl, rfl⟩ | ⟨rfl, rfl⟩ | ⟨rfl, rfl⟩ <;> rfl

namespace Eval

variable {call : Caller} {cx : Context} {paren : Token} {native : Native} {id : Nat} {s : Store}

/-- A method that is named on a map is a native function of that map. -/
theorem getProperty_map {op : ContainerOp} {name : Token}
    (h : s.member? (.map id) (Text.lower name.lexeme) = some (some (.method op id))) :
    getProperty (.map id) name s =
      .ok (.native ⟨s.nativeCount, .member op id⟩) { s with nativeCount := s.nativeCount + 1 } := by
  show (get >>= _ : Eval Value) s = _
  rw [get_bind, h]
  rfl

theorem applyValue_mapGet (h : native.op = .member .mapGet id) (key : Value) :
    applyValue call cx (.native native) paren [key] s =
      .ok ((lookupEntry key (s.mapEntries id)).getD .nil) s := by
  rcases native with ⟨number, op⟩
  cases h
  rfl

theorem applyValue_mapContains (h : native.op = .member .mapContains id) (key : Value) :
    applyValue call cx (.native native) paren [key] s =
      .ok (.boolean (lookupEntry key (s.mapEntries id)).isSome) s := by
  rcases native with ⟨number, op⟩
  cases h
  rfl

theorem applyValue_length (h : native.op = .builtin .length) :
    applyValue call cx (.native native) paren [.map id] s =
      .ok (Store.count (s.mapEntries id).length) s := by
  rcases native with ⟨number, op⟩
  cases h
  rfl

end Eval

/-! ## What a map answers -/

namespace Store

/-- A map gives back what was put last under an equal key, and has the keys that were put, each of
them once, in the order in which they came in first.  Keys are equal to themselves but for the
double that is not a number; on the others equality is an equivalence. -/
theorem filled_map_answers {id : Nat} {puts : List (Value × Value)} {s : Store}
    (h : s.Filled id puts) :
    (Equivalence fun a b : {v : Value // v ≠ .double .nan} => a.1.same b.1 = true) ∧
    ((s.mapEntries id).map Prod.fst).Pairwise (fun a b => a.same b = false) ∧
    (s.mapEntries id).map Prod.fst = firstKeys puts ∧
    (∀ (name : Token) (op : ContainerOp),
      (Text.lower name.lexeme, op) ∈ mapMethods → ∃ native s',
        Eval.getProperty (.map id) name s = .ok (.native native) s' ∧
          native.op = .member op id ∧ s'.Filled id puts) ∧
    ∀ (call : Eval.Caller) (cx : Context) (paren : Token) (native : Native),
      (native.op = .member .mapGet id → ∀ key,
        Eval.applyValue call cx (.native native) paren [key] s =
          .ok ((lastPut? key puts).getD .nil) s) ∧
      (native.op = .member .mapContains id → ∀ key,
        Eval.applyValue call cx (.native native) paren [key] s =
          .ok (.boolean (puts.any fun put => put.1.same key)) s) ∧
      (native.op = .builtin .length →
        Eval.applyValue call cx (.native native) paren [.map id] s =
          .ok (count (firstKeys puts).length) s) := by
  have hlookup (key : Value) : lookupEntry key (s.mapEntries id) = lastPut? key puts := by
    rw [h.mapEntries, lookupEntry_putAll]
    exact Option.or_none
  refine ⟨Value.same_equivalence, ?_, h.keys, ?_, ?_⟩
  · rw [h.mapEntries]
    exact keys_pairwise puts .nil
  · intro name op hop
    exact ⟨_, _, Eval.getProperty_map (member?_map hop), rfl, h.other rfl⟩
  · intro call cx paren native
    refine ⟨fun hget key => ?_, fun hcontains key => ?_, fun hlength => ?_⟩
    · rw [Eval.applyValue_mapGet hget, hlookup]
    · rw [Eval.applyValue_mapContains hcontains, hlookup, isSome_lastPut?]
    · rw [Eval.applyValue_length hlength, ← h.keys, List.length_map]

def openBracket : Token where
  kind := .symbol .leftBracket
  lexeme := "["
  position := ⟨1, 1⟩
  file := ""

/-- The literal `['a': 1, true: 2]`, after which `'a'` is put anew. -/
theorem filled_map_answers_replaced :
    let puts : List (Value × Value) :=
      [(.char 'a', .integer 1), (.boolean true, .integer 2), (.char 'a', .integer 3)]
    ∃ s : Store, s.Filled 0 puts ∧
      (s.mapEntries 0).map Prod.fst = [.char 'a', .boolean true] ∧
      Eval.applyValue (fun _ _ => pure .nil) ⟨∅, .still 0, []⟩ (.native ⟨0, .member .mapGet 0⟩)
        openBracket [.char 'a'] s = .ok (.integer 3) s := by
  intro puts
  let items : List (Expr × Expr) :=
    [(.literal (.char 'a'), .literal (.integer 1)),
      (.literal (.boolean true), .literal (.integer 2))]
  let s := (empty.newMap (putAll (puts.take 2) [])).2
  have hpairs : Eval.pairs (fun _ _ => pure .nil) ⟨∅, .still 0, []⟩ items empty =
      .ok (puts.take 2) empty := rfl
  have hmap : Eval.expr (fun _ _ => pure .nil) ⟨∅, .still 0, []⟩ (.map openBracket items) empty =
      .ok (.map 0) s := rfl
  have hput : Eval.applyValue (fun _ _ => pure .nil) ⟨∅, .still 0, []⟩
      (.native ⟨0, .member .mapPut 0⟩) openBracket [.char 'a', .integer 3] s =
        .ok (.integer 3) (s.updateMap 0 (putEntry (.char 'a') (.integer 3))) := rfl
  have hfilled : Filled 0 puts _ := (Filled.literal hpairs hmap).put rfl hput
  have hanswers := filled_map_answers hfilled
  refine ⟨_, hfilled, hanswers.2.2.1, ?_⟩
  exact (hanswers.2.2.2.2 _ _ _ ⟨0, .member .mapGet 0⟩).1 rfl (.char 'a')

end Store

end MiniPascal
