import MiniPascal.Text.Case

/-!
# Chains of parents

Classes name their parent, and that parent names its own.  Climbing such a chain ends at a name
without a parent, or at one that was met before: tables of parents may be cyclic.
-/

namespace MiniPascal

/-- Climbs from `current` and tells whether a name equal to `expected` up to letter case is met.
`key` says which names count as the same place, `seen` holds the places passed. -/
def climb (parent? : String → Option String) (key : String → String) (expected : String) :
    Nat → List String → Option String → Bool
  | _, _, none => false
  | 0, _, some _ => false
  | fuel + 1, seen, some name =>
      if Text.sameName name expected then true
      else if key name ∈ seen then false
      else climb parent? key expected fuel (key name :: seen) (parent? name)

end MiniPascal
