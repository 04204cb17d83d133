/-!
# The host

What a program has from the machine it runs on: the time, memory for its arrays, and a place for its
output.  None of it is known beforehand, and no two calls need to be answered alike, so the answers
are functions of the number of the call.
-/

namespace MiniPascal

/-- The answers to the calls that a program makes, which are numbered from one. -/
structure Host where
  /-- The time in seconds. -/
  clock : Nat → Float
  /-- Whether there is memory for an array of so many elements. -/
  grants : Nat → Nat → Bool
  /-- Why a text is not written, if it is not. -/
  refusal? : Nat → Option String

namespace Host

/-- The most elements of an array on a host of which no more is known than the time. -/
def usualRoom : Nat := 178956970

/-- A host whose clock stands still, with room for arrays of a usual size, that writes all texts. -/
def still (now : Float) : Host where
  clock _ := now
  grants _ size := size ≤ usualRoom
  refusal? _ := none

instance : Coe Float Host := ⟨still⟩

end Host

end MiniPascal
