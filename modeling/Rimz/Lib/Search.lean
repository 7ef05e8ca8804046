import Rimz.Lib.Names

/-!
# Bounded search

A loop that tries one number after another. Its bound stands for the range of the counter, so a
search that fails is one the loop does not come back from.
-/

namespace Rimz.Lib

/-- The first `n` from `start` on that meets `p`, among the next `fuel`. -/
def findFrom (p : Nat → Bool) : Nat → Nat → Option Nat
  | 0, _ => none
  | fuel + 1, n => if p n then some n else findFrom p fuel (n + 1)

variable {p q : Nat → Bool} {fuel start n : Nat}

/-- What a search finds meets `p` and is within its bound. -/
lemma findFrom_some (h : findFrom p fuel start = some n) :
    p n = true ∧ start ≤ n ∧ n < start + fuel := by
  induction fuel generalizing start with
  | zero => cases h
  | succ fuel ih =>
    simp only [findFrom] at h
    split at h
    case isTrue hp =>
      cases h
      exact ⟨hp, by omega⟩
    case isFalse =>
      have found := ih h
      exact ⟨found.1, by omega⟩

/-- A search with a number to find finds one. -/
lemma findFrom_isSome (hp : p n = true) (hle : start ≤ n) (hlt : n < start + fuel) :
    (findFrom p fuel start).isSome = true := by
  induction fuel generalizing start with
  | zero => omega
  | succ fuel ih =>
    simp only [findFrom]
    split
    case isTrue => rfl
    case isFalse rejected =>
      have hne : start ≠ n := by
        rintro rfl
        exact rejected hp
      exact ih (by omega) (by omega)

end Rimz.Lib
