import Rimz.Lib.Names

/-!
# Advisory file locks

Locks in the manner of `flock(2)`: they belong to open file descriptions, stand on the inode that is
open there, and go with the last close. A description has at most one lock.
-/

namespace Rimz.Lib

inductive LockMode where
  | shared
  | exclusive
  deriving DecidableEq

/-- Two locks on one inode that cannot stand together. -/
def LockMode.conflicts : LockMode → LockMode → Bool
  | shared, shared => false
  | _, _ => true

lemma LockMode.conflicts_comm (a b : LockMode) : a.conflicts b = b.conflicts a := by
  cases a <;> cases b <;> rfl

/-- An open file description. -/
structure Description where
  inode : Nat
  lock : Option LockMode

section Table
variable {ι : Type*} {table table' : ι → Option Description}

/-- No two descriptions of one inode have conflicting locks. -/
def Exclusion (table : ι → Option Description) : Prop :=
  ∀ i j a b m n, i ≠ j → table i = some ⟨a, some m⟩ → table j = some ⟨b, some n⟩ → a = b →
    m.conflicts n = false

/-- The kernel grants `mode` on `inode` to the description `i`. -/
def Grants (table : ι → Option Description) (i : ι) (inode : Nat) (mode : LockMode) : Prop :=
  ∀ j m, j ≠ i → table j = some ⟨inode, some m⟩ → m.conflicts mode = false

variable [DecidableEq ι]

/-- Opening, unlocking and closing take locks away only. -/
lemma Exclusion.update_unlocked (h : Exclusion table) {i d} (unlocked : ∀ x ∈ d, x.lock = none) :
    Exclusion (Function.update table i d) := by
  intro j k a b m n ne hj hk e
  have held : ∀ j a m, Function.update table i d j = some ⟨a, some m⟩ → table j = some ⟨a, some m⟩ := by
    intro j a m hj
    by_cases e : j = i
    · subst e
      rw [update_self] at hj
      cases unlocked _ hj
    · rwa [update_of_ne e] at hj
  exact h j k a b m n ne (held j a m hj) (held k b n hk) e

/-- A granted lock conflicts with none. -/
lemma Exclusion.update_granted (h : Exclusion table) {i inode mode}
    (granted : Grants table i inode mode) :
    Exclusion (Function.update table i (some ⟨inode, some mode⟩)) := by
  intro j k a b m n ne hj hk e
  by_cases ej : j = i
  · subst ej
    rw [update_self] at hj
    rw [update_of_ne ne.symm] at hk
    cases hj
    rw [LockMode.conflicts_comm]
    exact granted k n ne.symm (e ▸ hk)
  rw [update_of_ne ej] at hj
  by_cases ek : k = i
  · subst ek
    rw [update_self] at hk
    cases hk
    exact granted j m ej (e ▸ hj)
  · rw [update_of_ne ek] at hk
    exact h j k a b m n ne hj hk e

end Table

end Rimz.Lib
