import Mathlib.Order.Nat
import Rimz.Lib.Names

/-!
# One-shot timers behind a mark

Timers are deadlines, and one goes off at its deadline or later. Who arms them remembers the one
deadline it last armed a timer for, so that it need not arm another. `Marks` says what that memory
is worth: the marked timer is still out, or its deadline has passed and some timer that is due then
is out, whose firing clears the mark.
-/

namespace Rimz.Lib

/-- Some timer goes off at `deadline` or earlier. -/
def Covers (timers : List Nat) (deadline : Nat) : Prop :=
  ∃ t ∈ timers, t ≤ deadline

/-- The mark stands for a timer that is out. -/
def Marks (clock : Nat) (timers : List Nat) (mark : Option Nat) : Prop :=
  ∀ m, mark = some m → m ∈ timers ∨ (m ≤ clock ∧ Covers timers m)

variable {timers more : List Nat} {clock now deadline : Nat} {mark : Option Nat}

instance : Decidable (Covers timers deadline) :=
  inferInstanceAs (Decidable (∃ t ∈ timers, t ≤ deadline))

lemma Covers.mono {later} (h : Covers timers deadline) (hle : deadline ≤ later) :
    Covers timers later := by
  obtain ⟨t, ht, hd⟩ := h
  exact ⟨t, ht, hd.trans hle⟩

lemma Covers.append (h : Covers timers deadline) : Covers (timers ++ more) deadline := by
  obtain ⟨t, ht, hd⟩ := h
  exact ⟨t, mem_append_left _ ht, hd⟩

lemma Marks.unmarked : Marks clock timers none := by
  intro m hm
  cases hm

lemma Marks.later (h : Marks clock timers mark) (hle : clock ≤ now) : Marks now timers mark := by
  intro m hm
  rcases h m hm with out | ⟨past, due⟩
  · exact .inl out
  · exact .inr ⟨past.trans hle, due⟩

lemma Marks.covers {m} (h : Marks clock timers (some m)) : Covers timers m := by
  rcases h m rfl with out | ⟨_, due⟩
  · exact ⟨m, out, le_rfl⟩
  · exact due

/-- A timer fires, and clears a mark whose deadline has passed. Any other mark is of another
timer. -/
lemma Marks.fire {t} (h : Marks clock timers mark) (hclock : clock ≤ now) (hdue : t ≤ now) :
    Marks now (timers.erase t) (if mark.any (· ≤ now) then none else mark) := by
  split
  · exact Marks.unmarked
  rename_i hmark
  intro m hm
  have hahead : now < m := by simpa [hm] using hmark
  rcases h m hm with out | ⟨past, _⟩
  · exact .inl ((List.mem_erase_of_ne (by omega)).mpr out)
  · omega

/-- A timer is armed for a deadline that is ahead, or that some timer covers already. -/
lemma Marks.arm (h : now ≤ deadline ∨ Covers timers deadline) :
    Marks now (timers ++ [now + (deadline - now)]) (some deadline) := by
  intro m hm
  cases hm
  rcases Nat.lt_or_ge deadline now with past | ahead
  · refine .inr ⟨past.le, Covers.append ?_⟩
    exact h.resolve_left (by omega)
  · refine .inl (mem_append_right _ ?_)
    rw [Nat.add_sub_cancel' ahead]
    exact mem_singleton_self _

end Rimz.Lib
