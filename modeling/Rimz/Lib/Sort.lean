import Mathlib.Data.List.Sort
import Rimz.Lib.Names

/-!
# Stable sorting by a key

Rust's `sort_by_key` is stable, and a stable sort is one function whatever its algorithm. Insertion
sort evaluates by structural recursion.
-/

namespace Rimz.Lib

section ByKey
variable {α κ : Type*} [LinearOrder κ] {key : α → κ} {l : List α}

def sortByKey (key : α → κ) (l : List α) : List α :=
  l.insertionSort (key · ≤ key ·)

local instance isTransKey : IsTrans α (key · ≤ key ·) := ⟨fun _ _ _ => le_trans⟩

local instance totalKey : Std.Total (α := α) (key · ≤ key ·) := ⟨fun _ _ => le_total _ _⟩

lemma sortByKey_perm : (sortByKey key l).Perm l := List.perm_insertionSort _ _

lemma pairwise_sortByKey : (sortByKey key l).Pairwise (key · ≤ key ·) :=
  List.pairwise_insertionSort _ _

/-- The elements of one key keep their order. -/
lemma filter_sortByKey (k : κ) :
    (sortByKey key l).filter (key · = k) = l.filter (key · = k) := by
  have equalKeys : (l.filter (key · = k)).Pairwise (key · ≤ key ·) := by
    rw [List.pairwise_iff_forall_sublist]
    intro a b hab
    have ha := of_decide_eq_true (mem_filter.mp (hab.subset (by simp : a ∈ [a, b]))).2
    have hb := of_decide_eq_true (mem_filter.mp (hab.subset (by simp : b ∈ [a, b]))).2
    exact le_of_eq (ha.trans hb.symm)
  have sub : (l.filter (key · = k)).Sublist (sortByKey key l) :=
    List.sublist_insertionSort equalKeys filter_sublist
  have sub := sub.filter (key · = k)
  rw [List.filter_filter] at sub
  simp only [Bool.and_self] at sub
  exact (sub.eq_of_length (sortByKey_perm.filter _).length_eq.symm).symm

end ByKey

end Rimz.Lib
