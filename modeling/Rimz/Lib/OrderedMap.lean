import Std.Data.ExtTreeMap
import Std.Data.ExtTreeSet
import Rimz.Lib.Names

/-!
# Ordered maps

The lookups of `Std.ExtTreeMap` after an edit, by equality of keys, and the lexicographic order on
pairs of keys.
-/

namespace Rimz.Lib
open Std

/-- The lexicographic order on pairs. -/
def pairCmp {α β : Type*} [Ord α] [Ord β] : α × β → α × β → Ordering :=
  compareLex (compareOn Prod.fst) (compareOn Prod.snd)

instance {α β : Type*} [Ord α] [Ord β] [TransOrd α] [TransOrd β] :
    TransCmp (pairCmp (α := α) (β := β)) :=
  inferInstanceAs (TransCmp (compareLex _ _))

instance {α β : Type*} [Ord α] [Ord β] [LawfulEqOrd α] [LawfulEqOrd β] :
    LawfulEqCmp (pairCmp (α := α) (β := β)) where
  compare_self {a} := by simp [pairCmp, compareLex_eq_eq, compareOn]
  eq_of_compare {a b} h := by
    obtain ⟨h1, h2⟩ := compareLex_eq_eq.mp h
    exact Prod.ext (LawfulEqCmp.eq_of_compare h1) (LawfulEqCmp.eq_of_compare h2)

section Lookup
variable {α β γ : Type*} {cmp : α → α → Ordering} [TransCmp cmp] [LawfulEqCmp cmp]
variable {t : ExtTreeMap α β cmp} {k a : α} {v : β}

lemma get_insert [DecidableEq α] : (t.insert k v)[a]? = if k = a then some v else t[a]? := by
  simp [ExtTreeMap.getElem?_insert]

lemma get_insertIfNew [DecidableEq α] :
    (t.insertIfNew k v)[a]? = if k = a then some (t[a]?.getD v) else t[a]? := by
  rw [ExtTreeMap.getElem?_insertIfNew]
  by_cases h : k = a
  · subst h
    cases hk : t[k]? with
    | none | some w => simp [ExtTreeMap.mem_iff_isSome_getElem?, hk]
  · simp [h]

lemma get_erase [DecidableEq α] : (t.erase k)[a]? = if k = a then none else t[a]? := by
  simp [ExtTreeMap.getElem?_erase]

lemma get_modify [DecidableEq α] {f} :
    (t.modify k f)[a]? = if k = a then t[a]?.map f else t[a]? := by
  by_cases h : k = a
  · subst h
    simp
  · simp [ExtTreeMap.getElem?_modify, h]

lemma get_filter {f} : (t.filter f)[a]? = t[a]?.filter (f a) := by
  rw [ExtTreeMap.getElem?_filter]
  simp only [ExtTreeMap.getKey_eq]
  exact Option.pfilter_eq_filter

/-- Of the entries of a map only one has a given key. -/
lemma flatMap_toList_of_key [DecidableEq α] (k : α) (F : β → List γ) :
    (t.toList.flatMap fun entry => if entry.1 = k then F entry.2 else [])
      = (t[k]?).elim [] F := by
  have hn : (t.toList.map Prod.fst).Nodup := by
    rw [ExtTreeMap.map_fst_toList_eq_keys]
    exact ExtTreeMap.nodup_keys
  have found : ∀ (l : List (α × β)) (v : β), (l.map Prod.fst).Nodup → (k, v) ∈ l →
      (l.flatMap fun entry => if entry.1 = k then F entry.2 else []) = F v := by
    intro l v hn hm
    induction l with
    | nil => exact absurd hm not_mem_nil
    | cons entry l ih =>
      obtain ⟨hnot, hn'⟩ := nodup_cons.mp hn
      rw [flatMap_cons]
      rcases mem_cons.mp hm with rfl | hm'
      · have rest : ∀ e ∈ l, (if e.1 = k then F e.2 else []) = [] := fun e he => if_neg fun hk =>
          hnot (mem_map.mpr ⟨e, he, hk⟩)
        simp [List.flatMap_eq_nil_iff.mpr rest]
      · have hne : entry.1 ≠ k := fun hk => hnot (mem_map.mpr ⟨(k, v), hm', hk.symm⟩)
        rw [if_neg hne, ih hn' hm', nil_append]
  cases hk : t[k]? with
  | none =>
    refine List.flatMap_eq_nil_iff.mpr fun entry he => if_neg ?_
    rintro rfl
    rw [ExtTreeMap.mem_toList_iff_getElem?_eq_some.mp he] at hk
    cases hk
  | some v => exact found _ v hn (ExtTreeMap.mem_toList_iff_getElem?_eq_some.mpr hk)

end Lookup

end Rimz.Lib
