import Rimz.Lib.Names

/-!
# Keyed lists

A list of records found by a key: replacing or pushing a record (`upsertBy`) and closing the first
record of a key. Lists of keys are what conservation arguments count.
-/

namespace Rimz.Lib

section Keyed
variable {α κ : Type*} {key : α → κ}

/-- The first record meant, and where it stands. -/
lemma getElem?_of_findIdx? {p} {l : List α} {i a} (hi : l.findIdx? p = some i)
    (ha : l.find? p = some a) : l[i]? = some a := by
  induction l generalizing i with
  | nil => cases ha
  | cons b bs ih =>
    rw [List.findIdx?_cons] at hi
    cases hb : p b with
    | true =>
      rw [List.find?_cons_of_pos hb] at ha
      simp only [hb, if_true, Option.some.injEq] at hi
      subst hi
      exact ha
    | false =>
      rw [List.find?_cons_of_neg (by simp [hb])] at ha
      simp only [hb, false_eq_true, if_false, map_eq_some_iff] at hi
      obtain ⟨j, hj, rfl⟩ := hi
      exact ih hj ha

/-- A record replaced by one of its key leaves the keys of a list as they are. -/
lemma map_set_of_key_eq {l : List α} {i a b} (h : l[i]? = some a) (hk : key b = key a) :
    (l.set i b).map key = l.map key := by
  apply List.ext_getElem?
  intro j
  rw [List.getElem?_map, List.getElem?_map, List.getElem?_set]
  split
  · rename_i hj
    subst hj
    obtain ⟨hlt, -⟩ := List.getElem?_eq_some_iff.mp h
    rw [if_pos hlt, h, map_some, map_some, hk]
  · rfl

variable [DecidableEq κ]

/-- Replace the first record with the key of `a` in place, or push `a` at the end. -/
def upsertBy (key : α → κ) (a : α) : List α → List α
  | [] => [a]
  | b :: bs => if key b = key a then a :: bs else b :: upsertBy key a bs

/-- The keys after an `upsertBy`: unchanged when the key was there, else one more. -/
lemma map_upsertBy (a : α) (l : List α) :
    (upsertBy key a l).map key
      = if key a ∈ l.map key then l.map key else l.map key ++ [key a] := by
  induction l with
  | nil => simp [upsertBy]
  | cons b bs ih =>
    by_cases h : key b = key a
    · simp [upsertBy, h]
    · have h' : key a ≠ key b := fun e => h e.symm
      simp only [upsertBy, if_neg h, map_cons, ih, mem_cons, h', false_or]
      split <;> simp

/-- What an `upsertBy` leaves in the list. -/
lemma mem_upsertBy {a b l} (h : b ∈ upsertBy key a l) : b = a ∨ b ∈ l := by
  induction l with
  | nil => simpa [upsertBy] using h
  | cons c cs ih =>
    simp only [upsertBy] at h
    split at h
    · rcases mem_cons.mp h with e | e
      · exact .inl e
      · exact .inr (mem_cons_of_mem _ e)
    · rcases mem_cons.mp h with e | e
      · exact .inr (e ▸ mem_cons_self)
      · exact (ih e).imp id (mem_cons_of_mem _)

/-- Records of other keys survive an `upsertBy`. -/
lemma mem_upsertBy_of_ne {a b l} (h : b ∈ l) (hk : key b ≠ key a) : b ∈ upsertBy key a l := by
  induction l with
  | nil => exact absurd h (by simp)
  | cons c cs ih =>
    simp only [upsertBy]
    rcases mem_cons.mp h with rfl | h
    · rw [if_neg hk]
      exact mem_cons_self
    · split
      · exact mem_cons_of_mem _ h
      · exact mem_cons_of_mem _ (ih h)

/-- The upserted record is in the list. -/
lemma self_mem_upsertBy (a : α) (l : List α) : a ∈ upsertBy key a l := by
  induction l with
  | nil => simp [upsertBy]
  | cons b bs ih =>
    simp only [upsertBy]
    split
    · exact mem_cons_self
    · exact mem_cons_of_mem _ ih

/-- The first record of its key is the upserted one. -/
lemma findIdx?_upsertBy (a : α) (l : List α) :
    ∃ i, (upsertBy key a l).findIdx? (fun b => key b == key a) = some i
      ∧ (upsertBy key a l)[i]? = some a := by
  induction l with
  | nil => exact ⟨0, by simp [upsertBy]⟩
  | cons b bs ih =>
    by_cases h : key b = key a
    · exact ⟨0, by simp [upsertBy, h, List.findIdx?_cons]⟩
    · obtain ⟨i, hi, ha⟩ := ih
      exact ⟨i + 1, by simp [upsertBy, h, hi, List.findIdx?_cons], by simp [upsertBy, h, ha]⟩

/-- The records after an `upsertBy` into a list without repeated keys. -/
lemma mem_upsertBy_iff {a b l} (hn : (l.map key).Nodup) :
    b ∈ upsertBy key a l ↔ b = a ∨ (b ∈ l ∧ key b ≠ key a) := by
  constructor
  · intro h
    induction l with
    | nil => simpa [upsertBy] using h
    | cons c cs ih =>
      obtain ⟨hc, hcs⟩ := nodup_cons.mp hn
      simp only [upsertBy] at h
      split at h
      · rename_i hk
        rcases mem_cons.mp h with e | e
        · exact .inl e
        · exact .inr ⟨mem_cons_of_mem _ e, fun hb =>
            hc (mem_map.mpr ⟨b, e, hb.trans hk.symm⟩)⟩
      · rename_i hk
        rcases mem_cons.mp h with rfl | e
        · exact .inr ⟨mem_cons_self, hk⟩
        · exact (ih hcs e).imp id fun hb => ⟨mem_cons_of_mem _ hb.1, hb.2⟩
  · rintro (rfl | ⟨hb, hk⟩)
    · exact self_mem_upsertBy b l
    · exact mem_upsertBy_of_ne hb hk

lemma nodup_upsertBy {a l} (hn : (l.map key).Nodup) : ((upsertBy key a l).map key).Nodup := by
  rw [map_upsertBy]
  split
  · exact hn
  rename_i ha
  exact nodup_append.mpr ⟨hn, nodup_singleton _, by
    rintro x hx y hy rfl
    exact ha (mem_singleton.mp hy ▸ hx)⟩

/-! ### Sums over a keyed list -/

/-- The sum of a list by parts: the record of a key and the others. -/
lemma sum_map_filter_ne_le (f : α → Nat) (k : κ) (l : List α) :
    ((l.filter (key · ≠ k)).map f).sum ≤ (l.map f).sum := by
  induction l with
  | nil => exact Nat.le_refl _
  | cons b bs ih =>
    rw [filter_cons]
    split
    · simpa using ih
    · simpa using Nat.le_trans ih (Nat.le_add_left _ _)

lemma sum_map_upsertBy (f : α → Nat) {a l} (hn : (l.map key).Nodup) :
    ((upsertBy key a l).map f).sum = f a + ((l.filter (key · ≠ key a)).map f).sum := by
  induction l with
  | nil => simp [upsertBy]
  | cons b bs ih =>
    obtain ⟨hb, hbs⟩ := nodup_cons.mp hn
    by_cases h : key b = key a
    · have others : bs.filter (key · ≠ key a) = bs := by
        apply List.filter_eq_self.mpr
        intro c hc
        have : key c ≠ key a := fun e => hb (mem_map.mpr ⟨c, hc, e.trans h.symm⟩)
        simpa using this
      rw [List.filter_cons_of_neg (by simpa using h), others, upsertBy, if_pos h]
      simp
    · rw [List.filter_cons_of_pos (by simpa using h), upsertBy, if_neg h]
      simp only [map_cons, sum_cons, ih hbs]
      omega

/-- Writing a record that is there changes nothing. -/
lemma upsertBy_of_mem {a l} (hn : (l.map key).Nodup) (ha : a ∈ l) : upsertBy key a l = l := by
  induction l with
  | nil => cases ha
  | cons b bs ih =>
    obtain ⟨hb, hbs⟩ := nodup_cons.mp hn
    by_cases h : key b = key a
    · have same : b = a := by
        rcases mem_cons.mp ha with e | e
        · exact e.symm
        · exact absurd (mem_map.mpr ⟨a, e, h.symm⟩) hb
      simp [upsertBy, same]
    · rcases mem_cons.mp ha with rfl | e
      · exact absurd rfl h
      · simp [upsertBy, h, ih hbs e]

lemma sum_map_of_mem (f : α → Nat) {a} {l : List α} (hn : (l.map key).Nodup) (ha : a ∈ l) :
    (l.map f).sum = f a + ((l.filter (key · ≠ key a)).map f).sum := by
  rw [← sum_map_upsertBy f hn, upsertBy_of_mem hn ha]

end Keyed

end Rimz.Lib
