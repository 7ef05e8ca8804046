import Mathlib.Data.List.DropRight
import Rimz.Lib.Names

/-!
# Text

The `str` methods that prompt texts go through, on lists of characters: trimming by the Unicode
`White_Space` property, `strip_prefix`, `split_once` at a pattern and `match_indices`.
-/

namespace Rimz.Lib

def isWhitespace (c : Char) : Bool :=
  (9 ≤ c.toNat && c.toNat ≤ 13) || c.toNat == 0x20 || c.toNat == 0x85 || c.toNat == 0xA0
    || c.toNat == 0x1680 || (0x2000 ≤ c.toNat && c.toNat ≤ 0x200A) || c.toNat == 0x2028
    || c.toNat == 0x2029 || c.toNat == 0x202F || c.toNat == 0x205F || c.toNat == 0x3000

def trimStart (s : List Char) : List Char := s.dropWhile isWhitespace

def trimEnd (s : List Char) : List Char := (s.reverse.dropWhile isWhitespace).reverse

def trim (s : List Char) : List Char := trimEnd (trimStart s)

/-- `str::strip_prefix`. -/
def dropLeading (pat : List Char) (s : List Char) : Option (List Char) :=
  if pat.isPrefixOf s then some (s.drop pat.length) else none

/-- `str::split_once` at the first occurrence of a pattern. -/
def splitOncePat (pat : List Char) : List Char → Option (List Char × List Char)
  | [] => if pat = [] then some ([], []) else none
  | c :: cs =>
    if pat.isPrefixOf (c :: cs) then some ([], (c :: cs).drop pat.length)
    else (splitOncePat pat cs).map fun p => (c :: p.1, p.2)

/-- `str::match_indices`, each match as the text before it and the text from it on. Matches do not
overlap: after one, `skip` characters pass before the next may start. -/
def matchSplits (pat : List Char) (skip : Nat) (before : List Char) :
    List Char → List (List Char × List Char)
  | [] => []
  | c :: cs =>
    if skip = 0 ∧ pat.isPrefixOf (c :: cs) = true then
      (before, c :: cs) :: matchSplits pat (pat.length - 1) (before ++ [c]) cs
    else matchSplits pat (skip - 1) (before ++ [c]) cs

/-! ## Trimming -/

section Trim
variable {s t : List Char}

/-- The characters of a text that are no whitespace. Trimming keeps them all. -/
def solid (s : List Char) : List Char := s.filter (!isWhitespace ·)

lemma solid_append : solid (s ++ t) = solid s ++ solid t := filter_append ..

lemma trimEnd_cons {c s} :
    trimEnd (c :: s) = if trimEnd s = [] ∧ isWhitespace c = true then [] else c :: trimEnd s := by
  simp only [trimEnd, List.reverse_cons, List.dropWhile_append, List.reverse_eq_nil_iff,
    List.isEmpty_iff]
  by_cases hs : List.dropWhile isWhitespace s.reverse = []
  · by_cases hc : isWhitespace c = true <;> simp [hs, hc]
  · simp [hs]

@[simp] lemma trimEnd_nil : trimEnd [] = [] := rfl

lemma trimStart_append (h : trimStart s ≠ []) : trimStart (s ++ t) = trimStart s ++ t := by
  simp only [trimStart, List.dropWhile_append, List.isEmpty_iff]
  exact if_neg h

lemma trimEnd_append (h : trimEnd t ≠ []) : trimEnd (s ++ t) = s ++ trimEnd t := by
  induction s with
  | nil => rfl
  | cons c s ih =>
    rw [cons_append, trimEnd_cons, ih, if_neg, cons_append]
    simp [h]

lemma solid_trimStart : solid (trimStart s) = solid s := by
  induction s with
  | nil => rfl
  | cons c s ih =>
    by_cases hc : isWhitespace c = true
    · simpa [trimStart, solid, hc] using ih
    · simp [trimStart, hc]

lemma solid_trimEnd : solid (trimEnd s) = solid s := by
  induction s with
  | nil => rfl
  | cons c s ih =>
    rw [trimEnd_cons]
    split
    · next h =>
      rw [h.1] at ih
      simpa [solid, h.2] using ih
    · simp only [solid, filter_cons] at ih ⊢
      rw [ih]

lemma solid_trim : solid (trim s) = solid s := by
  rw [trim, solid_trimEnd, solid_trimStart]

lemma trimStart_eq_nil_iff : trimStart s = [] ↔ solid s = [] := by
  simp [trimStart, solid, List.dropWhile_eq_nil_iff, filter_eq_nil_iff]

lemma trimEnd_eq_nil_iff : trimEnd s = [] ↔ solid s = [] := by
  simp [trimEnd, solid, List.dropWhile_eq_nil_iff, filter_eq_nil_iff]

lemma trim_eq_nil_iff : trim s = [] ↔ solid s = [] := by
  rw [trim, trimEnd_eq_nil_iff, solid_trimStart]

lemma solid_takeWhile : solid (s.takeWhile isWhitespace) = [] := by
  rw [solid, filter_eq_nil_iff]
  intro c hc
  simpa using List.mem_takeWhile_imp hc

lemma trimStart_trimStart : trimStart (trimStart s) = trimStart s := List.dropWhile_idempotent ..

lemma trimStart_trimEnd : trimStart (trimEnd s) = trimEnd (trimStart s) := by
  induction s with
  | nil => rfl
  | cons c s ih =>
    by_cases hc : isWhitespace c = true
    · have drop : ∀ l, trimStart (c :: l) = trimStart l := fun l => by simp [trimStart, hc]
      rw [drop, ← ih, trimEnd_cons]
      split
      · next h => rw [h.1]
      · exact drop _
    · have keep : ∀ l, trimStart (c :: l) = c :: l := fun l => by simp [trimStart, hc]
      rw [keep, trimEnd_cons, if_neg (by simp [hc]), keep]

lemma trimEnd_trimEnd : trimEnd (trimEnd s) = trimEnd s := by
  simp [trimEnd, List.dropWhile_idempotent]

lemma trim_trimStart : trim (trimStart s) = trim s := by
  rw [trim, trimStart_trimStart, trim]

lemma trim_trimEnd : trim (trimEnd s) = trim s := by
  rw [trim, trimStart_trimEnd, trimEnd_trimEnd, trim]

lemma trim_trim : trim (trim s) = trim s := by
  rw [show trim s = trimEnd (trimStart s) from rfl, trim_trimEnd, trim_trimStart, trim]

lemma trimStart_append_of_blank (h : trimStart s = []) : trimStart (s ++ t) = trimStart t := by
  simp only [trimStart, List.dropWhile_append, List.isEmpty_iff]
  exact if_pos h

lemma trimEnd_append_of_blank (h : trimEnd t = []) : trimEnd (s ++ t) = trimEnd s := by
  induction s with
  | nil => simpa using h
  | cons c s ih => rw [cons_append, trimEnd_cons, ih, trimEnd_cons]

/-- Text around a trimmed one that is not blank. -/
lemma trim_append_trim {a b} (h : solid s ≠ []) :
    trim (a ++ trim s ++ b) = trimStart a ++ trim s ++ trimEnd b := by
  have start : trimStart (trim s) = trim s := by
    rw [trim, trimStart_trimEnd, trimStart_trimStart]
  have stop : trimEnd (trim s) = trim s := trimEnd_trimEnd
  have full : trim s ≠ [] := mt trim_eq_nil_iff.mp h
  have left : trimStart (a ++ (trim s ++ b)) = trimStart a ++ (trim s ++ b) := by
    by_cases ha : trimStart a = []
    · rw [trimStart_append_of_blank ha, ha, trimStart_append (by rwa [start]), start, nil_append]
    · exact trimStart_append ha
  have right (x : List Char) : trimEnd (x ++ trim s ++ b) = x ++ trim s ++ trimEnd b := by
    by_cases hb : trimEnd b = []
    · rw [trimEnd_append_of_blank hb, hb, trimEnd_append (by rwa [stop]), stop, append_nil]
    · exact trimEnd_append hb
  rw [trim, append_assoc, left, ← append_assoc, right]

end Trim

/-! ## Patterns -/

section Pattern
variable {p s t : List Char}

lemma dropLeading_append : dropLeading p (p ++ s) = some s := by
  simp [dropLeading, isPrefixOf_iff_prefix]

lemma eq_append_of_dropLeading (h : dropLeading p s = some t) : s = p ++ t := by
  unfold dropLeading at h
  split at h
  · next hp =>
    obtain ⟨u, rfl⟩ := isPrefixOf_iff_prefix.mp hp
    simpa using h
  · cases h

lemma eq_append_of_splitOncePat {a b} (h : splitOncePat p s = some (a, b)) : s = a ++ p ++ b := by
  induction s generalizing a b with
  | nil =>
    unfold splitOncePat at h
    split at h
    · next hp =>
      cases h
      simp [hp]
    · cases h
  | cons c s ih =>
    unfold splitOncePat at h
    split at h
    · next hp =>
      obtain ⟨u, hu⟩ := isPrefixOf_iff_prefix.mp hp
      rw [← hu] at h ⊢
      cases h
      simp
    · obtain ⟨⟨a', b'⟩, hsplit, heq⟩ := map_eq_some_iff.mp h
      cases heq
      rw [ih hsplit, cons_append, cons_append]

/-- The split is at the first occurrence. -/
lemma length_le_of_splitOncePat {a b a' b'} (h : splitOncePat p s = some (a, b))
    (hs : s = a' ++ p ++ b') : a.length ≤ a'.length := by
  induction s generalizing a b a' with
  | nil =>
    unfold splitOncePat at h
    split at h
    · cases h
      exact Nat.zero_le _
    · cases h
  | cons c s ih =>
    unfold splitOncePat at h
    split at h
    · cases h
      exact Nat.zero_le _
    rename_i hp
    obtain ⟨⟨a'', b''⟩, hsplit, heq⟩ := map_eq_some_iff.mp h
    cases heq
    cases a' with
    | nil =>
      refine absurd (List.isPrefixOf_iff_prefix.mpr ⟨b', ?_⟩) hp
      simpa using hs.symm
    | cons d a' =>
      have hs' : s = a' ++ p ++ b' := by
        simp only [cons_append, List.cons.injEq] at hs
        exact hs.2
      exact Nat.succ_le_succ (ih hsplit hs')

/-- A text without the pattern's first character is passed whole. -/
lemma splitOncePat_append {c} (h : c ∉ s) :
    splitOncePat (c :: p) (s ++ (c :: p) ++ t) = some (s, t) := by
  induction s with
  | nil => simp [splitOncePat, isPrefixOf_iff_prefix]
  | cons d s ih =>
    have hd : ¬((c :: p).isPrefixOf (d :: (s ++ (c :: p) ++ t)) = true) := by
      rw [ isPrefixOf_iff_prefix, cons_prefix_cons]
      rintro ⟨rfl, _⟩
      exact h mem_cons_self
    rw [cons_append, cons_append, splitOncePat, if_neg hd,
      ih fun hmem => h (mem_cons_of_mem _ hmem)]
    rfl

/-- Where a text matches for the first time, everything before it stays. -/
lemma matchSplits_append {before} (hp : p.isPrefixOf t = true) (ht : t ≠ [])
    (h : ∀ a b, s = a ++ b → b ≠ [] → p.isPrefixOf (b ++ t) = false) :
    ∃ rest, matchSplits p 0 before (s ++ t) = (before ++ s, t) :: rest := by
  induction s generalizing before with
  | nil =>
    cases t with
    | nil => exact absurd rfl ht
    | cons c t => exact ⟨_, by simp [matchSplits, hp]; rfl⟩
  | cons c s ih =>
    have hc : p.isPrefixOf (c :: (s ++ t)) = false := h [] (c :: s) rfl (by simp)
    obtain ⟨rest, hrest⟩ :=
      ih fun a b hs hb => h (c :: a) b (by rw [hs]; rfl) hb
    refine ⟨rest, ?_⟩
    rw [cons_append, matchSplits, if_neg (by simp [hc]), Nat.zero_sub, hrest]
    simp

/-- Every match is where the pattern stands. -/
lemma mem_matchSplits {before skip m} (h : m ∈ matchSplits p skip before s) :
    m.1 ++ m.2 = before ++ s := by
  induction s generalizing before skip with
  | nil => cases h
  | cons c s ih =>
    unfold matchSplits at h
    split at h
    · rcases mem_cons.mp h with rfl | h
      · rfl
      · simpa using ih h
    · simpa using ih h

end Pattern

end Rimz.Lib
