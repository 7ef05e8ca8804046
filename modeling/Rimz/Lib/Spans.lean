import Mathlib.Data.Finset.Card
import Mathlib.Data.Finset.Union
import Rimz.Lib.Names

/-!
# Spans of time

Half-open spans between two instants, the instants that a list of spans covers, and when the lengths
of the spans add up to what they cover: when no instant lies in two of them.
-/

namespace Rimz.Lib

def instants (s : Int × Int) : Finset Int :=
  (Finset.range (s.2 - s.1).toNat).image fun n : Nat => s.1 + n

/-- The instants in some span of the list. -/
def covered (spans : List (Int × Int)) : Finset Int := spans.toFinset.biUnion instants

/-- The lengths of the spans, added up. -/
def totalLength (spans : List (Int × Int)) : Nat :=
  (spans.map fun s => (s.2 - s.1).toNat).sum

/-- No instant is counted twice in the lengths of the spans. -/
def CountedOnce (spans : List (Int × Int)) : Prop :=
  totalLength spans = (covered spans).card

variable {spans : List (Int × Int)}

lemma mem_instants {s t} : t ∈ instants s ↔ s.1 ≤ t ∧ t < s.2 := by
  simp only [instants, Finset.mem_image, Finset.mem_range]
  constructor
  · rintro ⟨n, hn, rfl⟩
    omega
  · intro h
    exact ⟨(t - s.1).toNat, by omega, by omega⟩

lemma card_instants (s : Int × Int) : (instants s).card = (s.2 - s.1).toNat := by
  rw [instants, Finset.card_image_of_injective, Finset.card_range]
  intro m n h
  dsimp only at h
  omega

lemma mem_covered {t} : t ∈ covered spans ↔ ∃ s ∈ spans, s.1 ≤ t ∧ t < s.2 := by
  simp [covered, mem_instants]

lemma totalLength_append (more : List (Int × Int)) :
    totalLength (spans ++ more) = totalLength spans + totalLength more := by
  simp [totalLength]

lemma totalLength_concat {s} :
    totalLength (spans ++ [s]) = totalLength spans + (instants s).card := by
  simp [totalLength, card_instants]

lemma covered_concat {s} : covered (spans ++ [s]) = covered spans ∪ instants s := by
  ext t
  simp only [mem_covered, Finset.mem_union, mem_instants, mem_append, mem_singleton]
  constructor
  · rintro ⟨u, hu | rfl, ht⟩
    · exact .inl ⟨u, hu, ht⟩
    · exact .inr ht
  · rintro (⟨u, hu, ht⟩ | ht)
    · exact ⟨u, .inl hu, ht⟩
    · exact ⟨s, .inr rfl, ht⟩

lemma countedOnce_nil : CountedOnce [] := rfl

lemma card_covered_le (spans : List (Int × Int)) : (covered spans).card ≤ totalLength spans := by
  induction spans using List.reverseRecOn with
  | nil => exact Nat.le_refl 0
  | append_singleton spans s ih =>
    rw [totalLength_concat, covered_concat]
    exact (Finset.card_union_le _ _).trans (Nat.add_le_add_right ih _)

/-- A span that ends last is counted once when it begins behind the end of every other. -/
lemma disjoint_covered_iff {s t} (ends : ∀ x ∈ spans, x.2 ≤ t) :
    Disjoint (covered spans) (instants (s, t)) ↔ ∀ x ∈ spans, x.1 < x.2 → x.2 ≤ s := by
  rw [Finset.disjoint_left]
  constructor
  · intro apart x hx positive
    by_contra before
    -- The later of the two beginnings lies in both spans.
    have inside : max s x.1 ∈ covered spans := mem_covered.mpr ⟨x, hx, by omega, by omega⟩
    have hend := ends x hx
    exact apart inside (mem_instants.mpr ⟨by omega, by omega⟩)
  · intro behind u hu hu'
    obtain ⟨x, hx, h1, h2⟩ := mem_covered.mp hu
    have hx' := behind x hx (by omega)
    rw [mem_instants] at hu'
    omega

/-- One more span, which ends last. -/
lemma countedOnce_concat {s t} (ends : ∀ x ∈ spans, x.2 ≤ t) :
    CountedOnce (spans ++ [(s, t)]) ↔ CountedOnce spans ∧ ∀ x ∈ spans, x.1 < x.2 → x.2 ≤ s := by
  have union := Finset.card_union_add_card_inter (covered spans) (instants (s, t))
  have le := card_covered_le spans
  rw [← disjoint_covered_iff ends, Finset.disjoint_iff_inter_eq_empty, ← Finset.card_eq_zero]
  unfold CountedOnce
  rw [totalLength_concat, covered_concat]
  constructor
  · intro h
    constructor <;> omega
  · rintro ⟨h, h'⟩
    omega

/-- What is covered within two instants is at most the time between them. -/
lemma card_covered_le_of_within {a b} (h : ∀ x ∈ spans, a ≤ x.1 ∧ x.2 ≤ b) :
    (covered spans).card ≤ (b - a).toNat := by
  rw [← card_instants (a, b)]
  apply Finset.card_le_card
  intro t ht
  obtain ⟨x, hx, h1, h2⟩ := mem_covered.mp ht
  have := h x hx
  rw [mem_instants]
  omega

end Rimz.Lib
