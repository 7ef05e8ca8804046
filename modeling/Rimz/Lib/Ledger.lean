import Mathlib.Data.List.Count
import Mathlib.Data.List.Induction
import Mathlib.Data.List.Perm.Basic
import Rimz.Lib.Names

/-!
# Requests and their responses

The history of one party that asks under identifiers it may use again: what it asked, and what it
was answered. A request may be owed an answer or not. `Balanced pending l` says that every request
that is owed one was answered once or is still open, and that no identifier was answered that was
not asked. An identifier is not asked again while it is open.
-/

namespace Rimz.Lib

/-- One entry of the history. -/
inductive Item (α : Type*) where
  | asked (id : α) (owed : Bool)
  | answered (id : α)
  deriving DecidableEq

namespace Ledger
variable {α : Type*} [DecidableEq α] {l earlier later : List (Item α)} {x y : α}

/-- The answers to `x` up to the next time it is asked. -/
def answersTo (x : α) : List (Item α) → Nat
  | [] => 0
  | .asked y _ :: l => if y = x then 0 else answersTo x l
  | .answered y :: l => (if y = x then 1 else 0) + answersTo x l

/-- Whether `x` is asked in a history. -/
def Asked (x : α) (l : List (Item α)) : Prop :=
  ∃ owed, Item.asked x owed ∈ l

instance (x : α) (l : List (Item α)) : Decidable (Asked x l) :=
  decidable_of_iff (Item.asked x true ∈ l ∨ Item.asked x false ∈ l) ⟨
    fun h => h.elim (fun h => ⟨true, h⟩) (fun h => ⟨false, h⟩),
    fun ⟨owed, h⟩ => by cases owed <;> simp [h]⟩

/-- What an entry does to the account of `x`: whether its last request was owed an answer, and the
answers since. -/
def note (x : α) : Option Bool × Nat → Item α → Option Bool × Nat
  | t, .asked y owed => if y = x then (some owed, 0) else t
  | t, .answered y => if y = x then (t.1, t.2 + 1) else t

/-- The account of `x`. -/
def tally (x : α) (l : List (Item α)) : Option Bool × Nat :=
  l.foldl (note x) (none, 0)

/-- The account of one identifier with `n` requests open: a request owed an answer is open or
answered, one that is not is not open, and what was not asked is neither. -/
def Settled (n : Nat) : Option Bool × Nat → Prop
  | (some true, k) => k + n = 1
  | (some false, _) => n = 0
  | (none, k) => k = 0 ∧ n = 0

/-- An entry fits what is past: an identifier is used again when its request was answered, if an
answer was owed, and an answer has its request. -/
def Fits (l : List (Item α)) : Item α → Prop
  | .asked x _ => (tally x l).1 = some true → (tally x l).2 = 1
  | .answered x => (tally x l).1 ≠ none

/-- Every entry fitted what was past. -/
def Proper (l : List (Item α)) : Prop :=
  ∀ earlier item later, l = earlier ++ item :: later → Fits earlier item

/-- The books are in order with these requests open. -/
structure Balanced (pending : List α) (l : List (Item α)) : Prop where
  proper : Proper l
  settled : ∀ x, Settled (pending.count x) (tally x l)

lemma tally_append (x : α) (l : List (Item α)) (item : Item α) :
    tally x (l ++ [item]) = note x (tally x l) item := by
  simp [tally]

/-- An entry that fits the books so far. -/
lemma Proper.append {item} (h : Proper l) (hi : Fits l item) : Proper (l ++ [item]) := by
  intro earlier item' later he
  -- The entry looked at is the new one, or an old one.
  rcases List.append_eq_append_iff.mp he with ⟨rest, rfl, hrest⟩ | ⟨rest, rfl, hrest⟩
  · cases rest with
    | nil =>
      obtain ⟨rfl, -⟩ := hrest
      simpa using hi
    | cons b rest => simp at hrest
  cases rest with
  | nil =>
    simp only [nil_append, List.cons.injEq] at hrest
    obtain ⟨rfl, -⟩ := hrest
    simpa using hi
  | cons b rest =>
    obtain ⟨rfl, -⟩ := hrest
    exact h earlier item' rest rfl

section Rules
variable {pending pending' : List α}

lemma Balanced.nil : Balanced ([] : List α) [] where
  proper earlier item later he := by simp at he
  settled x := by simp [tally, Settled]

section
variable (h : Balanced pending l)
include h

lemma Balanced.perm (hp : pending.Perm pending') : Balanced pending' l where
  proper := h.proper
  settled x := hp.count_eq x ▸ h.settled x

/-- An identifier that is not open was answered, if an answer was owed. -/
lemma Balanced.answered_of_not_mem (hx : x ∉ pending) :
    (tally x l).1 = some true → (tally x l).2 = 1 := by
  intro ht
  have hs := h.settled x
  rw [count_eq_zero.mpr hx] at hs
  generalize tally x l = t at *
  obtain ⟨o, k⟩ := t
  cases ht
  exact hs

/-- An identifier is asked that is not open, and an answer is owed. -/
lemma Balanced.ask (hx : x ∉ pending) : Balanced (x :: pending) (l ++ [.asked x true]) where
  proper := h.proper.append (h.answered_of_not_mem hx)
  settled y := by
    rw [tally_append, List.count_cons]
    by_cases e : x = y
    · subst e
      simp [note, Settled, count_eq_zero.mpr hx]
    · simpa [note, e] using h.settled y

/-- An identifier is named that is not open, and nothing is owed. -/
lemma Balanced.mention (hx : x ∉ pending) : Balanced pending (l ++ [.asked x false]) where
  proper := h.proper.append (h.answered_of_not_mem hx)
  settled y := by
    rw [tally_append]
    by_cases e : x = y
    · subst e
      simp [note, Settled, count_eq_zero.mpr hx]
    · simpa [note, e] using h.settled y

end

/-- An open request is answered. -/
lemma Balanced.answer (h : Balanced (x :: pending) l) :
    Balanced pending (l ++ [.answered x]) := by
  have hx := h.settled x
  rw [List.count_cons_self] at hx
  -- Only a request that is owed an answer is open.
  obtain ⟨k, ht⟩ : ∃ k, tally x l = (some true, k) := by
    generalize tally x l = t at hx
    match t, hx with
    | (some true, k), _ => exact ⟨k, rfl⟩
    | (some false, k), hx => exact absurd hx (by simp [Settled])
    | (none, k), hx => exact absurd hx.2 (by simp)
  refine ⟨h.proper.append (by simp [Fits, ht]), fun y => ?_⟩
  rw [tally_append]
  by_cases e : x = y
  · subst e
    simp only [ht, Settled] at hx
    simp only [note, if_true, ht, Settled]
    omega
  · have hy := h.settled y
    simpa [note, e] using hy

/-- An identifier that was only named is answered. -/
lemma Balanced.answer_mention (h : Balanced pending l) (hx : x ∉ pending) :
    Balanced pending (l ++ [.asked x false] ++ [.answered x]) := by
  have hm := h.mention hx
  have ht : tally x (l ++ [.asked x false]) = (some false, 0) := by
    rw [tally_append]
    simp [note]
  refine ⟨hm.proper.append (by simp [Fits, ht]), fun y => ?_⟩
  rw [tally_append]
  by_cases e : x = y
  · subst e
    simp [note, ht, Settled, count_eq_zero.mpr hx]
  · simpa [note, e] using hm.settled y

/-- Several open requests are answered, one after the other. -/
lemma Balanced.answerAll {ids} (h : Balanced (ids ++ pending) l) :
    Balanced pending (l ++ ids.map .answered) := by
  induction ids generalizing l with
  | nil => simpa using h
  | cons x ids ih =>
    have := ih h.answer
    simpa using this

end Rules

/-! ### Reading the books -/

/-- The account of `x` after a stretch in which it is not asked. -/
lemma tally_not_asked (t : Option Bool × Nat) (hn : ¬ Asked x later) :
    later.foldl (note x) t = (t.1, t.2 + answersTo x later) := by
  induction later generalizing t with
  | nil => simp [answersTo]
  | cons item later ih =>
    have hn' : ¬ Asked x later := fun ⟨owed, h⟩ => hn ⟨owed, mem_cons_of_mem _ h⟩
    cases item with
    | asked y owed =>
      have e : y ≠ x := fun e => hn ⟨owed, e ▸ mem_cons_self⟩
      simp [note, answersTo, e, ih _ hn']
    | answered y =>
      by_cases e : y = x
      · simp [note, answersTo, e, ih _ hn', Nat.add_assoc]
      · simp [note, answersTo, e, ih _ hn']

/-- A stretch up to the next time `x` is asked. -/
lemma exists_next_asked (h : Asked x later) : ∃ mid owed rest,
    later = mid ++ .asked x owed :: rest ∧ ¬ Asked x mid ∧ answersTo x later = answersTo x mid := by
  induction later with
  | nil =>
    obtain ⟨owed, h⟩ := h
    exact absurd h not_mem_nil
  | cons item later ih =>
    cases item with
    | asked y owed =>
      by_cases e : y = x
      · subst e
        exact ⟨[], owed, later, rfl, (fun ⟨_, h⟩ => absurd h not_mem_nil), by simp [answersTo]⟩
      obtain ⟨o, ho⟩ := h
      obtain ⟨mid, o', rest, he, hm, ha⟩ := ih ⟨o, (mem_cons.mp ho).resolve_left (by
        intro hc
        exact e (Item.asked.inj hc).1.symm)⟩
      refine ⟨.asked y owed :: mid, o', rest, by simp [he], ?_, by simp [answersTo, e, ha]⟩
      rintro ⟨o'', ho''⟩
      rcases mem_cons.mp ho'' with hc | hc
      · exact e (Item.asked.inj hc).1.symm
      · exact hm ⟨o'', hc⟩
    | answered y =>
      obtain ⟨o, ho⟩ := h
      obtain ⟨mid, o', rest, he, hm, ha⟩ := ih ⟨o, (mem_cons.mp ho).resolve_left (by simp)⟩
      refine ⟨.answered y :: mid, o', rest, by simp [he], ?_, by simp [answersTo, ha]⟩
      rintro ⟨o'', ho''⟩
      exact hm ⟨o'', (mem_cons.mp ho'').resolve_left (by simp)⟩

lemma tally_asked {owed} (hn : ¬ Asked x later) :
    tally x (earlier ++ .asked x owed :: later) = (some owed, answersTo x later) := by
  simp [tally, note, tally_not_asked _ hn]

/-- Every request that is owed an answer is open once or was answered once, before its identifier
was used again. -/
theorem Balanced.request {pending} (h : Balanced pending l)
    (he : l = earlier ++ .asked x true :: later) :
    answersTo x later + (if Asked x later then 0 else pending.count x) = 1 := by
  split
  · rename_i hagain
    obtain ⟨mid, owed, rest, hl, hm, ha⟩ := exists_next_asked hagain
    have hp := h.proper (earlier ++ .asked x true :: mid) (.asked x owed) rest (by simp [he, hl])
    rw [Fits, tally_asked hm] at hp
    rw [ha]
    simpa using hp rfl
  · rename_i hlast
    have hs := h.settled x
    rw [he, tally_asked hlast] at hs
    exact hs

/-- What the account of `x` is about was asked. -/
lemma asked_of_tally (h : (tally x l).1 ≠ none) : Asked x l := by
  by_contra hn
  rw [tally, tally_not_asked _ hn] at h
  exact h rfl

/-- Every answer had its request. -/
theorem Proper.response (h : Proper l) (he : l = earlier ++ .answered x :: later) :
    Asked x earlier :=
  asked_of_tally (h earlier (.answered x) later he)

end Ledger

end Rimz.Lib
