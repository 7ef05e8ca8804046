import Rimz.Lib.Names

/-!
# Steps that emit

A step takes a state to a state and a list of outputs. Steps are chained and repeated over a list,
their outputs in order. `Emits` is a postcondition on the state and on each output; `Watched` is one
on the state and on an observer that reads the outputs in order and may refuse one.
-/

namespace Rimz.Lib

variable {σ α β : Type*}

/-- A step after the outputs so far. -/
def andThen (r : σ × List β) (f : σ → σ × List β) : σ × List β :=
  ((f r.1).1, r.2 ++ (f r.1).2)

/-- One step for each element of a list, in order. -/
def emitAll (f : σ → α → σ × List β) : σ → List α → σ × List β
  | s, [] => (s, [])
  | s, a :: as => andThen (f s a) fun s => emitAll f s as

/-- The state after a step meets `P` and each of its outputs `Q`. -/
structure Emits (P : σ → Prop) (Q : β → Prop) (r : σ × List β) : Prop where
  state : P r.1
  outputs : ∀ b ∈ r.2, Q b

section Emits
variable {P R : σ → Prop} {Q : β → Prop} {r : σ × List β} {f : σ → σ × List β}

lemma Emits.nil {s} (h : P s) : Emits P Q (s, []) :=
  ⟨h, fun _ hb => absurd hb not_mem_nil⟩

lemma Emits.one {s b} (h : P s) (hb : Q b) : Emits P Q (s, [b]) :=
  ⟨h, fun _ hm => mem_singleton.mp hm ▸ hb⟩

lemma Emits.all {s bs} (h : P s) (hb : ∀ b ∈ bs, Q b) : Emits P Q (s, bs) :=
  ⟨h, hb⟩

lemma Emits.imp (h : Emits P Q r) (hi : ∀ s, P s → R s) : Emits R Q r :=
  ⟨hi _ h.state, h.outputs⟩

lemma Emits.andThen (h : Emits P Q r) (hf : ∀ s, P s → Emits R Q (f s)) :
    Emits R Q (andThen r f) where
  state := (hf _ h.state).state
  outputs b hb := by
    rcases mem_append.mp hb with hb | hb
    · exact h.outputs b hb
    · exact (hf _ h.state).outputs b hb

/-- A postcondition each step keeps is one of the loop. -/
lemma Emits.emitAll {f} {as : List α} {s} (h : P s) (step : ∀ s, ∀ a ∈ as, P s → Emits P Q (f s a)) :
    Emits P Q (emitAll f s as) := by
  induction as generalizing s with
  | nil => exact Emits.nil h
  | cons a as ih =>
    apply Emits.andThen (step s a mem_cons_self h)
    intro s' hs'
    exact ih hs' fun s b hb => step s b (mem_cons_of_mem _ hb)

end Emits

section Watched
variable {τ : Type*} {accept : τ → β → Option τ}

/-- The observer takes the outputs of a step, and ends with it in `P`. -/
def Watched (accept : τ → β → Option τ) (P : σ → τ → Prop) (t : τ) (r : σ × List β) : Prop :=
  ∃ t', r.2.foldlM accept t = some t' ∧ P r.1 t'

variable {P R : σ → τ → Prop} {r : σ × List β} {f : σ → σ × List β} {s : σ} {t : τ}

lemma Watched.nil (h : P s t) : Watched accept P t (s, []) :=
  ⟨t, rfl, h⟩

lemma Watched.one {b t'} (hb : accept t b = some t') (h : P s t') : Watched accept P t (s, [b]) :=
  ⟨t', by simp [hb], h⟩

lemma Watched.imp (h : Watched accept P t r) (hi : ∀ s t, P s t → R s t) :
    Watched accept R t r := by
  obtain ⟨t', ht, hp⟩ := h
  exact ⟨t', ht, hi _ _ hp⟩

/-- What is known of the state anyway. -/
lemma Watched.and {Q : σ → Prop} (h : Watched accept P t r) (hq : Q r.1) :
    Watched accept (fun s t => P s t ∧ Q s) t r := by
  obtain ⟨t', ht, hp⟩ := h
  exact ⟨t', ht, hp, hq⟩

lemma Watched.andThen (h : Watched accept P t r)
    (hf : ∀ s t, P s t → Watched accept R t (f s)) : Watched accept R t (andThen r f) := by
  obtain ⟨t', ht, hp⟩ := h
  obtain ⟨t'', ht', hr⟩ := hf _ _ hp
  exact ⟨t'', by simp [Rimz.Lib.andThen, List.foldlM_append, ht, ht'], hr⟩

/-- A loop whose invariant speaks of the elements still to come. -/
lemma Watched.emitAll {f} {I : List α → σ → τ → Prop} {as} (h : I as s t)
    (step : ∀ a as s t, I (a :: as) s t → Watched accept (I as) t (f s a)) :
    Watched accept (I []) t (emitAll f s as) := by
  induction as generalizing s t with
  | nil => exact Watched.nil h
  | cons a as ih => exact Watched.andThen (step a as s t h) fun _ _ hi => ih hi

/-- Outputs the observer lets pass leave it where it was. -/
lemma Emits.watched {Q} (h : Emits Q (fun b => ∀ t, accept t b = some t) r)
    (hp : ∀ s, Q s → P s t) : Watched accept P t r := by
  refine ⟨t, ?_, hp _ h.state⟩
  have hpass := h.outputs
  generalize r.2 = bs at hpass
  induction bs with
  | nil => rfl
  | cons b bs ih =>
    rw [List.foldlM_cons, hpass b mem_cons_self]
    exact ih fun b hb => hpass b (mem_cons_of_mem _ hb)

end Watched

end Rimz.Lib
