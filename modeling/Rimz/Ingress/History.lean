import Rimz.Ingress.Drain

/-!
# What a drain history may look like

The properties of the order of acts, and the one obligation each act brings when it is added at the
end. Acts are only ever added at the end, so nothing else has to be shown again.
-/

namespace Rimz.Ingress
open Rimz.Lib Rimz.EventLog

/-- The extent that the first claim of a frame recorded. -/
def firstClaim (id : EventId) (history : List Act) : Option LogExtent :=
  history.findSome? fun
    | .claimed i extent => if i = id then some extent else none
    | _ => none

/-- The processor has been given the frame. -/
def Handed (frame : HookIngress) (history : List Act) : Prop :=
  ∃ extent, .handed frame extent ∈ history

/-- The three promises about order. -/
structure Ordered (own : Option String) (history : List Act) : Prop where
  /-- The log is truncated only when every frame of this boot has been handed over. -/
  kept : ∀ pre post, history = pre ++ .truncated :: post →
    ∀ f, .appended f ∈ pre → otherBoot own f = false → Handed f pre
  /-- No frame is handed over once an applied cursor is past it. -/
  once : ∀ pre post id, history = pre ++ .applied id :: post →
    ∀ f, f.eventId = id → ¬ Handed f post
  /-- A second hand-over is flagged, with the extent of the first claim. -/
  flagged : ∀ pre post f flag, history = pre ++ .handed f flag :: post → Handed f pre →
    ∃ extent, flag = some extent ∧ firstClaim f.eventId pre = some extent

/-- What an act must bring to be added to a history. -/
def Allowed (own : Option String) (history : List Act) : Act → Prop
  | .truncated => ∀ f, .appended f ∈ history → otherBoot own f = false → Handed f history
  | .handed f flag => .applied f.eventId ∉ history ∧
      (Handed f history → ∃ extent, flag = some extent ∧ firstClaim f.eventId history = some extent)
  | _ => True

lemma Handed.append {f h} (hf : Handed f h) (acts : List Act) : Handed f (h ++ acts) := by
  obtain ⟨e, he⟩ := hf
  exact ⟨e, mem_append_left _ he⟩

lemma firstClaim_append {id h extent} (hc : firstClaim id h = some extent) {acts} :
    firstClaim id (h ++ acts) = some extent := by
  simp only [firstClaim, List.findSome?_append] at hc ⊢
  rw [hc]
  rfl

lemma firstClaim_snoc {id h} (hn : ∀ e, .claimed id e ∉ h) {extent} :
    firstClaim id (h ++ [.claimed id extent]) = some extent := by
  have hnone : firstClaim id h = none := by
    apply List.findSome?_eq_none_iff.mpr
    intro a ha
    cases a with
    | claimed i e =>
      have : i ≠ id := fun hi => hn e (hi ▸ ha)
      simp [this]
    | _ => rfl
  simp only [firstClaim, List.findSome?_append] at hnone ⊢
  rw [hnone]
  simp

lemma snoc_eq_append_cons {h pre post} {a x : Act} (e : h ++ [a] = pre ++ x :: post) :
    (h = pre ∧ a = x ∧ post = []) ∨ ∃ rest, h = pre ++ x :: rest ∧ post = rest ++ [a] := by
  rcases post.eq_nil_or_concat with rfl | ⟨rest, b, rfl⟩
  · obtain ⟨rfl, hax⟩ := List.append_inj' e rfl
    exact .inl ⟨rfl, by simpa using hax, rfl⟩
  · have e' : h ++ [a] = (pre ++ x :: rest) ++ [b] := by simpa using e
    obtain ⟨rfl, hab⟩ := List.append_inj' e' rfl
    exact .inr ⟨rest, rfl, by simpa using hab.symm⟩

lemma Ordered.snoc {own} {h : List Act} (ho : Ordered own h) {a} (ha : Allowed own h a) :
    Ordered own (h ++ [a]) where
  kept := by
    intro pre post e f hf hown
    obtain ⟨rfl, rfl, rfl⟩ | ⟨rest, e', -⟩ := snoc_eq_append_cons e
    · exact ha f hf hown
    · exact ho.kept pre rest e' f hf hown
  once := by
    intro pre post id e f hid hp
    obtain ⟨rfl, rfl, rfl⟩ | ⟨rest, e', rfl⟩ := snoc_eq_append_cons e
    · obtain ⟨_, hm⟩ := hp
      cases hm
    obtain ⟨flag, hm⟩ := hp
    rcases mem_append.mp hm with hm | hm
    · exact ho.once pre rest id e' f hid ⟨flag, hm⟩
    · obtain rfl : _ = a := mem_singleton.mp hm
      exact ha.1 (by rw [e', hid]; simp)
  flagged := by
    intro pre post f flag e hp
    obtain ⟨rfl, rfl, rfl⟩ | ⟨rest, e', -⟩ := snoc_eq_append_cons e
    · exact ha.2 hp
    · exact ho.flagged pre rest f flag e' hp

lemma Ordered.passed {own h} (ho : Ordered own h) (frames : List (Option HookIngress × Nat)) :
    Ordered own (h ++ passed frames) := by
  unfold Ingress.passed
  induction frames.filterMap Prod.fst generalizing h with
  | nil => simpa using ho
  | cons f rest ih =>
    rw [map_cons, append_cons]
    exact ih (ho.snoc trivial)

/-- Nothing has happened to the frame since it was appended. -/
structure Untouched (id : EventId) (history : List Act) : Prop where
  claimed : ∀ extent, .claimed id extent ∉ history
  handed : ∀ f flag, .handed f flag ∈ history → f.eventId ≠ id
  applied : .applied id ∉ history

/-- The id of the frame an act is about. -/
def Act.touches : Act → Option EventId
  | .claimed id _ => some id
  | .handed f _ => some f.eventId
  | .applied id => some id
  | .appended _ | .truncated => none

lemma Untouched.append {id h acts} (hu : Untouched id h) (ha : ∀ a ∈ acts, a.touches ≠ some id) :
    Untouched id (h ++ acts) where
  claimed := by
    intro e hm
    rcases mem_append.mp hm with hm | hm
    · exact hu.claimed e hm
    · exact ha _ hm rfl
  handed := by
    intro f flag hm hid
    rcases mem_append.mp hm with hm | hm
    · exact hu.handed f flag hm hid
    · exact ha _ hm (congrArg some hid)
  applied := by
    intro hm
    rcases mem_append.mp hm with hm | hm
    · exact hu.applied hm
    · exact ha _ hm rfl

end Rimz.Ingress
