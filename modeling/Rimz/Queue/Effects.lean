import Rimz.Queue.Batch

/-!
# What a queue edit does

Every operation of the store is a composition of a few edits of an open transaction. `Effect` says
once what such an edit can do to the ids, the statuses and the claim stamps; each edit is shown to
have one, and effects compose.
-/

namespace Rimz.Queue
open Rimz.Lib

def idsOf (ms : List MessageRecord) : List MessageId := ms.map MessageRecord.messageId

/-- The ids a transaction accounts for: live ones and the ones it closed. -/
def QueueTxn.ids (q : QueueTxn) : List MessageId := idsOf q.live ++ idsOf q.history

@[simp] lemma idsOf_append {a b} : idsOf (a ++ b) = idsOf a ++ idsOf b :=
  map_append

@[simp] lemma idsOf_nil : idsOf [] = [] := rfl

@[simp] lemma idsOf_cons {m ms} : idsOf (m :: ms) = m.messageId :: idsOf ms := rfl

lemma mem_idsOf {id ms} : id ∈ idsOf ms ↔ ∃ m ∈ ms, m.messageId = id := mem_map

/-- No record of the list is terminal. -/
def AllLive (ms : List MessageRecord) : Prop := ∀ m ∈ ms, m.status.isTerminal = false

/-- Every record of the list is terminal. -/
def AllTerminal (ms : List MessageRecord) : Prop := ∀ m ∈ ms, m.status.isTerminal = true

/-- What an edit from `q` to `q'` does: it adds the ids `added`, drops `removed`, moves ids from
live to history and nothing else; it keeps live records live and history terminal; it reports every
change of the live queue; and it stamps no claim instant but `instant`. -/
structure Effect (removed added : List MessageId) (instant : Option Timestamp) (q q' : QueueTxn) :
    Prop where
  ids : (q'.ids ++ removed).Perm (q.ids ++ added)
  live : AllLive q.live → AllLive q'.live
  terminal : AllTerminal q.history → AllTerminal q'.history
  changed : q'.liveChanged = false →
    q.liveChanged = false ∧ q'.live = q.live ∧ q'.history = q.history
  stamps : ∀ m' ∈ q'.live, ∀ t, m'.lastAttemptAt = some t →
    instant = some t ∨ ∃ m ∈ q.live, m.lastAttemptAt = some t

namespace Effect
variable {removed removed' added added' : List MessageId} {instant : Option Timestamp}
  {q q' q'' : QueueTxn}

lemma refl : Effect [] [] instant q q where
  ids := List.Perm.refl _
  live := id
  terminal := id
  changed h := ⟨h, rfl, rfl⟩
  stamps m hm _ ht := .inr ⟨m, hm, ht⟩

section
variable (h : Effect removed added instant q q')
include h

lemma trans (h' : Effect removed' added' instant q' q'') :
    Effect (removed ++ removed') (added ++ added') instant q q'' where
  ids := by
    have e := h.ids
    have e' := h'.ids
    rw [List.perm_iff_count] at e e' ⊢
    intro a
    have := e a
    have := e' a
    simp only [List.count_append] at *
    omega
  live hl := h'.live (h.live hl)
  terminal ht := h'.terminal (h.terminal ht)
  changed hc := by
    obtain ⟨c', l', r'⟩ := h'.changed hc
    obtain ⟨c, l, r⟩ := h.changed c'
    exact ⟨c, l'.trans l, r'.trans r⟩
  stamps m hm t ht := by
    rcases h'.stamps m hm t ht with e | ⟨x, hx, e⟩
    · exact .inl e
    · exact h.stamps x hx t e

lemma of_eq {r} (hl : r.live = q'.live) (hh : r.history = q'.history)
    (hc : r.liveChanged = q'.liveChanged) : Effect removed added instant q r where
  ids := by
    have : r.ids = q'.ids := by simp [QueueTxn.ids, hl, hh]
    rw [this]
    exact h.ids
  live hq := by
    rw [hl]
    exact h.live hq
  terminal hq := by
    rw [hh]
    exact h.terminal hq
  changed hr := by
    rw [hl, hh]
    exact h.changed (hc ▸ hr)
  stamps m hm := h.stamps m (hl ▸ hm)

lemma stageEvent (e : MessageEvent) : Effect removed added instant q (q'.stageEvent e) :=
  h.of_eq rfl rfl rfl

end

/-- A record put into the queue. The claim stamp it brings must be known. -/
lemma upsert {m} (hm : m.status.isTerminal = false)
    (hs : ∀ t, m.lastAttemptAt = some t → instant = some t ∨ ∃ x ∈ q.live, x.lastAttemptAt = some t) :
    Effect [] (if m.messageId ∈ idsOf q.live then [] else [m.messageId]) instant q (q.upsert m) where
  ids := by
    have e : idsOf (q.upsert m).live
        = if m.messageId ∈ idsOf q.live then idsOf q.live else idsOf q.live ++ [m.messageId] :=
      map_upsertBy m q.live
    simp only [QueueTxn.ids, e, append_nil]
    split
    · simp [QueueTxn.upsert]
    · simp only [append_assoc, QueueTxn.upsert]
      exact List.Perm.append_left _ perm_append_comm
  live hl x hx := by
    rcases mem_upsertBy hx with rfl | hx
    · exact hm
    · exact hl x hx
  terminal := id
  changed hc := absurd hc (by simp [QueueTxn.upsert])
  stamps x hx t ht := by
    rcases mem_upsertBy hx with rfl | hx
    · exact hs t ht
    · exact .inr ⟨x, hx, ht⟩

lemma rewrite {m} (hid : m.messageId ∈ idsOf q.live) (hm : m.status.isTerminal = false)
    (hs : ∀ t, m.lastAttemptAt = some t → instant = some t ∨ ∃ x ∈ q.live, x.lastAttemptAt = some t) :
    Effect [] [] instant q (q.upsert m) := by
  have h := upsert hm hs
  rwa [if_pos hid] at h

end Effect

lemma findId_some {id live m} (h : findId id live = some m) : m ∈ live ∧ m.messageId = id :=
  ⟨List.mem_of_find?_eq_some h, by simpa using List.find?_some h⟩

/-- Claiming keeps the ids and stamps only the claim instant. -/
lemma claimIndices_effect {now q} (indices : List Nat) :
    Effect [] [] (some now) q (q.claimIndices now indices).1 := by
  induction indices generalizing q with
  | nil => exact .refl
  | cons index indices ih =>
    simp only [QueueTxn.claimIndices]
    cases e : q.live[index]? with
    | none => exact ih
    | some m =>
      have step : Effect [] [] (some now) q
          { q with live := q.live.set index (claimRecord m now), liveChanged := true } := by
        refine ⟨?_, ?_, id, fun h => absurd h (by simp), ?_⟩
        · have hids : idsOf (q.live.set index (claimRecord m now)) = idsOf q.live := by
            refine List.ext_getElem? fun i => ?_
            simp only [idsOf, List.getElem?_map, List.getElem?_set]
            split
            · rename_i hi
              subst hi
              obtain ⟨hi, he⟩ := List.getElem?_eq_some_iff.mp e
              simp [hi, he, claimRecord]
            · rfl
          simp [QueueTxn.ids, hids]
        · intro hl x hx
          rcases List.mem_or_eq_of_mem_set hx with hx | rfl
          · exact hl x hx
          · rfl
        · intro x hx t ht
          rcases List.mem_or_eq_of_mem_set hx with hx | rfl
          · exact .inr ⟨x, hx, ht⟩
          · exact .inl ht
      exact step.trans ih

lemma claimIndices_claimed (now : Timestamp) {indices} (hn : indices.Nodup) (q : QueueTxn) :
    (q.claimIndices now indices).2
      = indices.filterMap fun i => q.live[i]?.map fun m => claimRecord m now := by
  induction indices generalizing q with
  | nil => rfl
  | cons index indices ih =>
    obtain ⟨hnot, hn⟩ := nodup_cons.mp hn
    simp only [QueueTxn.claimIndices, filterMap_cons]
    cases e : q.live[index]? with
    | none => simpa using ih hn q
    | some m =>
      simp only [map_some]
      rw [ih hn]
      congr 1
      -- The record just claimed is at none of the indices that follow.
      refine List.filterMap_congr fun i hi => ?_
      have hne : index ≠ i := fun h => hnot (h ▸ hi)
      simp [hne]

lemma mem_claimIndices (now : Timestamp) (indices : List Nat) (q : QueueTxn) :
    ∀ m ∈ (q.claimIndices now indices).1.live, m ∈ q.live ∨ m ∈ (q.claimIndices now indices).2 := by
  induction indices generalizing q with
  | nil => exact fun m hm => .inl hm
  | cons index indices ih =>
    simp only [QueueTxn.claimIndices]
    cases e : q.live[index]? with
    | none => exact ih q
    | some x =>
      intro m hm
      rcases ih _ m hm with hm | hm
      · rcases List.mem_or_eq_of_mem_set hm with hm | rfl
        · exact .inl hm
        · exact .inr mem_cons_self
      · exact .inr (mem_cons_of_mem _ hm)

section Closing
variable {q : QueueTxn} {m : MessageRecord} {status : MessageStatus} {session : String}
  {reason : Option String} {now : Timestamp}

@[simp] lemma normalizeTerminal_messageId :
    (normalizeTerminal m status now reason).messageId = m.messageId := by
  simp only [normalizeTerminal]
  split <;> split <;> rfl

@[simp] lemma normalizeTerminal_status :
    (normalizeTerminal m status now reason).status = status := by
  simp only [normalizeTerminal]
  split <;> split <;> rfl

@[simp] lemma close_live : (q.close m status session reason now).1.live = q.live := rfl

@[simp] lemma close_history : (q.close m status session reason now).1.history
    = q.history ++ [normalizeTerminal m status now reason] := rfl

@[simp] lemma close_liveChanged :
    (q.close m status session reason now).1.liveChanged = q.liveChanged := rfl

/-- Moving one live record to the history. -/
lemma terminalize_effect {instant} (hid : m.messageId ∈ idsOf q.live)
    (ht : status.isTerminal = true) :
    Effect [] [] instant q (q.terminalize m status session reason now).1 := by
  obtain ⟨x, hx, hxid⟩ := mem_idsOf.mp hid
  have hany : (q.live.any fun y => y.messageId == m.messageId) = true :=
    List.any_eq_true.mpr ⟨x, hx, by simpa using hxid⟩
  simp only [QueueTxn.terminalize, hany, if_true]
  refine ⟨?_, ?_, ?_, fun h => absurd h (by simp), ?_⟩
  · obtain ⟨y, a, b, -, hy, e, e'⟩ :=
      List.exists_of_eraseP (p := fun y : MessageRecord => y.messageId == m.messageId) hx
        (by simpa using hxid)
    have hy' : y.messageId = m.messageId := by simpa using hy
    simp only [QueueTxn.ids, close_live, close_history, e', idsOf_append, idsOf_cons, idsOf_nil,
      normalizeTerminal_messageId, append_nil]
    rw [e, List.perm_iff_count]
    intro z
    simp only [idsOf_append, idsOf_cons, hy', List.count_append, List.count_cons, List.count_nil]
    omega
  · intro hl y hy
    exact hl y (List.mem_of_mem_eraseP hy)
  · intro hh y hy
    rcases mem_append.mp hy with hy | hy
    · exact hh y hy
    · rw [mem_singleton.mp hy, normalizeTerminal_status, ht]
  · intro y hy t hyt
    exact .inr ⟨y, List.mem_of_mem_eraseP hy, hyt⟩

end Closing

lemma Effect.enqueue (q : QueueTxn) {instant m} (hq : m.status = .queued)
    (hu : m.lastAttemptAt = none) :
    Effect [] (if m.messageId ∈ idsOf q.live then [] else [m.messageId]) instant q (q.upsert m) :=
  .upsert (by rw [hq]; rfl) (by simp [hu])

lemma upsertClaimed_effect (q : QueueTxn) {m now} (hq : m.status = .queued)
    (hu : m.lastAttemptAt = none) :
    Effect [] (if m.messageId ∈ idsOf q.live then [] else [m.messageId]) (some now) q
      (q.upsertClaimed m now).1 := by
  have h : Effect _ _ (some now) q _ := Effect.enqueue q hq hu
  simp only [QueueTxn.upsertClaimed]
  cases (q.upsert m).live.findIdx? fun x => x.messageId == m.messageId with
  | none => exact h
  | some index => simpa using h.trans (claimIndices_effect [index])

lemma upsertClaimed_claim (q : QueueTxn) (m : MessageRecord) (now : Timestamp) :
    (q.upsertClaimed m now).2 = some (claimRecord m now)
      ∧ ∀ x ∈ (q.upsertClaimed m now).1.live, x = claimRecord m now ∨ x = m ∨ x ∈ q.live := by
  obtain ⟨index, hi, hm⟩ : ∃ i, (q.upsert m).live.findIdx? (fun x => x.messageId == m.messageId)
      = some i ∧ (q.upsert m).live[i]? = some m := findIdx?_upsertBy m q.live
  constructor
  · simp only [QueueTxn.upsertClaimed, hi, QueueTxn.claimIndices, hm]
    rfl
  · intro x hx
    simp only [QueueTxn.upsertClaimed, hi] at hx
    rcases mem_claimIndices now [index] (q.upsert m) x hx with h | h
    · exact .inr (mem_upsertBy h)
    · simp only [QueueTxn.claimIndices, hm, mem_singleton] at h
      exact .inl h

/-- A record moved to the tail changes its id only. -/
lemma atTail_eq (q : QueueTxn) (m : MessageRecord) (newId : MessageId) :
    ∃ id, q.atTail m newId = { m with messageId := id } := by
  simp only [QueueTxn.atTail]
  split
  · split <;> exact ⟨_, rfl⟩
  · exact ⟨_, rfl⟩

end Rimz.Queue
