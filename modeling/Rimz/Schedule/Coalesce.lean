import Rimz.Schedule.Overlap

/-!
# Coalesced triggers

Under the policies `coalesce` and `replace` a waiting trigger absorbs the others, in whatever order
they come in, and a fire that is still to run is absorbed with them. `Stands` is the closed form of
such a merge: the newest arrival with the `from` of the oldest. Absorbing keeps it, so the order of
the merge does not show in the result.
-/

namespace Rimz.Schedule
open Rimz.Lib

namespace WaitingTrigger

/-- The arrival of the trigger's `from`: that of an absorbed trigger, or its own. -/
def origin (t : WaitingTrigger) : Timestamp :=
  t.fromArrivedAt.getD t.arrivedAt

lemma absorbOlder_eq {t older : WaitingTrigger} {new old : SignalRecord} {source : String}
    (hnew : t.signal = some new) (hold : older.signal = some old)
    (continues : new.continues old = true) (hsource : old.payload["from"]? = some source) :
    t.absorbOlder older =
      if older.origin ≤ t.origin then
        { arrivedAt := t.arrivedAt
          signal := some { new with payload := new.payload.insert "from" source }
          absorbed := t.absorbed + (older.absorbed + 1)
          fromArrivedAt := some older.origin }
      else { t with absorbed := t.absorbed + (older.absorbed + 1) } := by
  unfold absorbOlder
  simp only [hnew, hold, continues, hsource, Bool.true_and, decide_eq_true_eq]
  rfl

end WaitingTrigger

/-- The payload has a `from` and a `to`, and the given values under every other key. -/
structure SignalRecord.Reports (s : SignalRecord) (name : String)
    (others : String → Option String) : Prop where
  name : s.name = name
  hasFrom : s.payload.contains "from" = true
  hasTo : s.payload.contains "to" = true
  others : ∀ key, key ≠ "from" → key ≠ "to" → s.payload[key]? = others key

/-- Triggers with distinct arrivals that report the same thing, but for `from` and `to`. A trigger
that is a merge itself holds an arrival for its `from` as well; these are distinct, too. -/
structure Alike (name : String) (others : String → Option String) (ts : List WaitingTrigger) :
    Prop where
  arrivals : ts.Pairwise fun t u => t.arrivedAt ≠ u.arrivedAt
  origins : ts.Pairwise fun t u => t.origin ≠ u.origin
  origin_le : ∀ t ∈ ts, t.origin ≤ t.arrivedAt
  reports : ∀ t ∈ ts, ∃ s, t.signal = some s ∧ s.Reports name others

/-- The trigger that triggers of one kind are merged into. -/
structure Stands (ts : List WaitingTrigger) (newest oldest t : WaitingTrigger) : Prop where
  newest_mem : newest ∈ ts
  oldest_mem : oldest ∈ ts
  newest_le : ∀ u ∈ ts, u.arrivedAt ≤ newest.arrivedAt
  oldest_le : ∀ u ∈ ts, oldest.origin ≤ u.origin
  arrivedAt : t.arrivedAt = newest.arrivedAt
  fromArrivedAt : t.fromArrivedAt = if ts.length = 1 then oldest.fromArrivedAt
    else some oldest.origin
  signal : ∃ new old origin, newest.signal = some new ∧ oldest.signal = some old ∧
    old.payload["from"]? = some origin ∧
    t.signal = some { new with payload := new.payload.insert "from" origin }
  absorbed : t.absorbed + 1 = (ts.map WaitingTrigger.absorbed).sum + ts.length

/-- Every order in which the triggers of a list can be merged. -/
inductive Merge : List WaitingTrigger → WaitingTrigger → Prop where
  | one {t} :
    Merge [t] t
  | absorb {ts us t u} :
    Merge ts t →
    Merge us u →
    Merge (ts ++ us) (t.absorb u)

/-! ## Signals that continue each other -/

lemma size_eq_of_contains {m n : Std.ExtTreeMap String String}
    (h : ∀ key, m.contains key = n.contains key) : m.size = n.size := by
  have same : m.map (fun _ _ => ()) = n.map (fun _ _ => ()) := by
    apply Std.ExtTreeMap.ext_getElem?
    intro key
    have hk := h key
    rw [Std.ExtTreeMap.contains_eq_isSome_getElem?, Std.ExtTreeMap.contains_eq_isSome_getElem?] at hk
    cases hm : m[key]? <;> cases hn : n[key]? <;> simp_all
  rw [← Std.ExtTreeMap.size_map, same, Std.ExtTreeMap.size_map]

lemma insert_insert_self {m : Std.ExtTreeMap String String} {key a b : String} :
    (m.insert key a).insert key b = m.insert key b := by
  apply Std.ExtTreeMap.ext_getElem?
  intro l
  simp only [Std.ExtTreeMap.getElem?_insert]
  split <;> rfl

namespace SignalRecord.Reports

variable {s r : SignalRecord} {name : String} {others : String → Option String}

lemma contains_eq (hs : s.Reports name others) (hr : r.Reports name others) (key : String) :
    s.payload.contains key = r.payload.contains key := by
  by_cases hf : key = "from"
  · rw [hf, hs.hasFrom, hr.hasFrom]
  by_cases ht : key = "to"
  · rw [ht, hs.hasTo, hr.hasTo]
  rw [Std.ExtTreeMap.contains_eq_isSome_getElem?, Std.ExtTreeMap.contains_eq_isSome_getElem?,
    hs.others key hf ht, hr.others key hf ht]

lemma continues (hs : s.Reports name others) (hr : r.Reports name others) :
    s.continues r = true := by
  have size : s.payload.size = r.payload.size := size_eq_of_contains (hs.contains_eq hr)
  have entries : (s.payload.toList.all fun row =>
      row.1 == "from" || row.1 == "to" || r.payload[row.1]? == some row.2) = true := by
    rw [List.all_eq_true]
    rintro ⟨key, value⟩ hmem
    rw [Std.ExtTreeMap.mem_toList_iff_getElem?_eq_some] at hmem
    by_cases hf : key = "from"
    · simp [hf]
    by_cases ht : key = "to"
    · simp [ht]
    have hr' := hr.others key hf ht
    rw [← hs.others key hf ht, hmem] at hr'
    simp [hr']
  simp only [SignalRecord.continues, and_eq_true, beq_iff_eq]
  exact ⟨⟨⟨⟨⟨⟨hs.name.trans hr.name.symm, hs.hasFrom⟩, hs.hasTo⟩, hr.hasFrom⟩, hr.hasTo⟩, size⟩,
    entries⟩

lemma insert_from (hs : s.Reports name others) (origin : String) :
    SignalRecord.Reports { s with payload := s.payload.insert "from" origin } name others where
  name := hs.name
  hasFrom := by simp
  hasTo := by
    rw [Std.ExtTreeMap.contains_insert, hs.hasTo, Bool.or_true]
  others key hf ht := by
    rw [Std.ExtTreeMap.getElem?_insert, if_neg, hs.others key hf ht]
    simpa using fun e => hf e.symm

end SignalRecord.Reports

/-! ## Families of triggers -/

namespace Alike

variable {name : String} {others : String → Option String} {ts us : List WaitingTrigger}

lemma perm (h : Alike name others ts) (p : ts.Perm us) : Alike name others us where
  arrivals := (p.pairwise_iff fun h => h.symm).mp h.arrivals
  origins := (p.pairwise_iff fun h => h.symm).mp h.origins
  origin_le t ht := h.origin_le t (p.mem_iff.mpr ht)
  reports t ht := h.reports t (p.mem_iff.mpr ht)

lemma left (h : Alike name others (ts ++ us)) : Alike name others ts where
  arrivals := (pairwise_append.mp h.arrivals).1
  origins := (pairwise_append.mp h.origins).1
  origin_le t ht := h.origin_le t (mem_append_left us ht)
  reports t ht := h.reports t (mem_append_left us ht)

lemma right (h : Alike name others (ts ++ us)) : Alike name others us :=
  (h.perm perm_append_comm).left

end Alike

/-! ## The closed form of a merge -/

namespace Stands

variable {name : String} {others : String → Option String} {ts us : List WaitingTrigger}
  {newest oldest newest' oldest' t u : WaitingTrigger}

/-- A trigger alone stands for itself. -/
lemma one (h : Alike name others [t]) : Stands [t] t t t := by
  obtain ⟨s, hs, reports⟩ := h.reports t (mem_singleton_self t)
  obtain ⟨origin, horigin⟩ : ∃ origin, s.payload["from"]? = some origin := by
    have hfrom := reports.hasFrom
    rw [Std.ExtTreeMap.contains_eq_isSome_getElem?] at hfrom
    exact isSome_iff_exists.mp hfrom
  have same : s.payload.insert "from" origin = s.payload := by
    apply Std.ExtTreeMap.ext_getElem?
    intro key
    rw [Std.ExtTreeMap.getElem?_insert]
    split
    next e => rw [← Std.compare_eq_iff_eq.mp e, horigin]
    next => rfl
  exact {
    newest_mem := mem_singleton_self t
    oldest_mem := mem_singleton_self t
    newest_le := fun u hu => by rw [mem_singleton.mp hu]
    oldest_le := fun u hu => by rw [mem_singleton.mp hu]
    arrivedAt := rfl
    fromArrivedAt := rfl
    signal := ⟨s, s, origin, hs, hs, horigin, by rw [same, hs]⟩
    absorbed := by simp }

section
variable (h : Stands ts newest oldest t)
include h

lemma perm (p : ts.Perm us) : Stands us newest oldest t where
  newest_mem := p.mem_iff.mp h.newest_mem
  oldest_mem := p.mem_iff.mp h.oldest_mem
  newest_le u hu := h.newest_le u (p.mem_iff.mpr hu)
  oldest_le u hu := h.oldest_le u (p.mem_iff.mpr hu)
  arrivedAt := h.arrivedAt
  fromArrivedAt := by rw [h.fromArrivedAt, p.length_eq]
  signal := h.signal
  absorbed := by rw [h.absorbed, (p.map _).sum_nat, p.length_eq]

lemma origin : t.origin = oldest.origin := by
  have hfrom := h.fromArrivedAt
  split at hfrom
  next one =>
    obtain ⟨x, rfl⟩ := List.length_eq_one_iff.mp one
    have hn := mem_singleton.mp h.newest_mem
    have ho := mem_singleton.mp h.oldest_mem
    rw [WaitingTrigger.origin, hfrom, h.arrivedAt, hn, ho, WaitingTrigger.origin]
  next => rw [WaitingTrigger.origin, hfrom, getD_some]

lemma length_pos : 0 < ts.length :=
  List.length_pos_of_mem h.newest_mem

lemma reports (alike : Alike name others ts) : ∃ s, t.signal = some s ∧ s.Reports name others := by
  obtain ⟨new, old, origin, hnew, -, -, hsignal⟩ := h.signal
  obtain ⟨s, hs, reports⟩ := alike.reports newest h.newest_mem
  cases hnew.symm.trans hs
  exact ⟨_, hsignal, reports.insert_from origin⟩

lemma origin_le (alike : Alike name others ts) : t.origin ≤ t.arrivedAt := by
  have le_newest := h.oldest_le newest h.newest_mem
  have le_arrival := alike.origin_le newest h.newest_mem
  rw [h.origin, h.arrivedAt]
  exact Int.le_trans le_newest le_arrival

end

section
variable (ht : Stands ts newest oldest t)
include ht

section
variable (hu : Stands us newest' oldest' u)
include hu

lemma absorbed_add :
    t.absorbed + (u.absorbed + 1) + 1 = ((ts ++ us).map WaitingTrigger.absorbed).sum +
    (ts ++ us).length := by
  have ht := ht.absorbed
  have hu := hu.absorbed
  rw [map_append, List.sum_append, length_append]
  omega

lemma length_append_ne_one : (ts ++ us).length ≠ 1 := by
  have ht := ht.length_pos
  have hu := hu.length_pos
  rw [length_append]
  omega

/-- The newer of two merges absorbs the other one: the `from` is the older of the two. -/
lemma absorbOlder (alike : Alike name others (ts ++ us)) (later : u.arrivedAt < t.arrivedAt) :
    Stands (ts ++ us) newest (if u.origin ≤ t.origin then oldest' else oldest) (t.absorbOlder u) := by
  obtain ⟨s, hs, sreports⟩ := ht.reports alike.left
  obtain ⟨r, hr, rreports⟩ := hu.reports alike.right
  obtain ⟨new, old, source, hnew, hold, hsource, hsignal⟩ := ht.signal
  obtain ⟨new', old', source', hnew', hold', hsource', hsignal'⟩ := hu.signal
  cases hs.symm.trans hsignal
  cases hr.symm.trans hsignal'
  have newest_le : ∀ x ∈ ts ++ us, x.arrivedAt ≤ newest.arrivedAt := by
    intro x hx
    rcases mem_append.mp hx with hx | hx
    · exact ht.newest_le x hx
    have h := hu.newest_le x hx
    rw [← hu.arrivedAt] at h
    rw [← ht.arrivedAt]
    exact Int.le_trans h (Int.le_of_lt later)
  rw [WaitingTrigger.absorbOlder_eq hsignal hsignal' (sreports.continues rreports)
    (show _ = some source' by simp)]
  by_cases hfrom : u.origin ≤ t.origin
  · rw [if_pos hfrom, if_pos hfrom]
    exact {
      newest_mem := mem_append_left us ht.newest_mem
      oldest_mem := mem_append_right ts hu.oldest_mem
      newest_le := newest_le
      oldest_le := by
        intro x hx
        rcases mem_append.mp hx with hx | hx
        · have h := ht.oldest_le x hx
          rw [← ht.origin] at h
          rw [← hu.origin]
          exact Int.le_trans hfrom h
        · exact hu.oldest_le x hx
      arrivedAt := ht.arrivedAt
      fromArrivedAt := by rw [if_neg (ht.length_append_ne_one hu), hu.origin]
      signal := ⟨new, old', source', hnew, hold', hsource', by rw [insert_insert_self]⟩
      absorbed := ht.absorbed_add hu }
  rw [if_neg hfrom, if_neg hfrom]
  have older : t.origin < u.origin := Int.not_le.mp hfrom
  exact {
    newest_mem := mem_append_left us ht.newest_mem
    oldest_mem := mem_append_left us ht.oldest_mem
    newest_le := newest_le
    oldest_le := by
      intro x hx
      rcases mem_append.mp hx with hx | hx
      · exact ht.oldest_le x hx
      have h := hu.oldest_le x hx
      rw [← hu.origin] at h
      rw [← ht.origin]
      exact Int.le_trans (Int.le_of_lt older) h
    arrivedAt := ht.arrivedAt
    fromArrivedAt := by
      -- A trigger whose `from` is its own arrival is not older than the absorbed one.
      rw [if_neg (ht.length_append_ne_one hu), ← ht.origin]
      have before := Int.lt_of_lt_of_le older (hu.origin_le alike.right)
      cases hown : t.fromArrivedAt with
      | some at_ => simp [WaitingTrigger.origin, hown]
      | none =>
        have own : t.origin = t.arrivedAt := by simp [WaitingTrigger.origin, hown]
        rw [own] at before
        exact (Int.lt_asymm later before).elim
    signal := ⟨new, old, source, hnew, hold, hsource, hsignal⟩
    absorbed := ht.absorbed_add hu }

lemma absorb (alike : Alike name others (ts ++ us)) : ∃ n o, Stands (ts ++ us) n o (t.absorb u) := by
  have apart : newest.arrivedAt ≠ newest'.arrivedAt :=
    (pairwise_append.mp alike.arrivals).2.2 newest ht.newest_mem newest' hu.newest_mem
  rw [← ht.arrivedAt, ← hu.arrivedAt] at apart
  rcases Int.lt_or_gt_of_ne apart with lt | gt
  · have swapped : Alike name others (us ++ ts) := alike.perm perm_append_comm
    have stands := (hu.absorbOlder ht swapped lt).perm perm_append_comm
    rw [WaitingTrigger.absorb, if_pos lt]
    exact ⟨_, _, stands⟩
  · rw [WaitingTrigger.absorb, if_neg (Int.not_lt.mpr (Int.le_of_lt gt))]
    exact ⟨_, _, ht.absorbOlder hu alike gt⟩

end

/-- Triggers of one kind stand in one trigger only. -/
lemma unique (hu : Stands ts newest' oldest' u) (alike : Alike name others ts) : t = u := by
  have hn : newest = newest' := by
    apply List.inj_on_of_nodup_map (pairwise_map.mpr alike.arrivals) ht.newest_mem hu.newest_mem
    exact Int.le_antisymm (hu.newest_le _ ht.newest_mem) (ht.newest_le _ hu.newest_mem)
  have ho : oldest = oldest' := by
    apply List.inj_on_of_nodup_map (pairwise_map.mpr alike.origins) ht.oldest_mem hu.oldest_mem
    exact Int.le_antisymm (ht.oldest_le _ hu.oldest_mem) (hu.oldest_le _ ht.oldest_mem)
  subst hn ho
  obtain ⟨new, old, source, hnew, hold, hsource, hsignal⟩ := ht.signal
  obtain ⟨new', old', source', hnew', hold', hsource', hsignal'⟩ := hu.signal
  cases hnew.symm.trans hnew'
  cases hold.symm.trans hold'
  cases hsource.symm.trans hsource'
  have arrived := ht.arrivedAt.trans hu.arrivedAt.symm
  have fromArrived := ht.fromArrivedAt.trans hu.fromArrivedAt.symm
  have absorbed : t.absorbed = u.absorbed := Nat.succ.inj (ht.absorbed.trans hu.absorbed.symm)
  cases t
  cases u
  simp_all

end

end Stands

lemma Merge.stands {name others ts t} (h : Merge ts t) (alike : Alike name others ts) :
    ∃ newest oldest, Stands ts newest oldest t := by
  induction h with
  | one => exact ⟨_, _, .one alike⟩
  | absorb _ _ iht ihu =>
    obtain ⟨_, _, ht⟩ := iht alike.left
    obtain ⟨_, _, hu⟩ := ihu alike.right
    exact ht.absorb hu alike

/-! ## Merges that the backlog makes -/

/-- The triggers of a list, split into merges of some of them each. -/
structure Pieces (ts : List WaitingTrigger) (pieces : List (List WaitingTrigger × WaitingTrigger)) :
    Prop where
  merge : ∀ p ∈ pieces, Merge p.1 p.2
  perm : (pieces.flatMap Prod.fst).Perm ts

lemma Pieces.singles {ts us : List WaitingTrigger} (h : us.Perm ts) :
    Pieces ts (us.map fun u => ([u], u)) where
  merge p hp := by
    obtain ⟨u, -, rfl⟩ := mem_map.mp hp
    exact .one
  perm := by
    rw [List.flatMap_map, List.flatMap_singleton']
    exact h

lemma Merge.foldl_absorb {ts t} (ht : Merge ts t)
    (pieces : List (List WaitingTrigger × WaitingTrigger))
    (hp : ∀ p ∈ pieces, Merge p.1 p.2) :
    Merge (ts ++ pieces.flatMap Prod.fst) ((pieces.map Prod.snd).foldl WaitingTrigger.absorb t) := by
  induction pieces generalizing ts t with
  | nil => simpa using ht
  | cons p pieces ih =>
    have hhead := ht.absorb (hp p mem_cons_self)
    have hall := ih hhead fun q hq => hp q (mem_cons_of_mem p hq)
    rw [flatMap_cons, ← append_assoc]
    exact hall

lemma Merge.absorbAll {ts t} (ht : Merge ts t) {us pieces} (hp : Pieces us pieces) :
    ∃ vs, vs.Perm (ts ++ us) ∧ Merge vs (t.absorbAll (pieces.map Prod.snd)) := by
  refine ⟨ts ++ pieces.reverse.flatMap Prod.fst, ?_, ?_⟩
  · exact (List.Perm.flatMap_right _ pieces.reverse_perm |>.trans hp.perm).append_left ts
  · rw [WaitingTrigger.absorbAll, ← List.map_reverse]
    exact ht.foldl_absorb _ fun p h => hp.merge p (List.mem_reverse.mp h)

/-- The policies under which the triggers that wait are absorbed. -/
def OverlapPolicy.Absorbs (policy : OverlapPolicy) : Prop :=
  policy = .coalesce ∨ policy = .replace

namespace TaskBacklog

/-- Triggers entering the backlog one after another. -/
def enqueueAll (b : TaskBacklog) (policy : OverlapPolicy) (limit : Option Nat)
    (ts : List WaitingTrigger) : TaskBacklog :=
  ts.foldl (fun b t => (b.enqueue policy limit t).2) b

lemma enqueue_absorbs {policy} (h : policy.Absorbs) (b : TaskBacklog) (limit : Option Nat)
    (t : WaitingTrigger) : (b.enqueue policy limit t).2.triggers = [t.absorbAll b.triggers] := by
  rcases h with rfl | rfl
  all_goals rfl

/-- A backlog of one merge stays one, whatever merges enter it. -/
lemma enqueueAll_one {policy} (h : policy.Absorbs) (limit : Option Nat) {b : TaskBacklog} {ts t}
    (hb : b.triggers = [t]) (ht : Merge ts t) (pieces : List (List WaitingTrigger × WaitingTrigger))
    (hp : ∀ p ∈ pieces, Merge p.1 p.2) :
    ∃ us u, us.Perm (ts ++ pieces.flatMap Prod.fst) ∧ Merge us u ∧
      (b.enqueueAll policy limit (pieces.map Prod.snd)).triggers = [u] := by
  induction pieces generalizing b ts t with
  | nil => exact ⟨ts, t, by simp, ht, hb⟩
  | cons p pieces ih =>
    have hnext : (b.enqueue policy limit p.2).2.triggers = [p.2.absorb t] := by
      rw [enqueue_absorbs h, hb]
      rfl
    have hmerge := (hp p mem_cons_self).absorb ht
    obtain ⟨us, u, perm, hu, hlast⟩ :=
      ih hnext hmerge fun q hq => hp q (mem_cons_of_mem p hq)
    refine ⟨us, u, perm.trans ?_, hu, hlast⟩
    rw [flatMap_cons, ← append_assoc]
    exact perm_append_comm.append_right _

lemma enqueueAll_empty {policy} (h : policy.Absorbs) (limit : Option Nat) {b : TaskBacklog}
    (hb : b.triggers = []) {ts} (hts : ts ≠ []) {pieces} (hp : Pieces ts pieces) :
    ∃ us u, us.Perm ts ∧ Merge us u ∧
    (b.enqueueAll policy limit (pieces.map Prod.snd)).triggers = [u] := by
  cases pieces with
  | nil => exact (hts (List.nil_perm.mp hp.perm)).elim
  | cons p pieces =>
    have hfirst : (b.enqueue policy limit p.2).2.triggers = [p.2] := by
      rw [enqueue_absorbs h, hb]
      rfl
    obtain ⟨us, u, perm, hu, hlast⟩ :=
      enqueueAll_one h limit hfirst (hp.merge p mem_cons_self) pieces
        fun q hq => hp.merge q (mem_cons_of_mem p hq)
    exact ⟨us, u, perm.trans hp.perm, hu, hlast⟩

end TaskBacklog

/-- A fire that starts to run serves one merge of itself and of what waits. -/
lemma TaskFire.reconcileBacklog_merge {entry : TaskEntry} {f : TaskFire} {b holder}
    (hlock : f.runLock = some holder) (hmark : b.stopping.any holder.matchesStop = false)
    (hmode : f.mode = .scheduled) (hpolicy : entry.overlap.Absorbs) {rs us}
    (running : Merge rs f.waitingTrigger) (hb : b.triggers ≠ []) {pieces} (hp : Pieces us pieces)
    (hpieces : pieces.map Prod.snd = b.triggers) :
    ∃ f' vs, f.reconcileBacklog entry b = some (f', { b with triggers := [] }) ∧
      vs.Perm (us ++ rs) ∧ Merge vs f'.waitingTrigger := by
  have some_pieces : pieces ≠ [] := by
    rintro rfl
    exact hb hpieces.symm
  obtain ⟨front, last, rfl⟩ := (List.eq_nil_or_concat pieces).resolve_left some_pieces
  rw [List.concat_eq_append] at hp hpieces
  have served : f.reconcileBacklog entry b = some
      (f.serveTrigger ((last.2.absorbAll (front.map Prod.snd)).absorb f.waitingTrigger),
        { b with triggers := [] }) := by
    rcases hpolicy with h | h
    all_goals simp [TaskFire.reconcileBacklog, hlock, hmark, hmode, h, ← hpieces]
  -- The newest piece absorbs the others, then the fire's own trigger.
  have hfront : Pieces (front.flatMap Prod.fst) front :=
    ⟨fun p h => hp.merge p (mem_append_left _ h), .refl _⟩
  have hlast : Merge last.1 last.2 := hp.merge last (by simp)
  obtain ⟨vs, perm, hvs⟩ := hlast.absorbAll hfront
  refine ⟨_, vs ++ rs, served, ?_, hvs.absorb running⟩
  apply List.Perm.append_right
  refine (perm.trans perm_append_comm).trans ?_
  have hperm := hp.perm
  rwa [List.flatMap_append, List.flatMap_singleton] at hperm

/-- The value of the trigger's signal under a key. -/
def WaitingTrigger.value (t : WaitingTrigger) (key : String) : Option String :=
  t.signal.bind fun s => s.payload[key]?

/-- Triggers of one kind are merged into one and the same trigger, in whatever order and in
whatever pieces they enter the backlog, and also when some of them are part of the fire that starts
to run. That trigger has the newest arrival and its values, the `from` of the oldest, and counts
all the others as absorbed. -/
theorem coalescing_forgets_order {name : String} {others : String → Option String}
    {ts : List WaitingTrigger} (alike : Alike name others ts) (some_trigger : ts ≠ []) :
    ∃ newest ∈ ts, ∃ oldest ∈ ts, ∃ t : WaitingTrigger,
      (∀ u ∈ ts, u.arrivedAt ≤ newest.arrivedAt) ∧ (∀ u ∈ ts, oldest.origin ≤ u.origin) ∧
      t.arrivedAt = newest.arrivedAt ∧
      (∀ key, t.value key = if key = "from" then oldest.value key else newest.value key) ∧
      t.absorbed = ts.length - 1 + (ts.map WaitingTrigger.absorbed).sum ∧
      (∀ us, us.Perm ts → ∀ policy : OverlapPolicy, policy.Absorbs → ∀ limit stopping,
        (TaskBacklog.enqueueAll ⟨[], stopping⟩ policy limit us).triggers = [t]) ∧
      (∀ pieces, Pieces ts pieces → ∀ policy : OverlapPolicy, policy.Absorbs → ∀ limit stopping,
        (TaskBacklog.enqueueAll ⟨[], stopping⟩ policy limit (pieces.map Prod.snd)).triggers = [t]) ∧
      ∀ (entry : TaskEntry) (f : TaskFire) (b : TaskBacklog) holder rs us pieces,
        f.runLock = some holder → b.stopping.any holder.matchesStop = false →
        f.mode = .scheduled → entry.overlap.Absorbs →
        Merge rs f.waitingTrigger → b.triggers ≠ [] →
        Pieces us pieces → pieces.map Prod.snd = b.triggers → (us ++ rs).Perm ts →
        ∃ f', f.reconcileBacklog entry b = some (f', { b with triggers := [] }) ∧
          f'.waitingTrigger = t := by
  -- Some merge of all triggers exists; every other one stands for the same triggers.
  obtain ⟨vs, t, perm, hmerge, -⟩ :=
    TaskBacklog.enqueueAll_empty (.inl rfl) none (b := ⟨[], none⟩) rfl some_trigger
      (Pieces.singles (.refl ts))
  obtain ⟨newest, oldest, stands⟩ := hmerge.stands (alike.perm perm.symm)
  replace stands := stands.perm perm
  have same {us u} (hperm : us.Perm ts) (hu : Merge us u) : u = t := by
    obtain ⟨_, _, h⟩ := hu.stands (alike.perm hperm.symm)
    exact (h.perm hperm).unique stands alike
  have by_pieces (pieces) (hp : Pieces ts pieces) (policy : OverlapPolicy) (h : policy.Absorbs)
      (limit stopping) :
      (TaskBacklog.enqueueAll ⟨[], stopping⟩ policy limit (pieces.map Prod.snd)).triggers = [t] := by
    obtain ⟨us, u, hperm, hu, hlast⟩ :=
      TaskBacklog.enqueueAll_empty h limit (b := ⟨[], stopping⟩) rfl some_trigger hp
    rw [hlast, same hperm hu]
  refine ⟨newest, stands.newest_mem, oldest, stands.oldest_mem, t, stands.newest_le,
    stands.oldest_le, stands.arrivedAt, ?_, ?_, ?_, by_pieces, ?_⟩
  · intro key
    obtain ⟨new, old, source, hnew, hold, hsource, hsignal⟩ := stands.signal
    simp only [WaitingTrigger.value, hnew, hold, hsignal, bind_some,
      Std.ExtTreeMap.getElem?_insert]
    by_cases hk : key = "from"
    · simp [hk, hsource]
    · rw [if_neg hk, if_neg]
      simpa using fun e => hk e.symm
  · have count := stands.absorbed
    have pos := stands.length_pos
    omega
  · intro us hperm policy h limit stopping
    have hlast := by_pieces _ (.singles hperm) policy h limit stopping
    rwa [List.map_map, show Prod.snd ∘ (fun u => ([u], u)) = (id : WaitingTrigger → _) from rfl,
      List.map_id] at hlast
  · intro entry f b holder rs us pieces hlock hmark hmode hpolicy running hb hp hpieces hperm
    obtain ⟨f', vs, hserved, hvs, hmerge'⟩ :=
      TaskFire.reconcileBacklog_merge hlock hmark hmode hpolicy running hb hp hpieces
    exact ⟨f', hserved, same (hvs.trans hperm) hmerge'⟩

/-- A state change of a pull request, as it arrives. -/
def stateChange (arrivedAt : Timestamp) (origin target : String) : WaitingTrigger where
  arrivedAt := arrivedAt
  signal := some
    { name := "pr.state"
      payload := ((∅ : Std.ExtTreeMap String String).insert "from" origin).insert "to" target }
  absorbed := 0
  fromArrivedAt := none

lemma reports_stateChange {arrivedAt origin target} :
    ∃ s, (stateChange arrivedAt origin target).signal = some s ∧ s.Reports "pr.state" fun _ => none := by
  refine ⟨_, rfl, ⟨rfl, ?_, ?_, ?_⟩⟩
  · simp [Std.ExtTreeMap.contains_insert]
  · simp [Std.ExtTreeMap.contains_insert]
  · intro key hf ht
    have hf : ¬ "from" = key := fun e => hf e.symm
    have ht : ¬ "to" = key := fun e => ht e.symm
    simp [hf, ht]

/-- Three changes of state coalesce into one trigger, in whatever order they come. -/
theorem coalescing_forgets_order_three :
    let ts := [stateChange 10 "draft" "open", stateChange 30 "review" "merged",
      stateChange 20 "open" "review"]
    ∃ t : WaitingTrigger, t.arrivedAt = 30 ∧ t.absorbed = 2 ∧
      ∀ us, us.Perm ts →
        (TaskBacklog.enqueueAll ⟨[], none⟩ .coalesce none us).triggers = [t] := by
  intro ts
  have alike : Alike "pr.state" (fun _ => none) ts := by
    refine ⟨by simp [ts, stateChange], by simp [ts, stateChange, WaitingTrigger.origin], ?_, ?_⟩
    · simp [ts, stateChange, WaitingTrigger.origin]
    · intro t ht
      simp only [ts, mem_cons, not_mem_nil, or_false] at ht
      rcases ht with rfl | rfl | rfl
      all_goals exact reports_stateChange
  obtain ⟨newest, hnewest, oldest, -, t, hle, -, harrived, -, habsorbed, horder, -⟩ :=
    coalescing_forgets_order alike (cons_ne_nil _ _)
  refine ⟨t, ?_, habsorbed, fun us h => horder us h .coalesce (.inl rfl) none none⟩
  have last : (30 : Int) ≤ newest.arrivedAt := hle (stateChange 30 "review" "merged") (by simp [ts])
  simp only [ts, mem_cons, not_mem_nil, or_false] at hnewest
  rcases hnewest with rfl | rfl | rfl
  · exact absurd last (by decide)
  · exact harrived
  · exact absurd last (by decide)

end Rimz.Schedule
