import Mathlib.Data.List.Induction
import Rimz.Presence.Queries

/-!
# Where client samples come from

A history beside the synchronizer: the queries whose answers are still to come, the answer behind
the sample, the last change of the roster and the switches confirmed so far. `Sound` says what the
synchronizer knows of it. The query in flight is the last one sent; while the roster mark is not
set, the sample was asked for after the last change of the roster; and a query for a switch is sent
only when the switch has settled. While every answer comes in time (`T`), a query goes out only
behind the deadline of the one before it.
-/

namespace Rimz.Presence

/-- A callback's place in a run, and its instant. Neither goes back. -/
abbrev Moment := Nat × Nat

/-- An answer: when it was asked for, and what it says. -/
structure Answer where
  asked : Moment
  clients : List ClientViewEntry
  deriving DecidableEq

structure History where
  moment : Moment
  waiting : List Moment := []
  source : Option Answer := none
  changed : Option Moment := none
  settled : List Nat := []

/-- The pending switch a query of this purpose would confirm. -/
def FocusSync.Pends (f : FocusSync) (purpose : ClientQueryPurpose) (p : PendingSwitch) : Prop :=
  f.mode = .switching p ∧ purpose = .switchSettled p.generation p.tab

structure Sound (T : Prop) (h : History) (f : FocusSync) : Prop where
  wf : f.Wf
  ordered : h.waiting.Pairwise (· ≤ ·)
  past : ∀ q ∈ h.waiting, q ≤ h.moment
  answered : ∀ a, h.source = some a → a.asked ≤ h.moment ∧ ∀ q ∈ h.waiting, a.asked ≤ q
  changed : ∀ m, h.changed = some m → m ≤ h.moment
  sample : f.clientSample = h.source.map fun a => clientSampleOf a.clients
  queued : ∀ purpose p, f.queued = some purpose → f.Pends purpose p → p.settleAt ≤ h.moment.2
  inFlight : ∀ query, f.inFlight = some query → ∃ q, h.waiting.getLast? = some q ∧
    (∀ p, f.Pends query.purpose p → p.settleAt ≤ q.2) ∧
    (query.rosterInvalidated = false → ∀ m, h.changed = some m → m ≤ q)
  fresh : f.rosterChangedAt = none → ∀ m, h.changed = some m →
    (∀ a, h.source = some a → m ≤ a.asked) ∧ ∀ q ∈ h.waiting, m ≤ q
  once : h.settled.Nodup
  settled : ∀ g ∈ h.settled, g ≤ f.generation ∧ ∀ p, f.mode = .switching p → g < f.generation
  apart : T → h.waiting.Pairwise fun a b => a.2 + keepaliveMs ≤ b.2
  expired : T → ∀ q ∈ h.waiting, q.2 + keepaliveMs ≤ h.moment.2 ∨
    ∃ query, f.inFlight = some query ∧ query.deadline = q.2 + keepaliveMs

section Sound
variable {T : Prop} {h : History} {f : FocusSync} {now : Nat} {m : Moment}

lemma Sound.later (hs : Sound T h f) (hm : h.moment ≤ m) : Sound T { h with moment := m } f :=
  { hs with
    past := fun q hq => (hs.past q hq).trans hm
    answered := fun a ha => ⟨(hs.answered a ha).1.trans hm, (hs.answered a ha).2⟩
    changed := fun c hc => (hs.changed c hc).trans hm
    queued := fun purpose p hq hp => (hs.queued purpose p hq hp).trans hm.2
    expired := fun t q hq => (hs.expired t q hq).imp_left hm.2.trans' }

lemma latestClientQuery_eq (p q : ClientQueryPurpose) :
    latestClientQuery p q = p ∨ latestClientQuery p q = q := by
  cases p <;> cases q <;> simp only [latestClientQuery, true_or, or_true]
  split
  · exact .inl rfl
  · exact .inr rfl

section
variable (hs : Sound T h f)
include hs

lemma Sound.queue {purpose} (hup : purpose.UpTo f.generation)
    (hp : ∀ p, f.Pends purpose p → p.settleAt ≤ h.moment.2) : Sound T h (f.queue purpose) :=
  { hs with
    wf := hs.wf.queue hup
    queued := fun chosen p hchosen hpends => by
      simp only [FocusSync.queue, Option.some.injEq] at hchosen
      cases hqueued : f.queued with
      | none =>
        rw [hqueued] at hchosen
        obtain rfl : purpose = chosen := hchosen
        exact hp p hpends
      | some existing =>
        rw [hqueued] at hchosen
        rcases latestClientQuery_eq existing purpose with he | he
        · exact hs.queued existing p hqueued ((hchosen.symm.trans he) ▸ hpends)
        · exact hp p ((hchosen.symm.trans he) ▸ hpends) }

lemma Sound.requestGeneralObservation : Sound T h f.requestGeneralObservation :=
  hs.queue trivial fun _ hp => by cases hp.2

/-- The roster has changed, or is taken to have: the sample is in doubt, and so is the answer to the
query in flight. -/
lemma Sound.invalidateClientSample {changed} (hc : ∀ m, changed = some m → m ≤ h.moment) :
    Sound T { h with changed } (f.invalidateClientSample now) := by
  apply Sound.requestGeneralObservation
  have wf : FocusSync.Wf { f with
      rosterChangedAt := some now
      inFlight := f.inFlight.map fun query => { query with rosterInvalidated := true } } := by
    refine ⟨hs.wf.pending, hs.wf.queued, fun query hq => ?_⟩
    obtain ⟨query, hquery, rfl⟩ := map_eq_some_iff.mp hq
    exact hs.wf.inFlight query hquery
  refine { hs with
    wf, changed := hc, inFlight := fun query hq => ?_, fresh := nofun, expired := fun t q hq => ?_ }
  · obtain ⟨query, hquery, rfl⟩ := map_eq_some_iff.mp hq
    obtain ⟨q, hlast, hsettle, _⟩ := hs.inFlight query hquery
    exact ⟨q, hlast, hsettle, nofun⟩
  · refine (hs.expired t q hq).imp_right fun ⟨query, hquery, deadline⟩ => ?_
    exact ⟨_, map_eq_some_iff.mpr ⟨query, hquery, rfl⟩, deadline⟩

lemma Sound.baseline (hsource : h.source = none) (hwaiting : h.waiting = []) :
    Sound T { h with changed := some h.moment } f := by
  refine { hs with
    changed := fun m hm => ?_
    inFlight := fun query hq => ?_
    fresh := fun _ m hm => ⟨fun a ha => ?_, fun q hq => ?_⟩ }
  · cases hm
    exact le_rfl
  · obtain ⟨q, hlast, _⟩ := hs.inFlight query hq
    rw [hwaiting] at hlast
    cases hlast
  · rw [show h.source = some a from ha] at hsource
    cases hsource
  · rw [show h.waiting = [] from hwaiting] at hq
    cases hq

lemma Sound.acceptConnectedClients {n} : Sound T h (f.acceptConnectedClients n) := by
  unfold FocusSync.acceptConnectedClients
  split
  · apply Sound.requestGeneralObservation
    exact { hs with wf := ⟨hs.wf.pending, hs.wf.queued, hs.wf.inFlight⟩ }
  · exact hs

lemma Sound.stable {active} : Sound T h { f with activeTab := active, mode := .stable } :=
  { hs with
    wf := ⟨nofun, hs.wf.queued, hs.wf.inFlight⟩
    queued := fun _ _ _ hp => by cases hp.1
    inFlight := fun query hq => by
      obtain ⟨q, hlast, _, hroster⟩ := hs.inFlight query hq
      exact ⟨q, hlast, (fun _ hp => by cases hp.1), hroster⟩
    settled := fun g hg => ⟨(hs.settled g hg).1, nofun⟩ }

lemma Sound.acceptTabUpdate {active} (hcount : f.generation + 1 < 2 ^ 64) :
    Sound T h (f.acceptTabUpdate active now) := by
  have wf : (f.acceptTabUpdate active now).Wf := hs.wf.acceptTabUpdate hcount
  cases active with
  | none =>
    have stable : f.acceptTabUpdate none now =
        FocusSync.requestGeneralObservation { f with activeTab := none, mode := .stable } := by
      cases hactive : f.activeTab <;> simp only [FocusSync.acceptTabUpdate, hactive]
    rw [stable]
    exact hs.stable.requestGeneralObservation
  | some next =>
    cases hactive : f.activeTab with
    | none =>
      simp only [FocusSync.acceptTabUpdate, hactive]
      apply Sound.requestGeneralObservation
      refine { hs with wf := ⟨fun p hp => ?_, hs.wf.queued, hs.wf.inFlight⟩ }
      rw [(hs.wf.pending p hp).2] at hactive
      cases hactive
    | some previous =>
      simp only [FocusSync.acceptTabUpdate, hactive, Nat.mod_eq_of_lt hcount] at wf ⊢
      split
      · next hswitch =>
        rw [if_pos hswitch] at wf
        -- no query speaks of the new generation
        have old : ∀ {purpose : ClientQueryPurpose} {p : PendingSwitch}, purpose.UpTo f.generation →
            purpose = .switchSettled p.generation p.tab → p.generation = f.generation + 1 → False := by
          rintro _ p hup rfl hgen
          have hle : p.generation ≤ f.generation := hup
          omega
        refine { hs with
          wf
          queued := fun purpose p hq hp => ?_
          inFlight := fun query hq => ?_
          settled := fun g hg => ?_ }
        · obtain ⟨hmode, hpurpose⟩ := hp
          cases hmode
          exact (old (hs.wf.queued purpose hq) hpurpose rfl).elim
        · obtain ⟨q, hlast, _, hroster⟩ := hs.inFlight query hq
          refine ⟨q, hlast, fun p hp => ?_, hroster⟩
          obtain ⟨hmode, hpurpose⟩ := hp
          cases hmode
          exact (old (hs.wf.inFlight query hq) hpurpose rfl).elim
        · have hle := (hs.settled g hg).1
          exact ⟨Nat.le_succ_of_le hle, fun _ _ => Nat.lt_succ_of_le hle⟩
      · next hsame =>
        rw [if_neg hsame] at wf
        exact { hs with wf }

end

/-! ## Queries go out -/

lemma Sound.expireQuery (hs : Sound T h f) (hnow : now ≤ h.moment.2) :
    Sound T h (f.expireQuery now) := by
  unfold FocusSync.expireQuery
  split
  · next expired hflight =>
    split
    · next due =>
      obtain ⟨q, hlast, hsettle, _⟩ := hs.inFlight expired hflight
      have hq : q ≤ h.moment := hs.past q (mem_of_getLast? hlast)
      refine Sound.queue (f := { f with
        inFlight := none, staleReplies := min (f.staleReplies + 1) u32Max }) ?_
          (hs.wf.inFlight expired hflight) fun p hp => (hsettle p hp).trans hq.2
      refine { hs with
        wf := ⟨hs.wf.pending, hs.wf.queued, nofun⟩
        inFlight := nofun
        expired := fun t q hq => .inl ?_ }
      rcases hs.expired t q hq with passed | ⟨query, hquery, deadline⟩
      · exact passed
      · cases hflight.symm.trans hquery
        exact deadline ▸ due.trans hnow
    · exact hs
  · exact hs

lemma Sound.queueSettled (hs : Sound T h f) : Sound T h (f.queueSettled h.moment.2) := by
  unfold FocusSync.queueSettled
  split
  · exact hs
  rename_i pending hmode
  dsimp only
  split
  · next hdue =>
    refine hs.queue (Nat.le_of_eq (hs.wf.pending _ hmode).1) fun p hp => ?_
    have hp : FocusMode.switching pending = .switching p := hmode.symm.trans hp.1
    cases hp
    exact hdue.2.1
  · exact hs

/-- The queries a step sends, all at its moment. -/
def History.sends (h : History) (asks : Bool) : History :=
  { h with waiting := h.waiting ++ if asks then [h.moment] else [] }

lemma Sound.issue {allowed} (hs : Sound T h f) :
    Sound T (h.sends (f.issue h.moment.2 allowed).2) (f.issue h.moment.2 allowed).1 := by
  unfold FocusSync.issue
  split
  · simpa [History.sends] using hs
  rename_i idle
  -- no query is in flight, so the deadlines of all are over
  have passed : T → ∀ q ∈ h.waiting, q.2 + keepaliveMs ≤ h.moment.2 := fun t q hq =>
    (hs.expired t q hq).resolve_right fun ⟨query, hquery, _⟩ => idle (by simp [hquery])
  split
  · simpa [History.sends] using hs
  rename_i purpose hqueued
  refine { hs with
    wf := ⟨hs.wf.pending, nofun, fun query hq => ?_⟩
    ordered := ?_
    past := fun q hq => ?_
    answered := fun a ha => ⟨(hs.answered a ha).1, fun q hq => ?_⟩
    queued := nofun
    inFlight := fun query hq => ?_
    fresh := fun hmark m hm => ⟨(hs.fresh hmark m hm).1, fun q hq => ?_⟩
    apart := fun t => pairwise_append.mpr ⟨hs.apart t, pairwise_singleton _ _, fun q hq q' hq' => ?_⟩
    expired := fun t q hq => ?_ }
  · cases hq
    exact hs.wf.queued purpose hqueued
  · refine pairwise_append.mpr ⟨hs.ordered, pairwise_singleton _ _, ?_⟩
    intro q hq q' hq'
    rw [mem_singleton.mp hq']
    exact hs.past q hq
  · rcases mem_append.mp hq with hq | hq
    · exact hs.past q hq
    · exact (mem_singleton.mp hq).le
  · rcases mem_append.mp hq with hq | hq
    · exact (hs.answered a ha).2 q hq
    · rw [mem_singleton.mp hq]
      exact (hs.answered a ha).1
  · cases hq
    exact ⟨h.moment, by simp [History.sends], fun p hp => hs.queued purpose p hqueued hp,
      fun _ => hs.changed⟩
  · rcases mem_append.mp hq with hq | hq
    · exact (hs.fresh hmark m hm).2 q hq
    · rw [mem_singleton.mp hq]
      exact hs.changed m hm
  · rw [mem_singleton.mp hq']
    exact passed t q hq
  · rcases mem_append.mp hq with hq | hq
    · exact .inl (passed t q hq)
    · rw [mem_singleton.mp hq]
      exact .inr ⟨_, rfl, rfl⟩

lemma Sound.driveDueQuery {allowed} (hs : Sound T h f) :
    Sound T (h.sends (f.driveDueQuery h.moment.2 allowed).2) (f.driveDueQuery h.moment.2 allowed).1 :=
  (hs.expireQuery le_rfl).queueSettled.issue

/-! ## Answers come in -/

/-- An answer has come: to the query `q`, with those of `rest` still waiting. -/
def History.answer (h : History) (q : Moment) (rest : List Moment)
    (clients : List ClientViewEntry) : History :=
  { h with waiting := rest, source := some { asked := q, clients } }

/-- An answer the synchronizer takes for that of its query in flight is that of the last query
sent. -/
def FocusSync.TakesLast (f : FocusSync) (rest : List Moment) : Prop :=
  f.staleReplies = 0 → f.inFlight.isSome = true → rest = []

variable {lost : Nat} {q : Moment} {rest : List Moment} {clients : List ClientViewEntry}

/-- With no query in flight, the answers to older queries may come. -/
lemma Sound.answer (hs : Sound False h f) (hd : h.waiting.drop lost = q :: rest)
    (hidle : f.inFlight = none) (hlast : T → rest = []) :
    Sound T (h.answer q rest clients) { f with clientSample := some (clientSampleOf clients) } := by
  have sub : (q :: rest).Sublist h.waiting := hd ▸ List.drop_sublist _ _
  have hq : q ∈ h.waiting := sub.subset mem_cons_self
  have ordered := pairwise_cons.mp (hs.ordered.sublist sub)
  refine { hs with
    wf := ⟨hs.wf.pending, hs.wf.queued, hs.wf.inFlight⟩
    ordered := ordered.2
    past := fun r hr => hs.past r (sub.subset (mem_cons_of_mem _ hr))
    answered := fun a ha => ?_
    sample := rfl
    inFlight := fun query hquery => ?_
    fresh := fun hmark m hm => ?_
    apart := fun t => by simp [History.answer, hlast t]
    expired := fun t => by simp [History.answer, hlast t] }
  · cases ha
    exact ⟨hs.past q hq, ordered.1⟩
  · rw [hidle] at hquery
    cases hquery
  · obtain ⟨_, waiting⟩ := hs.fresh hmark m hm
    refine ⟨fun a ha => ?_, fun r hr => waiting r (sub.subset (mem_cons_of_mem _ hr))⟩
    cases ha
    exact waiting q hq

/-- What an answer is worth that is taken for that of the query in flight. -/
structure Sound.Answers (h : History) (f : FocusSync) (query : InFlightClientQuery) (q : Moment) :
    Prop where
  settles : ∀ p, f.Pends query.purpose p → p.settleAt ≤ q.2
  roster : query.rosterInvalidated = false → ∀ m, h.changed = some m → m ≤ q

/-- The query in flight is the last one sent, so the answer to that one is its answer. -/
lemma Sound.takeReply (hs : Sound T h f) (hd : h.waiting.drop lost = q :: rest)
    (ht : f.TakesLast rest) :
    Sound False h f.takeReply.1 ∧ f.takeReply.1.inFlight = none ∧ f.takeReply.1.mode = f.mode ∧
      f.takeReply.1.activeTab = f.activeTab ∧
      ∀ query, f.takeReply.2 = some query → Sound.Answers h f query q ∧ rest = [] := by
  have idle : ∀ n, Sound False h { f with inFlight := none, staleReplies := n } := fun n =>
    { hs with
      wf := ⟨hs.wf.pending, hs.wf.queued, nofun⟩
      inFlight := nofun
      apart := nofun
      expired := nofun }
  unfold FocusSync.takeReply
  split
  · dsimp only
    split
    · next query hflight =>
      obtain ⟨last, hlast, hsettle, _⟩ := hs.inFlight query hflight
      have hpast : last ≤ h.moment := hs.past last (mem_of_getLast? hlast)
      refine ⟨(idle _).queue (hs.wf.inFlight query hflight) fun p hp => ?_, rfl, rfl, rfl,
        nofun⟩
      exact (hsettle p hp).trans hpast.2
    · exact ⟨idle _, rfl, rfl, rfl, nofun⟩
  refine ⟨idle _, rfl, rfl, rfl, fun query hflight => ?_⟩
  obtain ⟨last, hlast, hsettle, hroster⟩ := hs.inFlight query hflight
  have hrest : rest = [] := ht (by omega) (by simp [show f.inFlight = some query from hflight])
  -- nothing waits behind the answer, so it is the last query's
  have hq : last = q := by
    have hdrop : (h.waiting.drop lost).getLast? = some last := by
      rw [List.getLast?_drop, hlast, if_neg]
      intro hlong
      rw [List.drop_eq_nil_of_le hlong] at hd
      cases hd
    rw [hd, hrest] at hdrop
    simpa using hdrop.symm
  subst hq
  exact ⟨⟨hsettle, hroster⟩, hrest⟩

lemma Sound.confirm {p settled} (hs : Sound T h f) (hmode : f.mode = .switching p)
    (hsettled : settled = h.settled ∨ settled = h.settled ++ [p.generation]) :
    Sound T { h with settled } { f with mode := .stable } := by
  have stable : Sound T h { f with mode := .stable } := hs.stable
  rcases hsettled with rfl | rfl
  · exact stable
  have hgen := (hs.wf.pending p hmode).1
  refine { stable with once := ?_, settled := fun g hg => ⟨?_, nofun⟩ }
  · refine nodup_append.mpr ⟨hs.once, nodup_singleton _, ?_⟩
    rintro g hg g' hg' rfl
    have hlt := (hs.settled g hg).2 p hmode
    rw [mem_singleton.mp hg', hgen] at hlt
    exact Nat.lt_irrefl _ hlt
  · rcases mem_append.mp hg with hg | hg
    · exact (hs.settled g hg).1
    · rw [mem_singleton.mp hg]
      exact Nat.le_of_eq hgen

lemma Sound.clearMark (hs : Sound T h f)
    (hfresh : ∀ m, h.changed = some m →
      (∀ a, h.source = some a → m ≤ a.asked) ∧ ∀ q ∈ h.waiting, m ≤ q) :
    Sound T h { f with rosterChangedAt := none } :=
  { hs with
    wf := ⟨hs.wf.pending, hs.wf.queued, hs.wf.inFlight⟩
    fresh := fun _ => hfresh }

/-- An observation of this purpose confirms the pending switch, or nothing. -/
lemma applyObservation_cases (f : FocusSync) (purpose : ClientQueryPurpose)
    (clients : List ClientViewEntry) :
    f.applyObservation purpose clients = (f, {}) ∨
      ∃ p, f.Pends purpose p ∧ f.activeTab = some p.tab ∧
        f.applyObservation purpose clients = ({ f with mode := .stable },
          { settled := some { tab := p.tab, generation := p.generation, clients } }) := by
  cases purpose with
  | general => exact .inl rfl
  | switchSettled generation tab =>
    by_cases hconfirms : f.confirms (.switchSettled generation tab) = true
    · right
      have happly : f.applyObservation (.switchSettled generation tab) clients =
          ({ f with mode := .stable }, { settled := some { tab, generation, clients } }) :=
        if_pos hconfirms
      cases hmode : f.mode with
      | stable => simp [FocusSync.confirms, hmode] at hconfirms
      | switching p =>
        simp only [FocusSync.confirms, hmode, and_eq_true, decide_eq_true_eq] at hconfirms
        obtain ⟨⟨rfl, rfl⟩, hactive⟩ := hconfirms
        exact ⟨p, ⟨hmode, rfl⟩, hactive, happly⟩
    · exact .inl (if_neg hconfirms)

lemma expireQuery_mode : (f.expireQuery now).mode = f.mode := by
  unfold FocusSync.expireQuery
  split
  · split <;> rfl
  · rfl

lemma expireQuery_activeTab : (f.expireQuery now).activeTab = f.activeTab := by
  unfold FocusSync.expireQuery
  split
  · split <;> rfl
  · rfl

lemma clearsRosterMark_iff {query} (hc : f.clearsRosterMark query) :
    ∃ p, query = some p ∧ p.rosterInvalidated = false := by
  unfold FocusSync.clearsRosterMark at hc
  cases query with
  | none => simp at hc
  | some p =>
    simp only [any_some, and_eq_true, any_eq_true] at hc
    obtain ⟨_, _, _, hvalid⟩ := hc
    exact ⟨p, rfl, by simpa using hvalid.1⟩

/-- The switch an answer confirms, if any. -/
def FocusSync.confirmedBy (f : FocusSync) (clients : List ClientViewEntry) (now : Nat) :
    Option SettledSwitch :=
  (f.acceptClientSample clients now).2.settled

/-- What an answer does: it becomes the sample, it may confirm the pending switch, which settled
before the answer was asked for, and it may take the roster mark away. -/
lemma Sound.acceptClientSample (clients : List ClientViewEntry) (now : Nat) (hs : Sound T h f)
    (hnow : now ≤ h.moment.2) (hd : h.waiting.drop lost = q :: rest)
    (ht : (f.expireQuery now).TakesLast rest) (hlast : T → rest = []) :
    (∀ confirmed, f.confirmedBy clients now = some confirmed → ∃ p, f.mode = .switching p ∧
      confirmed = { tab := p.tab, generation := p.generation, clients } ∧
      f.activeTab = some p.tab ∧ p.settleAt ≤ q.2) ∧
    ∀ settled, (settled = h.settled ∨ ∃ confirmed, f.confirmedBy clients now = some confirmed ∧
        settled = h.settled ++ [confirmed.generation]) →
      Sound T { h.answer q rest clients with settled } (f.acceptClientSample clients now).1 := by
  obtain ⟨taken, idle, mode, active, answers⟩ :=
    (hs.expireQuery hnow).takeReply (f := f.expireQuery now) hd ht
  have hmode : (f.consumeReply now).1.mode = f.mode := mode.trans expireQuery_mode
  have hactive : (f.consumeReply now).1.activeTab = f.activeTab := active.trans expireQuery_activeTab
  have sampled : Sound T (h.answer q rest clients)
      { (f.consumeReply now).1 with clientSample := some (clientSampleOf clients) } :=
    taken.answer hd idle hlast
  unfold FocusSync.confirmedBy FocusSync.acceptClientSample
  dsimp only
  generalize hquery : (f.consumeReply now).2 = query at *
  -- the mark goes only behind an answer to a query from after the last change
  have cleared : ∀ {f' : FocusSync} {settled : List Nat},
      Sound T { h.answer q rest clients with settled } f' →
      Sound T { h.answer q rest clients with settled }
        (if f'.clearsRosterMark query = true then { f' with rosterChangedAt := none } else f') := by
    intro f' settled hf'
    split
    · next hclears =>
      obtain ⟨p, hp, hvalid⟩ := clearsRosterMark_iff hclears
      obtain ⟨answered, last⟩ := answers p (hquery.trans hp)
      refine hf'.clearMark fun m hm => ⟨fun a ha => ?_, fun r hr => ?_⟩
      · cases ha
        exact answered.roster hvalid m hm
      · rw [show rest = [] from last] at hr
        cases hr
    · exact hf'
  rcases applyObservation_cases { (f.consumeReply now).1 with
      clientSample := some (clientSampleOf clients) } ((query.map (·.purpose)).getD .general) clients
    with happly | ⟨p, hpends, htab, happly⟩
  · rw [happly]
    refine ⟨nofun, fun settled hsettled => ?_⟩
    rcases hsettled with rfl | ⟨_, hnone, _⟩
    · exact cleared sampled
    · cases hnone
  rw [happly]
  have hfmode : f.mode = .switching p := hmode.symm.trans hpends.1
  refine ⟨fun confirmed hconfirmed => ?_, fun settled hsettled => ?_⟩
  · cases hconfirmed
    refine ⟨p, hfmode, rfl, hactive.symm.trans htab, ?_⟩
    cases query with
    | none => cases hpends.2
    | some query =>
      apply (answers query hquery).1.settles p
      exact ⟨expireQuery_mode.trans hfmode, hpends.2⟩
  · refine cleared (sampled.confirm hpends.1 ?_)
    rcases hsettled with rfl | ⟨_, hconfirmed, rfl⟩
    · exact .inl rfl
    · cases hconfirmed
      exact .inr rfl

end Sound

end Rimz.Presence
