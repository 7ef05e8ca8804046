import Rimz.Throttle.Gate

/-!
# The turn is exclusive in each scope

No two tickets that share a scope are past waiting at the same time, and a start that ends without a
launch leaves no ticket.
-/

namespace Rimz.Throttle
open Rimz.Lib

namespace Ticket

lemma sharesLimit_comm (t u : Ticket) : t.sharesLimit u = u.sharesLimit t := by
  unfold sharesLimit
  cases t.limit with
  | none => cases u.limit <;> rfl
  | some a =>
    cases u.limit with
    | none => rfl
    | some b => exact Bool.beq_comm

lemma sharesScope_comm (t u : Ticket) : t.sharesScope u = u.sharesScope t := by
  rw [sharesScope, sharesScope, sharesLimit_comm, Bool.and_comm]

/-- Scopes that were only released share no more than before. -/
def Narrows (t u : Ticket) : Prop :=
  (t.machineGated = true → u.machineGated = true) ∧ (t.limit = u.limit ∨ t.limit = none)

lemma Narrows.refl (t : Ticket) : t.Narrows t := ⟨id, .inl rfl⟩

lemma Narrows.sharesScope {t t' u u' : Ticket} (ht : t'.Narrows t) (hu : u'.Narrows u)
    (h : t'.sharesScope u' = true) : t.sharesScope u = true := by
  rw [Ticket.sharesScope, or_eq_true, and_eq_true] at h ⊢
  rcases h with ⟨h1, h2⟩ | h
  · exact .inl ⟨ht.1 h1, hu.1 h2⟩
  unfold sharesLimit at h ⊢
  rcases ht.2 with e | e
  · rcases hu.2 with e' | e'
    · rw [e, e'] at h
      exact .inr h
    · rw [e'] at h
      cases ht' : t'.limit <;> simp [ht'] at h
  · simp [e] at h

/-- The scopes of a ticket are those of the run it was written for. -/
def ScopedBy (t : Ticket) (run : Run) : Prop :=
  t.machineGated = run.machineGated ∧ t.limit = run.limitScope

/-- The launch of the ticket is stamped. -/
def isLaunched (t : Ticket) : Bool :=
  match t.state with
  | .launched .. => true
  | _ => false

end Ticket

/-! ### The sweep -/

lemma sweepTicket_some {r ceiling t u} (h : sweepTicket r ceiling u = some t) :
    t.owner = u.owner ∧ t.state = u.state ∧ t.agents = u.agents ∧ t.Narrows u
      ∧ (u.isLaunched = false → t = u) := by
  unfold sweepTicket at h
  split at h
  · split at h
    · cases h
      exact ⟨rfl, rfl, rfl, .refl _, fun _ => rfl⟩
    · cases h
  · split at h
    · cases h
      exact ⟨rfl, rfl, rfl, .refl _, fun _ => rfl⟩
    · cases h
  rename_i at_ ws agent hs
  have launched : u.isLaunched = true := by simp [Ticket.isLaunched, hs]
  dsimp only at h
  split at h
  · cases h
  cases h
  refine ⟨?_, ?_, ?_, ⟨?_, ?_⟩, fun hl => absurd launched (by simp [hl])⟩
  · unfold releaseScopes; split <;> rfl
  · unfold releaseScopes; split <;> rfl
  · unfold releaseScopes; split <;> rfl
  · unfold releaseScopes
    split
    · exact id
    · intro hm
      exact (and_eq_true _ _ ▸ hm).1
  · unfold releaseScopes
    split
    · exact .inl rfl
    dsimp only
    split
    · exact .inr rfl
    · exact .inl rfl

lemma mem_sweep {r ceiling ts t} (h : t ∈ sweep r ceiling ts) :
    ∃ u ∈ ts, sweepTicket r ceiling u = some t := by
  obtain ⟨u, hu, ht⟩ := mem_filterMap.mp h
  exact ⟨u, sortByKey_perm.mem_iff.mp hu, ht⟩

lemma nodup_sweep {r ceiling ts} (h : (ts.map Ticket.owner).Nodup) :
    ((sweep r ceiling ts).map Ticket.owner).Nodup := by
  have sorted : ((sortByKey Ticket.path ts).map Ticket.owner).Nodup :=
    (sortByKey_perm.map _).nodup_iff.mpr h
  have sub : ((sweep r ceiling ts).map Ticket.owner).Sublist
      ((sortByKey Ticket.path ts).map Ticket.owner) := by
    unfold sweep
    induction sortByKey Ticket.path ts with
    | nil => exact .slnil
    | cons u us ih =>
      cases hu : sweepTicket r ceiling u with
      | none =>
        rw [List.filterMap_cons_none hu]
        exact ih.cons _
      | some t =>
        rw [List.filterMap_cons_some hu, map_cons, map_cons, (sweepTicket_some hu).1]
        exact ih.cons_cons _
  exact sub.nodup sorted

/-! ### The look at the queue -/

/-- A pass that finds nothing in the queue finds every other ticket of its scopes waiting. -/
lemma others_wait {run queue position mine evaluated} (own : mine.ScopedBy run)
    (h : standingHold run queue position mine evaluated = none) {u} (hu : u ∈ queue)
    (other : u.owner ≠ mine.owner) (shares : u.sharesScope mine = true) : u.isWaiting = true := by
  obtain ⟨limited, queued⟩ := or_eq_none_iff.mp h
  by_contra waiting
  cases gated : run.machineGated with
  | true =>
    rw [if_pos gated] at queued
    have turn : turnHeld queue mine = true :=
      List.any_eq_true.mpr ⟨u, hu, by simp [other, shares, waiting]⟩
    simp [queueHold, turn] at queued
  | false =>
    -- Without the machine scope the two share a workflow, and `launching` has counted the other
    -- one.
    rw [Ticket.sharesScope, own.1, gated, Bool.and_false, Bool.false_or] at shares
    have counted : u ∈ queue.filter fun t =>
        t.owner ≠ mine.owner && t.sharesLimit mine && !t.isWaiting :=
      mem_filter.mpr ⟨hu, by simp [other, shares, waiting]⟩
    have positive : 0 < launching queue mine := List.length_pos_of_mem counted
    cases limits : run.limits with
    | none =>
      have unlimited : mine.limit = none := by rw [own.2, Run.limitScope, limits]; rfl
      unfold Ticket.sharesLimit at shares
      cases hu' : u.limit <;> simp [hu', unlimited] at shares
    | some start =>
      unfold limitedHold at limited
      rw [limits] at limited
      dsimp only at limited
      split at limited
      · omega
      · cases limited

/-! ### The invariant -/

namespace Pc

/-- A start that has no ticket. -/
def ticketless : Pc → Bool
  | idle | opened | ended _ => true
  | _ => false

/-- A start whose launch is not reported. -/
def unreported : Pc → Bool
  | looping | passing _ | scripts _ | demoting _ | turn | committed => true
  | _ => false

/-- A start that relies on its admission. -/
def relies : Pc → Bool
  | scripts _ | turn | committed => true
  | _ => false

/-- A start within a pass. -/
def inPass : Pc → Bool
  | passing _ => true
  | _ => false

lemma ne_passing {pc} (h : pc.inPass = false) (p : Passing) : pc ≠ passing p := by
  rintro rfl
  cases h

end Pc

/-- The locals of a pass agree with the queue: nobody else in its scopes is past waiting. -/
structure PassInv (run : Run) (tickets : List Ticket) (c : Nat) (p : Passing) : Prop where
  owner : p.ticket.owner = c
  ownScope : p.ticket.ScopedBy run
  clear : p.hold = none → ∀ u ∈ tickets, u.owner ≠ c → u.sharesScope p.ticket = true →
    u.isWaiting = true

structure Inv (starts : Nat → Start) (w : World) : Prop where
  keys : (w.tickets.map Ticket.owner).Nodup
  exclusive : ∀ t ∈ w.tickets, ∀ u ∈ w.tickets, t.owner ≠ u.owner → t.sharesScope u = true →
    t.isWaiting = true ∨ u.isWaiting = true
  ownScope : ∀ t ∈ w.tickets, t.isLaunched = false → t.ScopedBy (starts t.owner).run
  ticketless : ∀ t ∈ w.tickets, (w.pc t.owner).ticketless = false
  unreported : ∀ t ∈ w.tickets, (w.pc t.owner).unreported = true → t.isLaunched = false
  relies : ∀ t ∈ w.tickets, (w.pc t.owner).relies = true → t.state = .admitted
  locked : ∀ c p, w.pc c = .passing p → w.lock = some c
  passing : ∀ c p, w.pc c = .passing p → PassInv (starts c).run w.tickets c p

lemma PassInv.mono {run ts ts' c p} (h : PassInv run ts c p) (sub : ∀ t ∈ ts', t ∈ ts) :
    PassInv run ts' c p :=
  ⟨h.owner, h.ownScope, fun hold u hu => h.clear hold u (sub u hu)⟩

namespace Inv
variable {starts : Nat → Start} {w : World} {c : Nat}

lemma no_pass (h : Inv starts w) (free : w.lock = none) (d : Nat) (p : Passing) :
    w.pc d ≠ .passing p := by
  intro hd
  rw [h.locked d p hd] at free
  cases free

lemma no_other_pass (h : Inv starts w) (held : w.lock = some c) {d} (hd : d ≠ c) (p : Passing) :
    w.pc d ≠ .passing p := by
  intro hp
  rw [h.locked d p hp] at held
  exact hd (Option.some.inj held)

lemma fresh (h : w.Fresh) : Inv starts w := by
  obtain ⟨tickets, lock, pc, rows, launched⟩ := w
  obtain ⟨rfl, rfl, rfl, rfl, rfl⟩ := h
  exact ⟨.nil, nofun, nofun, nofun, nofun, nofun, (fun _ _ hp => by cases hp),
    (fun _ _ hp => by cases hp)⟩

section

variable (h : Inv starts w)
include h

/-- A start moves on and no ticket changes. -/
lemma goto {pc} (ticketless : pc.ticketless = true → ∀ t ∈ w.tickets, t.owner ≠ c)
    (unreported : pc.unreported = true → ∀ t ∈ w.tickets, t.owner = c → t.isLaunched = false)
    (relies : pc.relies = true → ∀ t ∈ w.tickets, t.owner = c → t.state = .admitted)
    (passing : ∀ p, pc = .passing p → w.lock = some c ∧ PassInv (starts c).run w.tickets c p) :
    Inv starts (w.goto c pc) where
  keys := h.keys
  exclusive := h.exclusive
  ownScope := h.ownScope
  ticketless t ht := by
    simp only [World.goto, update_apply]
    split
    · rename_i e
      by_contra hp
      exact ticketless (by simpa using hp) t ht e
    · exact h.ticketless t ht
  unreported t ht hp := by
    simp only [World.goto, update_apply] at hp
    split at hp
    · rename_i e
      exact unreported hp t ht e
    · exact h.unreported t ht hp
  relies t ht hp := by
    simp only [World.goto, update_apply] at hp
    split at hp
    · rename_i e
      exact relies hp t ht e
    · exact h.relies t ht hp
  locked d p hd := by
    simp only [World.goto, update_apply] at hd
    split at hd
    · rename_i e
      exact e ▸ (passing p hd).1
    · exact h.locked d p hd
  passing d p hd := by
    simp only [World.goto, update_apply] at hd
    split at hd
    · rename_i e
      exact e ▸ (passing p hd).2
    · exact h.passing d p hd

lemma remove (d : Nat) : Inv starts (w.removeTicket d) := by
  have sub : ∀ t ∈ (w.removeTicket d).tickets, t ∈ w.tickets := fun t ht => (mem_filter.mp ht).1
  exact ⟨h.keys.sublist (filter_sublist.map _),
    fun t ht u hu => h.exclusive t (sub t ht) u (sub u hu),
    fun t ht => h.ownScope t (sub t ht), fun t ht => h.ticketless t (sub t ht),
    fun t ht => h.unreported t (sub t ht), fun t ht => h.relies t (sub t ht), h.locked,
    fun e p he => (h.passing e p he).mono sub⟩

lemma unlock (idle : ∀ p, w.pc c ≠ .passing p) : Inv starts (w.unlock c) :=
  { h with
    locked := fun d p hd => by
      have held := h.locked d p hd
      have other : d ≠ c := fun e => idle p (e ▸ hd)
      simp [World.unlock, held, other] }

/-- A start writes its ticket and moves on, while nobody else is in a pass. -/
lemma write {t : Ticket} {pc} (owner : t.owner = c)
    (alone : ∀ d p, d ≠ c → w.pc d ≠ .passing p) (idle : pc.inPass = false)
    (own : t.isLaunched = false → t.ScopedBy (starts c).run)
    (clear : t.isWaiting = false → ∀ u ∈ w.tickets, u.owner ≠ c → u.sharesScope t = true →
      u.isWaiting = true)
    (ticketless : pc.ticketless = false) (unreported : pc.unreported = true → t.isLaunched = false)
    (relies : pc.relies = true → t.state = .admitted) :
    Inv starts ((w.writeTicket t).goto c pc) := by
  have mem : ∀ u, u ∈ (w.writeTicket t).tickets ↔ u = t ∨ (u ∈ w.tickets ∧ u.owner ≠ c) := by
    intro u
    rw [World.writeTicket, mem_upsertBy_iff h.keys, owner]
  have here : ((w.writeTicket t).goto c pc).pc t.owner = pc := by
    rw [owner]
    exact update_self ..
  have there : ∀ u : Ticket, u.owner ≠ c → ((w.writeTicket t).goto c pc).pc u.owner = w.pc u.owner :=
    fun u hu => update_of_ne hu ..
  have nobody : ∀ d p, ((w.writeTicket t).goto c pc).pc d ≠ .passing p := by
    intro d p hd
    rcases eq_or_ne d c with rfl | ne
    · exact Pc.ne_passing idle p ((update_self ..).symm.trans hd)
    · exact alone d p ne ((update_of_ne ne ..).symm.trans hd)
  refine ⟨nodup_upsertBy h.keys, ?_, ?_, ?_, ?_, ?_, ?_, ?_⟩
  · intro u hu v hv hne shares
    rcases (mem u).mp hu with rfl | ⟨oldu, ou⟩
    · rcases (mem v).mp hv with rfl | ⟨oldv, ov⟩
      · exact absurd rfl hne
      · cases waiting : u.isWaiting with
        | true => exact .inl rfl
        | false => exact .inr (clear waiting v oldv ov (Ticket.sharesScope_comm _ _ ▸ shares))
    rcases (mem v).mp hv with rfl | ⟨oldv, -⟩
    · cases waiting : v.isWaiting with
      | true => exact .inr rfl
      | false => exact .inl (clear waiting u oldu ou shares)
    · exact h.exclusive u oldu v oldv hne shares
  · intro u hu launched
    rcases (mem u).mp hu with rfl | ⟨hu, -⟩
    · rw [owner]
      exact own launched
    · exact h.ownScope u hu launched
  · intro u hu
    rcases (mem u).mp hu with rfl | ⟨hu, ou⟩
    · rw [here]
      exact ticketless
    · rw [there u ou]
      exact h.ticketless u hu
  · intro u hu hp
    rcases (mem u).mp hu with rfl | ⟨hu, ou⟩
    · rw [here] at hp
      exact unreported hp
    · rw [there u ou] at hp
      exact h.unreported u hu hp
  · intro u hu hp
    rcases (mem u).mp hu with rfl | ⟨hu, ou⟩
    · rw [here] at hp
      exact relies hp
    · rw [there u ou] at hp
      exact h.relies u hu hp
  · exact fun d p hd => absurd hd (nobody d p)
  · exact fun d p hd => absurd hd (nobody d p)

/-- A sweep releases scopes and removes tickets. -/
lemma sweep (free : w.lock = none) (r : SweepReading) (ceiling : Option Nat) :
    Inv starts { w with tickets := Throttle.sweep r ceiling w.tickets } := by
  have waiting : ∀ {t u : Ticket}, t.state = u.state → t.isWaiting = u.isWaiting := by
    intro t u e
    rw [Ticket.isWaiting, Ticket.isWaiting, e]
  have launched : ∀ {t u : Ticket}, t.state = u.state → t.isLaunched = u.isLaunched := by
    intro t u e
    rw [Ticket.isLaunched, Ticket.isLaunched, e]
  refine ⟨nodup_sweep h.keys, ?_, ?_, ?_, ?_, ?_, ?_, ?_⟩
  · intro t ht u hu hne shares
    obtain ⟨t', ht', st⟩ := mem_sweep ht
    obtain ⟨u', hu', su⟩ := mem_sweep hu
    obtain ⟨ot, et, -, nt, -⟩ := sweepTicket_some st
    obtain ⟨ou, eu, -, nu, -⟩ := sweepTicket_some su
    rw [ot, ou] at hne
    rw [waiting et, waiting eu]
    exact h.exclusive t' ht' u' hu' hne (nt.sharesScope nu shares)
  · intro t ht hl
    obtain ⟨t', ht', st⟩ := mem_sweep ht
    obtain ⟨-, et, -, -, same⟩ := sweepTicket_some st
    rw [launched et] at hl
    rw [same hl]
    exact h.ownScope t' ht' hl
  · intro t ht
    obtain ⟨t', ht', st⟩ := mem_sweep ht
    rw [(sweepTicket_some st).1]
    exact h.ticketless t' ht'
  · intro t ht hp
    obtain ⟨t', ht', st⟩ := mem_sweep ht
    rw [(sweepTicket_some st).1] at hp
    rw [launched (sweepTicket_some st).2.1]
    exact h.unreported t' ht' hp
  · intro t ht hp
    obtain ⟨t', ht', st⟩ := mem_sweep ht
    rw [(sweepTicket_some st).1] at hp
    rw [(sweepTicket_some st).2.1]
    exact h.relies t' ht' hp
  · exact h.locked
  · exact fun d p hd => absurd hd (h.no_pass free d p)

end

variable {allowed : ThrottleConfig → Prop} {outside : Bool} {w' : World}

lemma unlaunched (h : Inv starts w) {config fresh recheck}
    (enters : EntersPass (starts c) (w.pc c) config fresh recheck) {t} (ht : t ∈ w.tickets)
    (owner : t.owner = c) : t.isLaunched = false := by
  subst owner
  have unreported := h.unreported t ht
  have ticketless := h.ticketless t ht
  generalize w.pc t.owner = pc at enters unreported ticketless
  cases enters with
  | loop | recheck => exact unreported rfl
  | tail => cases ticketless

lemma findsMine (h : Inv starts w) (free : w.lock = none) {config fresh recheck r ticket position}
    (enters : EntersPass (starts c) (w.pc c) config fresh recheck)
    (mine : FindsMine (Throttle.sweep r (some config.ceiling) w.tickets) c
      (starts c).run fresh ticket position) :
    ticket.owner = c ∧ ticket.ScopedBy (starts c).run := by
  unfold FindsMine at mine
  split at mine
  · obtain ⟨-, now, rfl⟩ := mine
    exact ⟨rfl, rfl, rfl⟩
  obtain ⟨found, owner⟩ := mine
  have swept := h.sweep free r (some config.ceiling)
  have mem := mem_of_getElem? found
  subst owner
  exact ⟨rfl, swept.ownScope ticket mem (swept.unlaunched enters mem rfl)⟩

lemma enter (h : Inv starts w) (free : w.lock = none)
    {config fresh recheck r ticket position evaluated cached n census todo}
    (enters : EntersPass (starts c) (w.pc c) config fresh recheck)
    (mine : FindsMine (Throttle.sweep r (some config.ceiling) w.tickets) c
      (starts c).run fresh ticket position) :
    Inv starts ({ w with tickets := Throttle.sweep r (some config.ceiling) w.tickets, lock := some c }.goto c
        (.passing ⟨config, fresh, recheck, ticket,
          (standingHold (starts c).run (Throttle.sweep r (some config.ceiling) w.tickets) position
            ticket evaluated).or cached, n, census, todo⟩)) := by
  obtain ⟨owner, own⟩ := h.findsMine free enters mine
  have swept := h.sweep free r (some config.ceiling)
  have locked : Inv starts { w with
      tickets := Throttle.sweep r (some config.ceiling) w.tickets, lock := some c } :=
    { swept with locked := fun d p hd => absurd hd (h.no_pass free d p) }
  refine locked.goto nofun ?_ nofun ?_
  · exact fun _ t ht owner => swept.unlaunched enters ht owner
  · intro p hp
    cases hp
    refine ⟨rfl, owner, own, fun clear u hu other shares => ?_⟩
    exact others_wait own (or_eq_none_iff.mp clear).1 hu (owner ▸ other) shares

lemma move (h : Inv starts w) {pc pc'} (hpc : w.pc c = pc)
    (ticketless : (pc'.ticketless && !pc.ticketless) = false)
    (unreported : (pc'.unreported && !pc.unreported) = false)
    (relies : (pc'.relies && !pc.relies) = false)
    (idle : pc'.inPass = false) : Inv starts (w.goto c pc') := by
  refine h.goto ?_ ?_ ?_ fun p hp => absurd hp (Pc.ne_passing idle p)
  · rintro hp t ht rfl
    have had := h.ticketless t ht
    simp [hp, ← hpc, had] at ticketless
  · rintro hp t ht rfl
    apply h.unreported t ht
    simpa [hp, ← hpc] using unreported
  · rintro hp t ht rfl
    apply h.relies t ht
    simpa [hp, ← hpc] using relies

lemma goto_unlock {pc} (idle : pc.inPass = false) (h : Inv starts (w.goto c pc)) :
    Inv starts ((w.unlock c).goto c pc) := by
  have unlocked := h.unlock (c := c) fun p hp =>
    Pc.ne_passing idle p ((update_self ..).symm.trans hp)
  exact unlocked

section
variable (h : Inv starts w)
include h

lemma rows (rows : List Row) (launched : Nat → Bool) :
    Inv starts { w with rows := rows, launched := launched } := { h with }

lemma removeAndGo {pc} (unreported : pc.unreported = false) (relies : pc.relies = false)
    (idle : pc.inPass = false) : Inv starts ((w.removeTicket c).goto c pc) := by
  refine (h.remove c).goto (fun _ t ht => by simpa using (mem_filter.mp ht).2) ?_ ?_
    fun p hp => absurd hp (Pc.ne_passing idle p)
  · rw [unreported]; nofun
  · rw [relies]; nofun

lemma count {p} (hp : w.pc c = .passing p) (census : Census) (todo : List WorkspaceId) :
    Inv starts (w.goto c (.passing { p with census := census, todo := todo })) := by
  have pass := h.passing c _ hp
  refine h.goto nofun ?_ nofun ?_
  · rintro - t ht rfl
    exact h.unreported t ht (hp ▸ rfl)
  · intro q hq
    cases hq
    exact ⟨h.locked c _ hp, pass.owner, pass.ownScope, pass.clear⟩

lemma hold {p hold told} (hp : w.pc c = .passing p) (entry : Entry) :
    Inv starts (((if p.fresh then w else
      w.writeTicket { p.ticket with state := .waiting (some hold) }).unlock c).goto c
        (p.held entry told)) := by
  have quiet : (p.held entry told).ticketless = false ∧ (p.held entry told).relies = false
      ∧ (p.held entry told).inPass = false := by
    unfold Passing.held
    split
    · split <;> exact ⟨rfl, rfl, rfl⟩
    · exact ⟨rfl, rfl, rfl⟩
  obtain ⟨ticketless, relies, idle⟩ := quiet
  have pass := h.passing c p hp
  have held := h.locked c p hp
  apply goto_unlock idle
  cases p.fresh with
  | true => exact h.move hp (by simp [ticketless]) (by simp [Pc.unreported]) (by simp [relies]) idle
  | false =>
    refine h.write pass.owner (fun d q hd => h.no_other_pass held hd q) idle (fun _ => pass.ownScope)
      nofun ticketless (fun _ => rfl) ?_
    rw [relies]; nofun

lemma admitRun {p} (hp : w.pc c = .passing p) (clear : p.hold = none) :
    Inv starts (((w.writeTicket { p.ticket with state := .admitted }).unlock c).goto c p.admits) := by
  have quiet : p.admits.ticketless = false ∧ p.admits.inPass = false := by
    unfold Passing.admits
    split <;> exact ⟨rfl, rfl⟩
  have pass := h.passing c p hp
  have held := h.locked c p hp
  apply goto_unlock quiet.2
  exact h.write pass.owner (fun d q hd => h.no_other_pass held hd q) quiet.2
    (fun _ => pass.ownScope) (fun _ => pass.clear clear) quiet.1 (fun _ => rfl) fun _ => rfl

lemma enqueue (free : w.lock = none) (now : Nat) :
    Inv starts ((w.writeTicket (.new c (starts c).run now)).goto c .looping) :=
  h.write rfl (fun d p _ => h.no_pass free d p) rfl (fun _ => ⟨rfl, rfl⟩) nofun rfl
    (fun _ => rfl) nofun

lemma demote (free : w.lock = none) {t hold} (ht : t ∈ w.tickets)
    (hpc : w.pc t.owner = .demoting hold) :
    Inv starts ((w.writeTicket { t with state := .waiting (some hold) }).goto t.owner .looping) :=
  h.write rfl (fun d p _ => h.no_pass free d p) rfl
    (fun _ => h.ownScope t ht (h.unreported t ht (hpc ▸ rfl))) nofun rfl
    (fun _ => rfl) nofun

lemma report (free : w.lock = none) {t : Ticket} (ht : t ∈ w.tickets)
    (hpc : w.pc t.owner = .committed)
    (now : Nat) (workspace : WorkspaceId) (agent : AgentSessionId) :
    Inv starts ((w.writeTicket { t with state := .launched now workspace agent }).goto t.owner .reported) := by
  have admitted := h.relies t ht (hpc ▸ rfl)
  refine h.write rfl (fun d p _ => h.no_pass free d p) rfl nofun ?_ rfl
    nofun nofun
  intro _ u hu other shares
  have both := h.exclusive u hu t ht other shares
  simpa [Ticket.isWaiting, admitted] using both

lemma step (st : Step starts allowed outside w c w') : Inv starts w' := by
  cases st with
  | open_ hpc | scriptsPass hpc unchecked => exact h.move hpc rfl rfl rfl rfl
  | openLate hpc | drop hpc | reportFails hpc => exact h.removeAndGo rfl rfl rfl
  | enqueue now hpc entry ok gated free => exact h.enqueue free now
  | enter r ticket position evaluated cached listing enters ok free sound sized mine known =>
    exact h.enter free enters mine
  | count agentNames automatedNames hpc todo => exact h.count hpc _ _
  | hold unreadable rest hpc held => exact h.hold hpc _
  | admitRun rest hpc counted clear => exact h.admitRun hpc (or_eq_none_iff.mp clear).1
  | scriptsHold hold hpc =>
    cases (starts c).entry with
    | admitRun | tryAdmit => exact h.move hpc rfl rfl rfl rfl
  | demote hpc free mine owner =>
    subst owner
    exact h.demote free mine hpc
  | leave outcome hpc | die alive => exact goto_unlock rfl (h.move rfl rfl rfl rfl rfl)
  | commit batch hpc size | commitOpen batch hpc => exact (h.rows _ _).move hpc rfl rfl rfl rfl
  | report now workspace agent hpc free mine owner =>
    subst owner
    exact h.report free mine hpc now workspace agent
  | reap r free sound => exact h.sweep free r none
  | agentEnds hrows | agentOpens workspace hout => exact h.rows _ w.launched

end

end Inv

section Runs
variable {starts : Nat → Start} {allowed : ThrottleConfig → Prop} {outside : Bool} {w : World}

/-- The worlds that starts at the gate reach. -/
def Runs (starts : Nat → Start) (allowed : ThrottleConfig → Prop) (outside : Bool) (w : World) :
    Prop :=
  Reachable World.Fresh (Step starts allowed outside) w

lemma Runs.inv (h : Runs starts allowed outside w) : Inv starts w := by
  apply h.invariant
  · exact fun s hs => Inv.fresh hs
  · exact fun s a s' _ hs st => hs.step st

/-- No two tickets that share a scope are past waiting, and a start that has ended left no
ticket. -/
theorem turns_are_exclusive (starts : Nat → Start) (allowed : ThrottleConfig → Prop)
    (outside : Bool) (w : World) (h : Runs starts allowed outside w) :
    (∀ t ∈ w.tickets, ∀ u ∈ w.tickets, t.owner ≠ u.owner → t.sharesScope u = true →
        t.isWaiting = true ∨ u.isWaiting = true)
      ∧ ∀ c outcome, w.pc c = .ended outcome → ∀ t ∈ w.tickets, t.owner ≠ c := by
  refine ⟨h.inv.exclusive, ?_⟩
  rintro c outcome ended t ht rfl
  have ticketless := h.inv.ticketless t ht
  rw [ended] at ticketless
  cases ticketless

/-- One start that is machine-gated and opens one agent. -/
def oneAgent : Start := ⟨⟨"ws", [⟨"claude", none, 1⟩], true, none⟩, .admitRun⟩

def emptyGate : World := ⟨[], none, fun _ => .idle, [], fun _ => false⟩

/-- A machine with room for one agent. -/
def oneCap : ThrottleConfig := ⟨some 1, some 1, false⟩

/-- Two starts enqueue and the first one is admitted. -/
lemma second_start_queues :
    ∃ w : World, Runs (fun _ => oneAgent) (· = oneCap) false w
      ∧ w.tickets = [{ Ticket.new 0 oneAgent.run 1 with state := .admitted }, .new 1 oneAgent.run 2]
      ∧ w.launched = fun _ => false := by
  let reading : SweepReading := ⟨1, fun _ => true, fun _ _ => none⟩
  have start : Runs (fun _ => oneAgent) (· = oneCap) false emptyGate :=
    .start ⟨rfl, rfl, rfl, rfl, rfl⟩
  have queued := start.next (.enqueue (c := 0) 1 rfl rfl rfl rfl rfl)
  have pass : EntersPass oneAgent .looping oneCap false false := .loop rfl rfl
  have sound : ((emptyGate.writeTicket (.new 0 oneAgent.run 1)).goto 0 .looping).Sound reading :=
    fun _ _ _ _ => rfl
  have mine : FindsMine
    (sweep reading (some oneCap.ceiling) [.new 0 oneAgent.run 1]) 0 oneAgent.run false
      (.new 0 oneAgent.run 1) 0 := ⟨rfl, rfl⟩
  have entered :=
    queued.next (.enter (c := 0) reading (.new 0 oneAgent.run 1) 0 (.ok none) none [] pass
    rfl rfl sound rfl mine nofun)
  have admitted := entered.next (.admitRun (c := 0) none rfl (.inl rfl) (by rfl))
  have second := admitted.next (.enqueue (c := 1) 2 rfl rfl rfl rfl rfl)
  exact ⟨_, second, rfl, rfl⟩

/-- While the first start has its turn, the second one waits. -/
theorem second_start_waits :
    ∃ w : World, w.tickets.map (fun t => (t.owner, t.isWaiting)) = [(0, false), (1, true)]
      ∧ (∀ t ∈ w.tickets, ∀ u ∈ w.tickets, t.owner ≠ u.owner → t.sharesScope u = true →
        t.isWaiting = true ∨ u.isWaiting = true)
      ∧ ∀ c outcome, w.pc c = .ended outcome → ∀ t ∈ w.tickets, t.owner ≠ c := by
  obtain ⟨w, run, tickets, -⟩ := second_start_queues
  have h := turns_are_exclusive (fun _ => oneAgent) (· = oneCap) false w run
  exact ⟨w, by rw [tickets]; rfl, h.1, h.2⟩

end Runs
end Rimz.Throttle
