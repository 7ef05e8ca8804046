import Rimz.Throttle.Turns

/-!
# Admission keeps the machine's caps

The open agents and the agents of admitted starts that have not committed their rows stay within a
cap. The census of a pass reads one workspace after another while other starts commit: what it
misses in a workspace it has read belongs to a ticket that its sweep has counted as in flight.
-/

namespace Rimz.Throttle
open Rimz.Lib

namespace World

/-- The agents an admitted ticket still has to commit. -/
def pending (w : World) (t : Ticket) : Nat :=
  if t.state = .admitted && !w.launched t.owner then t.agents else 0

/-- The agents of admitted tickets that are not committed. -/
def uncommitted (w : World) : Nat := (w.tickets.map w.pending).sum

/-- The same without the ticket of one start. -/
def uncommittedBut (w : World) (c : Nat) : Nat :=
  ((w.tickets.filter (·.owner ≠ c)).map w.pending).sum

def openAgents (w : World) : Nat := w.rows.length

def openAutomated (w : World) : Nat := w.rows.countP Row.automated

end World

/-- What one cap counts: which rows, and where a census has their number. -/
structure Measure (config : ThrottleConfig) (cap : Nat) where
  counts : Row → Bool
  count : Census → Nat
  zero : ∀ a b, count ⟨0, 0, a, b⟩ = 0
  read : ∀ (w : World) census workspace a b, count (w.countRows census workspace a b)
    = count census + w.rows.countP fun row => row.workspace = workspace && counts row
  limit : ∀ run inFlight census rest, limitHold config run inFlight census rest = none →
    count census + inFlight + run.agents ≤ cap

lemma le_of_capHold {kind cap count incoming inFlight names}
    (h : capHold kind cap count incoming inFlight names = none) :
    count + inFlight + incoming ≤ cap := by
  unfold capHold at h
  split at h
  · assumption
  · cases h

/-- `max-parallel-agents` counts every open agent. -/
def Measure.agents {config : ThrottleConfig} {cap : Nat} (h : config.maxParallelAgents = some cap) :
    Measure config cap where
  counts _ := true
  count := Census.agents
  zero _ _ := rfl
  read w census workspace a b := by simp [World.countRows]
  limit run inFlight census rest hold := by
    have machine := (or_eq_none_iff.mp hold).1
    rw [oneCapHold, h] at machine
    exact le_of_capHold machine

/-- `max-parallel-automation` counts the automated ones. -/
def Measure.automated {config : ThrottleConfig} {cap : Nat}
    (h : config.maxParallelAutomation = some cap) : Measure config cap where
  counts := Row.automated
  count := Census.automated
  zero _ _ := rfl
  read _ _ _ _ _ := rfl
  limit run inFlight census rest hold := by
    have automated := (or_eq_none_iff.mp (or_eq_none_iff.mp hold).2).1
    rw [oneCapHold, h] at automated
    exact le_of_capHold automated

namespace Pc

/-- A start that has an admission and has not launched. -/
def holdsTurn : Pc → Bool
  | scripts _ | turn => true
  | _ => false

/-- A start that has not launched and may still. -/
def precommit : Pc → Bool
  | idle | looping | passing _ | scripts _ | demoting _ | turn => true
  | _ => false

end Pc

section Caps
variable {config : ThrottleConfig} {cap : Nat} {m : Measure config cap} {starts : Nat → Start}
  {w : World} {c : Nat}

/-- What a pass has counted covers the rows of the workspaces it has read and the agents that others
have still to commit. -/
def Covers (m : Measure config cap) (w : World) (c : Nat) (p : Passing) : Prop :=
  (w.rows.countP fun row => row.workspace ∉ p.todo && m.counts row) + w.uncommittedBut c
    ≤ m.count p.census + p.inFlight

structure CapInv (m : Measure config cap) (starts : Nat → Start) (w : World) : Prop where
  inv : Inv starts w
  size : ∀ t ∈ w.tickets, t.agents = (starts t.owner).run.agents
  ticket : ∀ c, (w.pc c).holdsTurn = true → ∃ t ∈ w.tickets, t.owner = c
  fresh : ∀ c, (w.pc c).precommit = true → w.launched c = false
  gated : ∀ c, w.pc c ≠ .opened
  bound : w.rows.countP m.counts + w.uncommitted ≤ cap
  pass : ∀ c p, w.pc c = .passing p → p.config = config ∧ p.ticket.agents = (starts c).run.agents
    ∧ (p.hold = none → Covers m w c p)

lemma uncommittedBut_le : w.uncommittedBut c ≤ w.uncommitted := sum_map_filter_ne_le _ _ _

/-- The tickets of a sweep have no more to commit than before. -/
lemma sum_pending_sweep (r : SweepReading) (ceiling : Option Nat) (q : Ticket → Bool)
    (hq : ∀ t u : Ticket, t.owner = u.owner → q t = q u) (ts : List Ticket) :
    (((sweep r ceiling ts).filter q).map w.pending).sum ≤ ((ts.filter q).map w.pending).sum := by
  have sorted : (((sortByKey Ticket.path ts).filter q).map w.pending).sum
      = ((ts.filter q).map w.pending).sum := ((sortByKey_perm.filter q).map _).sum_nat
  rw [← sorted, sweep]
  induction sortByKey Ticket.path ts with
  | nil => exact le_rfl
  | cons u us ih =>
    cases hu : sweepTicket r ceiling u with
    | none =>
      rw [List.filterMap_cons_none hu, filter_cons]
      split
      · exact ih.trans (by simp)
      · exact ih
    | some t =>
      obtain ⟨owner, state, agents, -⟩ := sweepTicket_some hu
      have same : w.pending t = w.pending u := by
        rw [World.pending, World.pending, owner, state, agents]
      rw [List.filterMap_cons_some hu, filter_cons, filter_cons, hq t u owner]
      split
      · simpa [same] using ih
      · exact ih

lemma countP_le_add {α p q r} (h : ∀ a, p a = true → q a = true ∨ r a = true) (l : List α) :
    l.countP p ≤ l.countP q + l.countP r := by
  induction l with
  | nil => exact le_rfl
  | cons a l ih =>
    rw [List.countP_cons, List.countP_cons, List.countP_cons]
    cases hp : p a with
    | false => simp only [false_eq_true, if_false]; omega
    | true => rcases h a hp with hq | hr <;> simp only [*, if_true] <;> omega

lemma sum_pending_le_inFlight (queue : List Ticket) :
    ((queue.filter (·.owner ≠ c)).map w.pending).sum ≤ inFlight queue c := by
  unfold inFlight
  induction queue with
  | nil => exact le_rfl
  | cons t ts ih =>
    by_cases owner : t.owner = c
    · simpa [owner] using ih
    by_cases admitted : t.state = .admitted
    · have le : w.pending t ≤ t.agents := by
        unfold World.pending
        split
        · exact le_rfl
        · exact Nat.zero_le _
      simpa [owner, admitted] using add_le_add le ih
    · simpa [owner, admitted, World.pending] using ih

namespace CapInv

lemma start (h : w.Fresh) : CapInv m starts w := by
  have inv : Inv starts w := .fresh h
  obtain ⟨tickets, lock, pc, rows, launched⟩ := w
  obtain ⟨rfl, rfl, rfl, rfl, rfl⟩ := h
  refine ⟨inv, nofun, ?_, fun _ _ => rfl, ?_, Nat.zero_le _, ?_⟩
  · intro _ hp
    cases hp
  · intro _ hp
    cases hp
  · intro _ _ hp
    cases hp

/-- A start moves on, with or without the lock. -/
lemma goto (h : CapInv m starts w) {pc : Pc} {lock : Option Nat}
    (inv : Inv starts ({ w with lock := lock }.goto c pc))
    (ticket : pc.holdsTurn = true → (w.pc c).holdsTurn = true)
    (fresh : pc.precommit = true → (w.pc c).precommit = true) (gated : pc ≠ .opened)
    (pass : ∀ p, pc = .passing p → p.config = config ∧ p.ticket.agents = (starts c).run.agents
      ∧ (p.hold = none → Covers m w c p)) :
    CapInv m starts ({ w with lock := lock }.goto c pc) where
  inv := inv
  size := h.size
  ticket d hd := by
    simp only [World.goto, update_apply] at hd
    split at hd
    · rename_i e
      exact e ▸ h.ticket c (ticket hd)
    · exact h.ticket d hd
  fresh d hd := by
    simp only [World.goto, update_apply] at hd
    split at hd
    · rename_i e
      exact e ▸ h.fresh c (fresh hd)
    · exact h.fresh d hd
  gated d hd := by
    simp only [World.goto, update_apply] at hd
    split at hd
    · exact gated hd
    · exact h.gated d hd
  bound := h.bound
  pass d p hd := by
    simp only [World.goto, update_apply] at hd
    split at hd
    · rename_i e
      exact e ▸ pass p hd
    · exact h.pass d p hd

lemma move (h : CapInv m starts w) {pc pc' : Pc} {lock : Option Nat} (hpc : w.pc c = pc)
    (inv : Inv starts ({ w with lock := lock }.goto c pc'))
    (ticket : (pc'.holdsTurn && !pc.holdsTurn) = false)
    (fresh : (pc'.precommit && !pc.precommit) = false) (gated : pc' ≠ .opened)
    (idle : pc'.inPass = false) : CapInv m starts ({ w with lock := lock }.goto c pc') := by
  refine h.goto inv ?_ ?_ gated fun p hp => absurd hp (Pc.ne_passing idle p)
  · intro hp
    simpa [hp, ← hpc] using ticket
  · intro hp
    simpa [hp, ← hpc] using fresh

/-- A start writes its ticket and moves on, while nobody else is in a pass. -/
lemma write (h : CapInv m starts w) {t : Ticket} {pc : Pc} {lock : Option Nat} (owner : t.owner = c)
    (inv : Inv starts
      ({ w with tickets := upsertBy Ticket.owner t w.tickets, lock := lock }.goto c pc))
    (alone : ∀ d p, d ≠ c → w.pc d ≠ .passing p) (idle : pc.inPass = false)
    (size : t.agents = (starts c).run.agents)
    (bound : w.rows.countP m.counts + (w.pending t + w.uncommittedBut c) ≤ cap)
    (fresh : pc.precommit = true → (w.pc c).precommit = true) (gated : pc ≠ .opened) :
    CapInv m starts
      ({ w with tickets := upsertBy Ticket.owner t w.tickets, lock := lock }.goto c pc) where
  inv := inv
  size u hu := by
    rcases (mem_upsertBy_iff h.inv.keys).mp hu with rfl | ⟨hu, -⟩
    · rw [owner]
      exact size
    · exact h.size u hu
  ticket d hd := by
    simp only [World.goto, update_apply] at hd
    split at hd
    · rename_i e
      exact ⟨t, self_mem_upsertBy t _, owner.trans e.symm⟩
    · rename_i e
      obtain ⟨u, hu, rfl⟩ := h.ticket d hd
      exact ⟨u, mem_upsertBy_of_ne hu (by rwa [owner]), rfl⟩
  fresh d hd := by
    simp only [World.goto, update_apply] at hd
    split at hd
    · rename_i e
      exact e ▸ h.fresh c (fresh hd)
    · exact h.fresh d hd
  gated d hd := by
    simp only [World.goto, update_apply] at hd
    split at hd
    · exact gated hd
    · exact h.gated d hd
  bound := by
    have total := sum_map_upsertBy w.pending (a := t) h.inv.keys
    rw [owner] at total
    change w.rows.countP m.counts + ((upsertBy Ticket.owner t w.tickets).map w.pending).sum ≤ cap
    rw [total]
    exact bound
  pass d p hd := by
    simp only [World.goto, update_apply] at hd
    split at hd
    · exact absurd hd (Pc.ne_passing idle p)
    · rename_i e
      exact absurd hd (alone d p e)

section
variable (h : CapInv m starts w)
include h

lemma bound_of_idle {t} (idle : t.state ≠ .admitted) :
    w.rows.countP m.counts + (w.pending t + w.uncommittedBut c) ≤ cap := by
  have none_ : w.pending t = 0 := by simp [World.pending, idle]
  have le := uncommittedBut_le (w := w) (c := c)
  have bound := h.bound
  omega

/-- The drop of a ticket. -/
lemma remove {pc} (inv : Inv starts ((w.removeTicket c).goto c pc)) (turn : pc.holdsTurn = false)
    (fresh : pc.precommit = false) (gated : pc ≠ .opened) (idle : pc.inPass = false) :
    CapInv m starts ((w.removeTicket c).goto c pc) where
  inv := inv
  size t ht := h.size t (mem_filter.mp ht).1
  ticket d hd := by
    simp only [World.goto, update_apply] at hd
    split at hd
    · rw [turn] at hd
      cases hd
    · rename_i e
      obtain ⟨t, ht, rfl⟩ := h.ticket d hd
      exact ⟨t, mem_filter.mpr ⟨ht, by simpa using e⟩, rfl⟩
  fresh d hd := by
    simp only [World.goto, update_apply] at hd
    split at hd
    · rw [fresh] at hd
      cases hd
    · exact h.fresh d hd
  gated d hd := by
    simp only [World.goto, update_apply] at hd
    split at hd
    · exact gated hd
    · exact h.gated d hd
  bound := (Nat.add_le_add_left uncommittedBut_le _).trans h.bound
  pass d p hd := by
    simp only [World.goto, update_apply] at hd
    split at hd
    · exact absurd hd (Pc.ne_passing idle p)
    obtain ⟨pconfig, agents, covers⟩ := h.pass d p hd
    refine ⟨pconfig, agents, fun hold => (Nat.add_le_add_left ?_ _).trans (covers hold)⟩
    change (((w.tickets.filter (·.owner ≠ c)).filter (·.owner ≠ d)).map w.pending).sum ≤ _
    rw [List.filter_comm]
    exact sum_map_filter_ne_le _ _ _

lemma rows {rows}
    (fewer : ∀ q : Row → Bool, rows.countP (fun row => q row && m.counts row)
      ≤ w.rows.countP fun row => q row && m.counts row) :
    CapInv m starts { w with rows := rows } where
  inv := h.inv.rows rows w.launched
  size := h.size
  ticket := h.ticket
  fresh := h.fresh
  gated := h.gated
  bound := by
    have less := fewer fun _ => true
    exact (Nat.add_le_add_right less _).trans h.bound
  pass d p hd := by
    obtain ⟨pconfig, agents, covers⟩ := h.pass d p hd
    exact ⟨pconfig, agents, fun hold => (Nat.add_le_add_right (fewer _) _).trans (covers hold)⟩

/-- A sweep by a start that sees who runs. -/
lemma sweep (free : w.lock = none) {r} (sound : w.Sound r) (ceiling : Option Nat) :
    CapInv m starts { w with tickets := Throttle.sweep r ceiling w.tickets } where
  inv := h.inv.sweep free r ceiling
  size t ht := by
    obtain ⟨u, hu, swept⟩ := mem_sweep ht
    obtain ⟨owner, -, agents, -⟩ := sweepTicket_some swept
    rw [owner, agents]
    exact h.size u hu
  ticket d hd := by
    obtain ⟨t, ht, rfl⟩ := h.ticket d hd
    have relies : (w.pc t.owner).relies = true := by
      cases hp : w.pc t.owner with
      | scripts | turn => rfl
      | _ => rw [hp] at hd; cases hd
    have admitted := h.inv.relies t ht relies
    have alive : r.live t.owner = true := by
      apply sound t ht
      · intro at_ ws agent
        rw [admitted]
        nofun
      · intro dead
        rw [dead] at hd
        cases hd
    have kept : sweepTicket r ceiling t = some t := by simp [sweepTicket, admitted, alive]
    exact ⟨t, mem_filterMap.mpr ⟨t, sortByKey_perm.mem_iff.mpr ht, kept⟩, rfl⟩
  fresh := h.fresh
  gated := h.gated
  bound := by
    have less := sum_pending_sweep (w := w) r ceiling (fun _ => true) (fun _ _ _ => rfl) w.tickets
    rw [List.filter_true, List.filter_true] at less
    exact (Nat.add_le_add_left less _).trans h.bound
  pass d p hd := absurd hd (h.inv.no_pass free d p)

/-- The launched start has nothing left to commit, and the others what they had. -/
lemma sum_pending_commit (hpc : w.pc c = .turn) {t} (owner : t.owner = c)
    (admitted : t.state = .admitted) (size : t.agents = (starts c).run.agents) (w' : World)
    (launched : w'.launched = Function.update w.launched c true) {l : List Ticket}
    (keys : (l.map Ticket.owner).Nodup) (ht : t ∈ l) :
    (l.map w'.pending).sum + (starts c).run.agents = (l.map w.pending).sum := by
  have unlaunched : w.launched c = false := h.fresh c (hpc ▸ rfl)
  have mine : w.pending t = (starts c).run.agents := by
    simp [World.pending, admitted, owner, unlaunched, size]
  have none_ : w'.pending t = 0 := by simp [World.pending, launched, owner]
  have others : (l.filter (·.owner ≠ t.owner)).map w'.pending
      = (l.filter (·.owner ≠ t.owner)).map w.pending := by
    apply List.map_congr_left
    intro u hu
    have ne : u.owner ≠ c := by simpa [owner] using (mem_filter.mp hu).2
    simp [World.pending, launched, ne]
  rw [sum_map_of_mem w'.pending keys ht, sum_map_of_mem w.pending keys ht, others, mine, none_]
  omega

end

/-- A launch commits the agents its ticket stands for. -/
lemma commit (h : CapInv m starts w) (hpc : w.pc c = .turn) {batch : List Row}
    (size : batch.length = (starts c).run.agents)
    (inv : Inv starts
      ({ w with rows := w.rows ++ batch, launched := Function.update w.launched c true }.goto c
        .committed)) :
    CapInv m starts
      ({ w with rows := w.rows ++ batch, launched := Function.update w.launched c true }.goto c
        .committed) := by
  obtain ⟨t, ht, owner⟩ := h.ticket c (hpc ▸ rfl)
  have admitted : t.state = .admitted := h.inv.relies t ht (by rw [owner, hpc]; rfl)
  have agents : t.agents = (starts c).run.agents := owner ▸ h.size t ht
  have more : ∀ q : Row → Bool, (w.rows ++ batch).countP q ≤ w.rows.countP q + (starts c).run.agents := by
    intro q
    rw [List.countP_append, ← size]
    exact Nat.add_le_add_left List.countP_le_length _
  refine ⟨inv, h.size, ?_, ?_, ?_, ?_, ?_⟩
  · intro d hd
    simp only [World.goto, update_apply] at hd
    split at hd
    · cases hd
    · exact h.ticket d hd
  · intro d hd
    simp only [World.goto, update_apply] at hd ⊢
    split at hd
    · cases hd
    · rename_i e
      rw [if_neg e]
      exact h.fresh d hd
  · intro d hd
    simp only [World.goto, update_apply] at hd
    split at hd
    · cases hd
    · exact h.gated d hd
  · have committed := h.sum_pending_commit hpc owner admitted agents ({ w with
      rows := w.rows ++ batch, launched := Function.update w.launched c true }.goto c .committed) rfl
      h.inv.keys ht
    have bound := h.bound
    have rows := more m.counts
    change (w.rows ++ batch).countP m.counts + (w.tickets.map _).sum ≤ cap
    unfold World.uncommitted at bound
    omega
  · intro d p hd
    simp only [World.goto, update_apply] at hd
    split at hd
    · cases hd
    rename_i e
    obtain ⟨pconfig, pagents, covers⟩ := h.pass d p hd
    refine ⟨pconfig, pagents, fun hold => ?_⟩
    have mem : t ∈ w.tickets.filter (·.owner ≠ d) :=
      mem_filter.mpr ⟨ht, by simpa [owner] using fun he : c = d => e he.symm⟩
    have committed := h.sum_pending_commit hpc owner admitted agents ({ w with
      rows := w.rows ++ batch, launched := Function.update w.launched c true }.goto c .committed) rfl
      (h.inv.keys.sublist (filter_sublist.map _)) mem
    have covered := covers hold
    have rows := more fun row => row.workspace ∉ p.todo && m.counts row
    unfold Covers World.uncommittedBut at covered ⊢
    change (w.rows ++ batch).countP _ + ((w.tickets.filter (·.owner ≠ d)).map _).sum ≤ _
    omega

section
variable (h : CapInv m starts w)
include h

/-- A pass begins: its sweep counts as in flight what others have still to commit. -/
lemma enter (free : w.lock = none) {fresh recheck r ticket position evaluated cached listing}
    (enters : EntersPass (starts c) (w.pc c) config fresh recheck) (sound : w.Sound r)
    (mine : FindsMine (Throttle.sweep r (some config.ceiling) w.tickets) c
      (starts c).run fresh ticket position)
    (known : ∀ row ∈ w.rows, row.workspace ∈ listing) : CapInv m starts
    ({ w with tickets := Throttle.sweep r (some config.ceiling) w.tickets, lock := some c }.goto c
        (.passing ⟨config, fresh, recheck, ticket,
          (standingHold (starts c).run (Throttle.sweep r (some config.ceiling) w.tickets) position
            ticket evaluated).or cached,
          inFlight (Throttle.sweep r (some config.ceiling) w.tickets) c, ⟨0, 0, [], []⟩, listing⟩)) := by
  have swept := h.sweep free sound (some config.ceiling)
  refine swept.goto (h.inv.enter free enters mine) nofun ?_ nofun ?_
  · intro _
    change (w.pc c).precommit = true
    generalize w.pc c = pc at enters
    cases enters <;> rfl
  · intro p hp
    cases hp
    refine ⟨rfl, ?_, fun _ => ?_⟩
    · unfold FindsMine at mine
      split at mine
      · obtain ⟨-, now, rfl⟩ := mine
        rfl
      · obtain ⟨found, owner⟩ := mine
        exact owner ▸ swept.size ticket (mem_of_getElem? found)
    · have unread : (w.rows.countP fun row => row.workspace ∉ listing && m.counts row) = 0 := by
        apply List.countP_eq_zero.mpr
        intro row hrow
        simp [known row hrow]
      unfold Covers World.uncommittedBut
      rw [unread, m.zero]
      simpa using sum_pending_le_inFlight (Throttle.sweep r (some config.ceiling) w.tickets)

/-- The census moves on to the next workspace. -/
lemma count {p} (hp : w.pc c = .passing p) {workspace rest} (todo : p.todo = workspace :: rest)
    (a b : List String) : CapInv m starts
      (w.goto c (.passing { p with census := w.countRows p.census workspace a b, todo := rest })) := by
  obtain ⟨pconfig, agents, covers⟩ := h.pass c p hp
  refine h.goto (h.inv.count hp _ _) nofun (fun _ => hp ▸ rfl) nofun ?_
  intro q hq
  cases hq
  refine ⟨pconfig, agents, fun hold => ?_⟩
  have covered := covers hold
  have split : (w.rows.countP fun row => row.workspace ∉ rest && m.counts row)
      ≤ (w.rows.countP fun row => row.workspace ∉ p.todo && m.counts row)
        + w.rows.countP fun row => row.workspace = workspace && m.counts row := by
    apply countP_le_add
    intro row hrow
    rw [and_eq_true, decide_eq_true_eq] at hrow
    by_cases here : row.workspace = workspace
    · exact .inr (by simp [here, hrow.2])
    · exact .inl (by simp [todo, here, hrow.1, hrow.2])
  unfold Covers at covered ⊢
  dsimp only
  rw [m.read]
  omega

/-- A pass admits only what its census and its sweep leave room for. -/
lemma admitRun {p} (hp : w.pc c = .passing p) {rest} (caps : config.caps = true)
    (counted : p.todo = [] ∨ p.config.caps = false)
    (clear : p.verdict (starts c).run none rest = none) :
    CapInv m starts (((w.writeTicket { p.ticket with state := .admitted }).unlock c).goto c p.admits) := by
  obtain ⟨pconfig, agents, covers⟩ := h.pass c p hp
  obtain ⟨hold, limits⟩ := or_eq_none_iff.mp clear
  rw [map_eq_none_iff, pconfig] at limits
  rw [pconfig] at counted
  have todo : p.todo = [] := counted.resolve_right (by simp [caps])
  have room := m.limit _ _ _ _ limits
  have covered := covers hold
  have held := h.inv.locked c p hp
  have all : (w.rows.countP fun row => row.workspace ∉ p.todo && m.counts row)
      = w.rows.countP m.counts := by simp [todo]
  have mine : w.pending { p.ticket with state := .admitted } ≤ (starts c).run.agents := by
    unfold World.pending
    split
    · exact agents.le
    · exact Nat.zero_le _
  have quiet : p.admits.inPass = false ∧ p.admits ≠ .opened := by
    unfold Passing.admits
    split <;> exact ⟨rfl, nofun⟩
  unfold Covers at covered
  refine h.write (h.inv.passing c p hp).owner (h.inv.admitRun hp hold)
    (fun d q hd => h.inv.no_other_pass held hd q) quiet.1 agents ?_ (fun _ => hp ▸ rfl) quiet.2
  omega

/-- A pass that holds its start leaves nothing to commit. -/
lemma hold {p hold told} (hp : w.pc c = .passing p) (entry : Entry) :
    CapInv m starts (((if p.fresh then w else
      w.writeTicket { p.ticket with state := .waiting (some hold) }).unlock c).goto c
        (p.held entry told)) := by
  have inv := @Inv.hold starts w c h.inv p hold told hp entry
  have held := h.inv.locked c p hp
  have quiet : (p.held entry told).inPass = false ∧ (p.held entry told) ≠ .opened
      ∧ (p.held entry told).holdsTurn = false := by
    unfold Passing.held
    split
    · split <;> exact ⟨rfl, nofun, rfl⟩
    · exact ⟨rfl, nofun, rfl⟩
  obtain ⟨idle, gated, turn⟩ := quiet
  revert inv
  cases p.fresh with
  | true => exact fun inv => h.move hp inv (by simp [turn]) (by simp [Pc.precommit]) gated idle
  | false =>
    exact fun inv => h.write (h.inv.passing c p hp).owner inv
      (fun d q hd => h.inv.no_other_pass held hd q) idle (h.pass c p hp).2.1
      (h.bound_of_idle nofun) (fun _ => hp ▸ rfl) gated

end

variable {outside : Bool} {w' : World}

lemma step (caps : config.caps = true)
    (closed : outside = false ∨ ∀ ws, m.counts ⟨ws, false⟩ = false)
    (h : CapInv m starts w) (st : Step starts (· = config) outside w c w') : CapInv m starts w' := by
  have inv := h.inv.step st
  have gated : ∀ run : Run, run.gated config = true := fun run => by simp [Run.gated, caps]
  cases st with
  | open_ hpc ok ungated | openLate hpc ok ungated =>
    cases ok
    rw [gated] at ungated
    cases ungated
  | enqueue now hpc entry ok _ free =>
    exact h.write rfl inv (fun d p _ => h.inv.no_pass free d p) rfl rfl (h.bound_of_idle nofun)
      (fun _ => hpc ▸ rfl) nofun
  | enter r ticket position evaluated cached listing enters ok free sound sized mine known =>
    cases ok
    exact h.enter free enters sound mine known
  | count agentNames automatedNames hpc todo => exact h.count hpc todo _ _
  | hold unreadable rest hpc held => exact h.hold hpc _
  | admitRun rest hpc counted clear => exact h.admitRun hpc caps counted clear
  | scriptsHold hold hpc =>
    revert inv
    cases (starts c).entry with
    | admitRun | tryAdmit => exact fun inv => h.move hpc inv rfl rfl nofun rfl
  | scriptsPass hpc unchecked => exact h.move hpc inv rfl rfl nofun rfl
  | @demote _ t hpc free mine owner =>
    subst owner
    exact h.write rfl inv (fun d p _ => h.inv.no_pass free d p) rfl (h.size t mine)
      (h.bound_of_idle nofun) (fun _ => hpc ▸ rfl) nofun
  | leave outcome hpc | die alive => exact h.move rfl inv rfl rfl nofun rfl
  | drop hpc | reportFails hpc => exact h.remove inv rfl rfl nofun rfl
  | commit batch hpc size => exact h.commit hpc size inv
  | commitOpen batch hpc => exact absurd hpc (h.gated c)
  | @report t now workspace agent hpc free mine owner =>
    subst owner
    exact h.write rfl inv (fun d p _ => h.inv.no_pass free d p) rfl (h.size t mine)
      (h.bound_of_idle nofun) nofun nofun
  | reap r free sound => exact h.sweep free sound none
  | @agentEnds before row after hrows =>
    apply h.rows
    intro q
    rw [hrows, List.countP_append, List.countP_append]
    exact Nat.add_le_add_left (List.Sublist.countP_le (List.sublist_cons_self ..)) _
  | agentOpens workspace hout =>
    have uncounted := closed.resolve_left (by simp [hout]) workspace
    apply h.rows
    intro q
    simp [uncounted]

end CapInv
end Caps

/-- With a cap on the automated agents, or on all agents and none opened past the gate, the open
agents and those of admitted starts that are not committed stay within it. -/
theorem admission_keeps_caps (starts : Nat → Start) (config : ThrottleConfig) (outside : Bool)
    (w : World) (h : Runs starts (· = config) outside w) :
    (∀ cap, config.maxParallelAutomation = some cap → w.openAutomated + w.uncommitted ≤ cap)
      ∧ (outside = false → ∀ cap, config.maxParallelAgents = some cap →
        w.openAgents + w.uncommitted ≤ cap) := by
  constructor
  · intro cap hcap
    have inv : CapInv (.automated hcap) starts w := by
      apply h.invariant
      · exact fun s hs => .start hs
      · exact fun s a s' _ hs st => hs.step (by simp [ThrottleConfig.caps, hcap]) (.inr fun _ => rfl) st
    exact inv.bound
  · intro closed cap hcap
    have inv : CapInv (.agents hcap) starts w := by
      apply h.invariant
      · exact fun s hs => .start hs
      · exact fun s a s' _ hs st => hs.step (by simp [ThrottleConfig.caps, hcap]) (.inl closed) st
    have bound := inv.bound
    simpa [Measure.agents, World.openAgents] using bound

/-- An admitted start that has not launched fills a cap of one. -/
theorem one_agent_fills_the_cap :
    ∃ w : World, w.uncommitted = 1 ∧ w.openAutomated + w.uncommitted ≤ 1
      ∧ w.openAgents + w.uncommitted ≤ 1 := by
  obtain ⟨w, run, tickets, launched⟩ := second_start_queues
  have h := admission_keeps_caps (fun _ => oneAgent) oneCap false w run
  have one : w.uncommitted = 1 := by
    rw [World.uncommitted, tickets]
    simp [World.pending, launched, Ticket.new, Run.agents, oneAgent]
  exact ⟨w, one, h.1 1 rfl, h.2 rfl 1 rfl⟩

end Rimz.Throttle
