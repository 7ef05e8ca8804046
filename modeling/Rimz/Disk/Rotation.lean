import Mathlib.Data.Fintype.Basic
import Rimz.Lib.Bytes
import Rimz.Lib.Run

/-!
# Rotating logs

`append_rotating_jsonl` of `disk/rotating.rs`: a log at its cap is renamed over the rotated
generation before the next line is appended. Rotations exclude each other by a lock file that is
created exclusively, removed by path when its holder drops it, and stolen by age when a holder died
with it.

Every file step is one step of the system. Lock files that follow each other under the one path are
told apart by a number.
-/

namespace Rimz.Disk
open Rimz.Lib

/-! ## The files of a log -/

/-- The bytes of every inode, and the inodes that the path of the log and of its rotated generation
name. -/
structure LogFiles where
  bytes : Nat → Bytes
  rotated : Option Nat
  current : Option Nat
  nextInode : Nat

namespace LogFiles

/-- A write through a handle on the inode. -/
def write (files : LogFiles) (inode : Nat) (line : Bytes) : LogFiles :=
  { files with bytes := Function.update files.bytes inode (files.bytes inode ++ line) }

/-- `append_record_bytes`, which creates a file that is not there. -/
def append (files : LogFiles) (line : Bytes) : LogFiles :=
  match files.current with
  | some inode => files.write inode line
  | none =>
    { files with
      bytes := Function.update files.bytes files.nextInode line
      current := some files.nextInode
      nextInode := files.nextInode + 1 }

/-- `remove_file` of the rotated generation, or no such file. -/
def removeRotated (files : LogFiles) : LogFiles := { files with rotated := none }

/-- `rename` of the log over its rotated generation. -/
def rename (files : LogFiles) (inode : Nat) : LogFiles :=
  { files with rotated := some inode, current := none }

/-- The log is there and holds at least `cap` bytes. -/
def Full (cap : Nat) (files : LogFiles) : Prop :=
  ∃ inode, files.current = some inode ∧ cap ≤ (files.bytes inode).length

instance (cap : Nat) (files : LogFiles) : Decidable (files.Full cap) :=
  decidable_of_iff (files.current.any fun inode => cap ≤ (files.bytes inode).length) (by
    cases h : files.current <;> simp [Full, h])

lemma Full.append {cap} {files : LogFiles} (h : files.Full cap) (line : Bytes) :
    (files.append line).Full cap := by
  obtain ⟨inode, hcurrent, hle⟩ := h
  refine ⟨inode, ?_, ?_⟩
  · simp only [LogFiles.append, hcurrent, write]
  · simp only [LogFiles.append, hcurrent, write, update_self, length_append]
    omega

end LogFiles

/-! ## One append -/

/-- `ROTATE_LOCK_STALE`, in nanoseconds. -/
def rotateLockStale : Nat := 60 * 1000000000

structure LockFile where
  id : Nat
  modified : Nat

def lockIsStale (now modified : Nat) : Bool := modified ≤ now && rotateLockStale ≤ now - modified

/-- The step of `append_rotating_jsonl` that a process takes next; `lock` is the lock file it holds.
`release` drops the lock, and the append follows unless the rotation failed. -/
inductive Phase where
  | idle
  | stat
  | create
  | statLock
  | removeStale
  | createAgain
  | statAgain (lock : Nat)
  | removeRotated (lock : Nat)
  | rename (lock : Nat)
  | release (lock : Nat) (rotated : Bool)
  | append
  | dead
  deriving DecidableEq

/-- The lock file that a process at a step holds. -/
def Phase.holds : Phase → Option Nat
  | .statAgain lock | .removeRotated lock | .rename lock | .release lock _ => some lock
  | _ => none

/-- The processes `P` that append to one log, its files and its lock file. -/
structure Rotating (P : Type*) where
  now : Nat
  files : LogFiles
  lock : Option LockFile
  locksMade : Nat
  phase : P → Phase

namespace Rotating
variable {P : Type*} [DecidableEq P]

def goto (s : Rotating P) (p : P) (phase : Phase) : Rotating P :=
  { s with phase := Function.update s.phase p phase }

/-- `RotationLock::create`: the lock is held, or the file was there. -/
def createLock (s : Rotating P) (p : P) (taken : Phase) : Rotating P :=
  match s.lock with
  | some _ => s.goto p taken
  | none =>
    { s.goto p (.statAgain s.locksMade) with
      lock := some ⟨s.locksMade, s.now⟩
      locksMade := s.locksMade + 1 }

/-- The next step of the process `p`, which appends `line`. -/
def run (cap : Nat) (s : Rotating P) (p : P) (line : Bytes) : Rotating P :=
  match s.phase p with
  | .idle => s.goto p .stat
  | .stat => s.goto p (if s.files.Full cap then .create else .append)
  | .create => s.createLock p .statLock
  | .statLock =>
    match s.lock with
    | none => s.goto p .createAgain
    | some lock => s.goto p (if lockIsStale s.now lock.modified then .removeStale else .createAgain)
  | .removeStale => { s.goto p .createAgain with lock := none }
  | .createAgain => s.createLock p .append
  | .statAgain lock =>
    s.goto p (if s.files.Full cap then .removeRotated lock else .release lock true)
  | .removeRotated lock => { s.goto p (.rename lock) with files := s.files.removeRotated }
  | .rename lock =>
    match s.files.current with
    | some inode => { s.goto p (.release lock true) with files := s.files.rename inode }
    | none => s.goto p (.release lock false)
  | .release _ rotated => { s.goto p (if rotated then .append else .idle) with lock := none }
  | .append => { s.goto p .idle with files := s.files.append line }
  | .dead => s

/-- An error of the file system. A log whose size cannot be read counts as not full, and a lock file
that cannot be removed stays. Any other error ends the call, and a held lock is dropped first. -/
def fail (s : Rotating P) (p : P) : Rotating P :=
  match s.phase p with
  | .stat => s.goto p .append
  | .statAgain lock => s.goto p (.release lock true)
  | .removeRotated lock | .rename lock => s.goto p (.release lock false)
  | .release _ rotated => s.goto p (if rotated then .append else .idle)
  | .dead => s
  | _ => s.goto p .idle

/-- What happens next. -/
inductive Action (P : Type*) where
  | run (p : P) (line : Bytes)
  | fail (p : P)
  | die (p : P)
  | tick (elapsed : Nat)

/-- The system after an action. -/
def perform (cap : Nat) (s : Rotating P) : Action P → Rotating P
  | .run p line => s.run cap p line
  | .fail p => s.fail p
  | .die p => s.goto p .dead
  | .tick elapsed => { s with now := s.now + elapsed }

/-- No call has begun; a lock file may have been left behind. -/
def Start (s : Rotating P) : Prop :=
  s.phase = (fun _ => .idle) ∧ ∀ lock, s.lock = some lock → lock.id < s.locksMade

/-- No live process has kept the lock for longer than `ROTATE_LOCK_STALE`. -/
def Prompt (s : Rotating P) : Prop :=
  ∀ p lock, s.lock = some lock → (s.phase p).holds = some lock.id →
    s.now ≤ lock.modified + rotateLockStale

/-- A process that removes a lock file as stale removes one that no live process holds. -/
def Rightful (s : Rotating P) (action : Action P) : Prop :=
  ∀ p line, action = .run p line → s.phase p = .removeStale →
    ∀ q lock, s.lock = some lock → (s.phase q).holds ≠ some lock.id

/-! ## Exclusion -/

/-- The lock file under the path is the one its only holder holds, and a process about to remove the
rotated generation has found the log full. -/
structure Guarded (cap : Nat) (s : Rotating P) : Prop where
  held : ∀ p id, (s.phase p).holds = some id → ∃ lock, s.lock = some lock ∧ lock.id = id
  alone : ∀ p q id, (s.phase p).holds = some id → (s.phase q).holds = some id → p = q
  fresh : ∀ lock, s.lock = some lock → lock.id < s.locksMade
  full : ∀ p id, s.phase p = .removeRotated id → s.files.Full cap

namespace Guarded
variable {cap : Nat} {s : Rotating P} {p q : P}

omit [DecidableEq P] in
lemma solo (h : Guarded cap s) {a b} (hp : (s.phase p).holds = some a)
    (hq : (s.phase q).holds = some b) : p = q := by
  obtain ⟨lock, hlock, rfl⟩ := h.held p a hp
  obtain ⟨lock', hlock', rfl⟩ := h.held q b hq
  obtain rfl : lock = lock' := Option.some.inj (hlock.symm.trans hlock')
  exact h.alone p q lock.id hp hq

/-- A process moves on with the lock it has, or without one. -/
lemma goto (h : Guarded cap s) {phase}
    (hholds : phase.holds = none ∨ phase.holds = (s.phase p).holds)
    (hfull : ∀ id, phase = .removeRotated id → s.files.Full cap) : Guarded cap (s.goto p phase) := by
  have old : ∀ q id, ((s.goto p phase).phase q).holds = some id → (s.phase q).holds = some id := by
    intro q id hq
    by_cases hqp : q = p
    · subst hqp
      simp only [Rotating.goto, update_self] at hq
      rcases hholds with hnone | hsame
      · rw [hnone] at hq
        cases hq
      · rw [← hsame, hq]
    · simpa [Rotating.goto, update_of_ne hqp] using hq
  refine ⟨fun q id hq => h.held q id (old q id hq),
    fun q r id hq hr => h.alone q r id (old q id hq) (old r id hr), h.fresh, fun q id hq => ?_⟩
  by_cases hqp : q = p
  · subst hqp
    simp only [Rotating.goto, update_self] at hq
    exact hfull id hq
  · simp only [Rotating.goto, update_of_ne hqp] at hq
    exact h.full q id hq

omit [DecidableEq P] in
lemma unlock (h : Guarded cap s) (hnone : ∀ q, (s.phase q).holds = none) :
    Guarded cap { s with lock := none } where
  held q id hq := by
    rw [hnone q] at hq
    cases hq
  alone := h.alone
  fresh _ hlock := nomatch hlock
  full := h.full

omit [DecidableEq P] in
lemma refile (h : Guarded cap s) {files}
    (hfull : ∀ q id, s.phase q = .removeRotated id → s.files.Full cap → files.Full cap) :
    Guarded cap { s with files := files } where
  held := h.held
  alone := h.alone
  fresh := h.fresh
  full q id hq := hfull q id hq (h.full q id hq)

section
variable (h : Guarded cap s)
include h

/-- A lock file that was not there is taken. -/
lemma createLock {taken} (htaken : taken.holds = none) : Guarded cap (s.createLock p taken) := by
  have notFull : ∀ id, taken ≠ .removeRotated id := by
    rintro id rfl
    cases htaken
  unfold Rotating.createLock
  split
  · exact h.goto (.inl htaken) fun id hid => absurd hid (notFull id)
  rename_i hlock
  have none_holds : ∀ q, (s.phase q).holds = none := by
    intro q
    by_contra hsome
    obtain ⟨id, hid⟩ := ne_none_iff_exists'.mp hsome
    obtain ⟨lock, hlock', _⟩ := h.held q id hid
    rw [hlock] at hlock'
    cases hlock'
  have hphase : ∀ q id, ((Function.update s.phase p (.statAgain s.locksMade)) q).holds = some id →
      q = p ∧ id = s.locksMade := by
    intro q id hq
    by_cases hqp : q = p
    · subst hqp
      simp only [update_self, Phase.holds, Option.some.injEq] at hq
      exact ⟨rfl, hq.symm⟩
    · rw [update_of_ne hqp, none_holds q] at hq
      cases hq
  refine ⟨fun q id hq => ?_, fun q r id hq hr => ?_, fun lock hl => ?_, fun q id hq => ?_⟩
  · exact ⟨_, rfl, (hphase q id hq).2.symm⟩
  · rw [(hphase q id hq).1, (hphase r id hr).1]
  · cases hl
    exact Nat.lt_succ_self _
  · have hq : Function.update s.phase p (.statAgain s.locksMade) q = .removeRotated id := hq
    have := (hphase q id (by rw [hq]; rfl)).1
    subst this
    simp at hq

lemma none_after {id} (hp : (s.phase p).holds = some id) {phase : Phase}
    (hphase : phase.holds = none) (q : P) : ((s.goto p phase).phase q).holds = none := by
  by_cases hqp : q = p
  · subst hqp
    simpa [Rotating.goto] using hphase
  simp only [Rotating.goto, update_of_ne hqp]
  by_contra hsome
  obtain ⟨id', hid'⟩ := ne_none_iff_exists'.mp hsome
  exact hqp (h.solo hid' hp)

/-- One step of a process, which removes no lock file that a live process holds. -/
lemma run (line : Bytes) (hright : s.Rightful (.run p line)) : Guarded cap (s.run cap p line) := by
  unfold Rotating.run
  cases hphase : s.phase p with
  | idle => exact h.goto (.inl rfl) nofun
  | stat =>
    dsimp only
    split <;> exact h.goto (.inl rfl) nofun
  | create | createAgain => exact h.createLock rfl
  | statLock =>
    dsimp only
    split
    · exact h.goto (.inl rfl) nofun
    · split <;> exact h.goto (.inl rfl) nofun
  | removeStale =>
    have moved : Guarded cap (s.goto p .createAgain) := h.goto (.inl rfl) nofun
    refine moved.unlock fun q => ?_
    by_cases hqp : q = p
    · subst hqp
      simp [Rotating.goto, Phase.holds]
    simp only [Rotating.goto, update_of_ne hqp]
    by_contra hsome
    obtain ⟨id, hid⟩ := ne_none_iff_exists'.mp hsome
    obtain ⟨lock, hlock, rfl⟩ := h.held q id hid
    exact hright p line rfl hphase q lock hlock hid
  | statAgain lock =>
    dsimp only
    split
    · next hfull => exact h.goto (.inr (by rw [hphase]; rfl)) fun _ _ => hfull
    · exact h.goto (.inr (by rw [hphase]; rfl)) nofun
  | removeRotated lock =>
    have hfull := h.full p lock hphase
    have moved : Guarded cap (s.goto p (.rename lock)) :=
      h.goto (.inr (by rw [hphase]; rfl)) nofun
    exact moved.refile fun _ _ _ _ => hfull
  | rename lock =>
    have hholds : (s.phase p).holds = some lock := by rw [hphase]; rfl
    dsimp only
    split
    · have moved : Guarded cap (s.goto p (.release lock true)) :=
        h.goto (.inr (by rw [hphase]; rfl)) nofun
      refine moved.refile fun q id hq _ => ?_
      -- another process about to remove the rotated generation would hold the lock too
      have hqp : q ≠ p := by
        rintro rfl
        simp [Rotating.goto] at hq
      simp only [Rotating.goto, update_of_ne hqp] at hq
      exact absurd (h.solo (by rw [hq]; rfl) hholds) hqp
    · exact h.goto (.inr (by rw [hphase]; rfl)) nofun
  | release lock rotated =>
    have hholds : (s.phase p).holds = some lock := by rw [hphase]; rfl
    have hnext : (if rotated then Phase.append else .idle).holds = none := by
      cases rotated <;> rfl
    have moved : Guarded cap (s.goto p (if rotated then .append else .idle)) := by
      refine h.goto (.inl hnext) fun id hid => ?_
      rw [hid] at hnext
      cases hnext
    exact moved.unlock (h.none_after hholds hnext)
  | append =>
    have moved : Guarded cap (s.goto p .idle) := h.goto (.inl rfl) nofun
    exact moved.refile fun _ _ _ hfull => hfull.append line
  | dead => exact h

lemma fail (p : P) : Guarded cap (s.fail p) := by
  unfold Rotating.fail
  cases hphase : s.phase p with
  | statAgain lock | removeRotated lock | rename lock =>
    exact h.goto (.inr (by rw [hphase]; rfl)) nofun
  | release _ rotated => cases rotated <;> exact h.goto (.inl rfl) nofun
  | dead => exact h
  | _ => exact h.goto (.inl rfl) nofun

lemma perform {action} (hright : s.Rightful action) : Guarded cap (s.perform cap action) := by
  cases action with
  | run p line => exact h.run line hright
  | fail p => exact h.fail p
  | die p => exact h.goto (.inl rfl) nofun
  | tick elapsed => exact ⟨h.held, h.alone, h.fresh, h.full⟩

end

omit [DecidableEq P] in
lemma start (h : s.Start) : Guarded cap s := by
  obtain ⟨hidle, hfresh⟩ := h
  refine ⟨fun p id hp => ?_, fun p q id hp _ => ?_, hfresh, fun p id hp => ?_⟩
  all_goals
    rw [hidle] at hp
    cases hp

end Guarded

/-- In every run in which no lock file of a live process is removed as stale, a process about to
remove the rotated generation faces a log of at least `cap` bytes. -/
theorem rotated_removed_when_full (cap : Nat) (s : Rotating P)
    (h : Reachable Start (fun s action s' => s' = s.perform cap action ∧ s.Rightful action) s)
    (p : P) (lock : Nat) (hp : s.phase p = .removeRotated lock) : s.files.Full cap := by
  have guarded : Guarded cap s := by
    refine h.invariant (fun s hs => .start hs) fun s action s' _ hs hstep => ?_
    obtain ⟨rfl, hright⟩ := hstep
    exact hs.perform hright
  exact guarded.full p lock hp

/-! ## Runs of two processes -/

/-- The state after the processes have run one after the other, if each step is allowed. -/
def runWhile (ok : Rotating P → P → Bool) (cap : Nat) : Rotating P → List P → Option (Rotating P)
  | s, [] => some s
  | s, p :: ps => if ok s p then runWhile ok cap (s.run cap p []) ps else none

lemma reachable_of_runWhile {ok cap ps} (allowed : Rotating P → Action P → Rotating P → Prop)
    {s t : Rotating P} (hok : ∀ s p, ok s p = true → allowed s (.run p []) (s.run cap p []))
    (h : Reachable Start (fun s action s' => s' = s.perform cap action ∧ allowed s action s') s)
    (ht : runWhile ok cap s ps = some t) :
    Reachable Start (fun s action s' => s' = s.perform cap action ∧ allowed s action s') t := by
  induction ps generalizing s with
  | nil =>
    cases ht
    exact h
  | cons p ps ih =>
    simp only [runWhile] at ht
    split at ht
    case isTrue hstep =>
      apply ih _ ht
      exact h.next (a := Action.run p []) ⟨rfl, hok s p hstep⟩
    case isFalse => cases ht

/-- Two processes face a full log and the lock file of a dead holder. -/
def leftLocked : Rotating (Fin 2) :=
  ⟨rotateLockStale, ⟨fun _ => [1, 2], some 0, some 1, 2⟩, some ⟨0, 0⟩, 1, fun _ => .idle⟩

lemma start_leftLocked : leftLocked.Start :=
  ⟨rfl, fun lock hlock => by cases hlock; decide⟩

/-- The first process removes the stale lock and takes its own; the second one finds that lock young
and appends without rotating. -/
theorem rotated_removed_when_full_after_stale_lock :
    ∃ s : Rotating (Fin 2), s.phase 0 = .removeRotated 1 ∧ s.phase 1 = .append ∧ s.files.Full 2 := by
  let ok (s : Rotating (Fin 2)) (p : Fin 2) : Bool :=
    s.phase p ≠ .removeStale || s.lock.all fun lock => ∀ q, (s.phase q).holds ≠ some lock.id
  have rightful : ∀ s p, ok s p = true → s.Rightful (.run p []) := by
    intro s p hok q line haction hphase r lock hlock
    cases haction
    simp only [ok, hphase, hlock, ne_eq, not_true_eq_false, decide_false, Bool.false_or, all_some,
      decide_eq_true_eq] at hok
    exact hok r
  have hrun : (runWhile ok 2 leftLocked [0, 0, 0, 0, 0, 0, 1, 1, 1, 1, 1, 0]).any fun t =>
      t.phase 0 = .removeRotated 1 ∧ t.phase 1 = .append := by
    decide
  obtain ⟨t, ht, hlast⟩ := (any_eq_true _ _).mp hrun
  obtain ⟨hremoves, happends⟩ := of_decide_eq_true hlast
  have reached := reachable_of_runWhile (fun s action _ => s.Rightful action) rightful
    (.start start_leftLocked) ht
  exact ⟨t, hremoves, happends, rotated_removed_when_full 2 t reached 0 1 hremoves⟩

instance [Fintype P] (s : Rotating P) : Decidable s.Prompt :=
  decidable_of_iff (∀ p, s.lock.all fun lock =>
      decide ((s.phase p).holds = some lock.id → s.now ≤ lock.modified + rotateLockStale)) <|
    forall_congr' fun _ => by cases s.lock <;> simp [← imp_iff_not_or]

/-- Both processes find the lock of a dead holder stale. The first removes it, takes the lock and
finds the log full; the second removes the lock of the first, takes another and finds the log full
as well. The first rotates, and the second is about to remove what the first has just put there. -/
theorem stolen_lock_drops_newest_generation :
    ∃ s : Rotating (Fin 2),
      Reachable Start (fun s action s' => s' = s.perform 2 action ∧ s'.Prompt) s ∧
      s.phase 1 = .removeRotated 2 ∧ ¬ s.files.Full 2 ∧ s.files.rotated = some 1 := by
  have hrun : (runWhile (fun s p => (s.run 2 p []).Prompt) 2 leftLocked
      [0, 0, 0, 0, 1, 1, 1, 1, 0, 0, 0, 1, 1, 1, 0, 0]).any fun t =>
      t.phase 1 = .removeRotated 2 ∧ ¬ t.files.Full 2 ∧ t.files.rotated = some 1 := by
    decide
  obtain ⟨t, ht, hlast⟩ := (any_eq_true _ _).mp hrun
  exact ⟨t, reachable_of_runWhile (fun _ _ s' => s'.Prompt)
    (fun _ _ => of_decide_eq_true) (.start start_leftLocked) ht, of_decide_eq_true hlast⟩

end Rotating

end Rimz.Disk
