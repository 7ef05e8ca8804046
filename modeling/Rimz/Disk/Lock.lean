import Rimz.Lib.Flock
import Rimz.Lib.Run

/-!
# Lock files that are collected

`disk/lock.rs` and `remove_if_free` of `disk/lease.rs`, over one lock path. A call opens the path,
locks the inode it got and then looks whether the path still names that inode; a collector unlinks
the path while it has the lock. Every call of any process has a number of its own and its own open
file description. Inode numbers in use are not given out again, so a new file has a new one.

A gate file is never removed, so its lock is a token. A call that returns early, whether with an
error, with a timeout or because its process dies, closes its description and leaves the gate.
-/

namespace Rimz.Disk
open Rimz.Lib

/-- What a call was made for: `WorkspaceLock` with or without an exact mode, `RoomLock::claim`,
`RoomLock::hold`, `SharedAppendLock`, `remove_if_free`. -/
inductive Role where
  | workspace
  | workspaceMode
  | claim
  | hold
  | append
  | collect
  deriving DecidableEq

/-- The lock a call asks for. -/
def Role.mode : Role → LockMode
  | hold | append => .shared
  | workspace | workspaceMode | claim | collect => .exclusive

/-- Where a call stands. `exists_` is behind a `create_new` that found the file, `gated` behind the
gate of a collector, `current` behind a look that found the path naming the locked inode. -/
inductive Pc where
  | idle
  | probed
  | gated
  | exists_
  | opened
  | locked
  | current
  | stale
  | unlocked
  | unlinked
  | done
  deriving DecidableEq

/-- The path, the file system's next inode number, the open descriptions, the gate and the calls. -/
structure World where
  named : Option Nat
  nextInode : Nat
  files : Nat → Option Description
  gate : Option Nat
  pc : Nat → Pc

namespace World

def goto (w : World) (c : Nat) (pc : Pc) : World := { w with pc := Function.update w.pc c pc }

/-- `open` of an inode, in place of the description the call had. -/
def openFile (w : World) (c inode : Nat) : World :=
  { w with files := Function.update w.files c (some ⟨inode, none⟩) }

/-- A new file under the path. -/
def create (w : World) (c : Nat) : World :=
  { w.openFile c w.nextInode with named := some w.nextInode, nextInode := w.nextInode + 1 }

/-- The call is over: its description is closed and its gate left. -/
def leave (w : World) (c : Nat) : World :=
  { w.goto c .done with
    files := Function.update w.files c none
    gate := if w.gate = some c then none else w.gate }

/-- Calls not yet made, over any file system. -/
def Fresh (w : World) : Prop := w.files = (fun _ => none) ∧ w.gate = none ∧ w.pc = fun _ => .idle

end World

/-- The points at which `open_lock_file` or `open_lock_inode` is called. A collector opens the path
first with `open_existing`. -/
def Role.opensAt : Role → Pc → Prop
  | collect, pc => pc = .unlocked
  | _, pc => pc = .idle ∨ pc = .unlocked

/-- One step of the call `c`. -/
inductive Step (role : Nat → Role) : World → Nat → World → Prop where
  /-- `create(true)` on a path that names a file. -/
  | openNamed {w c inode} (h : (role c).opensAt (w.pc c)) (plain : role c ≠ .workspaceMode)
      (named : w.named = some inode) : Step role w c ((w.openFile c inode).goto c .opened)
  /-- `create(true)` or `create_new(true)` on a path that names none. -/
  | create {w c} (h : (role c).opensAt (w.pc c)) (named : w.named = none) :
      Step role w c ((w.create c).goto c .opened)
  /-- `create_new(true)` on a path that names a file. -/
  | createExists {w c inode} (h : (role c).opensAt (w.pc c)) (exact_ : role c = .workspaceMode)
      (named : w.named = some inode) : Step role w c (w.goto c .exists_)
  /-- `try_exists` of a collector. -/
  | probe {w c inode} (h : w.pc c = .idle) (collects : role c = .collect)
      (named : w.named = some inode) : Step role w c (w.goto c .probed)
  | enterGate {w c} (h : w.pc c = .probed) (free : w.gate = none) :
      Step role w c { w.goto c .gated with gate := some c }
  /-- `open` without a create flag. -/
  | openExisting {w c inode} (h : w.pc c = .gated ∨ w.pc c = .exists_)
      (named : w.named = some inode) : Step role w c ((w.openFile c inode).goto c .opened)
  | lock {w c inode} (h : w.pc c = .opened) (file : w.files c = some ⟨inode, none⟩)
      (granted : Grants w.files c inode (role c).mode) :
      Step role w c ({ w with
        files := Function.update w.files c (some ⟨inode, some (role c).mode⟩) }.goto c .locked)
  /-- The path names the locked inode. -/
  | current {w c d} (h : w.pc c = .locked) (file : w.files c = some d)
      (named : w.named = some d.inode) : Step role w c (w.goto c .current)
  /-- The path names another inode, or none. -/
  | stale {w c d} (h : w.pc c = .locked) (file : w.files c = some d)
      (named : w.named ≠ some d.inode) : Step role w c (w.goto c .stale)
  | unlock {w c inode mode} (h : w.pc c = .stale) (file : w.files c = some ⟨inode, mode⟩) :
      Step role w c ({ w with
        files := Function.update w.files c (some ⟨inode, none⟩) }.goto c .unlocked)
  /-- `remove_file` of a collector that has the lock. -/
  | unlink {w c} (h : w.pc c = .current) (collects : role c = .collect) :
      Step role w c ({ w with named := none }.goto c .unlinked)
  /-- A guard is dropped, the call returns without a lock, or its process dies. -/
  | leave {w c} (h : w.pc c ≠ .done) : Step role w c (w.leave c)

/-- The call has come back with the lock and has not released it. -/
def Acquired (role : Nat → Role) (w : World) (c : Nat) : Prop :=
  role c ≠ .collect ∧ w.pc c = .current

/-! ### Exclusion -/

/-- The locks on inodes exclude each other, and a call behind its look has its lock on the inode
that the path names. -/
structure Inv (role : Nat → Role) (w : World) : Prop where
  exclusion : Exclusion w.files
  locked : ∀ c, w.pc c = .locked → ∃ inode, w.files c = some ⟨inode, some (role c).mode⟩
  current : ∀ c, w.pc c = .current →
    ∃ inode, w.files c = some ⟨inode, some (role c).mode⟩ ∧ w.named = some inode

namespace Inv
variable {role : Nat → Role} {w : World} {c : Nat}

section
variable (h : Inv role w)
include h

lemma goto {pc} (hl : pc ≠ .locked) (hc : pc ≠ .current) : Inv role (w.goto c pc) where
  exclusion := h.exclusion
  locked d hd := by
    simp only [World.goto, update_apply] at hd
    split at hd
    · exact absurd hd hl
    · exact h.locked d hd
  current d hd := by
    simp only [World.goto, update_apply] at hd
    split at hd
    · exact absurd hd hc
    · exact h.current d hd

lemma reopen {d pc} (unlocked : ∀ x ∈ d, x.lock = none) (hl : pc ≠ .locked) (hc : pc ≠ .current) :
    Inv role ({ w with files := Function.update w.files c d }.goto c pc) where
  exclusion := h.exclusion.update_unlocked unlocked
  locked e he := by
    simp only [World.goto, update_apply] at he ⊢
    split at he
    · exact absurd he hl
    · next ne => simpa [ne] using h.locked e he
  current e he := by
    simp only [World.goto, update_apply] at he ⊢
    split at he
    · exact absurd he hc
    · next ne => simpa [ne] using h.current e he

lemma rename (idle : ∀ c, w.pc c ≠ .current) (named : Option Nat) (next : Nat) :
    Inv role { w with named, nextInode := next } where
  exclusion := h.exclusion
  locked := h.locked
  current c hc := absurd hc (idle c)

lemma none_current (unnamed : w.named = none) : w.pc c ≠ .current := by
  intro hc
  obtain ⟨inode, -, named⟩ := h.current c hc
  cases unnamed.symm.trans named

lemma alone (hc : w.pc c = .current) (exclusive : (role c).mode = .exclusive) {d}
    (hd : w.pc d = .current) : d = c := by
  by_contra ne
  obtain ⟨inode, file, named⟩ := h.current c hc
  obtain ⟨inode', file', named'⟩ := h.current d hd
  obtain rfl : inode' = inode := Option.some.inj (named'.symm.trans named)
  have := h.exclusion d c inode' inode' _ _ ne file' file rfl
  rw [exclusive] at this
  cases hm : (role d).mode <;> simp [hm, LockMode.conflicts] at this

/-- No step breaks the exclusion. -/
lemma next {w'} (step : Step role w c w') : Inv role w' := by
  cases step with
  | openNamed _ _ _ | openExisting _ _ | unlock _ _ =>
    exact h.reopen (by simp) (by decide) (by decide)
  | create _ unnamed =>
    have idle : ∀ d, w.pc d ≠ .current := fun d => h.none_current unnamed
    have created := h.rename idle (some w.nextInode) (w.nextInode + 1)
    exact created.reopen (by simp) (by decide) (by decide)
  | createExists _ _ _ | probe _ _ _ | stale _ _ _ => exact h.goto (by decide) (by decide)
  | enterGate _ _ =>
    have moved : Inv role (w.goto c .gated) := h.goto (by decide) (by decide)
    exact ⟨moved.exclusion, moved.locked, moved.current⟩
  | @lock inode hpc file granted =>
    refine ⟨h.exclusion.update_granted granted, ?_, ?_⟩
    · intro d hd
      simp only [World.goto, update_apply] at hd ⊢
      split at hd
      · next e => exact ⟨inode, by simp [e]⟩
      · next ne => simpa [ne] using h.locked d hd
    · intro d hd
      simp only [World.goto, update_apply] at hd ⊢
      split at hd
      · cases hd
      · next ne => simpa [ne] using h.current d hd
  | @current d hpc file named =>
    refine ⟨h.exclusion, ?_, ?_⟩
    · intro e he
      simp only [World.goto, update_apply] at he
      split at he
      · cases he
      · exact h.locked e he
    · intro e he
      simp only [World.goto, update_apply] at he
      split at he
      · next eq =>
        subst eq
        obtain ⟨inode, held⟩ := h.locked e hpc
        obtain rfl : d = ⟨inode, some (role e).mode⟩ := Option.some.inj (file.symm.trans held)
        exact ⟨inode, held, named⟩
      · exact h.current e he
  | unlink hpc collects =>
    -- The collector is the only call behind its look, so nobody relies on the name it removes.
    have moved : Inv role (w.goto c .unlinked) := h.goto (by decide) (by decide)
    refine moved.rename ?_ none w.nextInode
    intro d hd
    simp only [World.goto, update_apply] at hd
    split at hd
    · cases hd
    · next ne =>
      exact ne (h.alone hpc (by rw [collects]; rfl) hd)
  | leave _ =>
    have left : Inv role ({ w with files := Function.update w.files c none }.goto c .done) :=
      h.reopen (by simp) (by decide) (by decide)
    exact ⟨left.exclusion, left.locked, left.current⟩

end

end Inv

/-- In every state of every run, two calls that have the lock and have not released it do not
conflict. -/
theorem acquisitions_exclude {role : Nat → Role} {w : World}
    (run : Reachable World.Fresh (Step role) w) {c d : Nat} (ne : c ≠ d) (hc : Acquired role w c)
    (hd : Acquired role w d) : (role c).mode.conflicts (role d).mode = false := by
  have inv : Inv role w := by
    refine run.invariant ?_ fun _ _ _ _ h st => h.next st
    rintro s ⟨files, -, pcs⟩
    refine ⟨?_, ?_, ?_⟩
    · intro i j a b m n _ hi
      simp [files] at hi
    all_goals
      intro c hc
      simp [pcs] at hc
  obtain ⟨inode, file, named⟩ := inv.current c hc.2
  obtain ⟨inode', file', named'⟩ := inv.current d hd.2
  exact inv.exclusion c d inode inode' _ _ ne file file' (Option.some.inj (named.symm.trans named'))

/-- Two supervisors hold a room together. -/
theorem holders_share_a_room :
    let role : Nat → Role := fun _ => .hold
    ∃ w, Reachable World.Fresh (Step role) w ∧ Acquired role w 0 ∧ Acquired role w 1
      ∧ (role 0).mode.conflicts (role 1).mode = false := by
  intro role
  have start : Reachable World.Fresh (Step role) ⟨none, 0, fun _ => none, none, fun _ => .idle⟩ :=
    .start ⟨rfl, rfl, rfl⟩
  have created := start.next (.create (c := 0) (.inl rfl) rfl)
  have locked := created.next (.lock (c := 0) rfl rfl (by
    intro j m ne held
    simp [World.goto, World.create, World.openFile, update_of_ne ne] at held))
  have looked := locked.next (.current (c := 0) rfl rfl rfl)
  have opened := looked.next (.openNamed (c := 1) (.inl rfl) (by decide) rfl)
  have locked := opened.next (.lock (c := 1) rfl rfl (by
    intro j m ne held
    by_cases e : j = 0
    · subst e
      cases held
      rfl
    · simp [World.goto, World.create, World.openFile, update_of_ne ne,
        update_of_ne e] at held))
  have looked := locked.next (.current (c := 1) rfl rfl rfl)
  exact ⟨_, looked, ⟨by decide, rfl⟩, ⟨by decide, rfl⟩,
    acquisitions_exclude (c := 0) (d := 1) looked (by decide) ⟨by decide, rfl⟩ ⟨by decide, rfl⟩⟩

end Rimz.Disk
