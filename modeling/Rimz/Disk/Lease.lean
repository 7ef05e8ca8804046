import Rimz.Lib.Bytes
import Rimz.Lib.Flock
import Rimz.Lib.Run

/-!
# Leases

`claim`, `probe` and `remove_if_free` of `disk/lease.rs` and the drop of a `Lease`, over the lease
paths of one directory. A lease is an exclusive lock on the file of its path, which lives as long as
its holder; the directory's gate covers only the attempt at the lock and the body's reading, writing
or unlinking.

Every call of any process is known by a name of its own and has its own open file description. The
gate file is never removed, so its lock is a token. Inode numbers in use are not given out again.
-/

namespace Rimz.Disk.Lease
open Rimz.Lib

/-- The public functions. The body writer of a claim makes its writes one after the other. -/
inductive Op (L : Type*) where
  | claim (path : L) (writes : List Bytes)
  | probe (path : L)
  | removeIfFree (path : L)

def Op.path {L : Type*} : Op L → L
  | claim path _ | probe path | removeIfFree path => path

def Op.claims {L : Type*} : Op L → Bool
  | claim .. => true
  | probe _ | removeIfFree _ => false

def Op.body {L : Type*} : Op L → Bytes
  | claim _ writes => writes.flatten
  | probe _ | removeIfFree _ => []

/-- What a call came back with, a claimed lease apart. -/
inductive Outcome where
  | held (body : Bytes)
  | free
  | removed (bytes : Nat)
  | kept
  | failed
  | dropped
  deriving DecidableEq

/-- What `probe` and `remove_if_free` say of a path that names no file. -/
def Op.missing {L : Type*} : Op L → Outcome
  | claim .. | probe _ => .free
  | removeIfFree _ => .kept

/-- Where a call stands. The result of a call in `returning` is made and its file is still open; in
`closed` the file is closed and the gate still held. A lease is `built` while its call still holds
the gate and `acquired` once the call has returned. -/
inductive Pc where
  | idle
  | probed
  | gated
  | opened
  | locked
  | stale
  | unlocked
  | current
  | writing (left : List Bytes)
  | measured (bytes : Nat)
  | reading (body : Bytes)
  | built
  | returning (outcome : Outcome)
  | closed (outcome : Outcome)
  | acquired
  | done (outcome : Outcome)
  deriving DecidableEq

/-- From the acquisition of the gate to its release. -/
def Pc.inGate : Pc → Bool
  | idle | probed | acquired | done _ => false
  | _ => true

/-- A `Lease` exists. -/
def Pc.live : Pc → Bool
  | built | acquired => true
  | _ => false

/-- The body with which a call comes back `Held`. -/
def Pc.tells : Pc → Option Bytes
  | returning (.held body) | closed (.held body) | done (.held body) => some body
  | _ => none

/-- An error in these places ends the call early. -/
def Pc.mayFail : Pc → Bool
  | gated | opened | locked | stale | unlocked | current | writing _ | measured _ | reading _ => true
  | _ => false

/-- The lease paths, the files, the open descriptions, the gate and the calls. -/
structure World (L C : Type*) where
  named : L → Option Nat
  nextInode : Nat
  content : Nat → Bytes
  files : C → Option Description
  gate : Option C
  pc : C → Pc

namespace World
variable {L C : Type*} [DecidableEq L] [DecidableEq C]

/-- The call moves on and has this description from now on. -/
def move (w : World L C) (c : C) (pc : Pc) (file : Option Description) : World L C :=
  { w with pc := Function.update w.pc c pc, files := Function.update w.files c file }

/-- A new and empty file under the path. -/
def create (w : World L C) (path : L) : World L C :=
  { w with
    named := Function.update w.named path (some w.nextInode)
    content := Function.update w.content w.nextInode []
    nextInode := w.nextInode + 1 }

def write (w : World L C) (inode : Nat) (bytes : Bytes) : World L C :=
  { w with content := Function.update w.content inode bytes }

def unlink (w : World L C) (path : L) : World L C :=
  { w with named := Function.update w.named path none }

def leaveGate (w : World L C) (c : C) : World L C :=
  { w with gate := if w.gate = some c then none else w.gate }

/-- The call has a lease that is not dropped. -/
def Live (w : World L C) (c : C) : Prop := (w.pc c).live

/-- No call has begun; each path that names a file names one of its own. -/
structure Fresh (w : World L C) : Prop where
  idle : w.pc = fun _ => .idle
  closed : w.files = fun _ => none
  gate : w.gate = none
  own : ∀ p q inode, w.named p = some inode → w.named q = some inode → p = q
  used : ∀ p inode, w.named p = some inode → inode < w.nextInode

end World

section Steps
variable {L C : Type*} [DecidableEq L] [DecidableEq C]

/-- One step of the call `c`. -/
inductive Step (op : C → Op L) : World L C → C → World L C → Prop where
  /-- `try_exists` of `probe` and `remove_if_free`. -/
  | exists_ {w c inode} (h : w.pc c = .idle) (looks : (op c).claims = false)
      (named : w.named (op c).path = some inode) : Step op w c (w.move c .probed (w.files c))
  | missing {w c} (h : w.pc c = .idle) (looks : (op c).claims = false)
      (named : w.named (op c).path = none) :
      Step op w c (w.move c (.done (op c).missing) (w.files c))
  | enterGate {w c} (h : w.pc c = if (op c).claims then .idle else .probed) (free : w.gate = none) :
      Step op w c { w.move c .gated (w.files c) with gate := some c }
  /-- The gate was not to be had in time. -/
  | timeout {w c} (h : w.pc c = .idle ∨ w.pc c = .probed) :
      Step op w c (w.move c (.done .failed) (w.files c))
  /-- `open`, also the one in the loop of `lock_current`. -/
  | openNamed {w c inode} (h : w.pc c = .gated ∨ w.pc c = .unlocked)
      (named : w.named (op c).path = some inode) :
      Step op w c (w.move c .opened (some ⟨inode, none⟩))
  | create {w c} (h : w.pc c = .gated ∧ (op c).claims = true ∨ w.pc c = .unlocked)
      (named : w.named (op c).path = none) :
      Step op w c ((w.create (op c).path).move c .opened (some ⟨w.nextInode, none⟩))
  | openMissing {w c} (h : w.pc c = .gated) (looks : (op c).claims = false)
      (named : w.named (op c).path = none) :
      Step op w c (w.move c (.returning (op c).missing) (w.files c))
  | lock {w c inode} (h : w.pc c = .opened) (file : w.files c = some ⟨inode, none⟩)
      (granted : Grants w.files c inode .exclusive) :
      Step op w c (w.move c .locked (some ⟨inode, some .exclusive⟩))
  /-- `WouldBlock`: a claim or a probe reads the body, a removal leaves the file alone. -/
  | blocked {w c d inode mode} (h : w.pc c = .opened) (file : w.files c = some ⟨inode, none⟩)
      (ne : d ≠ c) (taken : w.files d = some ⟨inode, some mode⟩) :
      Step op w c (w.move c (match op c with
        | .claim .. | .probe _ => .reading []
        | .removeIfFree _ => .returning .kept) (w.files c))
  /-- The path names the locked inode. -/
  | current {w c inode mode} (h : w.pc c = .locked) (file : w.files c = some ⟨inode, mode⟩)
      (named : w.named (op c).path = some inode) : Step op w c (w.move c .current (w.files c))
  /-- The path names another inode, or none. -/
  | stale {w c inode mode} (h : w.pc c = .locked) (file : w.files c = some ⟨inode, mode⟩)
      (named : w.named (op c).path ≠ some inode) : Step op w c (w.move c .stale (w.files c))
  | unlock {w c inode mode} (h : w.pc c = .stale) (file : w.files c = some ⟨inode, mode⟩) :
      Step op w c (w.move c .unlocked (some ⟨inode, none⟩))
  /-- `set_len(0)` of a claim. -/
  | truncate {w c path writes inode mode} (h : w.pc c = .current)
      (claims : op c = .claim path writes) (file : w.files c = some ⟨inode, mode⟩) :
      Step op w c ((w.write inode []).move c (.writing writes) (w.files c))
  | write {w c bytes left inode mode} (h : w.pc c = .writing (bytes :: left))
      (file : w.files c = some ⟨inode, mode⟩) :
      Step op w c ((w.write inode (w.content inode ++ bytes)).move c (.writing left) (w.files c))
  /-- A write that fails has written some of its bytes. -/
  | tear {w c bytes left inode mode} (n : Nat) (h : w.pc c = .writing (bytes :: left))
      (file : w.files c = some ⟨inode, mode⟩) :
      Step op w c ((w.write inode (w.content inode ++ bytes.take n)).move c (.returning .failed)
        (w.files c))
  | build {w c} (h : w.pc c = .writing []) : Step op w c (w.move c .built (w.files c))
  /-- The claim returns its lease. -/
  | acquire {w c} (h : w.pc c = .built) : Step op w c ((w.leaveGate c).move c .acquired (w.files c))
  | drop {w c} (h : w.pc c = .acquired) : Step op w c (w.move c (.done .dropped) none)
  /-- A probe got the lock and releases it. -/
  | release {w c path inode mode} (h : w.pc c = .current) (probes : op c = .probe path)
      (file : w.files c = some ⟨inode, mode⟩) :
      Step op w c (w.move c (.returning .free) (some ⟨inode, none⟩))
  | measure {w c path inode mode} (h : w.pc c = .current) (removes : op c = .removeIfFree path)
      (file : w.files c = some ⟨inode, mode⟩) :
      Step op w c (w.move c (.measured (w.content inode).length) (w.files c))
  | unlink {w c bytes inode} (h : w.pc c = .measured bytes)
      (named : w.named (op c).path = some inode) :
      Step op w c ((w.unlink (op c).path).move c (.returning (.removed bytes)) (w.files c))
  | unlinkMissing {w c bytes} (h : w.pc c = .measured bytes) (named : w.named (op c).path = none) :
      Step op w c (w.move c (.returning .kept) (w.files c))
  /-- One `read` of `read_to_end`. -/
  | read {w c body inode mode} (n : Nat) (h : w.pc c = .reading body)
      (file : w.files c = some ⟨inode, mode⟩) (more : body.length < (w.content inode).length) :
      Step op w c (w.move c (.reading (body ++ ((w.content inode).drop body.length).take (n + 1)))
        (w.files c))
  | readEnd {w c body inode mode} (h : w.pc c = .reading body)
      (file : w.files c = some ⟨inode, mode⟩) (ended : (w.content inode).length ≤ body.length) :
      Step op w c (w.move c (.returning (.held body)) (w.files c))
  | fail {w c} (h : (w.pc c).mayFail) : Step op w c (w.move c (.returning .failed) (w.files c))
  /-- The file is dropped before the gate. -/
  | close {w c outcome} (h : w.pc c = .returning outcome) : Step op w c (w.move c (.closed outcome) none)
  | leaveGate {w c outcome} (h : w.pc c = .closed outcome) :
      Step op w c ((w.leaveGate c).move c (.done outcome) (w.files c))
  /-- The process of the call dies. -/
  | die {w c} (h : ∀ outcome, w.pc c ≠ .done outcome) :
      Step op w c ((w.leaveGate c).move c (.done .failed) none)

/-! ## What the gate protects -/

/-- What the files say about a call in each place. No call ever finds its file replaced. -/
def Backed (named : L → Option Nat) (content : Nat → Bytes) (op : Op L)
    (file : Option Description) : Pc → Prop
  | .idle | .probed | .gated | .closed _ | .done _ => file = none
  | .opened | .reading _ => ∃ inode, file = some ⟨inode, none⟩ ∧ named op.path = some inode
  | .locked | .current | .measured _ =>
    ∃ inode, file = some ⟨inode, some .exclusive⟩ ∧ named op.path = some inode
  | .writing left => ∃ inode, file = some ⟨inode, some .exclusive⟩ ∧ named op.path = some inode ∧
      content inode ++ left.flatten = op.body
  | .built | .acquired => ∃ inode, file = some ⟨inode, some .exclusive⟩ ∧
      named op.path = some inode ∧ content inode = op.body
  | .stale | .unlocked => False
  | .returning _ => True

structure Inv (op : C → Op L) (w : World L C) : Prop where
  exclusion : Exclusion w.files
  gate : ∀ c, (w.pc c).inGate → w.gate = some c
  own : ∀ p q inode, w.named p = some inode → w.named q = some inode → p = q
  used : ∀ p inode, w.named p = some inode → inode < w.nextInode
  backed : ∀ c, Backed w.named w.content (op c) (w.files c) (w.pc c)

namespace Inv
variable {L C : Type*} {op : C → Op L} {w : World L C} {c d : C}

lemma outside (h : Inv op w) (hc : (w.pc c).inGate) (ne : d ≠ c) : (w.pc d).inGate = false := by
  by_contra hd
  have hd := h.gate d (by simpa using hd)
  exact ne (Option.some.inj (hd.symm.trans (h.gate c hc)))

lemma locked_outside (h : Inv op w) (hd : (w.pc d).inGate = false) {inode mode}
    (file : w.files d = some ⟨inode, some mode⟩) :
    w.pc d = .acquired ∧ w.named (op d).path = some inode ∧ w.content inode = (op d).body := by
  have backed := h.backed d
  cases hpc : w.pc d with
  | acquired =>
    rw [hpc] at backed
    obtain ⟨inode', file', named, content⟩ := backed
    obtain rfl : inode = inode' := by
      rw [file] at file'
      cases file'
      rfl
    exact ⟨rfl, named, content⟩
  | idle | probed | done _ =>
    rw [hpc, file] at backed
    cases backed
  | _ =>
    rw [hpc] at hd
    cases hd

lemma apart (h : Inv op w) (ne : d ≠ c) {a b} (hc : w.files c = some ⟨a, some .exclusive⟩)
    (hd : w.files d = some ⟨b, some .exclusive⟩) : b ≠ a := by
  intro e
  have := h.exclusion d c b a _ _ ne hd hc e
  cases this

lemma fresh (h : w.Fresh) : Inv op w where
  exclusion := by
    intro i j a b m n _ hi
    simp [h.closed] at hi
  gate c hc := by
    rw [h.idle] at hc
    cases hc
  own := h.own
  used := h.used
  backed c := by
    rw [h.idle, h.closed]
    rfl

lemma blocked (h : Inv op w) (hc : w.pc c = .opened) {inode mode}
    (file : w.files c = some ⟨inode, none⟩)
    (ne : d ≠ c) (taken : w.files d = some ⟨inode, some mode⟩) :
    w.Live d ∧ (op d).path = (op c).path ∧ w.content inode = (op d).body := by
  have out : (w.pc d).inGate = false := h.outside (by rw [hc]; rfl) ne
  obtain ⟨hd, named, content⟩ := h.locked_outside out taken
  have backed := h.backed c
  rw [hc] at backed
  obtain ⟨inode', file', named'⟩ := backed
  cases file.symm.trans file'
  refine ⟨?_, h.own _ _ inode named named', content⟩
  show (w.pc d).live = true
  rw [hd]
  rfl

lemma live (h : Inv op w) (hc : w.Live c) :
    ∃ inode, w.files c = some ⟨inode, some .exclusive⟩ ∧ w.named (op c).path = some inode := by
  have backed := h.backed c
  have hc : (w.pc c).live = true := hc
  cases hpc : w.pc c with
  | built | acquired =>
    rw [hpc] at backed
    obtain ⟨inode, file, named, -⟩ := backed
    exact ⟨inode, file, named⟩
  | _ =>
    rw [hpc] at hc
    cases hc

lemma alone (h : Inv op w) {inode} (file : w.files c = some ⟨inode, some .exclusive⟩)
    (named : w.named (op c).path = some inode) (hd : w.Live d) (path : (op d).path = (op c).path) :
    d = c := by
  obtain ⟨inode', file', named'⟩ := h.live hd
  rw [path, named] at named'
  by_contra ne
  exact h.apart ne file file' (Option.some.inj named').symm

variable [DecidableEq C]

section

variable (h : Inv op w)
include h

lemma move {pc file} (exclusion : Exclusion (Function.update w.files c file))
    (gate : pc.inGate → w.gate = some c) (backed : Backed w.named w.content (op c) file pc) :
    Inv op (w.move c pc file) where
  exclusion := exclusion
  gate := (forall_update_iff w.pc fun d (pc : Pc) => pc.inGate → w.gate = some d).mpr
    ⟨gate, fun d _ => h.gate d⟩
  own := h.own
  used := h.used
  backed d := by
    by_cases e : d = c
    · subst e
      simpa [World.move] using backed
    · simpa [World.move, update_of_ne e] using h.backed d

lemma goto {pc} (gate : pc.inGate → w.gate = some c)
    (backed : Backed w.named w.content (op c) (w.files c) pc) :
    Inv op (w.move c pc (w.files c)) := by
  apply h.move _ gate backed
  rw [Function.update_eq_self]
  exact h.exclusion

/-- A call in the gate goes on with its file. -/
lemma stay {at_ pc} (hpc : w.pc c = at_)
    (backed : Backed w.named w.content (op c) (w.files c) at_ → Backed w.named w.content (op c) (w.files c) pc)
    (gated : at_.inGate = true := by rfl) : Inv op (w.move c pc (w.files c)) :=
  h.goto (fun _ => h.gate c (hpc ▸ gated)) (backed (hpc ▸ h.backed c))

lemma unlocked {pc file} (unlocked : ∀ x ∈ file, x.lock = none)
    (gate : pc.inGate → w.gate = some c) (backed : Backed w.named w.content (op c) file pc) :
    Inv op (w.move c pc file) :=
  h.move (h.exclusion.update_unlocked unlocked) gate backed

lemma enterGate (free : w.gate = none) (file : w.files c = none) :
    Inv op { w.move c .gated (w.files c) with gate := some c } where
  exclusion := by
    simp only [World.move, Function.update_eq_self]
    exact h.exclusion
  gate d hd := by
    by_cases e : d = c
    · rw [e]
    · simp only [World.move, update_of_ne e] at hd
      cases free.symm.trans (h.gate d hd)
  own := h.own
  used := h.used
  backed d := by
    by_cases e : d = c
    · subst e
      simpa [World.move, Backed] using file
    · simpa [World.move, update_of_ne e] using h.backed d

lemma leaveGate (out : (w.pc c).inGate = false) : Inv op (w.leaveGate c) where
  exclusion := h.exclusion
  gate d hd := by
    have held := h.gate d hd
    have ne : c ≠ d := by
      rintro rfl
      rw [show (w.pc c).inGate = true from hd] at out
      cases out
    simp [World.leaveGate, held, ne.symm]
  own := h.own
  used := h.used
  backed := h.backed

/-- A call in the gate changes the files, away from those of the leases. -/
lemma refile (hc : (w.pc c).inGate) {named content next pc file}
    (exclusion : Exclusion (Function.update w.files c file))
    (own : ∀ p q inode, named p = some inode → named q = some inode → p = q)
    (used : ∀ p inode, named p = some inode → inode < next)
    (kept : ∀ d inode, d ≠ c → w.files d = some ⟨inode, some .exclusive⟩ →
      w.named (op d).path = some inode →
      named (op d).path = some inode ∧ content inode = w.content inode)
    (backed : Backed named content (op c) file pc) :
    Inv op ({ w with named := named, content := content, nextInode := next }.move c pc file) where
  exclusion := exclusion
  gate := (forall_update_iff w.pc fun d (pc : Pc) => pc.inGate → w.gate = some d).mpr
    ⟨fun _ => h.gate c hc, fun d _ => h.gate d⟩
  own := own
  used := used
  backed d := by
    by_cases e : d = c
    · subst e
      simpa [World.move] using backed
    have out := h.outside hc e
    have backed := h.backed d
    show Backed named content (op d) (Function.update w.files c file d) (Function.update w.pc c pc d)
    rw [update_of_ne e, update_of_ne e]
    cases hpc : w.pc d with
    | acquired =>
      rw [hpc] at backed
      obtain ⟨inode, file, hn, hb⟩ := backed
      obtain ⟨hn', hb'⟩ := kept d inode e file hn
      exact ⟨inode, file, hn', hb'.trans hb⟩
    | idle | probed | done _ =>
      rw [hpc] at backed
      exact backed
    | _ =>
      rw [hpc] at out
      cases out

lemma write (hc : (w.pc c).inGate) {inode} (file : w.files c = some ⟨inode, some .exclusive⟩)
    {bytes pc} (backed : Backed w.named (Function.update w.content inode bytes) (op c) (w.files c) pc) :
    Inv op ((w.write inode bytes).move c pc (w.files c)) :=
  h.refile hc ((Function.update_eq_self c w.files).symm ▸ h.exclusion) h.own h.used
    (fun _ _ ne hd hn => ⟨hn, update_of_ne (h.apart ne file hd) _ _⟩) backed

end

variable [DecidableEq L]

lemma create (h : Inv op w) (hc : (w.pc c).inGate) (unnamed : w.named (op c).path = none) :
    Inv op ((w.create (op c).path).move c .opened (some ⟨w.nextInode, none⟩)) := by
  have fresh : ∀ p, w.named p ≠ some w.nextInode := fun p hp => Nat.lt_irrefl _ (h.used p _ hp)
  refine h.refile hc (h.exclusion.update_unlocked (by simp)) ?_ ?_ ?_
    ⟨w.nextInode, rfl, update_self ..⟩
  · intro p q inode hp hq
    simp only [update_apply] at hp hq
    split at hp <;> split at hq
    · next hp' hq' => exact hp'.trans hq'.symm
    · cases hp
      exact absurd hq (fresh q)
    · cases hq
      exact absurd hp (fresh p)
    · exact h.own p q inode hp hq
  · intro p inode hp
    simp only [update_apply] at hp
    split at hp
    · cases hp
      exact Nat.lt_succ_self _
    · exact Nat.lt_succ_of_lt (h.used p inode hp)
  · intro d inode _ _ hn
    have ne : (op d).path ≠ (op c).path := by
      intro e
      rw [e, unnamed] at hn
      cases hn
    have ne' : inode ≠ w.nextInode := by
      rintro rfl
      exact fresh _ hn
    exact ⟨(update_of_ne ne _ _).trans hn, update_of_ne ne' _ _⟩

lemma unlink (h : Inv op w) (hc : (w.pc c).inGate) {inode}
    (file : w.files c = some ⟨inode, some .exclusive⟩)
    (named : w.named (op c).path = some inode) {outcome} :
    Inv op ((w.unlink (op c).path).move c (.returning outcome) (w.files c)) := by
  refine h.refile hc ((Function.update_eq_self c w.files).symm ▸ h.exclusion) ?_ ?_ ?_ trivial
  · intro p q inode hp hq
    simp only [update_apply] at hp hq
    split at hp <;> split at hq
    · next hp' hq' => exact hp'.trans hq'.symm
    · cases hp
    · cases hq
    · exact h.own p q inode hp hq
  · intro p inode hp
    simp only [update_apply] at hp
    split at hp
    · cases hp
    · exact h.used p inode hp
  · intro d inode' ne hd hn
    -- A lease on this path would have its lock on the file that the removal has locked.
    have path : (op d).path ≠ (op c).path := by
      intro e
      rw [e, named] at hn
      exact h.apart ne file hd (Option.some.inj hn).symm
    exact ⟨(update_of_ne path _ _).trans hn, rfl⟩

/-- No step breaks what the files say. -/
lemma next (h : Inv op w) {w'} (step : Step op w c w') : Inv op w' := by
  have backed := h.backed c
  have gate := h.gate c
  cases step with
  | exists_ hpc _ _ | missing hpc _ _ =>
    rw [hpc] at backed
    exact h.goto nofun backed
  | enterGate hpc free =>
    have file : w.files c = none := by
      rw [hpc] at backed
      split at backed <;> exact backed
    exact h.enterGate free file
  | timeout hpc =>
    have file : w.files c = none := by
      rcases hpc with hpc | hpc <;> rw [hpc] at backed <;> exact backed
    exact h.goto nofun file
  | @openNamed inode hpc named =>
    have hgate : w.gate = some c := by
      rcases hpc with hpc | hpc <;> exact gate (by rw [hpc]; rfl)
    exact h.unlocked (by simp) (fun _ => hgate) ⟨inode, rfl, named⟩
  | create hpc unnamed =>
    refine h.create ?_ unnamed
    rcases hpc with ⟨hpc, -⟩ | hpc <;> rw [hpc] <;> rfl
  | openMissing hpc _ _ | unlinkMissing hpc _ | readEnd hpc _ _ => exact h.stay hpc fun _ => trivial
  | @lock inode hpc file granted =>
    rw [hpc, file] at backed
    obtain ⟨inode', hfile, named⟩ := backed
    cases hfile
    exact h.move (h.exclusion.update_granted granted) (fun _ => gate (by rw [hpc]; rfl))
      ⟨inode, rfl, named⟩
  | blocked hpc _ _ _ =>
    cases op c with
    | claim _ _ | probe _ => exact h.stay hpc fun backed => backed
    | removeIfFree _ => exact h.stay hpc fun _ => trivial
  | current hpc _ _ | measure hpc _ _ | read n hpc _ _ => exact h.stay hpc fun backed => backed
  | stale hpc file named =>
    rw [hpc, file] at backed
    obtain ⟨inode', hfile, hnamed⟩ := backed
    cases hfile
    exact absurd hnamed named
  | unlock hpc _ =>
    rw [hpc] at backed
    exact backed.elim
  | @truncate path writes inode mode hpc claims file =>
    rw [hpc] at backed
    obtain ⟨inode', hfile, named⟩ := backed
    cases file.symm.trans hfile
    refine h.write (by rw [hpc]; rfl) hfile ⟨inode, hfile, named, ?_⟩
    simp [claims, Op.body]
  | @write bytes left inode mode hpc file =>
    rw [hpc] at backed
    obtain ⟨inode', hfile, named, content⟩ := backed
    cases file.symm.trans hfile
    refine h.write (by rw [hpc]; rfl) hfile ⟨inode, hfile, named, ?_⟩
    simpa using content
  | @tear bytes left inode mode n hpc file =>
    rw [hpc] at backed
    obtain ⟨inode', hfile, named, content⟩ := backed
    cases file.symm.trans hfile
    exact h.write (by rw [hpc]; rfl) hfile trivial
  | build hpc =>
    refine h.stay hpc ?_
    rintro ⟨inode, hfile, named, content⟩
    exact ⟨inode, hfile, named, by simpa using content⟩
  | acquire hpc =>
    rw [hpc] at backed
    have moved : Inv op (w.move c .acquired (w.files c)) := h.goto nofun backed
    exact moved.leaveGate (c := c) (by simp [World.move, Pc.inGate])
  | drop _ => exact h.unlocked nofun nofun rfl
  | @release path inode mode hpc probes file =>
    exact h.unlocked (by simp) (fun _ => gate (by rw [hpc]; rfl)) trivial
  | unlink hpc named =>
    rw [hpc] at backed
    obtain ⟨inode', hfile, named'⟩ := backed
    exact h.unlink (by rw [hpc]; rfl) hfile named'
  | fail hpc =>
    refine h.goto (fun _ => gate ?_) trivial
    revert hpc
    cases w.pc c <;> simp [Pc.mayFail, Pc.inGate]
  | close hpc => exact h.unlocked nofun (fun _ => gate (by rw [hpc]; rfl)) rfl
  | @leaveGate outcome hpc =>
    rw [hpc] at backed
    have moved : Inv op (w.move c (.done outcome) (w.files c)) := h.goto nofun backed
    exact moved.leaveGate (c := c) (by simp [World.move, Pc.inGate])
  | die _ =>
    have moved : Inv op (w.move c (.done .failed) none) := h.unlocked nofun nofun rfl
    exact moved.leaveGate (c := c) (by simp [World.move, Pc.inGate])

end Inv

/-! ## What a holder told -/

/-- The world, and for each call the world in which it made its last attempt at the lock. -/
structure Recorded (L C : Type*) where
  world : World L C
  attempt : C → Option (World L C)

/-- The step of a call whose file is open and not yet locked is its attempt. -/
def Recorded.Step (op : C → Op L) (r : Recorded L C) (c : C) (r' : Recorded L C) : Prop :=
  Lease.Step op r.world c r'.world ∧
    r'.attempt = if r.world.pc c = .opened then Function.update r.attempt c (some r.world) else r.attempt

def Recorded.Fresh (r : Recorded L C) : Prop := r.world.Fresh ∧ r.attempt = fun _ => none

/-- At the attempt of the call there was a live lease on its path, with this body. -/
def Shown (op : C → Op L) (r : Recorded L C) (c : C) (body : Bytes) : Prop :=
  ∃ w d, r.attempt c = some w ∧ w.Live d ∧ (op d).path = (op c).path ∧ body = (op d).body

/-- The body that a call reads, and the one it comes back with, is that of the lease it ran into. -/
structure Told (op : C → Op L) (r : Recorded L C) : Prop where
  reading : ∀ c body, r.world.pc c = .reading body → ∃ inode, r.world.files c = some ⟨inode, none⟩ ∧
    body <+: r.world.content inode ∧ Shown op r c (r.world.content inode)
  tells : ∀ c body, (r.world.pc c).tells = some body → Shown op r c body

section Frame
variable {op : C → Op L} {w w' : World L C} {c d : C}

lemma Step.other (step : Step op w c w') (ne : d ≠ c) :
    w'.pc d = w.pc d ∧ w'.files d = w.files d := by
  cases step <;> exact ⟨update_of_ne ne _ _, update_of_ne ne _ _⟩

lemma Step.content_outside (step : Step op w c w') (out : (w.pc c).inGate = false) :
    w'.content = w.content := by
  cases step with
  | create h _ => rcases h with ⟨h, -⟩ | h <;> simp [h, Pc.inGate] at out
  | truncate h _ _ | write h _ | tear _ h _ => simp [h, Pc.inGate] at out
  | _ => rfl

/-- How a call comes to have read what it has read. -/
lemma Step.reading_inv (step : Step op w c w') {body} (h : w'.pc c = .reading body) :
    w'.files c = w.files c ∧ w'.content = w.content ∧
      ((w.pc c = .opened ∧ body = [] ∧ ∃ d inode mode, w.files c = some ⟨inode, none⟩ ∧ d ≠ c ∧
          w.files d = some ⟨inode, some mode⟩) ∨
        ∃ old inode mode n, w.pc c = .reading old ∧ w.files c = some ⟨inode, mode⟩ ∧
          body = old ++ ((w.content inode).drop old.length).take (n + 1)) := by
  cases step with
  | @blocked d inode mode hpc file ne taken =>
    simp only [World.move, update_self] at h
    refine ⟨by simp [World.move], rfl, .inl ⟨hpc, ?_, d, inode, mode, file, ne, taken⟩⟩
    split at h
    · exact (Pc.reading.inj h).symm
    · exact (Pc.reading.inj h).symm
    · cases h
  | @read old inode mode n hpc file _ =>
    simp only [World.move, update_self] at h
    exact ⟨by simp [World.move], rfl, .inr ⟨old, inode, mode, n, hpc, file, (Pc.reading.inj h).symm⟩⟩
  | _ => simp [World.move] at h

/-- How a call comes to have a body to come back with. -/
lemma Step.tells_inv (step : Step op w c w') {body} (h : (w'.pc c).tells = some body) :
    (w.pc c).tells = some body ∨
      ∃ inode mode, w.pc c = .reading body ∧ w.files c = some ⟨inode, mode⟩ ∧
        (w.content inode).length ≤ body.length := by
  cases step with
  | @readEnd old inode mode hpc file ended =>
    simp only [World.move, update_self, Pc.tells, Option.some.injEq] at h
    subst h
    exact .inr ⟨inode, mode, hpc, file, ended⟩
  | @close outcome hpc =>
    left
    simp only [World.move, update_self] at h
    cases outcome <;> simp_all [Pc.tells]
  | @leaveGate outcome hpc =>
    left
    simp only [World.move, update_self] at h
    rw [hpc]
    cases outcome <;> simp_all [Pc.tells]
  | missing _ _ _
  | openMissing _ _ _ => cases hop : op c <;> simp [World.move, Pc.tells, Op.missing, hop] at h
  | blocked _ _ _ _ => cases hop : op c <;> simp [World.move, Pc.tells, hop] at h
  | _ => simp [World.move, Pc.tells] at h

end Frame

namespace Told
variable {op : C → Op L} {r r' : Recorded L C} {c : C}

omit [DecidableEq L] [DecidableEq C] in
lemma shown_congr {d body} (h : Shown op r d body) (e : r'.attempt d = r.attempt d) :
    Shown op r' d body := by
  obtain ⟨w, e', hw, rest⟩ := h
  exact ⟨w, e', e.trans hw, rest⟩

lemma next (h : Told op r) (inv : Inv op r.world) (step : r.Step op c r') : Told op r' := by
  obtain ⟨step, attempts⟩ := step
  have attempt_eq : ∀ d, ¬ (d = c ∧ r.world.pc c = .opened) → r'.attempt d = r.attempt d := by
    intro d hd
    rw [attempts]
    split
    · next opened =>
      exact update_of_ne (fun e => hd ⟨e, opened⟩) _ _
    · rfl
  refine ⟨fun d body hd => ?_, fun d body hd => ?_⟩
  · by_cases e : d = c
    · subst e
      obtain ⟨files, content, ⟨opened, rfl, e, inode, mode, file, ne, taken⟩ | old⟩ := step.reading_inv hd
      · -- The attempt has just failed.
        obtain ⟨live, path, holds⟩ := inv.blocked opened file ne taken
        refine ⟨inode, files.trans file, nil_prefix, r.world, e, ?_, live, path, ?_⟩
        · rw [attempts, if_pos opened, update_self]
        · rw [content, holds]
      obtain ⟨old, inode, mode, n, hpc, file, rfl⟩ := old
      obtain ⟨inode', file', pre, shown⟩ := h.reading d old hpc
      cases file.symm.trans file'
      rw [files, content]
      refine ⟨inode, file, ?_, shown_congr shown (attempt_eq d (by simp [hpc]))⟩
      obtain ⟨rest, hrest⟩ := pre
      rw [← hrest, drop_left]
      exact (List.prefix_append_right_inj old).mpr (List.take_prefix _ _)
    · obtain ⟨hpc, hfile⟩ := step.other e
      rw [hpc] at hd
      obtain ⟨inode, file, pre, shown⟩ := h.reading d body hd
      -- The reader has the gate, so the step was made outside of it.
      have out : (r.world.pc c).inGate = false := inv.outside (by rw [hd]; rfl) (Ne.symm e)
      rw [hfile, step.content_outside out]
      exact ⟨inode, file, pre, shown_congr shown (attempt_eq d fun hd => e hd.1)⟩
  · by_cases e : d = c
    · subst e
      obtain told | ⟨inode, mode, hpc, file, ended⟩ := step.tells_inv hd
      · refine shown_congr (h.tells d body told) (attempt_eq d ?_)
        rintro ⟨-, opened⟩
        rw [opened] at told
        cases told
      obtain ⟨inode', file', pre, shown⟩ := h.reading d body hpc
      cases file.symm.trans file'
      rw [pre.eq_of_length_le ended]
      exact shown_congr shown (attempt_eq d (by simp [hpc]))
    · rw [(step.other e).1] at hd
      exact shown_congr (h.tells d body hd) (attempt_eq d fun hd => e hd.1)

end Told

/-- The next file step of the call is a claim's `set_len` or a write of its body. -/
def Pc.writes : Pc → Op L → Bool
  | current, op => op.claims
  | writing _, _ => true
  | _, _ => false

/-- In every state of every run: a path has at most one live lease; a call that came back `Held`
made its attempt while there was one, and brought back its complete body; a claim about to write
finds no other; and a removal about to unlink does not unlink the file of any. -/
theorem leases_undefeated (op : C → Op L) (r : Recorded L C)
    (run : Reachable Recorded.Fresh (Recorded.Step op) r) :
    (∀ c d, r.world.Live c → r.world.Live d → (op d).path = (op c).path → d = c) ∧
    (∀ c body, r.world.pc c = .done (.held body) → ∃ w d, r.attempt c = some w ∧ w.Live d ∧
      (op d).path = (op c).path ∧ body = (op d).body) ∧
    (∀ c, (r.world.pc c).writes (op c) → ∀ d, r.world.Live d → (op d).path = (op c).path → d = c) ∧
    (∀ c bytes, r.world.pc c = .measured bytes → ∀ d inode mode, r.world.Live d →
      r.world.files d = some ⟨inode, mode⟩ → r.world.named (op c).path ≠ some inode) := by
  obtain ⟨inv, told⟩ : Inv op r.world ∧ Told op r := by
    refine run.invariant (P := fun r => Inv op r.world ∧ Told op r) ?_ ?_
    · rintro r ⟨fresh, -⟩
      refine ⟨.fresh fresh, fun c body hc => ?_, fun c body hc => ?_⟩
      all_goals
        rw [fresh.idle] at hc
        cases hc
    · rintro r c r' - ⟨inv, told⟩ step
      exact ⟨inv.next step.1, told.next inv step⟩
  refine ⟨fun c d hc hd path => ?_, fun c body hc => ?_, fun c hc d hd path => ?_,
    fun c bytes hc d inode mode hd file named => ?_⟩
  · obtain ⟨inode, file, named⟩ := inv.live hc
    exact inv.alone file named hd path
  · exact told.tells c body (by rw [hc]; rfl)
  · have backed := inv.backed c
    cases hpc : r.world.pc c with
    | current =>
      rw [hpc] at backed
      obtain ⟨inode, file, named⟩ := backed
      exact inv.alone file named hd path
    | writing left =>
      rw [hpc] at backed
      obtain ⟨inode, file, named, -⟩ := backed
      exact inv.alone file named hd path
    | _ =>
      rw [hpc] at hc
      cases hc
  · have backed := inv.backed c
    rw [hc] at backed
    obtain ⟨inode', file', named'⟩ := backed
    obtain ⟨live, file'', -⟩ := inv.live hd
    rw [file] at file''
    cases file''
    obtain rfl : inode' = inode := Option.some.inj (named'.symm.trans named)
    have ne : d ≠ c := by
      rintro rfl
      have hd : (r.world.pc d).live = true := hd
      rw [hc] at hd
      cases hd
    exact inv.apart ne file' file rfl

/-- A probe runs into a lease and comes back with the body that its holder has written. -/
theorem leases_undefeated_by_a_probe :
    let op : Bool → Op Unit := fun c => if c then .probe () else .claim () [[7], [8]]
    ∃ r, Reachable Recorded.Fresh (Recorded.Step op) r ∧ r.world.pc true = .done (.held [7, 8]) ∧
      ∃ w d, r.attempt true = some w ∧ w.Live d ∧ [7, 8] = (op d).body := by
  intro op
  have next : ∀ {w w' : World Unit Bool} {attempt c},
      Reachable Recorded.Fresh (Recorded.Step op) ⟨w, attempt⟩ → Step op w c w' →
        Reachable Recorded.Fresh (Recorded.Step op)
        ⟨w', if w.pc c = .opened then Function.update attempt c (some w) else attempt⟩ :=
    fun run step => run.next ⟨step, rfl⟩
  have start : Reachable Recorded.Fresh (Recorded.Step op)
      ⟨⟨fun _ => none, 0, fun _ => [], fun _ => none, none, fun _ => .idle⟩, fun _ => none⟩ :=
    .start ⟨⟨rfl, rfl, rfl, by simp, by simp⟩, rfl⟩
  have gated := next start (.enterGate (c := false) rfl rfl)
  have created := next gated (.create (c := false) (.inl ⟨rfl, rfl⟩) rfl)
  have locked :=
    next created (.lock (c := false) rfl (show _ = some (Description.mk 0 none) from rfl) (by
    intro d mode ne taken
    cases d
    · exact absurd rfl ne
    · cases taken))
  have current := next locked (.current (c := false) rfl rfl rfl)
  have truncated := next current (.truncate (c := false) rfl rfl rfl)
  have written := next truncated (.write (c := false) rfl rfl)
  have written := next written (.write (c := false) rfl rfl)
  have built := next written (.build (c := false) rfl)
  have acquired := next built (.acquire (c := false) rfl)
  have probed := next acquired (.exists_ (c := true) rfl rfl rfl)
  have gated := next probed (.enterGate (c := true) rfl rfl)
  have opened := next gated (.openNamed (c := true) (.inl rfl) rfl)
  have blocked := next opened (.blocked (c := true) (d := false) rfl rfl (by decide) rfl)
  have reading := next blocked (.read (c := true) 1 rfl rfl (by decide))
  have ended := next reading (.readEnd (c := true) rfl rfl (by decide))
  have closed := next ended (.close (c := true) rfl)
  have left := next closed (.leaveGate (c := true) rfl)
  obtain ⟨w, d, hw, live, -, body⟩ := (leases_undefeated op _ left).2.1 true [7, 8] rfl
  exact ⟨_, left, rfl, w, d, hw, live, body⟩

end Steps

end Rimz.Disk.Lease
