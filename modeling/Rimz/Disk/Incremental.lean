import Rimz.Disk.Rotation

/-!
# Incremental folds over a rotating log

`IncrementalFold::refresh` of `disk/rotating.rs`, one file step at a time between the file steps of
appenders and rotations: the metadata of both generations is looked at before either is opened, and
a refresh that finds its generations continued reads on from the offsets it has.

Decoding a line and folding a record are parameters. The lines of a generation are folded when its
end has been seen; nothing reads the state before that.
-/

namespace Rimz.Disk
open Rimz.Lib

/-- The generations in the order of their records, `paths[0]` and `paths[1]`. -/
inductive Slot where
  | rotated
  | current
  deriving DecidableEq

/-- The device of a log does not change. -/
structure Generation where
  inode : Nat
  len : Nat
  deriving DecidableEq

def Generation.continues (next previous : Generation) (offset : Nat) : Bool :=
  next.inode == previous.inode && offset ≤ next.len

namespace LogFiles

/-- The inode that a path names. -/
def named (files : LogFiles) : Slot → Option Nat
  | .rotated => files.rotated
  | .current => files.current

/-- `metadata` of an open file. -/
def metadata (files : LogFiles) (inode : Nat) : Generation := ⟨inode, (files.bytes inode).length⟩

/-- `metadata` of a path. -/
def stat (files : LogFiles) (slot : Slot) : Option Generation :=
  (files.named slot).map files.metadata

/-- The file steps of appenders and rotations. A handle may be older than the last rotation, and a
line may be torn. -/
inductive Change where
  | append (line : Bytes)
  | write (inode : Nat) (line : Bytes)
  | removeRotated
  | rename

def change (files : LogFiles) : Change → LogFiles
  | .append line => files.append line
  | .write inode line => if inode < files.nextInode then files.write inode line else files
  | .removeRotated => files.removeRotated
  | .rename => files.current.elim files files.rename

/-- Inode numbers are given out in order, and a file that was never made has no bytes. -/
structure WellFormed (files : LogFiles) : Prop where
  unused : ∀ inode, files.nextInode ≤ inode → files.bytes inode = []
  named : ∀ slot inode, files.named slot = some inode → inode < files.nextInode

end LogFiles

structure IncrementalFold (S : Type*) where
  generations : Option (Slot → Option Generation)
  offsets : Slot → Nat
  state : S

namespace IncrementalFold
variable {S : Type*}

def new (default : S) : IncrementalFold S := ⟨none, fun _ => 0, default⟩

/-- A late append to the rotated handle must precede current records. -/
def mustReset (reader : IncrementalFold S) (observed : Slot → Option Generation) : Bool :=
  reader.generations.all fun previous =>
    observed .rotated != previous .rotated || [Slot.rotated, .current].any fun slot =>
      match observed slot, previous slot with
      | some next, some old => !next.continues old (reader.offsets slot)
      | none, none => false
      | _, _ => true

end IncrementalFold

section Lines
variable {S T : Type*} (decode : Bytes → Option T) (fold : S → T → S)

/-- One complete line. -/
def foldLine (state : S) (line : Bytes) : S := (decode line).elim state (fold state)

/-- The loop over the results of `read_until`, which ends at a torn line. -/
def foldLines : Nat × S → List Bytes → Nat × S
  | acc, [] => acc
  | (offset, state), line :: lines =>
    if line.getLast? = some 10 then foldLines (offset + line.length, foldLine decode fold state line) lines
    else (offset, state)

lemma foldLines_eq {offset state lines} :
    foldLines decode fold (offset, state) lines =
      (offset + (lines.takeWhile fun line => line.getLast? = some 10).flatten.length,
        (lines.takeWhile fun line => line.getLast? = some 10).foldl (foldLine decode fold) state) := by
  induction lines generalizing offset state with
  | nil => rfl
  | cons line lines ih =>
    by_cases h : line.getLast? = some 10
    · simp [foldLines, h, ih, Nat.add_assoc]
    · simp [foldLines, h]

lemma foldl_foldLine (state : S) (lines : List Bytes) :
    lines.foldl (foldLine decode fold) state = (lines.filterMap decode).foldl fold state := by
  induction lines generalizing state with
  | nil => rfl
  | cons line lines ih =>
    cases h : decode line with
    | none | some record => simp [foldLine, h, ih]

end Lines

/-- What a refresh has in its local variables. -/
structure Refresh where
  observed : Slot → Option Generation
  reset : Bool
  generations : Slot → Option Generation

def Refresh.set (refresh : Refresh) (slot : Slot) (generation : Option Generation) : Refresh :=
  { refresh with generations := Function.update refresh.generations slot generation }

/-- Where the reader stands: between two refreshes, between the looks at the two paths, before a
generation, behind its `open`, or reading it. -/
inductive Reading where
  | idle
  | statCurrent (rotated : Option Generation)
  | visit (slot : Slot) (refresh : Refresh)
  | opened (slot : Slot) (refresh : Refresh) (inode : Nat)
  | reading (slot : Slot) (refresh : Refresh) (inode : Nat) (buffer : Bytes)

/-- A reader over the files of a log. `undisturbed` says that no file step has happened since its
last refresh began. -/
structure Watched (S : Type*) where
  files : LogFiles
  reader : IncrementalFold S
  phase : Reading
  undisturbed : Bool

namespace Watched
variable {S T : Type*}

/-- On to the next generation, or out of the loop. -/
def advance (w : Watched S) (refresh : Refresh) : Slot → Watched S
  | .rotated => { w with phase := .visit .current refresh }
  | .current =>
    { w with reader := { w.reader with generations := some refresh.generations }, phase := .idle }

/-- The next file step of the reader. A `read` returns at most `n + 1` bytes. -/
def tick (decode : Bytes → Option T) (fold : S → T → S) (default : S) (w : Watched S) (n : Nat) :
    Watched S :=
  match w.phase with
  | .idle => { w with phase := .statCurrent (w.files.stat .rotated), undisturbed := true }
  | .statCurrent rotated =>
    let observed : Slot → Option Generation
      | .rotated => rotated
      | .current => w.files.stat .current
    let reset := w.reader.mustReset observed
    { w with
      reader := if reset then { w.reader with state := default, offsets := fun _ => 0 } else w.reader
      phase := .visit .rotated ⟨observed, reset, w.reader.generations.getD fun _ => none⟩ }
  | .visit slot refresh =>
    if !refresh.reset && refresh.observed slot == refresh.generations slot then w.advance refresh slot
    else
      match w.files.named slot with
      | none => w.advance (refresh.set slot none) slot
      | some inode => { w with phase := .opened slot (refresh.set slot none) inode }
  | .opened slot refresh inode =>
    { w with phase := .reading slot (refresh.set slot (some (w.files.metadata inode))) inode [] }
  | .reading slot refresh inode buffer =>
    let rest := (w.files.bytes inode).drop (w.reader.offsets slot + buffer.length)
    if rest.isEmpty then
      let (offset, state) :=
        foldLines decode fold (w.reader.offsets slot, w.reader.state) (rowsOf 10 buffer)
      { w with reader := { w.reader with
          offsets := Function.update w.reader.offsets slot offset
          state := state } }.advance refresh slot
    else { w with phase := .reading slot refresh inode (buffer ++ rest.take (n + 1)) }

inductive Action where
  | file (change : LogFiles.Change)
  | tick (n : Nat)

def perform (decode : Bytes → Option T) (fold : S → T → S) (default : S) (w : Watched S) :
    Action → Watched S
  | .file change => { w with files := w.files.change change, undisturbed := false }
  | .tick n => w.tick decode fold default n

/-- A new reader over any files. -/
def Start (default : S) (w : Watched S) : Prop :=
  w.files.WellFormed ∧ w.reader = .new default ∧ w.phase = .idle ∧ w.undisturbed = false

/-- A refresh that keeps its state opens, as the current generation, the file whose offset it
has. -/
def Unmoved (w : Watched S) (action : Action) : Prop :=
  ∀ n refresh, action = .tick n → w.phase = .visit .current refresh → refresh.reset = false →
    refresh.observed .current ≠ refresh.generations .current →
      w.files.current = (refresh.generations .current).map (·.inode)

end Watched

/-- The decodable complete lines of a log, oldest generation first. -/
def LogFiles.records {T : Type*} (decode : Bytes → Option T) (files : LogFiles) : List T :=
  [Slot.rotated, .current].flatMap fun slot =>
    ((files.named slot).elim [] fun inode => wholeRows 10 (files.bytes inode)).filterMap decode

/-! ## Files only grow -/

namespace LogFiles
variable {files : LogFiles}

lemma bytes_write {inode other line} :
    files.bytes other <+: (files.write inode line).bytes other := by
  by_cases e : other = inode
  · subst e
    simp [write]
  · simp [write, update_of_ne e]

lemma WellFormed.bytes_change (h : files.WellFormed) (c : Change) (inode : Nat) :
    files.bytes inode <+: (files.change c).bytes inode := by
  cases c with
  | append line =>
    simp only [change, append]
    split
    · exact bytes_write
    by_cases e : inode = files.nextInode
    · rw [e, h.unused _ (Nat.le_refl _)]
      exact nil_prefix
    · simp [update_of_ne e]
  | write other line =>
    simp only [change]
    split
    · exact bytes_write
    · exact prefix_rfl
  | removeRotated => exact prefix_rfl
  | rename =>
    simp only [change]
    cases files.current <;> exact prefix_rfl

lemma WellFormed.write (h : files.WellFormed) {inode} (used : inode < files.nextInode)
    (line : Bytes) : (files.write inode line).WellFormed where
  unused other hother := by
    have ne : other ≠ inode := by
      rintro rfl
      exact absurd used (Nat.not_lt.mpr hother)
    simpa [LogFiles.write, update_of_ne ne] using h.unused other hother
  named slot other hother := h.named slot other (by cases slot <;> exact hother)

lemma WellFormed.change (h : files.WellFormed) (c : Change) : (files.change c).WellFormed := by
  cases c with
  | append line =>
    simp only [LogFiles.change, LogFiles.append]
    split
    · next inode hcurrent => exact h.write (h.named .current inode hcurrent) line
    refine ⟨fun other hother => ?_, fun slot other hother => ?_⟩
    · have hother : files.nextInode + 1 ≤ other := hother
      have ne : other ≠ files.nextInode := by omega
      simpa [update_of_ne ne] using h.unused other (by omega)
    · cases slot with
      | rotated => exact Nat.lt_succ_of_lt (h.named .rotated other hother)
      | current =>
        cases hother
        exact Nat.lt_succ_self _
  | write inode line =>
    simp only [LogFiles.change]
    split
    · next used => exact h.write used line
    · exact h
  | removeRotated =>
    refine ⟨h.unused, fun slot other hother => ?_⟩
    cases slot with
    | rotated => cases hother
    | current => exact h.named .current other hother
  | rename =>
    simp only [LogFiles.change]
    cases hcurrent : files.current with
    | none => exact h
    | some inode =>
      refine ⟨h.unused, fun slot other hother => ?_⟩
      cases slot with
      | rotated =>
        cases hother
        exact h.named .current inode hcurrent
      | current => cases hother

end LogFiles

/-! ## What the reader has read -/

section Invariant
variable {S T : Type*} (decode : Bytes → Option T) (fold : S → T → S) (default : S)

/-- The fold over the complete lines of some bytes. -/
def foldBytes (state : S) (bytes : Bytes) : S :=
  (wholeRows 10 bytes).foldl (foldLine decode fold) state

/-- From `start`, the complete lines of the first `upTo` bytes have been folded, and the offset is
behind the last of them. -/
structure ReadTo (start : S) (bytes : Bytes) (offset : Nat) (state : S) (upTo : Nat) : Prop where
  within : upTo ≤ bytes.length
  offset_eq : offset = (wholeRows 10 (bytes.take upTo)).flatten.length
  state_eq : state = foldBytes decode fold start (bytes.take upTo)

/-- At least the complete lines of what the generation was when it was recorded have been folded. -/
def Covers (files : LogFiles) : Option Generation → S → Nat → S → Prop
  | none, start, offset, state => offset = 0 ∧ state = start
  | some generation, start, offset, state => ∃ upTo, generation.len ≤ upTo ∧
      ReadTo decode fold start (files.bytes generation.inode) offset state upTo

/-- The state is the fold over some of the one generation and then some of the other. -/
def Kept (files : LogFiles) (generations : Slot → Option Generation) (reader : IncrementalFold S) :
    Prop :=
  ∃ mid, Covers decode fold files (generations .rotated) default (reader.offsets .rotated) mid ∧
    Covers decode fold files (generations .current) mid (reader.offsets .current) reader.state

variable {decode fold default}

namespace ReadTo
variable {start state : S} {bytes : Bytes} {offset upTo : Nat}

lemma nil : ReadTo decode fold start bytes 0 start 0 where
  within := Nat.zero_le _
  offset_eq := by simp [wholeRows, rowsOf]
  state_eq := by simp [foldBytes, wholeRows, rowsOf]

lemma mono (h : ReadTo decode fold start bytes offset state upTo) {bytes'}
    (grows : bytes <+: bytes') : ReadTo decode fold start bytes' offset state upTo := by
  obtain ⟨tail, rfl⟩ := grows
  have same : (bytes ++ tail).take upTo = bytes.take upTo := List.take_append_of_le_length h.within
  refine ⟨?_, ?_, ?_⟩
  · rw [length_append]
    exact Nat.le_add_right_of_le h.within
  · rw [same]
    exact h.offset_eq
  · rw [same]
    exact h.state_eq

lemma finish (h : ReadTo decode fold start bytes offset state upTo) :
    ReadTo decode fold start bytes (offset + (wholeRows 10 (bytes.drop offset)).flatten.length)
      (foldBytes decode fold state (bytes.drop offset)) bytes.length := by
  have rows := wholeRows_append 10 (bytes.take upTo) (bytes.drop upTo)
  rw [List.take_append_drop, ← h.offset_eq] at rows
  refine ⟨Nat.le_refl _, ?_, ?_⟩
  · rw [take_length, rows, List.flatten_append, length_append, ← h.offset_eq]
  · rw [take_length]
    simp only [foldBytes]
    rw [rows, foldl_append]
    congr 1
    exact h.state_eq

end ReadTo

lemma Covers.mono {files files'} (grows : ∀ inode, files.bytes inode <+: files'.bytes inode)
    {generation start state offset} (h : Covers decode fold files generation start offset state) :
    Covers decode fold files' generation start offset state := by
  cases generation with
  | none => exact h
  | some generation =>
    obtain ⟨upTo, hlen, read⟩ := h
    exact ⟨upTo, hlen, read.mono (grows _)⟩

lemma Covers.of_stat {files slot start state offset}
    (h : Covers decode fold files (files.stat slot) start offset state) :
    state = foldBytes decode fold start ((files.named slot).elim [] files.bytes) := by
  cases hnamed : files.named slot with
  | none =>
    rw [LogFiles.stat, hnamed] at h
    exact h.2.trans (by simp [foldBytes, wholeRows, rowsOf])
  | some inode =>
    rw [LogFiles.stat, hnamed] at h
    obtain ⟨upTo, hlen, read⟩ := h
    have all : upTo = (files.bytes inode).length := Nat.le_antisymm read.within hlen
    have state_eq := read.state_eq
    rw [all] at state_eq
    exact state_eq.trans (by simp [LogFiles.metadata])

lemma Kept.mono {files files'} (grows : ∀ inode, files.bytes inode <+: files'.bytes inode)
    {generations reader} (h : Kept decode fold default files generations reader) :
    Kept decode fold default files' generations reader := by
  obtain ⟨mid, rotated, current⟩ := h
  exact ⟨mid, rotated.mono grows, current.mono grows⟩

/-- What has been folded when the reader is at a generation: nothing, or the rotated one. -/
def Before (decode : Bytes → Option T) (fold : S → T → S) (default : S) (w : Watched S)
    (refresh : Refresh) (mid : S) : Slot → Prop
  | .rotated => mid = default ∧ refresh.reset = true ∧ w.reader.offsets .current = 0
  | .current => Covers decode fold w.files (refresh.generations .rotated) default
      (w.reader.offsets .rotated) mid

/-- In an undisturbed refresh the looks still hold, and so do the generations before the slot. -/
def Looks (w : Watched S) (refresh : Refresh) (slot : Slot) : Prop :=
  w.undisturbed = true → (∀ slot, refresh.observed slot = w.files.stat slot) ∧
    (slot = .current → refresh.generations .rotated = w.files.stat .rotated)

/-- The invariant at each place of a refresh. -/
def Phased (decode : Bytes → Option T) (fold : S → T → S) (default : S) (w : Watched S) :
    Reading → Prop
  | .idle =>
    (∀ generations, w.reader.generations = some generations →
      Kept decode fold default w.files generations w.reader) ∧
    (w.undisturbed = true → ∃ generations, w.reader.generations = some generations ∧
      ∀ slot, generations slot = w.files.stat slot)
  | .statCurrent rotated =>
    (∀ generations, w.reader.generations = some generations →
      Kept decode fold default w.files generations w.reader) ∧
    (w.undisturbed = true → rotated = w.files.stat .rotated)
  | .visit .rotated refresh => Looks w refresh .rotated ∧
    if refresh.reset then w.reader.state = default ∧ ∀ slot, w.reader.offsets slot = 0
    else refresh.observed .rotated = refresh.generations .rotated ∧
      Kept decode fold default w.files refresh.generations w.reader
  | .visit .current refresh => Looks w refresh .current ∧
    if refresh.reset then w.reader.offsets .current = 0 ∧
      Covers decode fold w.files (refresh.generations .rotated) default (w.reader.offsets .rotated)
        w.reader.state
    else Kept decode fold default w.files refresh.generations w.reader
  | .opened slot refresh inode => Looks w refresh slot ∧
    (w.undisturbed = true → w.files.named slot = some inode) ∧
    ∃ mid upTo, Before decode fold default w refresh mid slot ∧
      ReadTo decode fold mid (w.files.bytes inode) (w.reader.offsets slot) w.reader.state upTo
  | .reading slot refresh inode buffer => Looks w refresh slot ∧
    (w.undisturbed = true → refresh.generations slot = w.files.stat slot) ∧
    buffer <+: (w.files.bytes inode).drop (w.reader.offsets slot) ∧
    (∃ len, refresh.generations slot = some ⟨inode, len⟩ ∧ len ≤ (w.files.bytes inode).length) ∧
    ∃ mid upTo, Before decode fold default w refresh mid slot ∧
      ReadTo decode fold mid (w.files.bytes inode) (w.reader.offsets slot) w.reader.state upTo

structure Sound (decode : Bytes → Option T) (fold : S → T → S) (default : S) (w : Watched S) :
    Prop where
  wellFormed : w.files.WellFormed
  phased : Phased decode fold default w w.phase

namespace Sound
variable {w : Watched S}

/-- A file step leaves everything that has been read, and ends what an undisturbed refresh knows. -/
lemma file (h : Sound decode fold default w) (c : LogFiles.Change) :
    Sound decode fold default { w with files := w.files.change c, undisturbed := false } where
  wellFormed := h.wellFormed.change c
  phased := by
    have grows := h.wellFormed.bytes_change c
    have before : ∀ {refresh mid slot}, Before decode fold default w refresh mid slot →
        Before decode fold default { w with files := w.files.change c, undisturbed := false }
          refresh mid slot := by
      intro refresh mid slot hb
      cases slot with
      | rotated => exact hb
      | current => exact Covers.mono grows hb
    have phased := h.phased
    show Phased decode fold default _ w.phase
    cases hphase : w.phase with
    | idle | statCurrent rotated =>
      rw [hphase] at phased
      exact ⟨fun generations hg => (phased.1 generations hg).mono grows, nofun⟩
    | visit slot refresh =>
      rw [hphase] at phased
      cases slot with
      | rotated =>
        refine ⟨nofun, ?_⟩
        have phased := phased.2
        split at phased
        · next reset =>
          rw [if_pos reset]
          exact phased
        · next reset =>
          rw [if_neg reset]
          exact ⟨phased.1, phased.2.mono grows⟩
      | current =>
        refine ⟨nofun, ?_⟩
        have phased := phased.2
        split at phased
        · next reset =>
          rw [if_pos reset]
          exact ⟨phased.1, phased.2.mono grows⟩
        · next reset =>
          rw [if_neg reset]
          exact phased.mono grows
    | opened slot refresh inode =>
      rw [hphase] at phased
      obtain ⟨-, -, mid, upTo, hb, read⟩ := phased
      exact ⟨nofun, nofun, mid, upTo, before hb, read.mono (grows inode)⟩
    | reading slot refresh inode buffer =>
      rw [hphase] at phased
      obtain ⟨-, -, hbuffer, ⟨len, hg, hlen⟩, mid, upTo, hb, read⟩ := phased
      refine ⟨nofun, nofun, ?_, ⟨len, hg, hlen.trans (grows inode).length_le⟩, mid, upTo, before hb,
        read.mono (grows inode)⟩
      exact hbuffer.trans ((grows inode).drop _)

/-- A generation is done, with or without a file. -/
lemma advance (mid : S) (wellFormed : w.files.WellFormed) {refresh slot}
    (looks : Looks w refresh slot)
    (recorded : w.undisturbed = true → refresh.generations slot = w.files.stat slot)
    (before : Before decode fold default w refresh mid slot)
    (covers : Covers decode fold w.files (refresh.generations slot) mid (w.reader.offsets slot)
      w.reader.state) :
    Sound decode fold default (w.advance refresh slot) := by
  cases slot with
  | rotated =>
    obtain ⟨rfl, reset, zero⟩ := before
    refine ⟨wellFormed, fun quiet => ⟨(looks quiet).1, fun _ => recorded quiet⟩, ?_⟩
    rw [if_pos reset]
    exact ⟨zero, covers⟩
  | current =>
    refine ⟨wellFormed, ?_, fun quiet => ⟨refresh.generations, rfl, ?_⟩⟩
    · rintro generations hg
      cases hg
      exact ⟨mid, before, covers⟩
    · intro slot
      cases slot with
      | rotated => exact (looks quiet).2 rfl
      | current => exact recorded quiet

lemma looks_set {refresh slot} (looks : Looks w refresh slot) (generation : Option Generation) :
    Looks w (refresh.set slot generation) slot := by
  intro quiet
  refine ⟨(looks quiet).1, ?_⟩
  rintro rfl
  exact (looks quiet).2 rfl

lemma before_set {refresh slot mid} (before : Before decode fold default w refresh mid slot)
    (generation : Option Generation) :
    Before decode fold default w (refresh.set slot generation) mid slot := by
  cases slot with
  | rotated | current => exact before

@[simp] lemma set_generations (refresh : Refresh) (slot : Slot) (generation : Option Generation) :
    (refresh.set slot generation).generations slot = generation := by
  simp [Refresh.set]

/-- A generation is opened where `upTo` bytes of the named file have been read before. -/
lemma openSlot (mid : S) (wellFormed : w.files.WellFormed) {refresh slot}
    (looks : Looks w refresh slot) (before : Before decode fold default w refresh mid slot)
    (missing : w.files.named slot = none → w.reader.offsets slot = 0 ∧ w.reader.state = mid)
    (found : ∀ inode, w.files.named slot = some inode → ∃ upTo,
      ReadTo decode fold mid (w.files.bytes inode) (w.reader.offsets slot) w.reader.state upTo) :
    Sound decode fold default (match w.files.named slot with
      | none => w.advance (refresh.set slot none) slot
      | some inode => { w with phase := .opened slot (refresh.set slot none) inode }) := by
  cases hnamed : w.files.named slot with
  | none =>
    apply advance mid wellFormed (looks_set looks none) _ (before_set before none)
    · rw [set_generations]
      exact missing hnamed
    · intro _
      rw [set_generations, LogFiles.stat, hnamed]
      rfl
  | some inode =>
    obtain ⟨upTo, read⟩ := found inode hnamed
    exact ⟨wellFormed, looks_set looks none, fun _ => hnamed, mid, upTo, before_set before none, read⟩

section
variable (h : Sound decode fold default w)
include h

lemma visitRotated {refresh} (hphase : w.phase = .visit .rotated refresh) (n : Nat) :
    Sound decode fold default (w.tick decode fold default n) := by
  have phased := h.phased
  rw [hphase] at phased
  obtain ⟨looks, phased⟩ := phased
  simp only [Watched.tick, hphase]
  cases hreset : refresh.reset with
  | true =>
    rw [if_pos hreset] at phased
    obtain ⟨state, zero⟩ := phased
    refine openSlot default h.wellFormed looks ⟨rfl, hreset, zero .current⟩ ?_ ?_
    · intro _
      exact ⟨zero .rotated, state⟩
    · intro inode _
      rw [zero, state]
      exact ⟨0, .nil⟩
  | false =>
    -- A refresh that keeps its state has found the rotated generation as it was.
    rw [if_neg (by simp [hreset])] at phased
    obtain ⟨same, kept⟩ := phased
    rw [if_pos (by simp [same])]
    refine ⟨h.wellFormed, fun quiet => ⟨(looks quiet).1, fun _ => ?_⟩, ?_⟩
    · rw [← same]
      exact (looks quiet).1 .rotated
    · rw [if_neg (by simp [hreset])]
      exact kept

lemma visitCurrent {refresh} (hphase : w.phase = .visit .current refresh) (n : Nat)
    (unmoved : w.Unmoved (.tick n)) : Sound decode fold default (w.tick decode fold default n) := by
  have phased := h.phased
  rw [hphase] at phased
  obtain ⟨looks, phased⟩ := phased
  simp only [Watched.tick, hphase]
  cases hreset : refresh.reset with
  | true =>
    rw [if_pos hreset] at phased
    obtain ⟨zero, covers⟩ := phased
    refine openSlot w.reader.state h.wellFormed looks covers (fun _ => ⟨zero, rfl⟩) ?_
    intro inode _
    rw [zero]
    exact ⟨0, .nil⟩
  | false =>
    rw [if_neg (by simp [hreset])] at phased
    obtain ⟨mid, rotated, current⟩ := phased
    by_cases same : refresh.observed .current = refresh.generations .current
    · rw [if_pos (by simp [same])]
      refine advance mid h.wellFormed looks (fun quiet => ?_) rotated current
      rw [← same]
      exact (looks quiet).1 .current
    rw [if_neg (by simp [same])]
    have hnamed : w.files.named .current = (refresh.generations .current).map (·.inode) :=
      unmoved n refresh rfl hphase hreset same
    refine openSlot mid h.wellFormed looks rotated ?_ ?_
    · intro missing
      rw [missing] at hnamed
      rw [map_eq_none_iff.mp hnamed.symm] at current
      exact current
    · intro inode found
      rw [found] at hnamed
      obtain ⟨generation, hg, rfl⟩ := map_eq_some_iff.mp hnamed.symm
      rw [hg] at current
      obtain ⟨upTo, -, read⟩ := current
      exact ⟨upTo, read⟩

lemma statCurrent {rotated} (hphase : w.phase = .statCurrent rotated) (n : Nat) :
    Sound decode fold default (w.tick decode fold default n) := by
  have phased := h.phased
  rw [hphase] at phased
  obtain ⟨kept, looked⟩ := phased
  simp only [Watched.tick, hphase]
  refine ⟨h.wellFormed, fun quiet => ⟨fun slot => ?_, nofun⟩, ?_⟩
  · cases slot with
    | rotated => exact looked quiet
    | current => rfl
  · dsimp only
    split
    · exact ⟨rfl, fun _ => rfl⟩
    rename_i keep
    cases hg : w.reader.generations with
    | none => simp [IncrementalFold.mustReset, hg] at keep
    | some previous =>
      simp only [IncrementalFold.mustReset, hg, all_some, or_eq_true, not_or] at keep
      exact ⟨by simpa using keep.1, kept previous hg⟩

lemma opened {slot refresh inode} (hphase : w.phase = .opened slot refresh inode) (n : Nat) :
    Sound decode fold default (w.tick decode fold default n) := by
  have phased := h.phased
  rw [hphase] at phased
  obtain ⟨looks, named, mid, upTo, before, read⟩ := phased
  simp only [Watched.tick, hphase]
  refine ⟨h.wellFormed, looks_set looks _, fun quiet => ?_, nil_prefix,
    ⟨(w.files.bytes inode).length, ?_, Nat.le_refl _⟩, mid, upTo, before_set before _, read⟩
  · rw [set_generations, LogFiles.stat, named quiet]
    rfl
  · rw [set_generations]
    rfl

lemma reading {slot refresh inode buffer} (hphase : w.phase = .reading slot refresh inode buffer)
    (n : Nat) : Sound decode fold default (w.tick decode fold default n) := by
  have phased := h.phased
  rw [hphase] at phased
  obtain ⟨looks, recorded, ⟨tail, hbuffer⟩, ⟨len, hg, hlen⟩, mid, upTo, before, read⟩ := phased
  have rest : (w.files.bytes inode).drop (w.reader.offsets slot + buffer.length) = tail := by
    rw [← List.drop_drop, ← hbuffer, drop_left]
  simp only [Watched.tick, hphase, rest]
  split
  · next ended =>
    -- The end of the file: what has been read is all there is behind the offset.
    obtain rfl : tail = [] := List.isEmpty_iff.mp ended
    rw [append_nil] at hbuffer
    have finished := read.finish
    rw [← hbuffer] at finished
    rw [foldLines_eq]
    apply advance mid
    · exact h.wellFormed
    · exact looks
    · exact recorded
    · cases slot with
      | rotated => exact ⟨before.1, before.2.1, before.2.2⟩
      | current => exact before
    · rw [hg]
      refine ⟨(w.files.bytes inode).length, hlen, ?_⟩
      simp only [update_self]
      exact finished
  · refine ⟨h.wellFormed, looks, recorded, ?_, ⟨len, hg, hlen⟩, mid, upTo, before, read⟩
    rw [← hbuffer]
    exact (List.prefix_append_right_inj buffer).mpr (List.take_prefix _ _)

lemma perform {action} (unmoved : w.Unmoved action) :
    Sound decode fold default (w.perform decode fold default action) := by
  cases action with
  | file c => exact h.file c
  | tick n =>
    show Sound decode fold default (w.tick decode fold default n)
    cases hphase : w.phase with
    | idle =>
      have phased := h.phased
      rw [hphase] at phased
      simp only [Watched.tick, hphase]
      exact ⟨h.wellFormed, phased.1, fun _ => rfl⟩
    | statCurrent rotated => exact h.statCurrent hphase n
    | visit slot refresh =>
      cases slot with
      | rotated => exact h.visitRotated hphase n
      | current => exact h.visitCurrent hphase n unmoved
    | opened slot refresh inode => exact h.opened hphase n
    | reading slot refresh inode buffer => exact h.reading hphase n

end

lemma start (h : w.Start default) : Sound decode fold default w := by
  obtain ⟨wellFormed, reader, phase, disturbed⟩ := h
  refine ⟨wellFormed, ?_⟩
  rw [phase]
  refine ⟨fun generations hg => ?_, fun quiet => ?_⟩
  · rw [reader] at hg
    cases hg
  · rw [disturbed] at quiet
    cases quiet

lemma healed (h : Sound decode fold default w) (idle : w.phase = .idle)
    (quiet : w.undisturbed = true) :
    w.reader.state = (w.files.records decode).foldl fold default := by
  have phased := h.phased
  rw [idle] at phased
  obtain ⟨generations, hg, stats⟩ := phased.2 quiet
  obtain ⟨mid, rotated, current⟩ := phased.1 generations hg
  rw [stats] at rotated current
  have bytes : ∀ slot, wholeRows 10 ((w.files.named slot).elim [] w.files.bytes)
      = (w.files.named slot).elim [] fun inode => wholeRows 10 (w.files.bytes inode) := by
    intro slot
    cases w.files.named slot <;> rfl
  rw [current.of_stat, rotated.of_stat]
  simp only [foldBytes, bytes, foldl_foldLine]
  simp [LogFiles.records, foldl_append]

end Sound

end Invariant

/-! ## Refreshes -/

namespace Watched
variable {S T : Type*} {decode : Bytes → Option T} {fold : S → T → S} {default : S} {w : Watched S}

/-- The reader comes to the end of its refresh if nothing else happens. -/
def Returns (decode : Bytes → Option T) (fold : S → T → S) (default : S) (w : Watched S) : Prop :=
  ∃ ns : List Nat, (ns.foldl (tick decode fold default) w).phase = .idle

lemma Returns.of_tick (n : Nat) (h : Returns decode fold default (w.tick decode fold default n)) :
    Returns decode fold default w := by
  obtain ⟨ns, idle⟩ := h
  exact ⟨n :: ns, idle⟩

section Slot
variable {slot : Slot} {refresh : Refresh} {inode : Nat} {buffer : Bytes}
  (next : ∀ (w : Watched S) refresh, Returns decode fold default (w.advance refresh slot))
include next

lemma returns_ended (hphase : w.phase = .reading slot refresh inode buffer)
    (ended : (w.files.bytes inode).drop (w.reader.offsets slot + buffer.length) = []) :
    Returns decode fold default w := by
  apply Returns.of_tick 0
  simp only [tick, hphase, ended, List.isEmpty_nil, if_true]
  exact next _ _

lemma returns_reading (hphase : w.phase = .reading slot refresh inode buffer) :
    Returns decode fold default w := by
  cases hrest : (w.files.bytes inode).drop (w.reader.offsets slot + buffer.length) with
  | nil => exact returns_ended next hphase hrest
  | cons byte rest =>
    -- One `read` may bring all there is.
    apply Returns.of_tick rest.length
    simp only [tick, hphase, hrest, List.isEmpty_cons, false_eq_true, if_false]
    apply returns_ended next rfl
    rw [length_append, ← Nat.add_assoc, ← List.drop_drop, hrest]
    simp

lemma returns_visit (hphase : w.phase = .visit slot refresh) : Returns decode fold default w := by
  apply Returns.of_tick 0
  simp only [tick, hphase]
  split
  · exact next _ _
  split
  · exact next _ _
  · apply Returns.of_tick 0
    exact returns_reading next rfl

end Slot

/-- Every refresh returns, wherever it stands. -/
lemma returns (w : Watched S) : Returns decode fold default w := by
  have current : ∀ (w : Watched S) refresh, Returns decode fold default (w.advance refresh .current) :=
    fun _ _ => ⟨[], rfl⟩
  have rotated : ∀ (w : Watched S) refresh, Returns decode fold default (w.advance refresh .rotated) :=
    fun _ _ => returns_visit current rfl
  cases hphase : w.phase with
  | idle => exact ⟨[], hphase⟩
  | statCurrent stat =>
    apply Returns.of_tick 0
    simp only [tick, hphase]
    exact returns_visit rotated rfl
  | visit slot refresh =>
    cases slot with
    | rotated => exact returns_visit rotated hphase
    | current => exact returns_visit current hphase
  | opened slot refresh inode =>
    apply Returns.of_tick 0
    simp only [tick, hphase]
    cases slot with
    | rotated => exact returns_reading rotated rfl
    | current => exact returns_reading current rfl
  | reading slot refresh inode buffer =>
    cases slot with
    | rotated => exact returns_reading rotated hphase
    | current => exact returns_reading current hphase

/-- In every run in which no refresh that keeps its state opens another file as the current
generation: a refresh left alone returns, and one during which no file step happens has folded
exactly the decodable complete lines of the log, as the first refresh of a new reader does. -/
theorem undisturbed_refresh_heals (decode : Bytes → Option T) (fold : S → T → S) (default : S)
    (w : Watched S)
    (run : Reachable (Start default)
      (fun w action w' => w' = w.perform decode fold default action ∧ w.Unmoved action) w) :
    (∃ ns : List Nat, (ns.foldl (tick decode fold default) w).phase = .idle) ∧
    (w.phase = .idle → w.undisturbed = true →
      w.reader.state = (w.files.records decode).foldl fold default) := by
  have inv : Sound decode fold default w := by
    refine run.invariant (fun _ h => .start h) fun w action w' _ inv step => ?_
    obtain ⟨rfl, unmoved⟩ := step
    exact inv.perform unmoved
  exact ⟨returns w, inv.healed⟩

instance (w : Watched S) (action : Action) : Decidable (w.Unmoved action) :=
  match action, hphase : w.phase with
  | .tick n, .visit .current refresh =>
    decidable_of_iff (refresh.reset = false → refresh.observed .current ≠ refresh.generations .current →
      w.files.current = (refresh.generations .current).map (·.inode)) (by
        constructor
        · intro h m refresh' _ hphase'
          cases hphase.symm.trans hphase'
          exact h
        · intro h
          exact h n refresh rfl hphase)
  | .file _, _ => .isTrue nofun
  | .tick _, .idle => .isTrue fun _ _ _ h => by cases hphase.symm.trans h
  | .tick _, .statCurrent _ => .isTrue fun _ _ _ h => by cases hphase.symm.trans h
  | .tick _, .visit .rotated _ => .isTrue fun _ _ _ h => by cases hphase.symm.trans h
  | .tick _, .opened .. => .isTrue fun _ _ _ h => by cases hphase.symm.trans h
  | .tick _, .reading .. => .isTrue fun _ _ _ h => by cases hphase.symm.trans h

/-- The state behind some actions, if each of them passes the check. -/
def play (decode : Bytes → Option T) (fold : S → T → S) (default : S)
    (check : Watched S → Action → Bool) : Watched S → List Action → Option (Watched S)
  | w, [] => some w
  | w, action :: actions =>
    if check w action then play decode fold default check (w.perform decode fold default action) actions
    else none

lemma reachable_of_play {check actions w'}
    (run : Reachable (Start default)
      (fun w action w' => w' = w.perform decode fold default action ∧ check w action) w)
    (h : play decode fold default check w actions = some w') :
    Reachable (Start default)
      (fun w action w' => w' = w.perform decode fold default action ∧ check w action) w' := by
  induction actions generalizing w with
  | nil =>
    cases h
    exact run
  | cons action actions ih =>
    simp only [play] at h
    split at h
    case isTrue passed => exact ih (run.next ⟨rfl, passed⟩) h
    case isFalse => cases h

/-- A refresh has just ended undisturbed. -/
def refreshed (w : Watched S) : Bool :=
  match w.phase with
  | .idle => w.undisturbed
  | _ => false

lemma refreshed_iff : w.refreshed = true ↔ w.phase = .idle ∧ w.undisturbed = true := by
  unfold refreshed
  cases w.phase <;> simp

/-- A log with one line. -/
def oneLine : Watched (List Bytes) :=
  ⟨⟨fun inode => if inode = 0 then [97, 10] else [], none, some 0, 1⟩, .new [], .idle, false⟩

lemma start_oneLine : Start [] oneLine := by
  refine ⟨⟨fun inode hinode => ?_, fun slot inode hinode => ?_⟩, rfl, rfl, rfl⟩
  · have ne : inode ≠ 0 := Nat.one_le_iff_ne_zero.mp hinode
    simp [oneLine, ne]
  · cases slot with
    | rotated => cases hinode
    | current =>
      cases hinode
      decide

/-- A refresh reads on behind the line that the one before it has read. -/
theorem undisturbed_refresh_heals_after_append :
    ∃ w : Watched (List Bytes), w.refreshed ∧ w.reader.state = [[97, 10], [98, 10]] ∧
      w.reader.state = (w.files.records some).foldl (fun lines line => lines ++ [line]) [] := by
  let actions := List.replicate 7 (Action.tick 7) ++ .file (.append [98, 10]) ::
    List.replicate 7 (.tick 7)
  let unmoved : Watched (List Bytes) → Action → Bool := fun w action => w.Unmoved action
  have hrun : (play some (fun lines line => lines ++ [line]) [] unmoved oneLine actions).any
      fun w => w.refreshed ∧ w.reader.state = [[97, 10], [98, 10]] := by
    decide
  obtain ⟨w, hw, hlast⟩ := (any_eq_true _ _).mp hrun
  obtain ⟨refreshed, state⟩ := of_decide_eq_true hlast
  obtain ⟨idle, quiet⟩ := refreshed_iff.mp refreshed
  have run : Reachable (Start []) (fun w action w' =>
      w' = w.perform some (fun lines line => lines ++ [line]) [] action ∧ w.Unmoved action) w :=
    (reachable_of_play (.start start_oneLine) hw).mono fun _ _ _ step =>
      ⟨step.1, of_decide_eq_true step.2⟩
  exact ⟨w, refreshed, state, (undisturbed_refresh_heals some _ [] w run).2 idle quiet⟩

/-- A log of two lines is rotated between the look of a refresh and its `open`. The new log has the
length of the offset that the reader keeps, and once the rotated generation has been removed again,
a refresh finds nothing changed: it returns the first line of a file that is gone and misses the
first line of the log. -/
theorem rotation_behind_the_look_poisons :
    ∃ w : Watched (List Bytes),
      Reachable (Start [])
        (fun w action w' => w' = w.perform some (fun lines line => lines ++ [line]) [] action) w ∧
      w.phase = .idle ∧ w.undisturbed = true ∧ w.reader.state = [[97, 10], [100, 10]] ∧
      (w.files.records some).foldl (fun lines line => lines ++ [line]) [] = [[99, 10], [100, 10]] := by
  let actions := List.replicate 7 (Action.tick 7) ++ .file (.append [98, 10]) ::
    List.replicate 3 (.tick 7) ++ [.file .removeRotated, .file .rename, .file (.append [99, 10])] ++
    List.replicate 3 (.tick 7) ++ [.file (.append [100, 10]), .file .removeRotated] ++
    List.replicate 7 (.tick 7)
  have hrun :
    (play some (fun lines line => lines ++ [line]) [] (fun _ _ => true) oneLine actions).any
      fun w => w.refreshed ∧ w.reader.state = [[97, 10], [100, 10]] ∧
        (w.files.records some).foldl (fun lines line => lines ++ [line]) [] = [[99, 10], [100, 10]] := by
    decide
  obtain ⟨w, hw, hlast⟩ := (any_eq_true _ _).mp hrun
  obtain ⟨refreshed, states⟩ := of_decide_eq_true hlast
  obtain ⟨idle, quiet⟩ := refreshed_iff.mp refreshed
  have run := (reachable_of_play (.start start_oneLine) hw).mono fun _ _ _ step => step.1
  exact ⟨w, run, idle, quiet, states⟩

end Watched

end Rimz.Disk
