import Rimz.Ingress.Rows
import Rimz.Lib.Run

/-!
# The hook drainer

`Drainer::drain` and `finish_if_drained` of `harness/hook_drain.rs`, as one machine whose steps are
the sections that run under the workspace lock. Appenders hold only the ingress lock, so they run
between any two steps of the drainer; the event log moves on at any time. The lifetime lock admits
one drainer.

A crash, an error return, an early return and the jump back to the head of the loop all forget the
local state of the drain, and are one step here.
-/

namespace Rimz.Ingress
open Rimz.Lib Rimz.EventLog

/-- What the run did, in order. `claimed`, `handed` and `applied` are the claim write, the call of
the processor with its recovery argument, and the write of an applied cursor past the frame. -/
inductive Act where
  | appended (frame : HookIngress)
  | claimed (id : EventId) (extent : LogExtent)
  | handed (frame : HookIngress) (recovering : Option LogExtent)
  | applied (id : EventId)
  | truncated

/-- The locals of `drain` inside its `while` loop, with `Drainer::applied`. -/
structure Run where
  cursor : HookDrainCursor
  expected : HookDrainCursor
  identity : Option Nat
  frames : List (Option HookIngress × Nat)
  applied : Nat

/-- Where the drainer stands. `exhausted` tells the `finish_if_drained` behind the loop from the one
that `respond` makes between two frames. -/
inductive Pc where
  | idle
  | opened (cursor : HookDrainCursor)
  | draining (run : Run)
  | claimed (run : Run) (frame : HookIngress) (stop : Nat) (recovering : Bool)
  | handed (run : Run) (frame : HookIngress) (stop : Nat)
  | responding (run : Run)
  | finishing (run : Run) (exhausted : Bool)
  | truncated (run : Run) (exhausted : Bool)

/-- The files (the log with its inode), the extent of the event log, and the drainer. -/
structure World where
  log : Option (Nat × Bytes)
  cursor : Option HookDrainCursor
  extent : LogExtent
  pc : Pc
  diag : List DiagEvent
  history : List Act

namespace World

def content (w : World) : Option Bytes := w.log.map Prod.snd

def identity (w : World) : Option Nat := w.log.map Prod.fst

/-- An append; the first one creates the file under the inode `ino`. -/
def write (w : World) (ino : Nat) (bytes : Bytes) : Option (Nat × Bytes) :=
  match w.log with
  | some (ino, old) => some (ino, old ++ bytes)
  | none => some (ino, bytes)

/-- Replace the contents in place. -/
def rewrite (w : World) (bytes : Option Bytes) : Option (Nat × Bytes) :=
  match w.log, bytes with
  | some (ino, _), some new => some (ino, new)
  | log, _ => log

/-- A workspace before its first hook. -/
def Fresh (w : World) : Prop :=
  w.log = none ∧ w.cursor = none ∧ w.pc = .idle ∧ w.history = []

end World

/-- `other_boot`: both boots are known and differ. -/
def otherBoot (own : Option String) (frame : HookIngress) : Bool :=
  match frame.bootId, own with
  | some frameBoot, some ownBoot => frameBoot != ownBoot
  | _, _ => false

/-- The inner `while let`: go on past further frames of other boots. -/
def dropOtherBoot (own : Option String) (dropped : Nat) (last : EventId) (stop : Nat) :
    List (Option HookIngress × Nat) → Nat × EventId × Nat × List (Option HookIngress × Nat)
  | (some frame, next) :: rest =>
    if otherBoot own frame then dropOtherBoot own (dropped + 1) frame.eventId next rest
    else (dropped, last, stop, (some frame, next) :: rest)
  | rest => (dropped, last, stop, rest)

/-- The acts of a dropped batch: the cursor is written past every frame of it. -/
def passed (frames : List (Option HookIngress × Nat)) : List Act :=
  (frames.filterMap Prod.fst).map fun frame => .applied frame.eventId

section Drain
variable (crc32 : Bytes → UInt32) (fromStr : Bytes → Except Bytes HookIngress)

/-- `validate_ownership`: the cursor and the log file are the ones this drain has seen. -/
def validateOwnership (w : World) (run : Run) : Prop :=
  readCursor crc32 fromStr w.content w.cursor = .ok run.expected ∧ w.identity = run.identity

/-- The frames a drain that starts now would read. -/
def pending (w : World) : List HookIngress :=
  match readCursor crc32 fromStr w.content w.cursor with
  | .error _ => []
  | .ok cursor =>
    match repairAndRead crc32 fromStr w.content cursor.applied with
    | .error _ => []
    | .ok (records, _, _) => records.filterMap Prod.fst

/-- One step of an appender, of the event log, or of the drainer of boot `own`. Event ids are
`EventId::new` values, so a new frame has one that no frame before it had. -/
inductive Step (own : Option String) : World → World → Prop where
  | append {w : World} (ino : Nat) (f : Frame crc32 fromStr)
      (fresh : ∀ g, .appended g ∈ w.history → g.eventId ≠ f.value.eventId) :
      Step own w { w with
        log := w.write ino (encodeFrame crc32 f.bytes)
        history := w.history ++ [.appended f.value] }
  | tear {w : World} (ino : Nat) (f : Frame crc32 fromStr) (k : Nat)
      (torn : k < (encodeFrame crc32 f.bytes).length) :
      Step own w { w with log := w.write ino ((encodeFrame crc32 f.bytes).take k) }
  | events {w : World} (extent : LogExtent) : Step own w { w with extent := extent }
  | restart {w : World} : Step own w { w with pc := .idle }
  | load {w : World} {cursor : HookDrainCursor} (hpc : w.pc = .idle)
      (hread : readCursor crc32 fromStr w.content w.cursor = .ok cursor) :
      Step own w { w with pc := .opened cursor }
  | read {w : World} {cursor : HookDrainCursor} {records : List (Option HookIngress × Nat)}
      {bytes : Option Bytes} {diag : List DiagEvent} (hpc : w.pc = .opened cursor)
      (hread : repairAndRead crc32 fromStr w.content cursor.applied = .ok (records, bytes, diag)) :
      Step own w { w with
        log := w.rewrite bytes
        diag := w.diag ++ diag
        pc := if records = [] then .idle
          else .draining ⟨cursor, cursor, w.identity, records, cursor.applied⟩ }
  | skip {w : World} {run : Run} {stop : Nat} {rest : List (Option HookIngress × Nat)}
      (hpc : w.pc = .draining run) (hframes : run.frames = (none, stop) :: rest)
      (hown : validateOwnership crc32 fromStr w run) {cursor : HookDrainCursor}
      (hcursor : cursor = { run.expected with
        applied := stop, claimed := stop, appliedEventId := none, claimedEventId := none }) :
      Step own w { w with
        cursor := some cursor
        pc := .responding { run with expected := cursor, frames := rest, applied := stop } }
  | drop {w : World} {run : Run} {frame : HookIngress} {stop : Nat}
      {rest : List (Option HookIngress × Nat)} (hpc : w.pc = .draining run)
      (hframes : run.frames = (some frame, stop) :: rest) (hother : otherBoot own frame = true)
      (hown : validateOwnership crc32 fromStr w run) {dropped : Nat} {last : EventId} {stop' : Nat}
      {rest' : List (Option HookIngress × Nat)}
      (hdrop : dropOtherBoot own 1 frame.eventId stop rest = (dropped, last, stop', rest'))
      {cursor : HookDrainCursor}
      (hcursor : cursor = { run.expected with
        applied := stop', claimed := stop', appliedEventId := some last
        claimedEventId := some last }) :
      Step own w { w with
        cursor := some cursor
        diag := w.diag ++ [.hookIngressDropped dropped frame.eventId last]
        history := w.history ++ passed (run.frames.take dropped)
        pc := .responding { run with expected := cursor, frames := rest', applied := stop' } }
  | claim {w : World} {run : Run} {frame : HookIngress} {stop : Nat}
      {rest : List (Option HookIngress × Nat)} (hpc : w.pc = .draining run)
      (hframes : run.frames = (some frame, stop) :: rest) (hother : otherBoot own frame = false)
      (hown : validateOwnership crc32 fromStr w run) {recovering : Bool}
      (hrec : recovering = decide (run.cursor.applied < run.cursor.claimed
        ∧ stop = run.cursor.claimed)) {cursor : HookDrainCursor}
      (hcursor : cursor = { run.expected with
        claimed := stop, claimedEventId := some frame.eventId
        logExtentAtClaim := if recovering then run.expected.logExtentAtClaim else w.extent }) :
      Step own w { w with
        cursor := some cursor
        history := w.history ++ [.claimed frame.eventId cursor.logExtentAtClaim]
        pc := .claimed { run with expected := cursor, frames := rest } frame stop recovering }
  | hand {w : World} {run : Run} {frame : HookIngress} {stop : Nat} {recovering : Bool}
      (hpc : w.pc = .claimed run frame stop recovering) :
      Step own w { w with
        history := w.history
          ++ [.handed frame (if recovering then some run.cursor.logExtentAtClaim else none)]
        pc := .handed run frame stop }
  | settle {w : World} {run : Run} {frame : HookIngress} {stop : Nat}
      (hpc : w.pc = .handed run frame stop) (hown : validateOwnership crc32 fromStr w run)
      {cursor : HookDrainCursor}
      (hcursor : cursor = { run.expected with
        applied := stop, appliedEventId := some frame.eventId }) :
      Step own w { w with
        cursor := some cursor
        history := w.history ++ [.applied frame.eventId]
        pc := .responding { run with expected := cursor, applied := stop } }
  | respond {w : World} {run : Run} (hpc : w.pc = .responding run) :
      Step own w { w with pc := .draining run }
  | finish {w : World} {run : Run} {exhausted : Bool}
      (hpc : if exhausted then w.pc = .draining run ∧ run.frames = [] else w.pc = .responding run)
      (hlen : w.log.isSome ∧ run.applied = logLen w.content) :
      Step own w { w with pc := .finishing run exhausted }
  | unfinished {w : World} {run : Run} (hpc : w.pc = .finishing run false)
      (hdrained : drained crc32 fromStr w.content w.cursor = .ok false) :
      Step own w { w with pc := .responding run }
  | truncate {w : World} {run : Run} {exhausted : Bool} (hpc : w.pc = .finishing run exhausted)
      (hdrained : drained crc32 fromStr w.content w.cursor = .ok true) :
      Step own w { w with
        log := w.rewrite (some [])
        history := w.history ++ [.truncated]
        pc := .truncated run exhausted }
  | reset {w : World} {run : Run} {exhausted : Bool} (hpc : w.pc = .truncated run exhausted) :
      Step own w { w with
        cursor := some default
        pc := if exhausted then .idle else .responding { run with applied := 0 } }

end Drain

end Rimz.Ingress
