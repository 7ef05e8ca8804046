import Rimz.EventLog.Frame
import Rimz.Ids

/-!
# The hook ingress log and its cursor

`store/ingress.rs`. Hooks append frames to one log; the drainer keeps a cursor file with the offset
it has applied, the offset it has claimed and the event ids of the frames that end there. A crashed
append leaves the head of a frame without its newline, so a later frame can share its line.

The log is the contents of its file, `none` while there is none; the cursor file holds the last
cursor that was renamed into place.
-/

namespace Rimz.Ingress
open Rimz.Lib Rimz.EventLog

structure HookIngress where
  bootId : Option String
  schemaVersion : String
  eventId : EventId
  ts : Timestamp
  source : AgentKind
  event : Option String
  payload : String
  cwd : String
  hookPid : Nat
  env : List (String × String)
  deriving DecidableEq

def cursorVersion : Nat := 1

structure HookDrainCursor where
  version : Nat
  applied : Nat
  claimed : Nat
  appliedEventId : Option EventId
  claimedEventId : Option EventId
  logExtentAtClaim : LogExtent
  deriving DecidableEq

instance : Inhabited HookDrainCursor where
  default := ⟨cursorVersion, 0, 0, none, none, ⟨0, 0⟩⟩

/-- The `DiagEvent`s that the ingress log and its drain emit. -/
inductive DiagEvent where
  | hookIngressTruncated (start stop : Nat)
  | hookIngressSkipped (start stop : Nat) (error : EventLogErr)
  | hookIngressDropped (dropped : Nat) (firstIngress lastIngress : EventId)
  deriving DecidableEq

def logLen (log : Option Bytes) : Nat := (log.map List.length).getD 0

section Log
variable (crc32 : Bytes → UInt32) (fromStr : Bytes → Except Bytes HookIngress)

/-- The candidates of `fused_frame` from offset `pos` on: the first digit at which the rest of the
row decodes. -/
def findFused (pos : Nat) : Bytes → Option (Nat × HookIngress)
  | [] => none
  | b :: bs =>
    if 48 ≤ b ∧ b ≤ 57 then
      match decodeRecord crc32 fromStr pos true (b :: bs) with
      | .ok frame => some (pos, frame)
      | .error _ => findFused (pos + 1) bs
    else findFused (pos + 1) bs

/-- `fused_frame`: the whole frame a later appender wrote straight after a torn one. -/
def fusedFrame (pos : Nat) (row : Bytes) : Option (Nat × HookIngress) :=
  findFused crc32 fromStr (pos + 1) row.tail

/-- The loop of `repair_and_read` over the rows: the records, where the log is to be cut, and the
diagnostics. -/
def repairRows :
    List Row → Except EventLogErr (List (Option HookIngress × Nat) × Option Nat × List DiagEvent)
  | [] => .ok ([], none, [])
  | row :: rows =>
    let stop := row.offset + row.bytes.length + (if row.terminated then 1 else 0)
    if row.terminated = false then
      .ok ([], some row.offset, [.hookIngressTruncated row.offset stop])
    else
      match decodeRecord crc32 fromStr row.offset row.terminated row.bytes with
      | .ok frame =>
        (repairRows rows).map fun r => ((some frame, stop) :: r.1, r.2.1, r.2.2)
      | .error error =>
        if error.isCorruption then
          let fused := fusedFrame crc32 fromStr row.offset row.bytes
          let skipped := .hookIngressSkipped row.offset ((fused.map Prod.fst).getD stop) error
          (repairRows rows).map fun r =>
            ((fused.map Prod.snd, stop) :: r.1, r.2.1, skipped :: r.2.2)
        else .error error

/-- `repair_and_read`: the pending records, the log after the repair, and the diagnostics. -/
def repairAndRead (log : Option Bytes) (start : Nat) :
    Except EventLogErr (List (Option HookIngress × Nat) × Option Bytes × List DiagEvent) :=
  (repairRows crc32 fromStr (readRows log start)).map fun r =>
    (r.1, (match r.2.1 with | some cut => log.map (List.take cut) | none => log), r.2.2)

/-- One pass of the validation loop of `read_cursor`: whether the frame that ends at `stop` has the
recorded id. -/
def endsWith (log : Option Bytes) (stop : Nat) (expectedId : Option EventId) :
    Except EventLogErr Bool :=
  if stop = 0 then .ok expectedId.isNone
  else
    match readRowEndingAt log stop with
    | none => .ok false
    | some (pos, bytes) =>
      match decodeRecord crc32 fromStr pos true bytes with
      | .ok frame => .ok (expectedId == some frame.eventId)
      | .error error =>
        if error.isCorruption then
          .ok (expectedId == (fusedFrame crc32 fromStr pos bytes).map (·.2.eventId))
        else .error error

def readCursor (log : Option Bytes) (file : Option HookDrainCursor) :
    Except EventLogErr HookDrainCursor :=
  match file with
  | none => .ok default
  | some cursor =>
    if cursor.version ≠ cursorVersion then .error .io
    else if logLen log < cursor.applied ∨ logLen log < cursor.claimed then .ok default
    else do
      if (← endsWith crc32 fromStr log cursor.applied cursor.appliedEventId) = false then
        return default
      if (← endsWith crc32 fromStr log cursor.claimed cursor.claimedEventId) = false then
        return default
      return cursor

/-- The guard of `truncate_drained`: a log that is not empty, applied and claimed to its end. -/
def drained (log : Option Bytes) (file : Option HookDrainCursor) : Except EventLogErr Bool :=
  if logLen log = 0 then .ok false
  else (readCursor crc32 fromStr log file).map fun cursor =>
    decide (cursor.applied = logLen log ∧ cursor.claimed = logLen log)

end Log

end Rimz.Ingress
