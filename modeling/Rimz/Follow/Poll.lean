import Rimz.EventLog.Scan
import Rimz.Lib.Run

/-!
# Following the event log across rotations

`EventFollower::poll` and `LaunchTail::poll` of `store/follow.rs` against the writer of
`store/writer.rs`. Neither reader takes a lock: each file access of a poll is a step of its own, and
the writer's steps fall between any two of them. A rotation renames the active log to a new archive
and then publishes the next generation; the rewrite of the workspace identity replaces the active
log and then publishes. Both run under the workspace lock, so no frame is appended before the
publish.

Archive names sort in the order of their rotations: an archive is its index in that order.
-/

namespace Rimz.Follow
open Rimz.Lib Rimz.EventLog

/-- The two readers. They differ in what an error keeps and in one warning. -/
inductive Reader where
  | eventFollower
  | launchTail
  deriving DecidableEq

inductive Warning where
  | archiveGap (needed found : Nat)
  | archiveDisappeared (archive : Nat)
  | archiveTail (archive : Nat)
  | movedBackward (held published : Nat)

/-- Where a poll stands, with the generation it read and the archives it still has to read, each
with the offset it starts at. -/
inductive Pc where
  | idle
  | listing (generation : Nat)
  | archives (generation : Nat) (files : List (Nat × Nat))
  | stat (generation : Nat)
  | reading (generation : Nat)

/-- The files, whether the writer is between its change of the log and the publish, and the reader.
`appended` holds the events of the log from the cursor on at the time it was opened, and all later
ones. -/
structure World (T : Type*) where
  archives : List Bytes
  active : Option Bytes
  generation : Nat
  boundary : Bool
  cursor : LogExtent
  pc : Pc
  visited : List T
  warnings : List Warning
  failed : Bool
  appended : List T

/-- One step: of the writer, or of the poll. -/
inductive Act (T : Type*) (fromStr : Bytes → Except Bytes T) where
  | append (p : Payload fromStr)
  | rename
  | rewrite (ps : List (Payload fromStr))
  | publish
  | poll

def newestArchives (count limit : Nat) : List Nat := (List.range count).drop (count - limit)

/-- The offset each archive is read from: the held one in the first, if the archives are
complete. -/
def withStarts (complete : Bool) (offset : Nat) : List Nat → List (Nat × Nat)
  | [] => []
  | a :: rest => (a, if complete then offset else 0) :: rest.map fun b => (b, 0)

section Steps
variable {T : Type*} (crc32 : Bytes → UInt32) (fromStr : Bytes → Except Bytes T)

/-- `file_len` of the active log. -/
def World.activeLen (w : World T) : Nat := (w.active.getD []).length

/-- A poll that returns an error: `EventFollower` drops the events of the file it was reading. -/
def World.fail (w : World T) (reader : Reader) (events : List T) : World T :=
  { w with
    visited := w.visited ++ (match reader with | .launchTail => events | .eventFollower => [])
    failed := true
    pc := .idle }

/-- The next file access of a poll. -/
def pollStep (reader : Reader) (w : World T) : World T :=
  match w.pc with
  | .idle =>
    if w.cursor.generation < w.generation then { w with pc := .listing w.generation }
    else if w.generation < w.cursor.generation then
      { w with
        warnings := w.warnings ++ [.movedBackward w.cursor.generation w.generation]
        cursor := ⟨w.generation, 0⟩
        pc := .stat w.generation }
    else { w with pc := .stat w.generation }
  | .listing generation =>
    let needed := generation - w.cursor.generation
    let found := newestArchives w.archives.length needed
    let complete := found.length == needed
    { w with
      warnings := w.warnings ++ if complete then [] else [.archiveGap needed found.length]
      pc := .archives generation (withStarts complete w.cursor.offset found) }
  | .archives generation [] => { w with cursor := ⟨generation, 0⟩, pc := .stat generation }
  | .archives generation ((archive, start) :: files) =>
    match w.archives[archive]? with
    | none =>
      { w with
        warnings := w.warnings ++ [.archiveDisappeared archive]
        pc := .archives generation files }
    | some bytes =>
      let (events, result) := visitFromOffset crc32 fromStr (some bytes) start
      match result with
      | .error _ => w.fail reader events
      | .ok stop =>
        { w with
          visited := w.visited ++ events
          warnings := w.warnings
            ++ if reader = .launchTail ∧ stop ≠ bytes.length then [.archiveTail archive] else []
          pc := .archives generation files }
  | .stat generation =>
    { w with pc := if w.cursor.offset ≤ w.activeLen then .reading generation else .idle }
  | .reading _ =>
    let (events, result) := visitFromOffset crc32 fromStr w.active w.cursor.offset
    match result with
    | .error _ => w.fail reader events
    | .ok stop =>
      { w with
        visited := w.visited ++ events
        cursor := { w.cursor with offset := stop }
        pc := .idle }

/-- One step of the system, `none` where it cannot be taken. A file holds fewer than `2 ^ 63` bytes;
`rehome` is the change of the workspace id that the identity rewrite makes to every event. -/
def next (reader : Reader) (rehome : T → T) [DecidableEq T] (w : World T) :
    Act T fromStr → Option (World T)
  | .append p =>
    let bytes := w.active.getD [] ++ encodeFrame crc32 p.bytes
    if w.boundary = false ∧ bytes.length < 2 ^ 63 then
      some { w with active := some bytes, appended := w.appended ++ [p.value] }
    else none
  | .rename =>
    if w.boundary = false ∧ 0 < w.activeLen then
      some { w with
        archives := w.archives ++ [w.active.getD []], active := none, boundary := true }
    else none
  | .rewrite ps =>
    match readFromOffset crc32 fromStr w.active 0 with
    | .error _ => none
    | .ok (events, _) =>
      if w.boundary = false ∧ ps.map Payload.value = events.map rehome then
        some { w with active := some (encodeLog crc32 fromStr ps), boundary := true }
      else none
  | .publish =>
    if w.boundary then
      some { w with generation := min (w.generation + 1) u64Max, boundary := false }
    else none
  | .poll => some (pollStep crc32 fromStr reader w)

/-- A schedule of steps. -/
def run (reader : Reader) (rehome : T → T) [DecidableEq T] (acts : List (Act T fromStr))
    (w : World T) : Option (World T) :=
  acts.foldlM (next crc32 fromStr reader rehome) w

/-- A cursor has just been opened behind the frames `seen` of the active log. -/
def Opened (w : World T) : Prop :=
  w.boundary = false ∧ w.pc = .idle ∧ w.visited = [] ∧ w.failed = false
    ∧ w.generation = w.cursor.generation
    ∧ ∃ seen unread : List (Payload fromStr),
        w.active.getD [] = encodeLog crc32 fromStr (seen ++ unread) ∧ w.activeLen < 2 ^ 63
        ∧ w.cursor.offset = (encodeLog crc32 fromStr seen).length
        ∧ w.appended = unread.map Payload.value

/-- The steps a follower survives: no identity rewrite; no rotation under way or finished between a
poll's read of the generation and its listing of the archives; and no rotation published between
that read and the read of the active log, unless the new log is not yet longer than the held
offset. -/
def Calm (w : World T) : Act T fromStr → Prop
  | .append _ | .rename => True
  | .rewrite _ => False
  | .publish => w.generation < u64Max
  | .poll =>
    match w.pc with
    | .listing generation => w.generation = generation ∧ w.boundary = false
    | .reading generation => w.generation = generation ∨ w.activeLen ≤ w.cursor.offset
    | .idle | .archives _ _ | .stat _ => True

end Steps

end Rimz.Follow
