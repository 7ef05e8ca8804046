import Rimz.EventLog.Frame

/-!
# Scanning the event log

`store/event_log.rs`: `scan_records` walks the rows of a reader and stops in front of an in-flight
tail. Reading any cut of a log that holds whole frames visits exactly the frames the cut covers.
-/

namespace Rimz.EventLog
open Rimz.Lib

section Scan
variable {T : Type*} (crc32 : Bytes → UInt32) (fromStr : Bytes → Except Bytes T)

/-- The loop of `scan_records` over the rows of its reader: the records visited, each with the
offset after its frame, and what the function returns. -/
def scanRows (offset : Nat) : List Bytes → List (T × Nat) × Except EventLogErr Nat
  | [] => ([], .ok offset)
  | row :: rows =>
    -- A row without its newline is where the read met the end of input.
    if row.getLast? ≠ some 10 then ([], .ok offset)
    else
      match decodeRecord crc32 fromStr offset true row.dropLast with
      | .ok event =>
        let rest := scanRows (offset + row.length) rows
        ((event, offset + row.length) :: rest.1, rest.2)
      | .error err =>
        -- A terminated undecodable row is a torn tail only when no byte follows it.
        if err.isCorruption = true ∧ rows = [] then ([], .ok offset) else ([], .error err)

def scanRecords (start : Nat) (reader : Bytes) : List (T × Nat) × Except EventLogErr Nat :=
  scanRows crc32 fromStr start (rowsOf 10 reader)

/-- `visit_records_through_offset` on a file that may be missing. -/
def visitRecordsThroughOffset (file : Option Bytes) (start through : Nat) :
    List (T × Nat) × Except EventLogErr Nat :=
  match file with
  | none => ([], .ok start)
  | some bytes => scanRecords crc32 fromStr start ((bytes.drop start).take (through - start))

def visitRecordsFromOffset (file : Option Bytes) (start : Nat) :
    List (T × Nat) × Except EventLogErr Nat :=
  visitRecordsThroughOffset crc32 fromStr file start u64Max

def visitFromOffset (file : Option Bytes) (start : Nat) : List T × Except EventLogErr Nat :=
  let visited := visitRecordsFromOffset crc32 fromStr file start
  (visited.1.map Prod.fst, visited.2)

def readFromOffset (file : Option Bytes) (start : Nat) : Except EventLogErr (List T × Nat) :=
  let visited := visitFromOffset crc32 fromStr file start
  visited.2.map fun stop => (visited.1, stop)

/-- The log the append path writes: the frames of its payloads, one after the other. -/
def encodeLog (ps : List (Payload fromStr)) : Bytes :=
  (ps.map fun p => encodeFrame crc32 p.bytes).flatten

/-- The records of a log with the offset after each one's frame, newline included. -/
def framed (start : Nat) : List (Payload fromStr) → List (T × Nat)
  | [] => []
  | p :: ps =>
    (p.value, start + (encodeFrame crc32 p.bytes).length)
      :: framed (start + (encodeFrame crc32 p.bytes).length) ps

/-- The offset after the last record of a list, `start` when there is none. -/
def lastEnd (start : Nat) (records : List (T × Nat)) : Nat :=
  records.getLast?.elim start Prod.snd

variable {crc32 fromStr}

lemma lastEnd_cons (start : Nat) (r : T × Nat) (rs : List (T × Nat)) :
    lastEnd start (r :: rs) = lastEnd r.2 rs := by
  cases rs with
  | nil => rfl
  | cons s ss =>
    obtain ⟨x, hx⟩ : ∃ x, (s :: ss).getLast? = some x := ⟨_, List.getLast?_eq_some_getLast (by simp)⟩
    simp only [lastEnd, List.getLast?_cons_cons, hx, Option.elim_some]

lemma lt_of_mem_framed {start ps r} (h : r ∈ framed crc32 fromStr start ps) : start < r.2 := by
  induction ps generalizing start with
  | nil => exact absurd h (by simp [framed])
  | cons p ps ih =>
    have hp : 0 < (encodeFrame crc32 p.bytes).length := by simp [encodeFrame]
    rcases mem_cons.mp h with rfl | h
    · simpa using hp
    · have := ih h
      omega

lemma scanRecords_frame (p : Payload fromStr) (start : Nat) (rest : Bytes) :
    scanRecords crc32 fromStr start (encodeFrame crc32 p.bytes ++ rest)
      = let stop := start + (encodeFrame crc32 p.bytes).length
        let after := scanRecords crc32 fromStr stop rest
        ((p.value, stop) :: after.1, after.2) := by
  have hrow : rowsOf 10 (encodeFrame crc32 p.bytes ++ rest)
      = encodeFrame crc32 p.bytes :: rowsOf 10 rest := by
    rw [encodeFrame_eq, append_assoc, singleton_append,
      rowsOf_append_delim (notMem_frameLine p.oneLine)]
  have hlast : (encodeFrame crc32 p.bytes).getLast? = some 10 := by simp [encodeFrame_eq]
  have hline : (encodeFrame crc32 p.bytes).dropLast = frameLine crc32 p.bytes := by
    simp [encodeFrame_eq]
  simp only [scanRecords, hrow, scanRows, hlast, hline, ne_eq, not_true_eq_false, if_false,
    decodeRecord_frameLine]

lemma scanRecords_cutFrame (p : Payload fromStr) (start : Nat) {k}
    (h : k < (encodeFrame crc32 p.bytes).length) :
    scanRecords crc32 fromStr start ((encodeFrame crc32 p.bytes).take k) = ([], .ok start) := by
  have hk : k ≤ (frameLine crc32 p.bytes).length := by
    simp only [encodeFrame_eq, length_append, length_singleton] at h
    omega
  have hn : (10 : UInt8) ∉ (frameLine crc32 p.bytes).take k :=
    fun hm => notMem_frameLine p.oneLine (List.mem_of_mem_take hm)
  rw [encodeFrame_eq, List.take_append_of_le_length hk]
  by_cases he : (frameLine crc32 p.bytes).take k = []
  · simp [he, scanRecords, rowsOf, scanRows]
  · have hlast : ((frameLine crc32 p.bytes).take k).getLast? ≠ some 10 :=
      fun e => hn (mem_of_getLast? e)
    rw [scanRecords, rowsOf_eq_singleton hn he, scanRows, if_pos hlast]

/-- Scanning a cut of a log, from any start: exactly the frames within the cut. -/
lemma scanRecords_take (ps : List (Payload fromStr)) (start k : Nat) :
    scanRecords crc32 fromStr start ((encodeLog crc32 fromStr ps).take k)
      = let committed := (framed crc32 fromStr start ps).filter fun r => r.2 ≤ start + k
        (committed, .ok (lastEnd start committed)) := by
  induction ps generalizing start k with
  | nil => simp [encodeLog, framed, lastEnd, scanRecords, rowsOf, scanRows]
  | cons p ps ih =>
    have hlog : encodeLog crc32 fromStr (p :: ps)
        = encodeFrame crc32 p.bytes ++ encodeLog crc32 fromStr ps := by simp [encodeLog]
    by_cases hk : (encodeFrame crc32 p.bytes).length ≤ k
    · -- The first frame survives the cut; the rest of the log is cut at what remains of `k`.
      have htake : (encodeFrame crc32 p.bytes ++ encodeLog crc32 fromStr ps).take k
          = encodeFrame crc32 p.bytes
            ++ (encodeLog crc32 fromStr ps).take (k - (encodeFrame crc32 p.bytes).length) := by
        rw [List.take_append, take_of_length_le hk]
      have hstop : start + (encodeFrame crc32 p.bytes).length ≤ start + k := by omega
      have hcut : start + (encodeFrame crc32 p.bytes).length
          + (k - (encodeFrame crc32 p.bytes).length) = start + k := by omega
      rw [hlog, htake, scanRecords_frame]
      simp only [ih, hcut, framed, filter_cons, decide_eq_true hstop, if_true, lastEnd_cons]
    -- The cut falls inside the first frame, so every frame ends beyond it.
    have hlt : k < (encodeFrame crc32 p.bytes).length := by omega
    have hnone : ((framed crc32 fromStr start (p :: ps)).filter fun r => r.2 ≤ start + k) = [] := by
      refine filter_eq_nil_iff.mpr fun r hr => ?_
      rcases mem_cons.mp hr with rfl | hr
      · simp only [decide_eq_true_eq]
        omega
      · have := lt_of_mem_framed hr
        simp only [decide_eq_true_eq]
        omega
    rw [hlog, List.take_append_of_le_length (by omega), scanRecords_cutFrame p start hlt, hnone]
    rfl

lemma encodeLog_append {a b} :
    encodeLog crc32 fromStr (a ++ b) = encodeLog crc32 fromStr a ++ encodeLog crc32 fromStr b := by
  simp [encodeLog]

lemma scanRecords_log (crc32 : Bytes → UInt32) (ps : List (Payload fromStr)) (start : Nat) :
    ∃ records, scanRecords crc32 fromStr start (encodeLog crc32 fromStr ps)
        = (records, .ok (start + (encodeLog crc32 fromStr ps).length))
      ∧ records.map Prod.fst = ps.map Payload.value := by
  induction ps generalizing start with
  | nil => exact ⟨[], rfl, rfl⟩
  | cons p ps ih =>
    obtain ⟨records, hs, hv⟩ := ih (start + (encodeFrame crc32 p.bytes).length)
    have hlog : encodeLog crc32 fromStr (p :: ps)
        = encodeFrame crc32 p.bytes ++ encodeLog crc32 fromStr ps := by simp [encodeLog]
    refine ⟨(p.value, start + (encodeFrame crc32 p.bytes).length) :: records, ?_, by simp [hv]⟩
    rw [hlog, scanRecords_frame]
    simp [hs, Nat.add_assoc]

/-- Reading a log behind its first frames visits exactly the others. -/
lemma visitFromOffset_log (a b : List (Payload fromStr))
    (hsize : (encodeLog crc32 fromStr (a ++ b)).length < 2 ^ 63) :
    visitFromOffset crc32 fromStr (some (encodeLog crc32 fromStr (a ++ b)))
        (encodeLog crc32 fromStr a).length
      = (b.map Payload.value, .ok (encodeLog crc32 fromStr (a ++ b)).length) := by
  obtain ⟨records, hs, hv⟩ := scanRecords_log crc32 b (encodeLog crc32 fromStr a).length
  have htake : ((encodeLog crc32 fromStr (a ++ b)).drop (encodeLog crc32 fromStr a).length).take
      (u64Max - (encodeLog crc32 fromStr a).length) = encodeLog crc32 fromStr b := by
    rw [encodeLog_append, drop_left]
    refine take_of_length_le ?_
    rw [encodeLog_append, length_append] at hsize
    simp only [u64Max]
    omega
  simp only [visitFromOffset, visitRecordsFromOffset, visitRecordsThroughOffset, htake, hs, hv]
  rw [encodeLog_append, length_append]

lemma visitFromOffset_end {file start} (h : (file.getD []).length ≤ start) :
    visitFromOffset crc32 fromStr file start = ([], .ok start) := by
  cases file with
  | none => rfl
  | some bytes =>
    have hdrop : bytes.drop start = [] := List.drop_of_length_le h
    simp [visitFromOffset, visitRecordsFromOffset, visitRecordsThroughOffset, hdrop, scanRecords,
      rowsOf, scanRows]

/-- Reading the first `k` bytes of a log never fails: it visits, in order and once each, the records
whose whole frame lies within the cut, and claims the end of the last of them. -/
theorem read_cut_log (ps : List (Payload fromStr)) (k : UInt64) :
    let cut := (encodeLog crc32 fromStr ps).take k.toNat
    let committed := (framed crc32 fromStr 0 ps).filter fun r => r.2 ≤ k.toNat
    scanRecords crc32 fromStr 0 cut = (committed, .ok (lastEnd 0 committed))
      ∧ visitFromOffset crc32 fromStr (some cut) 0
          = (committed.map Prod.fst, .ok (lastEnd 0 committed))
      ∧ readFromOffset crc32 fromStr (some cut) 0
          = .ok (committed.map Prod.fst, lastEnd 0 committed) := by
  intro cut committed
  have hscan : scanRecords crc32 fromStr 0 cut = (committed, .ok (lastEnd 0 committed)) := by
    simpa using scanRecords_take ps 0 k.toNat
  -- The reader's limit of `u64::MAX` bytes cuts nothing more off.
  have hlimit : cut.take (u64Max - 0) = cut := by
    refine take_of_length_le ?_
    have h1 : cut.length ≤ k.toNat := List.length_take_le _ _
    have h2 : k.toNat < 2 ^ 64 := k.toNat_lt
    simp only [u64Max]
    omega
  have hvisit : visitFromOffset crc32 fromStr (some cut) 0
      = (committed.map Prod.fst, .ok (lastEnd 0 committed)) := by
    simp only [visitFromOffset, visitRecordsFromOffset, visitRecordsThroughOffset, List.drop_zero,
      hlimit, hscan]
  refine ⟨hscan, hvisit, ?_⟩
  simp only [readFromOffset, hvisit]
  rfl

end Scan

example :
    scanRecords (fun _ => 0) (fun b => .ok b) 0 (ascii "2 00000000 \x7b\x7d\n2 0000")
      = ([(ascii "\x7b\x7d", 14)], .ok 14) := by decide +kernel

end Rimz.EventLog
