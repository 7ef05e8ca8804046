import Rimz.EventLog.Scan

/-!
# Repairing the event log

`store/event_log/recovery.rs`: `repair` walks the rows of a log and cuts it in front of the first
one that does not decode. The reader (`scanRecords`) has rules of its own for a spoiled tail. Both
agree on the frames in front of it, which are the longest prefix of valid terminated frames.
-/

namespace Rimz.EventLog
open Rimz.Lib

structure RepairOutcome where
  framesKept : Nat
  bytesTruncated : Nat

section Repair
variable {T : Type*} (crc32 : Bytes → UInt32) (fromStr : Bytes → Except Bytes T)

/-- The loop of `repair`: the frames kept, `valid_end` and `invalid_at`. -/
def validateRows (framesKept validEnd : Nat) :
    List Row → Except EventLogErr (Nat × Nat × Option Nat)
  | [] => .ok (framesKept, validEnd, none)
  | row :: rows =>
    match decodeRecord crc32 fromStr row.offset row.terminated row.bytes with
    | .ok _ =>
      validateRows (framesKept + 1) (row.offset + row.bytes.length + row.terminated.toNat) rows
    | .error err =>
      if err.isCorruption then .ok (framesKept, validEnd, some row.offset) else .error err

/-- `repair`: what it reports and the file it leaves. -/
def repair (file : Option Bytes) : Except EventLogErr (RepairOutcome × Option Bytes) :=
  match validateRows crc32 fromStr 0 0 (readRows file 0), file with
  | .error err, _ => .error err
  | .ok (framesKept, _, none), _ => .ok (⟨framesKept, 0⟩, file)
  -- a log that went away under the repair has no length
  | .ok (_, _, some _), none => .error .io
  | .ok (framesKept, _, some invalidAt), some bytes =>
    .ok (⟨framesKept, bytes.length - invalidAt⟩, some (bytes.take invalidAt))

/-- Bytes that are a sequence of valid terminated frames, with the records they hold. -/
inductive Frames : Bytes → List T → Prop
  | nil : Frames [] []
  | cons {line rest : Bytes} {value : T} {values : List T} (oneLine : (10 : UInt8) ∉ line)
      (decodes : decodeRecord crc32 fromStr 0 true line = .ok value) (more : Frames rest values) :
      Frames (line ++ 10 :: rest) (value :: values)

/-- No valid terminated frame begins these bytes. -/
def Spoiled (bytes : Bytes) : Prop :=
  ∀ line rest value, bytes = line ++ 10 :: rest → (10 : UInt8) ∉ line →
    decodeRecord crc32 fromStr 0 true line ≠ .ok value

variable {crc32 fromStr} {keep rest line bytes : Bytes} {values : List T} {value : T}

/-! ## Decoding one row -/

lemma decodeLine_toOption (offset : Nat) :
    (decodeLine crc32 fromStr line offset).toOption
      = (decodeLine crc32 fromStr line 0).toOption := by
  unfold decodeLine
  split
  · rfl
  split
  · rfl
  dsimp only
  split
  · rfl
  split
  · split
    · rfl
    · cases fromStr (splitCrc _).2 <;> rfl
  · cases fromStr (splitCrc _).2 <;> rfl

lemma decodeRecord_toOption (offset : Nat) :
    (decodeRecord crc32 fromStr offset true line).toOption
      = (decodeRecord crc32 fromStr 0 true line).toOption := by
  unfold decodeRecord
  rw [if_neg (by decide), if_neg (by decide)]
  split
  · exact decodeLine_toOption offset
  · rfl

lemma decodeRecord_ok (h : decodeRecord crc32 fromStr 0 true line = .ok value) (offset : Nat) :
    decodeRecord crc32 fromStr offset true line = .ok value := by
  have heq : (decodeRecord crc32 fromStr offset true line).toOption = _ :=
    decodeRecord_toOption offset
  rw [h] at heq
  cases hd : decodeRecord crc32 fromStr offset true line with
  | ok found =>
    rw [hd] at heq
    cases heq
    rfl
  | error err =>
    rw [hd] at heq
    cases heq

lemma decodeRecord_error (h : ∀ value, decodeRecord crc32 fromStr 0 true line ≠ .ok value)
    (offset : Nat) : ∃ err, decodeRecord crc32 fromStr offset true line = .error err := by
  cases hd : decodeRecord crc32 fromStr offset true line with
  | error err => exact ⟨err, rfl⟩
  | ok found =>
    have heq : (decodeRecord crc32 fromStr offset true line).toOption = _ :=
      decodeRecord_toOption offset
    cases h0 : decodeRecord crc32 fromStr 0 true line with
    | ok value => exact absurd h0 (h value)
    | error err =>
      rw [hd, h0] at heq
      cases heq

lemma isCorruption_of_decodeLine {offset err}
    (h : decodeLine crc32 fromStr line offset = .error err) :
    err.isCorruption = true := by
  have json {payload : Bytes}
      (h : (fromStr payload).mapError (fun e => EventLogErr.torn offset (ascii "json: " ++ e))
        = .error err) : err.isCorruption = true := by
    cases hjson : fromStr payload with
    | ok value =>
      rw [hjson] at h
      cases h
    | error e =>
      rw [hjson] at h
      cases h
      rfl
  unfold decodeLine at h
  split at h
  · cases h
    rfl
  split at h
  · cases h
    rfl
  dsimp only at h
  split at h
  · cases h
    rfl
  split at h
  · split at h
    · cases h
      rfl
    · exact json h
  · exact json h

lemma isCorruption_of_decodeRecord {offset terminated err}
    (h : decodeRecord crc32 fromStr offset terminated line = .error err) :
    err.isCorruption = true := by
  unfold decodeRecord at h
  split at h
  · cases h
    rfl
  split at h
  · exact isCorruption_of_decodeLine h
  · cases h
    rfl

/-! ## The valid prefix -/

/-- Every log is a sequence of valid frames and what no valid frame begins. -/
lemma exists_frames (crc32 : Bytes → UInt32) (fromStr : Bytes → Except Bytes T) (bytes : Bytes) :
    ∃ keep rest values, bytes = keep ++ rest ∧ Frames crc32 fromStr keep values
      ∧ Spoiled crc32 fromStr rest := by
  induction bytes using lines_induction with
  | nil => exact ⟨[], [], [], rfl, .nil, fun line rest value h => by simp at h⟩
  | torn line _ hline =>
    refine ⟨[], line, [], rfl, .nil, fun front rest value h => ?_⟩
    rw [h] at hline
    simp at hline
  | row line rest hline ih =>
    cases hd : decodeRecord crc32 fromStr 0 true line with
    | ok value =>
      obtain ⟨keep, left, values, rfl, hkeep, hleft⟩ := ih
      exact ⟨line ++ 10 :: keep, left, value :: values, by simp, .cons hline hd hkeep, hleft⟩
    | error err =>
      refine ⟨[], line ++ 10 :: rest, [], rfl, .nil, fun front more value h hfront => ?_⟩
      obtain ⟨rfl, _⟩ := line_inj h hline hfront
      rw [hd]
      exact nofun

/-- No sequence of valid frames reaches into what no valid frame begins. -/
lemma Frames.length_le (hkeep : Frames crc32 fromStr keep values)
    (hrest : Spoiled crc32 fromStr rest)
    {longer others} (hlonger : Frames crc32 fromStr longer others) (hpre : longer <+: keep ++ rest) :
    longer.length ≤ keep.length := by
  induction hkeep generalizing longer others with
  | nil =>
    cases hlonger with
    | nil => exact Nat.le_refl _
    | cons hline hdecodes _ =>
      obtain ⟨tail, htail⟩ := hpre
      rw [nil_append, append_assoc, cons_append] at htail
      exact absurd hdecodes (hrest _ _ _ htail.symm hline)
  | cons hline _ _ ih =>
    cases hlonger with
    | nil => exact Nat.zero_le _
    | cons hline' _ hmore =>
      obtain ⟨tail, htail⟩ := hpre
      simp only [append_assoc, cons_append] at htail
      obtain ⟨rfl, hmoreTail⟩ := line_inj htail hline' hline
      have := ih hmore ⟨tail, hmoreTail⟩
      simp only [length_append, length_cons]
      omega

/-! ## Repair and scan over the valid prefix -/

lemma validateRows_spoiled (hrest : Spoiled crc32 fromStr rest) (framesKept start : Nat) :
    validateRows crc32 fromStr framesKept start (numberRows start (rowsOf 10 rest))
      = .ok (framesKept, start, if rest = [] then none else some start) := by
  rcases lines_cases rest with rfl | ⟨hne, hline⟩ | ⟨line, more, rfl, hline⟩
  · rfl
  · rw [numberRows_torn hline hne, if_neg hne]
    rfl
  obtain ⟨err, herr⟩ := decodeRecord_error (fun value => hrest line more value rfl hline) start
  rw [numberRows_line hline, validateRows, herr]
  simp only [isCorruption_of_decodeRecord herr, if_true]
  rw [if_neg (by simp)]

/-- What the walk of `repair` finds in a log: every valid frame, then where the rest begins. -/
lemma validateRows_append (hkeep : Frames crc32 fromStr keep values)
    (hrest : Spoiled crc32 fromStr rest) (framesKept start : Nat) :
    validateRows crc32 fromStr framesKept start (numberRows start (rowsOf 10 (keep ++ rest)))
      = .ok (framesKept + values.length, start + keep.length,
          if rest = [] then none else some (start + keep.length)) := by
  induction hkeep generalizing framesKept start with
  | nil => exact validateRows_spoiled hrest framesKept start
  | @cons line keep _ values hline hdecodes _ ih =>
    have hframes : framesKept + 1 + values.length = framesKept + (values.length + 1) := by omega
    have hend : start + (line.length + 1) + keep.length
        = start + (line.length + (keep.length + 1)) := by omega
    rw [append_assoc, cons_append, numberRows_line hline, validateRows,
      decodeRecord_ok hdecodes]
    rw [Nat.add_assoc, Bool.toNat_true, ih, hframes, hend, length_append, length_cons,
      length_cons]

/-- In front of what no valid frame begins, the reader stops too: it fails only where more follows
a spoiled line. -/
lemma scanRecords_spoiled (hrest : Spoiled crc32 fromStr rest) (start : Nat) :
    (scanRecords crc32 fromStr start rest).1 = []
      ∧ ∀ stop, (scanRecords crc32 fromStr start rest).2 = .ok stop → stop = start := by
  rcases lines_cases rest with rfl | ⟨hne, hline⟩ | ⟨line, more, rfl, hline⟩
  · refine ⟨rfl, fun stop h => ?_⟩
    cases h
    rfl
  · rw [scanRecords, rowsOf_eq_singleton hline hne, scanRows, if_pos (getLast?_of_notMem hline)]
    refine ⟨rfl, fun stop h => ?_⟩
    cases h
    rfl
  obtain ⟨err, herr⟩ := decodeRecord_error (fun value => hrest line more value rfl hline) start
  rw [scanRecords, rowsOf_append_delim hline, scanRows]
  simp only [List.getLast?_concat, List.dropLast_concat, herr]
  rw [if_neg (by simp)]
  split
  · refine ⟨rfl, fun stop h => ?_⟩
    cases h
    rfl
  · exact ⟨rfl, fun _ h => by cases h⟩

lemma scanRecords_line (hline : (10 : UInt8) ∉ line)
    (hdecodes : decodeRecord crc32 fromStr 0 true line = .ok value) (start : Nat) :
    scanRecords crc32 fromStr start (line ++ 10 :: rest)
      = let after := scanRecords crc32 fromStr (start + (line.length + 1)) rest
        ((value, start + (line.length + 1)) :: after.1, after.2) := by
  rw [scanRecords, rowsOf_append_delim hline, scanRows]
  simp only [List.getLast?_concat, List.dropLast_concat, decodeRecord_ok hdecodes]
  simp [scanRecords]

section
variable (hkeep : Frames crc32 fromStr keep values)
include hkeep

/-- The reader visits every valid frame, whatever spoiled bytes follow; where it succeeds it ends
with them. -/
lemma scanRecords_append (start : Nat) :
    ∃ records, records.map Prod.fst = values
      ∧ scanRecords crc32 fromStr start keep = (records, .ok (start + keep.length))
      ∧ ∀ rest, Spoiled crc32 fromStr rest →
        (scanRecords crc32 fromStr start (keep ++ rest)).1 = records
          ∧ ∀ stop, (scanRecords crc32 fromStr start (keep ++ rest)).2 = .ok stop →
            stop = start + keep.length := by
  induction hkeep generalizing start with
  | nil => exact ⟨[], rfl, rfl, fun rest hrest => scanRecords_spoiled hrest start⟩
  | @cons line _ value _ hline hdecodes _ ih =>
    obtain ⟨records, hvalues, hscan, hspoiled⟩ := ih (start + (line.length + 1))
    refine ⟨(value, start + (line.length + 1)) :: records, by simp [hvalues], ?_, ?_⟩
    · rw [scanRecords_line hline hdecodes, hscan]
      simp [Nat.add_comm, Nat.add_left_comm]
    · intro rest hrest
      obtain ⟨hvisited, hstop⟩ := hspoiled rest hrest
      rw [append_assoc, cons_append, scanRecords_line hline hdecodes]
      refine ⟨by simp [hvisited], fun stop h => ?_⟩
      rw [hstop stop h]
      simp only [length_append, length_cons]
      omega

lemma repair_frames :
    repair crc32 fromStr (some keep) = .ok (⟨values.length, 0⟩, some keep) := by
  have hnone : Spoiled crc32 fromStr [] := fun line rest value h => by simp at h
  have hwalk := validateRows_append hkeep hnone 0 0
  rw [append_nil, if_pos rfl] at hwalk
  simp only [repair, readRows, List.drop_zero, hwalk, Nat.zero_add]

lemma repair_append (hrest : Spoiled crc32 fromStr rest) :
    repair crc32 fromStr (some (keep ++ rest)) = .ok (⟨values.length, rest.length⟩, some keep) := by
  by_cases hnil : rest = []
  · subst hnil
    rw [append_nil]
    exact repair_frames hkeep
  have hwalk := validateRows_append hkeep hrest 0 0
  rw [if_neg hnil] at hwalk
  simp only [repair, readRows, List.drop_zero, hwalk, Nat.zero_add]
  simp

end

/-- Repairing any log keeps exactly its longest prefix of valid terminated frames and reports it,
repairing again changes nothing, and the reader then visits exactly those frames and ends at the new
length. Where the reader took the log before, it visits and returns the same after. -/
theorem repair_keeps_valid_prefix (bytes : Bytes) :
    ∃ keep values,
      repair crc32 fromStr (some bytes)
          = .ok (⟨values.length, bytes.length - keep.length⟩, some keep)
        ∧ keep <+: bytes ∧ Frames crc32 fromStr keep values
        ∧ (∀ longer others, longer <+: bytes → Frames crc32 fromStr longer others →
          longer.length ≤ keep.length)
        ∧ repair crc32 fromStr (some keep) = .ok (⟨values.length, 0⟩, some keep)
        ∧ (∃ records, scanRecords crc32 fromStr 0 keep = (records, .ok keep.length)
          ∧ records.map Prod.fst = values)
        ∧ ∀ stop, (scanRecords crc32 fromStr 0 bytes).2 = .ok stop →
          scanRecords crc32 fromStr 0 bytes = scanRecords crc32 fromStr 0 keep := by
  obtain ⟨keep, rest, values, rfl, hkeep, hrest⟩ := exists_frames crc32 fromStr bytes
  obtain ⟨records, hvalues, hscan, hspoiled⟩ := scanRecords_append hkeep 0
  obtain ⟨hvisited, hstop⟩ := hspoiled rest hrest
  rw [Nat.zero_add] at hscan hstop
  refine ⟨keep, values, ?_, prefix_append _ _, hkeep,
    fun longer others hpre hlonger => hkeep.length_le hrest hlonger hpre, repair_frames hkeep,
    ⟨records, hscan, hvalues⟩, fun stop h => ?_⟩
  · rw [repair_append hkeep hrest, length_append, Nat.add_sub_cancel_left]
  · rw [hscan, ← hvisited, ← hstop stop h, ← h]

/-! ## Crashes between appends -/

variable (crc32 fromStr) in
/-- The log that `repair` leaves. -/
def repaired (log : Bytes) : Bytes :=
  ((repair crc32 fromStr (some log)).toOption.bind Prod.snd).getD log

variable (crc32) in
/-- An `append_batch` of which so many bytes reach the disk, then a repair. -/
def crashRound (log : Bytes) (batch : List (Payload fromStr) × Nat) : Bytes :=
  repaired crc32 fromStr (log ++ (encodeLog crc32 fromStr batch.1).take batch.2)

variable (crc32) in
/-- The records of a batch whose frame was written whole. -/
def writtenWhole (batch : List (Payload fromStr) × Nat) : List T :=
  ((framed crc32 fromStr 0 batch.1).filter (·.2 ≤ batch.2)).map Prod.fst

section
variable (hkeep : Frames crc32 fromStr keep values)
include hkeep

lemma repaired_append (hrest : Spoiled crc32 fromStr rest) :
    repaired crc32 fromStr (keep ++ rest) = keep := by
  simp [repaired, repair_append hkeep hrest, Except.toOption]

lemma Frames.append {more others} (hmore : Frames crc32 fromStr more others) :
    Frames crc32 fromStr (keep ++ more) (values ++ others) := by
  induction hkeep with
  | nil => exact hmore
  | cons hline hdecodes _ ih => simpa using Frames.cons hline hdecodes ih

lemma Frames.round (batch : List (Payload fromStr) × Nat) :
    Frames crc32 fromStr (crashRound crc32 keep batch) (values ++ writtenWhole crc32 batch) := by
  obtain ⟨more, torn, others, hcut, hmore, htorn⟩ :=
    exists_frames crc32 fromStr ((encodeLog crc32 fromStr batch.1).take batch.2)
  -- the reader of the cut says which frames are whole
  obtain ⟨_, hothers, -, hspoiled⟩ := scanRecords_append hmore 0
  have hwritten : others = writtenWhole crc32 batch := by
    rw [← hothers, ← (hspoiled torn htorn).1, ← hcut, scanRecords_take]
    simp [writtenWhole]
  have hall := hkeep.append hmore
  rwa [crashRound, hcut, ← append_assoc, repaired_append hall htorn, ← hwritten]

lemma Frames.rounds (rounds : List (List (Payload fromStr) × Nat)) :
    Frames crc32 fromStr (rounds.foldl (crashRound crc32) keep)
      (values ++ rounds.flatMap (writtenWhole crc32)) := by
  induction rounds generalizing keep values with
  | nil => simpa using hkeep
  | cons batch rounds ih =>
    rw [foldl_cons, flatMap_cons, ← append_assoc]
    exact ih (hkeep.round batch)

end

/-- Through any number of appends, crashes and repairs, the log reads to its end: what the first
repair kept of any bytes and then, in order, exactly the records whose frames were written whole. -/
theorem crash_rounds_keep_whole_frames (bytes : Bytes)
    (rounds : List (List (Payload fromStr) × Nat)) :
    let read := scanRecords crc32 fromStr 0
    let first := repaired crc32 fromStr bytes
    let log := rounds.foldl (crashRound crc32) first
    (read log).2 = .ok log.length
      ∧ (read log).1.map Prod.fst
        = (read first).1.map Prod.fst ++ rounds.flatMap (writtenWhole crc32) := by
  obtain ⟨keep, rest, values, rfl, hkeep, hrest⟩ := exists_frames crc32 fromStr bytes
  obtain ⟨_, hfirst, hread, -⟩ := scanRecords_append hkeep 0
  obtain ⟨_, hrecords, hscan, -⟩ := scanRecords_append (hkeep.rounds rounds) 0
  simp [repaired_append hkeep hrest, hread, hfirst, hscan, hrecords]

end Repair

end Rimz.EventLog
