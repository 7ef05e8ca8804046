import Rimz.Lib.Bytes
import Rimz.Lib.OrderedMap
import Rimz.Lib.Run
import Rimz.Lib.Sort
import Rimz.Ids
import Mathlib.Data.List.Flatten
import Mathlib.Data.List.Induction
import Mathlib.Data.List.Perm.Subperm

/-!
# The history files of the message queue

Terminal messages move to JSON-lines files, one a week (`store/message/codec.rs`,
`disk/buckets.rs`). An append writes the rows of one file in one go and a crash can cut it anywhere.
The reader forgives an undecodable row only where it is the unterminated tail, and the next append
goes on right behind that tail.

The record type is a parameter, with the two fields the history reads and its `serde_json` text; so
is the date text of `strftime`.
-/

namespace Rimz.Queue
open Rimz.Lib Std

/-- A record type as the history sees it. `serde_json::to_writer` gives one line of text between
braces, and `from_slice` reads it back. -/
structure RecordCodec (R : Type*) where
  messageId : R → MessageId
  updatedAt : R → Timestamp
  toVec : R → Bytes
  fromSlice : Bytes → Except Bytes R
  oneLine : ∀ record, (10 : UInt8) ∉ toVec record
  opens : ∀ record, (toVec record).head? = some 123
  closes : ∀ record, (toVec record).getLast? = some 125
  decodes : ∀ record, fromSlice (toVec record) = .ok record

/-- What a read of the history fails with: the file and the decoder's message. -/
structure JsonErr where
  path : String
  source : Bytes
  deriving DecidableEq

def historyReadLimit : Nat := 500

def transcriptFileDays : Nat := 7

def isAsciiWhitespace (b : UInt8) : Bool :=
  b == 32 || b == 9 || b == 10 || b == 12 || b == 13

/-- `<[u8]>::trim_ascii`. -/
def trimAscii (bytes : Bytes) : Bytes :=
  ((bytes.dropWhile isAsciiWhitespace).reverse.dropWhile isAsciiWhitespace).reverse

/-- The first day of the files' window that an instant is in, since the epoch. -/
def bucketDay (at_ : Timestamp) (fileDays : Nat) : Int :=
  let days := Int.tdiv at_ 1000000000 / 86400
  let window : Int := max fileDays 1
  days / window * window

/-- The files of the history directory by name, in the order `files.sort()` gives. -/
abbrev HistoryDir := ExtTreeMap String Bytes compare

/-- The bytes of a file, none for one that is not there. -/
def contents (dir : HistoryDir) (path : String) : Bytes := (dir[path]?).getD []

def appendRecordBytes (dir : HistoryDir) (path : String) (line : Bytes) : HistoryDir :=
  dir.insert path (contents dir path ++ line)

section Files
variable {R : Type*} (codec : RecordCodec R) (showDate : Int → String)

def sortMessages (messages : List R) : List R := sortByKey codec.messageId messages

/-- `bucket_file_name`; `showDate` is the date of a day since the epoch. -/
def bucketFileName (at_ : Timestamp) (fileDays : Nat) : String :=
  showDate (bucketDay at_ fileDays) ++ ".jsonl"

/-- The file a record goes to. -/
def historyPath (message : R) : String :=
  bucketFileName showDate (codec.updatedAt message) transcriptFileDays

def row (message : R) : Bytes := codec.toVec message ++ [10]

/-- The loop of `append_history_many` that fills the buckets. -/
def buckets (messages : List R) : HistoryDir :=
  messages.foldl (fun dir message =>
    appendRecordBytes dir (historyPath codec showDate message) (row codec message)) ∅

/-- What `append_history_many` writes, file by file. -/
def historyWrites (messages : List R) : List (String × Bytes) :=
  (buckets codec showDate messages).toList

/-- `append_history_many`, or the part of its writes that a crash let through. -/
def perform (dir : HistoryDir) (writes : List (String × Bytes)) : HistoryDir :=
  writes.foldl (fun dir write => appendRecordBytes dir write.1 write.2) dir

/-- The loop of `parse_queue_bytes`. -/
def parseLines (path : String) (lastNonEmpty : Option Nat) (tailTerminated : Bool) (idx : Nat) :
    List Bytes → Except JsonErr (List R)
  | [] => .ok []
  | line :: lines =>
    let line := trimAscii line
    if line = [] then parseLines path lastNonEmpty tailTerminated (idx + 1) lines
    else
      match codec.fromSlice line with
      | .ok message =>
        (parseLines path lastNonEmpty tailTerminated (idx + 1) lines).map (message :: ·)
      | .error source =>
        -- an undecodable unterminated tail is skipped with a warning
        if some idx = lastNonEmpty ∧ tailTerminated = false then .ok [] else .error ⟨path, source⟩

def parseQueueBytes (path : String) (bytes : Bytes) : Except JsonErr (List R) :=
  let tailTerminated := bytes.getLast? == some 10
  let lines := bytes.splitOn 10
  let lastNonEmpty := rposition (fun line => !(trimAscii line).isEmpty) lines
  (parseLines codec path lastNonEmpty tailTerminated 0 lines).map (sortMessages codec)

/-- The loop of `list_history` over the files, the newest first. -/
def readFiles (messages : List R) :
    List (String × Bytes) → Except JsonErr (List R)
  | [] => .ok messages
  | (path, bytes) :: files =>
    match parseQueueBytes codec path bytes with
    | .error err => .error err
    | .ok records =>
      let messages := messages ++ records.reverse.take (historyReadLimit - messages.length)
      if messages.length = historyReadLimit then .ok messages else readFiles messages files

/-- `list_history`. Every file of the directory is a bucket, so `bucket_files` finds them all. -/
def listHistory (dir : HistoryDir) : Except JsonErr (List R) :=
  (readFiles codec [] dir.toList.reverse).map (sortMessages codec)

/-- The records of a file that parses. -/
def recordsOf (file : String × Bytes) : List R :=
  ((parseQueueBytes codec file.1 file.2).toOption).getD []

/-- The records the files hold. -/
def held (dir : HistoryDir) : List R :=
  dir.toList.flatMap (recordsOf codec)

/-! ## Appends that a crash may cut -/

/-- The writes of an append up to where a crash stops it: between two files, or inside one after any
number of its bytes. -/
inductive Cut : List (String × Bytes) → List (String × Bytes) → Prop
  | stop (writes : List (String × Bytes)) : Cut writes []
  | torn (path : String) (bytes : Bytes) (writes : List (String × Bytes)) (n : Nat) :
      Cut ((path, bytes) :: writes) [(path, bytes.take n)]
  | next {writes performed : List (String × Bytes)} (write : String × Bytes) :
      Cut writes performed → Cut (write :: writes) (write :: performed)

/-- The records whose whole rows are within the first `n` bytes. -/
def wholeRows (n : Nat) : List R → List R
  | [] => []
  | message :: messages =>
    if (row codec message).length ≤ n then
      message :: wholeRows (n - (row codec message).length) messages
    else []

/-- The directory, with the records whose whole rows were written to each file. -/
structure HistoryState (R : Type*) where
  files : HistoryDir
  written : String → List R

/-- An append of `messages` of which `performed` came to be written. -/
def HistoryState.append (s : HistoryState R) (messages : List R)
    (performed : List (String × Bytes)) : HistoryState R where
  files := perform s.files performed
  written path := s.written path
    ++ match performed.find? (·.1 == path) with
      | some write =>
        wholeRows codec write.2.length (messages.filter fun m => historyPath codec showDate m == path)
      | none => []

/-- The history before any append. -/
def emptyHistory : HistoryState R := ⟨∅, fun _ => []⟩

/-- A file that ends inside a row. -/
def Torn (bytes : Bytes) : Prop := bytes ≠ [] ∧ bytes.getLast? ≠ some 10

/-- One append, whole or cut. -/
def HistoryStep (s : HistoryState R) (append : List R × List (String × Bytes))
    (s' : HistoryState R) : Prop :=
  Cut (historyWrites codec showDate append.1) append.2
    ∧ s' = s.append codec showDate append.1 append.2

/-- An append that completes no row behind a torn one. -/
def Clean (s : HistoryState R) (append : List R × List (String × Bytes)) : Prop :=
  ∀ write ∈ append.2, Torn (contents s.files write.1) → (10 : UInt8) ∉ write.2

/-! ## What is in a file -/

variable {codec showDate} {dir : HistoryDir} {path : String} {line bytes tail : Bytes}
  {messages : List R} {writes performed : List (String × Bytes)} {s : HistoryState R}

def rows (codec : RecordCodec R) (messages : List R) : Bytes := messages.flatMap (row codec)

lemma contents_appendRecordBytes (path' : String) :
    contents (appendRecordBytes dir path line) path'
      = if path = path' then contents dir path ++ line else contents dir path' := by
  simp only [appendRecordBytes, contents, get_insert]
  split <;> rfl

lemma contents_perform (hn : (writes.map Prod.fst).Nodup) (path : String) :
    contents (perform dir writes) path
      = contents dir path ++ (writes.find? (·.1 == path)).elim [] Prod.snd := by
  induction writes generalizing dir with
  | nil => simp [perform]
  | cons write writes ih =>
    obtain ⟨hnot, hn⟩ := nodup_cons.mp hn
    have hrest : contents (perform dir (write :: writes)) path
        = contents (perform (appendRecordBytes dir write.1 write.2) writes) path := rfl
    rw [hrest, ih hn, contents_appendRecordBytes, List.find?_cons]
    by_cases hpath : write.1 = path
    · subst hpath
      have hnone : writes.find? (·.1 == write.1) = none := by
        rw [List.find?_eq_none]
        intro w hw heq
        exact hnot (mem_map.mpr ⟨w, hw, by simpa using heq⟩)
      simp [hnone]
    · have hne : (write.1 == path) = false := beq_eq_false_iff_ne.mpr hpath
      simp only [hne, if_neg hpath]

lemma contents_buckets {messages path} :
    contents (buckets codec showDate messages) path
      = rows codec (messages.filter fun m => historyPath codec showDate m == path) := by
  induction messages using List.reverseRecOn with
  | nil => rfl
  | append_singleton messages message ih =>
    have hlast : buckets codec showDate (messages ++ [message])
        = appendRecordBytes (buckets codec showDate messages) (historyPath codec showDate message)
          (row codec message) := by
      simp [buckets]
    rw [hlast, contents_appendRecordBytes]
    by_cases hpath : historyPath codec showDate message = path
    · subst hpath
      simp [ih, rows]
    · simp [ih, rows, hpath]

lemma eq_of_mem_historyWrites (h : (path, bytes) ∈ historyWrites codec showDate messages) :
    bytes = rows codec (messages.filter fun m => historyPath codec showDate m == path) := by
  have hget : (buckets codec showDate messages)[path]? = some bytes :=
    ExtTreeMap.mem_toList_iff_getElem?_eq_some.mp h
  rw [← contents_buckets, contents, hget]
  rfl

lemma nodup_historyWrites : ((historyWrites codec showDate messages).map Prod.fst).Nodup := by
  rw [historyWrites, ExtTreeMap.map_fst_toList_eq_keys]
  exact ExtTreeMap.nodup_keys

lemma Cut.exists_mem (h : Cut writes performed) {write} (hw : write ∈ performed) :
    ∃ whole, (write.1, whole) ∈ writes ∧ write.2 <+: whole := by
  induction h with
  | stop writes => cases hw
  | torn path bytes writes n =>
    obtain rfl := mem_singleton.mp hw
    exact ⟨bytes, mem_cons_self, List.take_prefix _ _⟩
  | next first _ ih =>
    rcases mem_cons.mp hw with rfl | hw
    · exact ⟨write.2, mem_cons_self, prefix_rfl⟩
    · obtain ⟨whole, hmem, hpre⟩ := ih hw
      exact ⟨whole, mem_cons_of_mem _ hmem, hpre⟩

lemma Cut.keys (h : Cut writes performed) : performed.map Prod.fst <+: writes.map Prod.fst := by
  induction h with
  | stop writes => exact nil_prefix
  | torn path bytes writes n => exact ⟨writes.map Prod.fst, rfl⟩
  | next first _ ih => exact cons_prefix_cons.mpr ⟨rfl, ih⟩

lemma Cut.nodup (h : Cut writes performed) (hn : (writes.map Prod.fst).Nodup) :
    (performed.map Prod.fst).Nodup := hn.sublist h.keys.sublist

/-- A beginning of rows is whole rows and a part of one. -/
lemma prefix_rows (h : bytes <+: rows codec messages) :
    ∃ tail, bytes = rows codec (wholeRows codec bytes.length messages) ++ tail
      ∧ (10 : UInt8) ∉ tail := by
  induction messages generalizing bytes with
  | nil =>
    obtain rfl := List.prefix_nil.mp h
    exact ⟨[], rfl, not_mem_nil⟩
  | cons message messages ih =>
    have hrows : rows codec (message :: messages) = row codec message ++ rows codec messages := rfl
    rw [hrows] at h
    by_cases hfits : (row codec message).length ≤ bytes.length
    · obtain ⟨more, rfl⟩ := List.prefix_of_prefix_length_le (prefix_append _ _) h hfits
      obtain ⟨tail, htail, hnot⟩ := ih ((List.prefix_append_right_inj _).mp h)
      refine ⟨tail, ?_, hnot⟩
      rw [wholeRows, if_pos hfits, length_append, Nat.add_sub_cancel_left]
      show row codec message ++ more
        = row codec message ++ rows codec (wholeRows codec more.length messages) ++ tail
      rw [append_assoc, ← htail]
    rw [wholeRows, if_neg hfits]
    refine ⟨bytes, rfl, fun hmem => ?_⟩
    -- a proper part of one row ends before its newline
    have hpart : bytes <+: codec.toVec message := by
      refine List.prefix_of_prefix_length_le h ⟨[10] ++ rows codec messages, ?_⟩ ?_
      · rw [row, append_assoc]
      · rw [row, length_append, length_singleton] at hfits
        omega
    exact codec.oneLine message (hpart.subset hmem)

/-- Each file is the rows written whole to it and a tail without a newline. -/
def Rowed (codec : RecordCodec R) (s : HistoryState R) : Prop :=
  ∀ path, ∃ tail, contents s.files path = rows codec (s.written path) ++ tail
    ∧ (10 : UInt8) ∉ tail

lemma newline_mem_rows (h : messages ≠ []) : (10 : UInt8) ∈ rows codec messages := by
  cases messages with
  | nil => exact absurd rfl h
  | cons message messages => simp [rows, row]

/-- Rows that end a file go on right behind its last newline, if they complete one at all. -/
lemma Rowed.append (h : Rowed codec s) (hcut : Cut (historyWrites codec showDate messages) performed)
    (hclean : Clean s (messages, performed)) :
    Rowed codec (s.append codec showDate messages performed) := by
  intro path
  obtain ⟨tail, htail, hnot⟩ := h path
  have hcontents : contents (s.append codec showDate messages performed).files path = _ :=
    contents_perform (hcut.nodup nodup_historyWrites) path
  rw [hcontents, htail, HistoryState.append]
  dsimp only
  cases hfind : performed.find? (·.1 == path) with
  | none => exact ⟨tail, by simp, hnot⟩
  | some write =>
    have hwrite := List.mem_of_find?_eq_some hfind
    obtain rfl : write.1 = path := by simpa using List.find?_some hfind
    obtain ⟨whole, hwhole, hpre⟩ := hcut.exists_mem hwrite
    rw [eq_of_mem_historyWrites hwhole] at hpre
    obtain ⟨more, hmore, hnotMore⟩ := prefix_rows hpre
    have hrows (front back : List R) :
        rows codec (front ++ back) = rows codec front ++ rows codec back := List.flatMap_append ..
    dsimp only [Option.elim]
    rw [hrows]
    by_cases hnil : tail = []
    · subst hnil
      refine ⟨more, ?_, hnotMore⟩
      rw [append_nil, append_assoc, ← hmore]
    have htorn : Torn (contents s.files write.1) := by
      rw [htail]
      refine ⟨by simp [hnil], fun hlast => hnot ?_⟩
      rw [List.getLast?_append_of_ne_nil _ hnil] at hlast
      exact mem_of_getLast? hlast
    have hfree := hclean write hwrite htorn
    have hnone : wholeRows codec write.2.length
        (messages.filter fun m => historyPath codec showDate m == write.1) = [] := by
      by_contra hsome
      exact hfree (by
        rw [hmore]
        exact mem_append_left _ (newline_mem_rows hsome))
    refine ⟨tail ++ write.2, ?_, by simp [hnot, hfree]⟩
    rw [hnone]
    simp [rows]

/-! ## Reading a file back -/

lemma splitOn_rows (hnot : (10 : UInt8) ∉ tail) :
    (rows codec messages ++ tail).splitOn 10 = messages.map codec.toVec ++ [tail] := by
  induction messages with
  | nil => exact List.splitOn_eq_singleton hnot
  | cons message messages ih =>
    have hrows : rows codec (message :: messages) ++ tail
        = codec.toVec message ++ 10 :: (rows codec messages ++ tail) := by
      simp [rows, row]
    rw [hrows, List.splitOn_append_cons_self_of_not_mem (codec.oneLine message), ih]
    rfl

lemma trimAscii_toVec (message : R) :
    trimAscii (codec.toVec message) = codec.toVec message := by
  obtain ⟨more, hopen⟩ := List.head?_eq_some_iff.mp (codec.opens message)
  obtain ⟨front, hclose⟩ := List.getLast?_eq_some_iff.mp (codec.closes message)
  have hstart : (codec.toVec message).dropWhile isAsciiWhitespace = codec.toVec message := by
    rw [hopen]
    rfl
  rw [trimAscii, hstart, hclose, List.reverse_append, List.reverse_singleton, singleton_append]
  rw [List.dropWhile_cons_of_neg (by decide)]
  simp

lemma toVec_ne_nil (message : R) : codec.toVec message ≠ [] := fun hnil => by
  have hopen := codec.opens message
  rw [hnil] at hopen
  cases hopen

/-- Whole rows decode one by one; the tail is decoded, skipped, or blank. -/
lemma parseLines_rows {lastNonEmpty tailTerminated} (idx : Nat)
    (htail : trimAscii tail ≠ [] → lastNonEmpty = some (idx + messages.length) ∧ tailTerminated = false) :
    ∃ extra, parseLines codec path lastNonEmpty tailTerminated idx
      (messages.map codec.toVec ++ [tail]) = .ok (messages ++ extra) := by
  induction messages generalizing idx with
  | nil =>
    simp only [map_nil, nil_append, parseLines]
    split
    · exact ⟨[], rfl⟩
    rename_i hsolid
    split
    · next message _ => exact ⟨[message], rfl⟩
    · rw [if_pos ⟨by simpa using (htail hsolid).1.symm, (htail hsolid).2⟩]
      exact ⟨[], rfl⟩
  | cons message messages ih =>
    obtain ⟨extra, hextra⟩ := ih (idx + 1) fun hsolid => by
      rw [(htail hsolid).1, length_cons]
      exact ⟨congrArg some (by omega), (htail hsolid).2⟩
    refine ⟨extra, ?_⟩
    simp only [map_cons, cons_append, parseLines, trimAscii_toVec, codec.decodes, hextra]
    rw [if_neg (toVec_ne_nil message)]
    rfl

/-- A file of whole rows and a tail reads back, tail or no tail. -/
lemma parseQueueBytes_rows (hnot : (10 : UInt8) ∉ tail) :
    ∃ records, parseQueueBytes codec path (rows codec messages ++ tail) = .ok records
      ∧ messages.Subperm records := by
  have hlast : trimAscii tail ≠ [] →
      rposition (fun line => !(trimAscii line).isEmpty) (messages.map codec.toVec ++ [tail])
          = some (0 + messages.length)
        ∧ ((rows codec messages ++ tail).getLast? == some 10) = false := by
    intro hsolid
    have hne : tail ≠ [] := by
      rintro rfl
      exact hsolid rfl
    constructor
    · rw [rposition_append (by simpa using hsolid) (by simp), List.length_map, Nat.zero_add]
    · rw [List.getLast?_append_of_ne_nil _ hne, beq_eq_false_iff_ne]
      exact fun heq => hnot (mem_of_getLast? heq)
  obtain ⟨extra, hextra⟩ : ∃ extra, parseLines codec path _ _ 0
      (messages.map codec.toVec ++ [tail]) = .ok (messages ++ extra) := parseLines_rows 0 hlast
  refine ⟨sortMessages codec (messages ++ extra), ?_, ?_⟩
  · simp only [parseQueueBytes, splitOn_rows hnot, hextra]
    rfl
  · exact (List.sublist_append_left messages extra).subperm.trans sortByKey_perm.symm.subperm

/-- The reader takes every record of files that all parse, when they fit. -/
lemma readFiles_ok {files messages}
    (hparse : ∀ file ∈ files, ∃ records, parseQueueBytes codec file.1 file.2 = .ok records) :
    ∃ read, readFiles codec messages files = .ok read
      ∧ (messages.length + (files.flatMap (recordsOf codec)).length ≤ historyReadLimit →
        read.Perm (messages ++ files.flatMap (recordsOf codec))) := by
  induction files generalizing messages with
  | nil => exact ⟨messages, rfl, fun _ => by simp⟩
  | cons file files ih =>
    obtain ⟨path, bytes⟩ := file
    obtain ⟨records, hrecords⟩ := hparse _ mem_cons_self
    have hof : recordsOf codec (path, bytes) = records := by
      simp only [recordsOf, hrecords]
      rfl
    simp only [readFiles, hrecords, flatMap_cons, hof]
    split
    · next hfull =>
      refine ⟨_, rfl, fun hfits => ?_⟩
      -- the limit was reached exactly, so the older files hold nothing
      rw [length_append] at hfits
      rw [length_append, length_take, length_reverse] at hfull
      have hnil : files.flatMap (recordsOf codec) = [] := List.length_eq_zero_iff.mp (by omega)
      rw [hnil, append_nil, take_of_length_le (by rw [length_reverse]; omega)]
      exact (List.reverse_perm records).append_left messages
    · obtain ⟨read, hread, hperm⟩ := ih fun file hfile => hparse file (mem_cons_of_mem _ hfile)
      refine ⟨read, hread, fun hfits => ?_⟩
      rw [length_append] at hfits
      rw [take_of_length_le (by rw [length_reverse]; omega)] at hperm
      have hperm := hperm (by rw [length_append, length_reverse]; omega)
      rw [append_assoc] at hperm
      exact hperm.trans (((List.reverse_perm records).append_right _).append_left messages)

lemma subperm_flatMap {α β : Type*} {l : List α} {f g : α → List β}
    (h : ∀ a ∈ l, (f a).Subperm (g a)) : (l.flatMap f).Subperm (l.flatMap g) := by
  induction l with
  | nil => exact List.Subperm.refl _
  | cons a l ih =>
    exact (h a mem_cons_self).append (ih fun b hb => h b (mem_cons_of_mem _ hb))

/-- Only files of the directory have rows. -/
lemma Rowed.subperm_files (h : Rowed codec s) {paths : List String} (hn : paths.Nodup) :
    (paths.flatMap s.written).Subperm (s.files.toList.flatMap fun file => s.written file.1) := by
  have hfiles : (s.files.toList.flatMap fun file => s.written file.1)
      = s.files.keys.flatMap s.written := by
    rw [← ExtTreeMap.map_fst_toList_eq_keys, List.flatMap_map]
  have hothers : paths.flatMap s.written = (paths.filter (· ∈ s.files)).flatMap s.written := by
    induction paths with
    | nil => rfl
    | cons path paths ih =>
      rw [flatMap_cons, filter_cons, ih (nodup_cons.mp hn).2]
      by_cases hmem : path ∈ s.files
      · rw [if_pos (decide_eq_true hmem), flatMap_cons]
      obtain ⟨tail, htail, _⟩ := h path
      have hnone : s.files[path]? = none := by simpa using hmem
      rw [contents, hnone, Option.getD_none] at htail
      have hwritten : s.written path = [] := by
        by_contra hsome
        have hnewline : (10 : UInt8) ∈ rows codec (s.written path) := newline_mem_rows hsome
        rw [(append_eq_nil_iff.mp htail.symm).1] at hnewline
        cases hnewline
      simp [hwritten, hmem]
  have hsub : (paths.filter (· ∈ s.files)).Subperm s.files.keys := by
    apply List.subperm_of_subset (hn.filter _)
    intro path hpath
    exact ExtTreeMap.mem_keys.mpr (by simpa using (mem_filter.mp hpath).2)
  obtain ⟨part, hperm, hpart⟩ := hsub
  rw [hothers, hfiles]
  exact ⟨part.flatMap s.written, hperm.flatMap_right _, hpart.flatMap _⟩

/-- A history of whole rows and tails is read, and all of it that was written whole when it fits. -/
lemma Rowed.listHistory (h : Rowed codec s) :
    ∃ read, listHistory codec s.files = .ok read
      ∧ ((held codec s.files).length ≤ historyReadLimit →
        ∀ paths : List String, paths.Nodup → (paths.flatMap s.written).Subperm read) := by
  have hparse : ∀ file ∈ s.files.toList,
      ∃ records, parseQueueBytes codec file.1 file.2 = .ok records
        ∧ (s.written file.1).Subperm records := by
    intro file hfile
    have hget : s.files[file.1]? = some file.2 :=
      ExtTreeMap.mem_toList_iff_getElem?_eq_some.mp hfile
    obtain ⟨tail, htail, hnot⟩ := h file.1
    rw [contents, hget, getD_some] at htail
    rw [htail]
    exact parseQueueBytes_rows hnot
  obtain ⟨read, hread, hperm⟩ : ∃ read, readFiles codec [] s.files.toList.reverse = .ok read ∧ _ :=
    readFiles_ok fun file hfile =>
      (hparse file (List.mem_reverse.mp hfile)).imp fun _ hrecords => hrecords.1
  have hheld : (s.files.toList.reverse.flatMap (recordsOf codec)).Perm (held codec s.files) :=
    (List.reverse_perm _).flatMap_right _
  refine ⟨sortMessages codec read, by rw [Queue.listHistory, hread]; rfl, fun hfits paths hn => ?_⟩
  have hwritten : (s.files.toList.flatMap fun file => s.written file.1).Subperm
      (held codec s.files) := by
    apply subperm_flatMap
    intro file hfile
    obtain ⟨records, hrecords, hsub⟩ := hparse file hfile
    rw [recordsOf, hrecords]
    exact hsub
  have hfull : read.Perm (held codec s.files) :=
    (hperm (by rw [List.length_nil, Nat.zero_add, hheld.length_eq]; exact hfits)).trans hheld
  exact ((h.subperm_files hn).trans hwritten).trans
    (hfull.symm.trans sortByKey_perm.symm).subperm

end Files

/-- While no append completes a row behind a torn one, the history is always read, whatever the
crashes cut, and a read that is not limited returns every record whose whole row was written. -/
theorem history_survives_cuts {R : Type*} (codec : RecordCodec R) (showDate : Int → String)
    (s : HistoryState R)
    (h : Reachable (· = emptyHistory)
      (fun s append s' => HistoryStep codec showDate s append s' ∧ Clean s append) s) :
    ∃ read, listHistory codec s.files = .ok read
      ∧ ((held codec s.files).length ≤ historyReadLimit →
        ∀ paths : List String, paths.Nodup → (paths.flatMap s.written).Subperm read) := by
  have hrowed : Rowed codec s := by
    apply Reachable.invariant _ _ h
    · rintro s rfl path
      exact ⟨[], rfl, not_mem_nil⟩
    · rintro s ⟨messages, performed⟩ s' _ hs ⟨⟨hcut, rfl⟩, hclean⟩
      exact hs.append hcut hclean
  exact hrowed.listHistory

/-- Two records of one week, for runs of the history. -/
def noteCodec : RecordCodec Bool where
  messageId note := note.toNat
  updatedAt _ := 0
  toVec note := ascii (if note then "\x7b\"id\":1\x7d" else "\x7b\"id\":0\x7d")
  fromSlice bytes :=
    if bytes = ascii "\x7b\"id\":1\x7d" then .ok true
    else if bytes = ascii "\x7b\"id\":0\x7d" then .ok false
    else .error (ascii "syntax")
  oneLine := by decide
  opens := by decide
  closes := by decide
  decodes := by decide

/-- The rows of both records. -/
def notes : Bytes := ascii "\x7b\"id\":0\x7d\n\x7b\"id\":1\x7d\n"

/-- A record written whole survives the crash that tears the next one. -/
theorem history_survives_cuts_torn :
    ∃ s : HistoryState Bool, s.written "0.jsonl" = [false]
      ∧ contents s.files "0.jsonl" = ascii "\x7b\"id\":0\x7d\n\x7b\"id"
      ∧ ∃ read, listHistory noteCodec s.files = .ok read
        ∧ ((held noteCodec s.files).length ≤ historyReadLimit →
          ∀ paths : List String, paths.Nodup → (paths.flatMap s.written).Subperm read) := by
  have hwrites : historyWrites noteCodec (fun _ => "0") [false, true] = [("0.jsonl", notes)] := by
    decide +kernel
  have hrun : Reachable (· = emptyHistory)
      (fun s append s' => HistoryStep noteCodec (fun _ => "0") s append s' ∧ Clean s append)
      (emptyHistory.append noteCodec (fun _ => "0") [false, true]
        [("0.jsonl", notes.take 13)]) := by
    refine .next (a := ([false, true], [("0.jsonl", notes.take 13)])) (.start rfl)
      ⟨⟨hwrites ▸ Cut.torn "0.jsonl" notes [] 13, rfl⟩, ?_⟩
    intro write _ htorn
    exact absurd rfl htorn.1
  exact ⟨_, by decide +kernel, by decide +kernel,
    history_survives_cuts noteCodec (fun _ => "0") _ hrun⟩

/-- A crash tears the first row; the next append goes on behind it, and the history cannot be read
any more. -/
theorem append_behind_torn_row_fails :
    ∃ s : HistoryState Bool, Reachable (· = emptyHistory) (HistoryStep noteCodec fun _ => "0") s
      ∧ s.written "0.jsonl" = [true]
      ∧ contents s.files "0.jsonl" = ascii "\x7b\"id\x7b\"id\":1\x7d\n"
      ∧ listHistory noteCodec s.files = .error ⟨"0.jsonl", ascii "syntax"⟩ := by
  have hfirst : historyWrites noteCodec (fun _ => "0") [false] = [("0.jsonl", notes.take 9)] := by
    decide +kernel
  have hsecond : historyWrites noteCodec (fun _ => "0") [true] = [("0.jsonl", notes.drop 9)] := by
    decide +kernel
  refine ⟨(emptyHistory.append noteCodec (fun _ => "0") [false]
      [("0.jsonl", (notes.take 9).take 4)]).append noteCodec (fun _ => "0") [true]
        [("0.jsonl", notes.drop 9)], ?_, by decide +kernel, by decide +kernel, by decide +kernel⟩
  refine .next (a := ([true], [("0.jsonl", notes.drop 9)])) (.next
    (a := ([false], [("0.jsonl", (notes.take 9).take 4)])) (.start rfl) ⟨?_, rfl⟩) ⟨?_, rfl⟩
  · rw [hfirst]
    exact Cut.torn "0.jsonl" (notes.take 9) [] 4
  · rw [hsecond]
    exact Cut.next ("0.jsonl", notes.drop 9) (.stop [])

end Rimz.Queue
