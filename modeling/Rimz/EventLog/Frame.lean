import Rimz.Lib.Utf8

/-!
# Event-log frames

`store/event_log/frame.rs`: one record is the line
`<decimal payload length> <crc32, 8 lowercase hex chars> <payload>\n`. The decoder also takes the
older `<length> <payload>` form and tells the two apart by the second token.

`crc32fast::hash` and `serde_json::from_str` are the parameters `crc32` and `fromStr`; the decoder
is generic in the record type `T` exactly as `decode_record<T>` is.
-/

namespace Rimz.EventLog
open Rimz.Lib

/-- `EventLogErr`. `atomic` and `io` stand for the environment failures, whose sources no modelled
function inspects. -/
inductive EventLogErr where
  | torn (offset : Nat) (reason : Bytes)
  | frameLength (offset claimed available : Nat)
  | crc (offset : Nat) (claimed computed : UInt32)
  | atomic
  | io
  deriving DecidableEq

/-- `EventLogErr::is_corruption`: what a repair truncation heals. -/
def EventLogErr.isCorruption : EventLogErr → Bool
  | .torn .. | .frameLength .. | .crc .. => true
  | .atomic | .io => false

/-- `LogExtent`: the rotation generation and the byte offset after the last folded frame. -/
structure LogExtent where
  generation : Nat
  offset : Nat
  deriving DecidableEq

/-- One row of `read_rows`: its offset, whether the newline was there, and the bytes before it. -/
structure Row where
  offset : Nat
  terminated : Bool
  bytes : Bytes

/-- A checksum, for runs on fixed frames. -/
def noCrc (_ : Bytes) : UInt32 := 0

/-- Number the raw rows by the offset each starts at and strip the newlines. -/
def numberRows (offset : Nat) : List Bytes → List Row
  | [] => []
  | row :: rows =>
    (if row.getLast? = some 10 then ⟨offset, true, row.dropLast⟩ else ⟨offset, false, row⟩)
      :: numberRows (offset + row.length) rows

/-- `read_rows`: split the log into rows from byte `start`. A missing log reads as empty. -/
def readRows (file : Option Bytes) (start : Nat) : List Row :=
  match file with
  | none => []
  | some bytes => numberRows start (rowsOf 10 (bytes.drop start))

lemma lines_cases (bytes : Bytes) :
    bytes = [] ∨ (bytes ≠ [] ∧ (10 : UInt8) ∉ bytes)
      ∨ ∃ line rest, bytes = line ++ 10 :: rest ∧ (10 : UInt8) ∉ line := by
  by_cases hmem : (10 : UInt8) ∈ bytes
  · obtain ⟨line, rest, rfl, hline⟩ := List.eq_append_cons_of_mem hmem
    exact .inr (.inr ⟨line, rest, rfl, hline⟩)
  · cases bytes with
    | nil => exact .inl rfl
    | cons b bs => exact .inr (.inl ⟨cons_ne_nil _ _, hmem⟩)

lemma lines_induction {motive : Bytes → Prop} (nil : motive [])
    (torn : ∀ line, line ≠ [] → (10 : UInt8) ∉ line → motive line)
    (row : ∀ line rest, (10 : UInt8) ∉ line → motive rest → motive (line ++ 10 :: rest))
    (bytes : Bytes) : motive bytes := by
  induction hn : bytes.length using Nat.strong_induction_on generalizing bytes with
  | _ n ih =>
    subst hn
    rcases lines_cases bytes with rfl | ⟨hne, hline⟩ | ⟨line, rest, rfl, hline⟩
    · exact nil
    · exact torn bytes hne hline
    · refine row line rest hline (ih _ ?_ rest rfl)
      simp only [length_append, length_cons]
      omega

lemma line_inj {line rest line' rest' : Bytes} (h : line ++ 10 :: rest = line' ++ 10 :: rest')
    (hline : (10 : UInt8) ∉ line) (hline' : (10 : UInt8) ∉ line') : line = line' ∧ rest = rest' := by
  have hsplit := congrArg (splitOnce (10 : UInt8)) h
  rw [splitOnce_append hline, splitOnce_append hline', Option.some.injEq, Prod.mk.injEq] at hsplit
  exact hsplit

lemma getLast?_of_notMem {line : Bytes} (h : (10 : UInt8) ∉ line) :
    line.getLast? ≠ some 10 := fun hlast =>
  h (mem_of_getLast? hlast)

lemma numberRows_line {line rest : Bytes} (hline : (10 : UInt8) ∉ line) (start : Nat) :
    numberRows start (rowsOf 10 (line ++ 10 :: rest))
      = ⟨start, true, line⟩ :: numberRows (start + (line.length + 1)) (rowsOf 10 rest) := by
  rw [rowsOf_append_delim hline, numberRows]
  simp

lemma numberRows_torn {line : Bytes} (hline : (10 : UInt8) ∉ line) (hne : line ≠ []) (start : Nat) :
    numberRows start (rowsOf 10 line) = [⟨start, false, line⟩] := by
  rw [rowsOf_eq_singleton hline hne, numberRows, if_neg (getLast?_of_notMem hline)]
  rfl

/-- A row begins behind these bytes: at the start of the log or after a newline. -/
def LineStart (front : Bytes) : Prop :=
  front = [] ∨ ∃ f, front = f ++ [10]

lemma lineStart_behind {line front : Bytes} : LineStart (line ++ 10 :: front) ↔ LineStart front := by
  rcases front.eq_nil_or_concat' with rfl | ⟨m, b, rfl⟩
  · exact ⟨fun _ => .inl rfl, fun _ => .inr ⟨line, rfl⟩⟩
  have ends : ∀ l : Bytes, LineStart (l ++ [b]) ↔ b = 10 := by
    intro l
    simp only [LineStart, List.append_eq_nil_iff, cons_ne_nil, and_false, false_or]
    constructor
    · rintro ⟨f, hf⟩
      simpa using (List.append_inj' hf rfl).2
    · rintro rfl
      exact ⟨l, rfl⟩
  rw [← cons_append, ← append_assoc, ends, ends]

/-- The terminated rows of the forward split: what stands between two newlines, or in front of the
first one. -/
lemma mem_numberRows {start pos : Nat} {row : Bytes} (bytes : Bytes) :
    ⟨pos, true, row⟩ ∈ numberRows start (rowsOf 10 bytes)
      ↔ ∃ front rest, bytes = front ++ (row ++ 10 :: rest) ∧ (10 : UInt8) ∉ row ∧ LineStart front
        ∧ pos = start + front.length := by
  induction bytes using lines_induction generalizing start with
  | nil => simp [numberRows, rowsOf]
  | torn line hne hline =>
    rw [numberRows_torn hline hne]
    refine ⟨fun h => by simp at h, ?_⟩
    rintro ⟨front, rest, rfl, -⟩
    simp at hline
  | row line rest hline ih =>
    rw [numberRows_line hline, mem_cons, ih]
    constructor
    · rintro (h | ⟨front, more, rfl, hrow, hfront, rfl⟩)
      · cases h
        exact ⟨[], rest, rfl, hline, .inl rfl, rfl⟩
      · refine ⟨line ++ 10 :: front, more, by simp, hrow, lineStart_behind.mpr hfront, ?_⟩
        simp only [length_append, length_cons]
        omega
    · rintro ⟨front, more, h, hrow, hfront, rfl⟩
      by_cases hmem : (10 : UInt8) ∈ front
      · -- The first line of `front` is the first line of the log.
        obtain ⟨first, front, rfl, hfirst⟩ := List.eq_append_cons_of_mem hmem
        rw [append_assoc, cons_append] at h
        obtain ⟨rfl, rfl⟩ := line_inj h hline hfirst
        refine .inr ⟨front, more, rfl, hrow, lineStart_behind.mp hfront, ?_⟩
        simp only [length_append, length_cons]
        omega
      · obtain rfl | ⟨f, rfl⟩ := hfront
        · obtain ⟨rfl, rfl⟩ := line_inj h hline hrow
          exact .inl rfl
        · simp at hmem

/-- Any bytes are whole lines and a beginning of one. -/
lemma exists_lineStart (bytes : Bytes) :
    ∃ front line, bytes = front ++ line ∧ (10 : UInt8) ∉ line ∧ LineStart front := by
  induction bytes using lines_induction with
  | nil => exact ⟨[], [], rfl, not_mem_nil, .inl rfl⟩
  | torn line _ hline => exact ⟨[], line, rfl, hline, .inl rfl⟩
  | row line rest _ ih =>
    obtain ⟨front, last, rfl, hlast, hfront⟩ := ih
    exact ⟨line ++ 10 :: front, last, by simp, hlast, lineStart_behind.mpr hfront⟩

/-- The backward search of `read_row_ending_at`, one block of 256 bytes at a time from byte `pos`
down; `row` holds the bytes met so far, last one first. -/
def searchBack (bytes : Bytes) : Nat → Nat → Bytes → Nat × Bytes
  | 0, pos, row => (pos, row.reverse)
  | fuel + 1, pos, row =>
    if pos = 0 then (0, row.reverse)
    else
      let count := min pos 256
      let start := pos - count
      let block := (bytes.drop start).take count
      match rposition (· == 10) block with
      | some previous =>
        (start + previous + 1, (row ++ (block.drop (previous + 1)).reverse).reverse)
      | none => searchBack bytes fuel start (row ++ block.reverse)

/-- `read_row_ending_at`. A missing log and an offset past its end read as no row. -/
def readRowEndingAt (file : Option Bytes) (stop : Nat) : Option (Nat × Bytes) :=
  match file with
  | none => none
  | some bytes =>
    if stop = 0 then none
    else if bytes[stop - 1]? = some 10 then some (searchBack bytes (stop - 1) (stop - 1) [])
    else none

/-- The blocks do not matter: the search stops at the newline in front of the row. -/
lemma searchBack_eq {bytes front row fuel pos} (line : Bytes) (hp : pos ≤ fuel)
    (hb : bytes.take pos = front ++ line) (hpos : pos ≤ bytes.length) (hline : (10 : UInt8) ∉ line)
    (hfront : LineStart front) :
    searchBack bytes fuel pos row = (front.length, line ++ row.reverse) := by
  induction fuel generalizing pos line row with
  | zero =>
    obtain rfl : pos = 0 := by omega
    obtain ⟨rfl, rfl⟩ : front = [] ∧ line = [] := by simpa using hb.symm
    rfl
  | succ fuel ih =>
    by_cases h0 : pos = 0
    · subst h0
      obtain ⟨rfl, rfl⟩ : front = [] ∧ line = [] := by simpa using hb.symm
      rfl
    simp only [searchBack, if_neg h0]
    set start := pos - min pos 256 with hs
    set block := (bytes.drop start).take (min pos 256) with hbl
    have hcount : start + min pos 256 = pos := by omega
    have hlen : block.length = min pos 256 := by
      simp only [hbl, length_take, List.length_drop]
      omega
    have hsplit : bytes.take start ++ block = front ++ line := by
      rw [← hb, ← hcount, List.take_add]
    have hst : (bytes.take start).length = start := by
      simp only [length_take]
      omega
    have hfree : ∀ l : Bytes, (10 : UInt8) ∉ l → ∀ y ∈ l, (y == 10) = false := by
      intro l hl y hy
      exact beq_eq_false_iff_ne.mpr fun e => hl (e ▸ hy)
    -- Either the whole block belongs to the row, or it holds the newline in front of it.
    have hcases : (∃ mid, bytes.take start = front ++ mid ∧ line = mid ++ block)
        ∨ ∃ mid, front = bytes.take start ++ mid ++ [10] ∧ block = mid ++ 10 :: line := by
      obtain ⟨mid, hm, hbm⟩ | ⟨mid, hm, hbm⟩ := List.append_eq_append_iff.mp hsplit
      · rcases mid.eq_nil_or_concat with rfl | ⟨m, b, rfl⟩
        · exact .inl ⟨[], by simpa using hm.symm, by simpa using hbm.symm⟩
        obtain rfl | ⟨f, rfl⟩ := hfront
        · simp at hm
        have e : f ++ [10] = (bytes.take start ++ m) ++ [b] := by simpa using hm
        obtain ⟨rfl, hb10⟩ := List.append_inj' e rfl
        obtain rfl : (10 : UInt8) = b := by simpa using hb10
        exact .inr ⟨m, by simp, by simpa using hbm⟩
      · exact .inl ⟨mid, hm, hbm⟩
    obtain ⟨mid, hm, rfl⟩ | ⟨mid, hm, hbm⟩ := hcases
    · simp only [mem_append, not_or] at hline
      rw [rposition_eq_none (hfree block hline.2)]
      have e : searchBack bytes fuel start (row ++ block.reverse)
          = (front.length, mid ++ (row ++ block.reverse).reverse) :=
        ih mid (by omega) hm (by omega) hline.1
      simpa using e
    · rw [hbm, rposition_append rfl (hfree line hline)]
      have hf := congrArg List.length hm
      simp only [length_append, hst, length_singleton] at hf
      simp [hf]

/-- The row in front of a newline. -/
lemma readRowEndingAt_row {front row : Bytes} (rest : Bytes) (hrow : (10 : UInt8) ∉ row)
    (hfront : LineStart front) :
    readRowEndingAt (some (front ++ (row ++ 10 :: rest))) (front.length + row.length + 1)
      = some (front.length, row) := by
  have hbytes : front ++ (row ++ 10 :: rest) = (front ++ row) ++ 10 :: rest := by simp
  have hat : (front ++ (row ++ 10 :: rest))[front.length + row.length]? = some 10 := by
    rw [hbytes, ← length_append, List.getElem?_append_right (Nat.le_refl _)]
    simp
  have htake : (front ++ (row ++ 10 :: rest)).take (front.length + row.length) = front ++ row := by
    rw [hbytes, ← length_append, List.take_left]
  simp only [readRowEndingAt, Nat.add_sub_cancel, hat, if_true, Nat.succ_ne_zero, if_false]
  rw [searchBack_eq row (Nat.le_refl _) htake (by simp) hrow hfront]
  simp

/-- The backward reader finds exactly the terminated rows of the forward split, each at the byte
behind its newline. -/
theorem readRowEndingAt_iff_readRows (file : Option Bytes) (stop pos : Nat) (row : Bytes) :
    readRowEndingAt file stop = some (pos, row)
      ↔ ⟨pos, true, row⟩ ∈ readRows file 0 ∧ pos + row.length + 1 = stop := by
  cases file with
  | none => simp [readRowEndingAt, readRows]
  | some bytes =>
    rw [readRows, List.drop_zero, mem_numberRows]
    constructor
    · intro h
      cases stop with
      | zero => simp [readRowEndingAt] at h
      | succ last =>
      have hat : bytes[last]? = some 10 := by
        by_contra hat
        simp [readRowEndingAt, hat] at h
      obtain ⟨hlt, hbyte⟩ := List.getElem?_eq_some_iff.mp hat
      obtain ⟨front, line, hsplit, hline, hfront⟩ := exists_lineStart (bytes.take last)
      have hbytes : bytes = front ++ (line ++ 10 :: bytes.drop (last + 1)) := by
        rw [← append_assoc, ← hsplit, ← hbyte, List.getElem_cons_drop, List.take_append_drop]
      have hlen : front.length + line.length = last := by
        rw [← length_append, ← hsplit, length_take]
        omega
      have hrow := readRowEndingAt_row (bytes.drop (last + 1)) hline hfront
      rw [← hbytes, hlen, h] at hrow
      cases hrow
      exact ⟨⟨front, _, hbytes, hline, hfront, (Nat.zero_add _).symm⟩, by omega⟩
    · rintro ⟨⟨front, rest, rfl, hrow, hfront, rfl⟩, rfl⟩
      rw [Nat.zero_add]
      exact readRowEndingAt_row rest hrow hfront

section Codec
variable {T : Type*} (crc32 : Bytes → UInt32) (fromStr : Bytes → Except Bytes T)

def encodeFrame (payload : Bytes) : Bytes :=
  decimal payload.length ++ 32 :: (lowerHex8 (crc32 payload) ++ 32 :: (payload ++ [10]))

/-- The second token of a line is the checksum exactly when it is eight lowercase hex bytes. -/
def splitCrc (rest : Bytes) : Option Nat × Bytes :=
  match splitOnce 32 rest with
  | some (token, payload) =>
    if token.length = 8 ∧ token.all isLowerHex = true then
      (fromStrRadix 16 (2 ^ 32) token, payload)
    else (none, rest)
  | none => (none, rest)

def decodeLine (line : Bytes) (offset : Nat) : Except EventLogErr T :=
  match splitOnce 32 line with
  | none => .error (.torn offset (ascii "no length prefix"))
  | some (len, rest) =>
    match fromStrRadix 10 (2 ^ 64) len with
    | none => .error (.torn offset (ascii "bad length `" ++ len ++ ascii "`"))
    | some claimed =>
      let (crc, payload) := splitCrc rest
      let available := payload.length
      if claimed ≠ available then .error (.frameLength offset claimed available)
      else
        let computed := crc32 payload
        match crc with
        | some claimedCrc =>
          if claimedCrc ≠ computed.toNat then
            .error (.crc offset (UInt32.ofNat claimedCrc) computed)
          else (fromStr payload).mapError fun e => .torn offset (ascii "json: " ++ e)
        | none => (fromStr payload).mapError fun e => .torn offset (ascii "json: " ++ e)

def decodeRecord (offset : Nat) (terminated : Bool) (bytes : Bytes) : Except EventLogErr T :=
  if terminated = false then .error (.torn offset (ascii "unterminated frame"))
  else
    match utf8Error 0 bytes with
    | none => decodeLine crc32 fromStr bytes offset
    | some err => .error (.torn offset (ascii "utf8: " ++ err.text))

/-- What the append path writes into a frame: text `serde_json::to_vec` produced for a record, so
UTF-8, on one line, opening with `{`, within the size of a Rust slice, and read back by
`serde_json::from_str`. -/
structure Payload where
  bytes : Bytes
  value : T
  utf8 : utf8Error 0 bytes = none
  oneLine : (10 : UInt8) ∉ bytes
  opens : bytes.head? = some 123
  fits : bytes.length < 2 ^ 63
  decodes : fromStr bytes = .ok value

variable {crc32 fromStr}

/-- The line of a frame, without its newline. -/
def frameLine (crc32 : Bytes → UInt32) (payload : Bytes) : Bytes :=
  decimal payload.length ++ 32 :: (lowerHex8 (crc32 payload) ++ 32 :: payload)

lemma encodeFrame_eq (payload : Bytes) :
    encodeFrame crc32 payload = frameLine crc32 payload ++ [10] := by
  simp [encodeFrame, frameLine]

lemma lt_of_mem_decimal_or_hex {n v b} (h : b ∈ decimal n ∨ b ∈ lowerHex8 v) :
    48 ≤ b.toNat ∧ b.toNat < 0x80 := by
  rcases h with h | h
  · have := mem_decimal h
    omega
  · have := isLowerHex_of_mem_lowerHex8 h
    simp only [isLowerHex, or_eq_true, and_eq_true, decide_eq_true_eq] at this
    omega

lemma notMem_decimal {n b} (h : b.toNat < 48) : b ∉ decimal n := fun hm => by
  have := (lt_of_mem_decimal_or_hex (v := 0) (.inl hm)).1
  omega

lemma notMem_lowerHex8 {v b} (h : b.toNat < 48) : b ∉ lowerHex8 v := fun hm => by
  have := (lt_of_mem_decimal_or_hex (n := 0) (.inr hm)).1
  omega

lemma splitCrc_hex {v payload} :
    splitCrc (lowerHex8 v ++ 32 :: payload) = (some v.toNat, payload) := by
  have hall : (lowerHex8 v).all isLowerHex = true :=
    List.all_eq_true.mpr fun b hb => isLowerHex_of_mem_lowerHex8 hb
  simp only [splitCrc, splitOnce_append (notMem_lowerHex8 (v := v) (b := 32) (by decide)),
    length_lowerHex8, hall, and_self, if_true, fromStrRadix_lowerHex8]

lemma utf8Error_frameLine {payload} (h : utf8Error 0 payload = none) :
    utf8Error 0 (frameLine crc32 payload) = none := by
  have e : frameLine crc32 payload
      = (decimal payload.length ++ 32 :: lowerHex8 (crc32 payload) ++ [32]) ++ payload := by
    simp [frameLine]
  rw [e, utf8Error_append, utf8Error_shift h]
  refine utf8Error_of_ascii fun b hb => ?_
  simp only [append_assoc, cons_append, mem_append, mem_cons,
    not_mem_nil, or_false] at hb
  rcases hb with hb | rfl | hb | rfl
  · exact (lt_of_mem_decimal_or_hex (v := 0) (.inl hb)).2
  · decide
  · exact (lt_of_mem_decimal_or_hex (n := 0) (.inr hb)).2
  · decide

lemma notMem_frameLine {payload} (h : (10 : UInt8) ∉ payload) :
    (10 : UInt8) ∉ frameLine crc32 payload := by
  have h1 : (10 : UInt8) ∉ decimal payload.length := notMem_decimal (by decide)
  have h2 : (10 : UInt8) ∉ lowerHex8 (crc32 payload) := notMem_lowerHex8 (by decide)
  simp [frameLine, h, h1, h2]

lemma decodeLine_frameLine {payload value} (offset : Nat) (hf : payload.length < 2 ^ 63)
    (hd : fromStr payload = .ok value) :
    decodeLine crc32 fromStr (frameLine crc32 payload) offset = .ok value := by
  have hs : splitOnce 32 (frameLine crc32 payload)
      = some (decimal payload.length, lowerHex8 (crc32 payload) ++ 32 :: payload) :=
    splitOnce_append (notMem_decimal (by decide))
  have hl : fromStrRadix 10 (2 ^ 64) (decimal payload.length) = some payload.length :=
    fromStrRadix_decimal (by omega)
  simp only [decodeLine, hs, hl, splitCrc_hex, ne_eq, not_true_eq_false, if_false, hd]
  rfl

lemma decodeRecord_frameLine (p : Payload fromStr) (offset : Nat) :
    decodeRecord crc32 fromStr offset true (frameLine crc32 p.bytes) = .ok p.value := by
  simp only [decodeRecord, utf8Error_frameLine p.utf8]
  exact decodeLine_frameLine offset p.fits p.decodes

end Codec

end Rimz.EventLog
