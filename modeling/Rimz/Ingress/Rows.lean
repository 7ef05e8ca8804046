import Rimz.Ingress.Log

/-!
# Logs that only appends have written

A log that whole and torn appends have written is a sequence of terminated rows, each the remains of
torn frames followed by one whole frame, and an unterminated rest. Reading such a log gives back
exactly the whole frames, whatever the torn ones left behind.
-/

namespace Rimz.Ingress
open Rimz.Lib Rimz.EventLog

section Rows
variable {crc32 : Bytes → UInt32} {fromStr : Bytes → Except Bytes HookIngress}

/-- A frame of the hook appender. JSON has no text in which a checksum token and a serialised
`HookIngress` stand behind anything else, so `serde_json` rejects a payload that runs on into
another frame (`isolated`). -/
structure Frame (crc32 : Bytes → UInt32) (fromStr : Bytes → Except Bytes HookIngress) extends
    Payload fromStr where
  isolated : ∀ x, ∃ e, fromStr (x ++ (lowerHex8 (crc32 bytes) ++ 32 :: bytes)) = .error e

def Frame.line (f : Frame crc32 fromStr) : Bytes := frameLine crc32 f.bytes

/-- The checksum token and the payload: what every text that runs on into the frame ends with. -/
def Frame.close (f : Frame crc32 fromStr) : Bytes := lowerHex8 (crc32 f.bytes) ++ 32 :: f.bytes

lemma Frame.line_eq (f : Frame crc32 fromStr) :
    f.line = decimal f.bytes.length ++ 32 :: f.close := rfl

lemma splitOnce_fused (f : Frame crc32 fromStr) (x : Bytes) :
    (∃ y z, splitOnce 32 (x ++ f.line) = some (y, z ++ f.line))
      ∨ splitOnce 32 (x ++ f.line) = some (x ++ decimal f.bytes.length, f.close) :=
  splitOnce_append_left (notMem_decimal (by decide)) x

lemma splitCrc_fused (f : Frame crc32 fromStr) (x : Bytes) :
    ∃ y, (splitCrc (x ++ f.line)).2 = y ++ f.close := by
  have hall : ∃ y, x ++ f.line = y ++ f.close :=
    ⟨x ++ decimal f.bytes.length ++ [32], by simp [Frame.line_eq]⟩
  have hpart : ∀ token payload, splitOnce 32 (x ++ f.line) = some (token, payload) →
      ∃ y, payload = y ++ f.close := by
    intro token payload hs
    obtain ⟨a, b, e⟩ | e := splitOnce_fused f x
    · cases e.symm.trans hs
      exact ⟨b ++ decimal f.bytes.length ++ [32], by simp [Frame.line_eq]⟩
    · cases e.symm.trans hs
      exact ⟨[], rfl⟩
  unfold splitCrc
  split
  · rename_i token payload hs
    split
    · exact hpart _ _ hs
    · exact hall
  · exact hall

lemma decodeLine_rejects {line len rest} (offset : Nat) (hs : splitOnce 32 line = some (len, rest))
    (hr : ∃ e, fromStr (splitCrc rest).2 = .error e) :
    ∃ e, decodeLine crc32 fromStr line offset = .error e ∧ e.isCorruption = true := by
  obtain ⟨json, hj⟩ := hr
  simp only [decodeLine, hs]
  split
  · exact ⟨_, rfl, rfl⟩
  rw [hj]
  split
  · exact ⟨_, rfl, rfl⟩
  · split
    · split <;> exact ⟨_, rfl, rfl⟩
    · exact ⟨_, rfl, rfl⟩

/-- Behind any bytes at all, a frame decodes to its own value or not at all. -/
lemma decodeRecord_fused (f : Frame crc32 fromStr) (offset : Nat) (x : Bytes) :
    decodeRecord crc32 fromStr offset true (x ++ f.line) = .ok f.value
      ∨ ∃ e, decodeRecord crc32 fromStr offset true (x ++ f.line) = .error e
          ∧ e.isCorruption = true := by
  simp only [decodeRecord, Bool.true_eq_false, if_false]
  cases utf8Error 0 (x ++ f.line) with
  | some err => exact .inr ⟨_, rfl, rfl⟩
  | none =>
    obtain ⟨a, b, e⟩ | e := splitOnce_fused f x
    · refine .inr (decodeLine_rejects offset e ?_)
      obtain ⟨y, hy⟩ := splitCrc_fused f b
      obtain ⟨err, he⟩ := f.isolated y
      exact ⟨err, by rw [← he]; exact congrArg fromStr hy⟩
    -- Nothing in front but digits: the length is another number, or the frame itself.
    simp only [decodeLine, e]
    split
    · exact .inr ⟨_, rfl, rfl⟩
    simp only [Frame.close, splitCrc_hex, f.decodes]
    split
    · exact .inr ⟨_, rfl, rfl⟩
    · exact .inl (by rw [if_neg (not_not_intro rfl)]; rfl)

lemma decodeRecord_line (f : Frame crc32 fromStr) (offset : Nat) :
    decodeRecord crc32 fromStr offset true f.line = .ok f.value :=
  decodeRecord_frameLine f.toPayload offset

/-- The fused search ends at the frame, if not before, and finds its value either way. -/
lemma findFused_fused (f : Frame crc32 fromStr) (offset : Nat) (x : Bytes) :
    ∃ start, findFused crc32 fromStr offset (x ++ f.line) = some (start, f.value) := by
  induction x generalizing offset with
  | nil =>
    obtain ⟨d, ds, hd⟩ : ∃ d ds, decimal f.bytes.length = d :: ds :=
      List.exists_cons_of_ne_nil (by simp [decimal, Nat.toDigits_ne_nil])
    have hdig := mem_decimal (n := f.bytes.length) (b := d) (by simp [hd])
    have hl : f.line = d :: (ds ++ 32 :: f.close) := by simp [Frame.line_eq, hd]
    have hdec := decodeRecord_line f offset
    rw [hl] at hdec ⊢
    refine ⟨offset, ?_⟩
    have h1 : (48 : UInt8) ≤ d ∧ d ≤ 57 := hdig
    simp [findFused, h1, hdec]
  | cons b bs ih =>
    obtain ⟨start, hs⟩ := ih (offset + 1)
    simp only [cons_append, findFused]
    split
    · obtain h | ⟨e, h, -⟩ := decodeRecord_fused f offset (b :: bs)
      · rw [cons_append] at h
        exact ⟨offset, by rw [h]⟩
      · rw [cons_append] at h
        exact ⟨start, by rw [h]; exact hs⟩
    · exact ⟨start, hs⟩

/-- A terminated row: what torn appends left, and the whole frame behind it. -/
structure LogRow (crc32 : Bytes → UInt32) (fromStr : Bytes → Except Bytes HookIngress) where
  torn : Bytes
  clean : (10 : UInt8) ∉ torn
  frame : Frame crc32 fromStr

namespace LogRow

def line (r : LogRow crc32 fromStr) : Bytes := r.torn ++ r.frame.line

def value (r : LogRow crc32 fromStr) : HookIngress := r.frame.value

def id (r : LogRow crc32 fromStr) : EventId := r.value.eventId

lemma notMem_line (r : LogRow crc32 fromStr) : (10 : UInt8) ∉ r.line := by
  simp only [line, Frame.line, mem_append, not_or]
  exact ⟨r.clean, notMem_frameLine r.frame.oneLine⟩

lemma recover (r : LogRow crc32 fromStr) (pos : Nat) :
    decodeRecord crc32 fromStr pos true r.line = .ok r.value
      ∨ ∃ e start, decodeRecord crc32 fromStr pos true r.line = .error e ∧ e.isCorruption = true
          ∧ fusedFrame crc32 fromStr pos r.line = some (start, r.value) := by
  obtain h | ⟨e, h, hc⟩ := decodeRecord_fused r.frame pos r.torn
  · exact .inl h
  cases ht : r.torn with
  | nil =>
    rw [ht, nil_append, decodeRecord_line] at h
    cases h
  | cons b bs =>
    obtain ⟨start, hs⟩ := findFused_fused r.frame (pos + 1) bs
    refine .inr ⟨e, start, h, hc, ?_⟩
    simpa only [fusedFrame, line, value, ht, cons_append, List.tail_cons] using hs

end LogRow

/-- The bytes of a sequence of rows. -/
def render (rows : List (LogRow crc32 fromStr)) : Bytes :=
  rows.flatMap fun r => r.line ++ [10]

@[simp] lemma render_nil : render ([] : List (LogRow crc32 fromStr)) = [] := rfl

lemma render_cons (r : LogRow crc32 fromStr) (rows : List (LogRow crc32 fromStr)) :
    render (r :: rows) = r.line ++ 10 :: render rows := by
  simp [render]

@[simp] lemma render_append (a b : List (LogRow crc32 fromStr)) :
    render (a ++ b) = render a ++ render b := by
  simp [render]

/-- The offset behind the rows. -/
def extentOf (rows : List (LogRow crc32 fromStr)) : Nat := (render rows).length

lemma extentOf_append (a b : List (LogRow crc32 fromStr)) :
    extentOf (a ++ b) = extentOf a + extentOf b := by
  simp [extentOf]

lemma extentOf_singleton (r : LogRow crc32 fromStr) : extentOf [r] = r.line.length + 1 := by
  simp [extentOf, render_cons]

lemma extentOf_eq_zero {rows : List (LogRow crc32 fromStr)} (h : extentOf rows = 0) :
    rows = [] := by
  cases rows with
  | nil => rfl
  | cons r rest =>
    rw [← singleton_append, extentOf_append, extentOf_singleton] at h
    omega

/-- The records of the rows from offset `pos` on: every frame, with the offset it ends at. -/
def recordsFrom (pos : Nat) : List (LogRow crc32 fromStr) → List (Option HookIngress × Nat)
  | [] => []
  | r :: rest =>
    (some r.value, pos + (r.line.length + 1)) :: recordsFrom (pos + (r.line.length + 1)) rest

/-- A repair keeps every whole frame, in order, and cuts only the unterminated rest. -/
lemma repairRows_render (rows : List (LogRow crc32 fromStr)) {tail} (ht : (10 : UInt8) ∉ tail)
    (pos : Nat) :
    ∃ diag, repairRows crc32 fromStr (numberRows pos (rowsOf 10 (render rows ++ tail)))
      = .ok (recordsFrom pos rows, if tail = [] then none else some (pos + extentOf rows), diag) := by
  induction rows generalizing pos with
  | nil =>
    by_cases h : tail = []
    · subst h
      exact ⟨[], rfl⟩
    · have hlast : tail.getLast? ≠ some 10 := fun e => ht (mem_of_getLast? e)
      exact ⟨[.hookIngressTruncated pos (pos + tail.length)], by
        simp [rowsOf_eq_singleton ht h, numberRows, hlast, repairRows, recordsFrom, h, extentOf]⟩
  | cons r rest ih =>
    obtain ⟨diag, hd⟩ := ih (pos + (r.line.length + 1))
    have hext : pos + (r.line.length + 1) + extentOf rest = pos + extentOf (r :: rest) := by
      simp only [extentOf, render_cons, length_append, length_cons]
      omega
    rw [render_cons, append_assoc, cons_append, numberRows_line r.notMem_line]
    simp only [repairRows, hd, hext, if_true]
    obtain h | ⟨e, start, h, hc, hf⟩ := r.recover pos
    · exact ⟨diag, by rw [h]; rfl⟩
    · exact ⟨.hookIngressSkipped pos start e :: diag, by rw [h, hf]; simp only [hc]; rfl⟩

/-- `repair_and_read` from the end of the applied rows. -/
lemma repairAndRead_render (done todo : List (LogRow crc32 fromStr)) {tail}
    (ht : (10 : UInt8) ∉ tail) :
    ∃ diag, repairAndRead crc32 fromStr (some (render (done ++ todo) ++ tail)) (extentOf done)
      = .ok (recordsFrom (extentOf done) todo, some (render (done ++ todo)), diag) := by
  obtain ⟨diag, hd⟩ := repairRows_render todo ht (extentOf done)
  have hdrop : (render (done ++ todo) ++ tail).drop (extentOf done) = render todo ++ tail := by
    simp [extentOf]
  refine ⟨diag, ?_⟩
  simp only [repairAndRead, readRows, hdrop, hd]
  by_cases h : tail = []
  · simp [h]
    rfl
  have e : extentOf done + extentOf todo = (render (done ++ todo)).length := by
    simp [extentOf]
  have hcut : (render (done ++ todo) ++ tail).take (extentOf done + extentOf todo)
      = render (done ++ todo) := by
    rw [e, List.take_left]
  simp only [h, if_false, map_some, Except.map, hcut]

/-- The only newlines of such a log end its rows. -/
lemma newline_ends_row (rows : List (LogRow crc32 fromStr)) {tail} (ht : (10 : UInt8) ∉ tail) {i}
    (h : (render rows ++ tail)[i]? = some 10) :
    ∃ a r b, rows = a ++ r :: b ∧ i + 1 = extentOf (a ++ [r]) := by
  induction rows generalizing i with
  | nil => exact absurd (mem_of_getElem? h) ht
  | cons r rest ih =>
    rw [render_cons, append_assoc, cons_append] at h
    rcases Nat.lt_trichotomy i r.line.length with hi | hi | hi
    · rw [List.getElem?_append_left hi] at h
      exact absurd (mem_of_getElem? h) r.notMem_line
    · exact ⟨[], r, rest, rfl, by rw [nil_append, extentOf_singleton, hi]⟩
    obtain ⟨k, rfl⟩ : ∃ k, i = r.line.length + (k + 1) := ⟨i - r.line.length - 1, by omega⟩
    rw [List.getElem?_append_right (by omega), Nat.add_sub_cancel_left,
      List.getElem?_cons_succ] at h
    obtain ⟨a, r', b, rfl, hk⟩ := ih h
    refine ⟨r :: a, r', b, rfl, ?_⟩
    rw [cons_append, ← singleton_append, extentOf_append, extentOf_singleton, ← hk]
    omega

/-- The validation loop of `read_cursor` at the end of a row compares with the id of its frame. -/
lemma endsWith_render (a b : List (LogRow crc32 fromStr)) (r : LogRow crc32 fromStr) (tail : Bytes)
    (expected : Option EventId) :
    endsWith crc32 fromStr (some (render (a ++ r :: b) ++ tail)) (extentOf (a ++ [r])) expected
      = .ok (expected == some r.id) := by
  have hext : extentOf (a ++ [r]) = (render a).length + r.line.length + 1 := by
    simp [extentOf, render_cons, Nat.add_assoc]
  have hlog : render (a ++ r :: b) ++ tail = render a ++ (r.line ++ 10 :: (render b ++ tail)) := by
    simp [render_cons]
  have hfront : LineStart (render a) := by
    rcases a.eq_nil_or_concat with rfl | ⟨a, q, rfl⟩
    · exact .inl rfl
    · exact .inr ⟨render a ++ q.line, by simp [render_cons]⟩
  rw [endsWith, if_neg (by omega), hext, hlog,
    readRowEndingAt_row (render b ++ tail) r.notMem_line hfront]
  dsimp only
  obtain h | ⟨e, start, h, hc, hf⟩ := r.recover (render a).length
  · rw [h]
    rfl
  · rw [h, hf]
    simp only [hc]
    rfl

lemma endsWith_foreign {rows : List (LogRow crc32 fromStr)} {tail} (ht : (10 : UInt8) ∉ tail) {stop}
    (h0 : stop ≠ 0) {id} (hid : ∀ r ∈ rows, r.id ≠ id) :
    endsWith crc32 fromStr (some (render rows ++ tail)) stop (some id) = .ok false := by
  by_cases hn : (render rows ++ tail)[stop - 1]? = some 10
  · obtain ⟨a, r, b, rfl, hs⟩ := newline_ends_row rows ht hn
    obtain rfl : stop = extentOf (a ++ [r]) := by omega
    rw [endsWith_render]
    have : r.id ≠ id := hid r (by simp)
    simpa using Ne.symm this
  · simp [endsWith, h0, readRowEndingAt, hn]

end Rows

end Rimz.Ingress
