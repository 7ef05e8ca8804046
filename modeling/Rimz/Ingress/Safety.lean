import Rimz.Ingress.History

/-!
# The drainer loses nothing and re-applies only what it was interrupted in

The invariant splits the rows of the log into those an applied cursor is past, the one under claim,
and those still to come. Everything `read_cursor` and `repair_and_read` return is a function of that
split: a cursor that survived a truncation names a frame that is gone, and reads as the default one.
-/

namespace Rimz.Ingress
open Rimz.Lib Rimz.EventLog

section Safety
variable {crc32 : Bytes → UInt32} {fromStr : Bytes → Except Bytes HookIngress}
  {own : Option String} {done todo rows : List (LogRow crc32 fromStr)}
  {held : Option (LogRow crc32 fromStr)} {cur : HookDrainCursor} {history : List Act} {w : World}

/-- The cursor stands behind the rows `done` and claims the row `held`, if any. -/
structure CursorAt (done : List (LogRow crc32 fromStr)) (held : Option (LogRow crc32 fromStr))
    (c : HookDrainCursor) : Prop where
  version : c.version = cursorVersion
  applied : c.applied = extentOf done
  appliedId : c.appliedEventId = done.getLast?.map LogRow.id
  claimed : c.claimed = extentOf (done ++ held.toList)
  claimedId : c.claimedEventId = (done ++ held.toList).getLast?.map LogRow.id

/-- The cursor file, and the cursor it reads as. -/
inductive Disk (history : List Act) (rows done : List (LogRow crc32 fromStr))
    (held : Option (LogRow crc32 fromStr)) : Option HookDrainCursor → HookDrainCursor → Prop where
  | valid {c : HookDrainCursor} : CursorAt done held c → Disk history rows done held (some c) c
  | absent : done = [] → held = none → Disk history rows done held none default
  | stale {c : HookDrainCursor} {f : HookIngress} : done = [] → held = none →
      c.version = cursorVersion → c.applied ≠ 0 → c.appliedEventId = some f.eventId →
      .appended f ∈ history → (∀ r ∈ rows, r.id ≠ f.eventId) →
      Disk history rows done held (some c) default

lemma cursorAt_default : CursorAt ([] : List (LogRow crc32 fromStr)) none default :=
  ⟨rfl, rfl, rfl, rfl, rfl⟩

lemma Disk.cursorAt {file} (h : Disk history rows done held file cur) : CursorAt done held cur := by
  cases h with
  | valid h => exact h
  | absent hd hh | stale hd hh =>
    subst hd hh
    exact cursorAt_default

lemma Disk.mono {file} (h : Disk history rows done held file cur) {history' rows'}
    (hh : history ⊆ history')
    (hr : ∀ r ∈ rows', r ∈ rows ∨ ∀ f, .appended f ∈ history → r.id ≠ f.eventId) :
    Disk history' rows' done held file cur := by
  cases h with
  | valid h => exact .valid h
  | absent hd he => exact .absent hd he
  | stale hd he hv h0 hid hf hrows =>
    refine .stale hd he hv h0 hid (hh hf) fun r hm => ?_
    rcases hr r hm with h | h
    · exact hrows r h
    · exact h _ hf

lemma endsWith_last (rows more : List (LogRow crc32 fromStr)) (tail : Bytes) :
    endsWith crc32 fromStr (some (render (rows ++ more) ++ tail)) (extentOf rows)
      (rows.getLast?.map LogRow.id) = .ok true := by
  rcases rows.eq_nil_or_concat with rfl | ⟨a, r, rfl⟩
  · rfl
  · have h := endsWith_render a more r tail (some r.id)
    simpa using h

lemma readCursor_getD {log file} :
    readCursor crc32 fromStr log file = readCursor crc32 fromStr (some (log.getD [])) file := by
  cases log with
  | some bytes => rfl
  | none =>
    have e : ∀ stop id, endsWith crc32 fromStr none stop id = endsWith crc32 fromStr (some []) stop id := by
      intro stop id
      simp [endsWith, readRowEndingAt]
    cases file with
    | none => rfl
    | some c =>
      simp only [readCursor, e]
      rfl

lemma readCursor_disk {file tail log} (ht : (10 : UInt8) ∉ tail)
    (hlog : log.getD [] = render (done ++ (held.toList ++ todo)) ++ tail)
    (h : Disk history (done ++ (held.toList ++ todo)) done held file cur) :
    readCursor crc32 fromStr log file = .ok cur := by
  rw [readCursor_getD, hlog]
  cases h with
  | absent => rfl
  | valid h =>
    have hlen : logLen (some (render (done ++ (held.toList ++ todo)) ++ tail))
        = extentOf done + extentOf held.toList + extentOf todo + tail.length := by
      simp [logLen, extentOf, Nat.add_assoc]
    have h1 := endsWith_last done (held.toList ++ todo) tail
    have h2 := endsWith_last (done ++ held.toList) todo tail
    rw [append_assoc] at h2
    have hok : ¬ (extentOf done + extentOf held.toList + extentOf todo + tail.length < cur.applied
        ∨ extentOf done + extentOf held.toList + extentOf todo + tail.length < cur.claimed) := by
      rw [h.applied, h.claimed, extentOf_append]
      omega
    simp only [readCursor, h.version, hlen, hok, ne_eq, not_true_eq_false, if_false]
    rw [h.applied, h.appliedId, h.claimed, h.claimedId, h1, h2]
    rfl
  | stale hd he hv h0 hid hf hrows =>
    have h1 := endsWith_foreign ht h0 hrows
    simp only [readCursor, hv, ne_eq, not_true_eq_false, if_false]
    split
    · rfl
    · rw [hid, h1]
      rfl

/-- The frames still in the hands of the `while` loop are the next rows of the log, and its cursor
is the current one or lies behind. -/
def RunAt (done : List (LogRow crc32 fromStr)) (held : Option (LogRow crc32 fromStr))
    (todo : List (LogRow crc32 fromStr)) (cur : HookDrainCursor) (run : Run) : Prop :=
  run.frames = [] ∨ ∃ more rest, held.toList ++ todo = more ++ rest
    ∧ run.frames = recordsFrom (extentOf done) more
    ∧ (run.cursor = cur ∨ held = none ∧ run.cursor.claimed ≤ extentOf done)

/-- The loop works on the row under claim. -/
def HeldAt (done : List (LogRow crc32 fromStr)) (held : Option (LogRow crc32 fromStr))
    (todo : List (LogRow crc32 fromStr)) (run : Run) (frame : HookIngress) (stop : Nat) : Prop :=
  ∃ r, held = some r ∧ frame = r.value ∧ stop = extentOf (done ++ [r])
    ∧ run.cursor.claimed ≤ stop
    ∧ ∃ more rest, todo = more ++ rest ∧ run.frames = recordsFrom stop more

/-- What each place in the drain knows. -/
def PcAt (history : List Act) (done : List (LogRow crc32 fromStr))
    (held : Option (LogRow crc32 fromStr)) (todo : List (LogRow crc32 fromStr))
    (cur : HookDrainCursor) : Pc → Prop
  | .idle => True
  | .opened c => c = cur
  | .draining run | .responding run | .finishing run _ => RunAt done held todo cur run
  | .claimed run frame stop recovering => HeldAt done held todo run frame stop
      ∧ if recovering then run.cursor.logExtentAtClaim = cur.logExtentAtClaim
        else ¬ Handed frame history
  | .handed run frame stop => HeldAt done held todo run frame stop ∧ Handed frame history
  | .truncated run _ => run.frames = [] ∧ done = [] ∧ held = none

structure Inv (own : Option String) (w : World) (done : List (LogRow crc32 fromStr))
    (held : Option (LogRow crc32 fromStr)) (todo : List (LogRow crc32 fromStr))
    (cur : HookDrainCursor) : Prop where
  log : ∃ tail, (10 : UInt8) ∉ tail
    ∧ w.content.getD [] = render (done ++ (held.toList ++ todo)) ++ tail
  disk : Disk w.history (done ++ (held.toList ++ todo)) done held w.cursor cur
  distinct : ((done ++ (held.toList ++ todo)).map LogRow.id).Nodup
  appended : ∀ r ∈ done ++ (held.toList ++ todo), .appended r.value ∈ w.history
  settled : ∀ f, .appended f ∈ w.history → (∃ r ∈ held.toList ++ todo, r.value = f)
    ∨ otherBoot own f = true ∨ Handed f w.history
  claim : ∀ r, held = some r → otherBoot own r.value = false
    ∧ firstClaim r.id w.history = some cur.logExtentAtClaim ∧ .applied r.id ∉ w.history
  untouched : ∀ r ∈ todo, Untouched r.id w.history
  known : ∀ a ∈ w.history, ∀ id, a.touches = some id → ∃ f, .appended f ∈ w.history ∧ f.eventId = id
  ordered : Ordered own w.history
  pc : PcAt w.history done held todo cur w.pc

/-- Some split of the rows holds. -/
def SplitInv (crc32 : Bytes → UInt32) (fromStr : Bytes → Except Bytes HookIngress)
    (own : Option String) (w : World) : Prop :=
  ∃ (done : List (LogRow crc32 fromStr)) (held : Option (LogRow crc32 fromStr))
    (todo : List (LogRow crc32 fromStr)) (cur : HookDrainCursor), Inv own w done held todo cur

namespace Inv

section
variable (h : Inv own w done held todo cur)
include h

lemma readCursor_eq :
    readCursor crc32 fromStr w.content w.cursor = .ok cur := by
  obtain ⟨tail, ht, hlog⟩ := h.log
  exact readCursor_disk ht hlog h.disk

lemma cursorAt : CursorAt done held cur := h.disk.cursorAt

lemma goto {pc} (hpc : PcAt w.history done held todo cur pc) :
    Inv own { w with pc := pc } done held todo cur :=
  { h with pc := hpc }

lemma expected_eq {run} (hv : validateOwnership crc32 fromStr w run) : run.expected = cur := by
  have e := h.readCursor_eq.symm.trans hv.1
  exact (Except.ok.inj e).symm

end

end Inv

lemma untouched_of_touches {id} (h : ∀ a ∈ history, a.touches ≠ some id) : Untouched id history where
  claimed _ hm := h _ hm rfl
  handed _ _ hm hid := h _ hm (congrArg some hid)
  applied hm := h _ hm rfl

lemma fresh_inv (h : w.Fresh) :
    Inv own w ([] : List (LogRow crc32 fromStr)) none [] default := by
  obtain ⟨hlog, hcur, hpc, hh⟩ := h
  refine ⟨⟨[], by simp, by simp [World.content, hlog]⟩, ?_, by simp, by simp, by simp [hh], by simp,
    by simp, by simp [hh], ?_, ?_⟩
  · rw [hcur]
    exact .absent rfl rfl
  · rw [hh]
    exact ⟨by simp, by simp, by simp⟩
  · rw [hpc]
    trivial

lemma write_content (w : World) (ino : Nat) (bytes : Bytes) :
    ((w.write ino bytes).map Prod.snd).getD [] = w.content.getD [] ++ bytes := by
  cases h : w.log with
  | none | some l => simp [World.write, World.content, h]

/-- The places of the drain survive an append. -/
lemma PcAt.append {pc} (h : PcAt history done held todo cur pc) (f : HookIngress)
    (r : LogRow crc32 fromStr) :
    PcAt (history ++ [.appended f]) done held (todo ++ [r]) cur pc := by
  have hrun : ∀ run, RunAt done held todo cur run → RunAt done held (todo ++ [r]) cur run := by
    rintro run (h | ⟨more, rest, hm, hf, hc⟩)
    · exact .inl h
    · exact .inr ⟨more, rest ++ [r], by rw [← append_assoc, hm, append_assoc], hf, hc⟩
  have hheld : ∀ run frame stop, HeldAt done held todo run frame stop →
      HeldAt done held (todo ++ [r]) run frame stop := by
    rintro run frame stop ⟨q, hq, hf, hs, hc, more, rest, rfl, hr⟩
    exact ⟨q, hq, hf, hs, hc, more, rest ++ [r], by simp, hr⟩
  have hnew : ∀ g, Handed g (history ++ [.appended f]) → Handed g history := by
    rintro g ⟨e, he⟩
    exact ⟨e, by simpa using he⟩
  cases pc with
  | idle => trivial
  | opened c | truncated run _ => exact h
  | draining run | responding run | finishing run _ => exact hrun _ h
  | claimed run frame stop recovering =>
    refine ⟨hheld _ _ _ h.1, ?_⟩
    cases recovering with
    | true => exact h.2
    | false => exact fun hh => h.2 (hnew _ hh)
  | handed run frame stop => exact ⟨hheld _ _ _ h.1, h.2.append _⟩

namespace Inv

section
variable (h : Inv own w done held todo cur)
include h

lemma append (ino : Nat) (f : Frame crc32 fromStr)
    (fresh : ∀ g, .appended g ∈ w.history → g.eventId ≠ f.value.eventId) :
    ∃ r : LogRow crc32 fromStr, Inv own { w with
      log := w.write ino (encodeFrame crc32 f.bytes)
      history := w.history ++ [.appended f.value] } done held (todo ++ [r]) cur := by
  obtain ⟨tail, ht, hlog⟩ := h.log
  -- The row of the new frame takes up whatever torn appends had left at the end.
  let r : LogRow crc32 fromStr := ⟨tail, ht, f⟩
  have hsub : w.history ⊆ w.history ++ [.appended f.value] := List.subset_append_left _ _
  have hrows : done ++ (held.toList ++ (todo ++ [r])) = done ++ (held.toList ++ todo) ++ [r] := by
    simp
  have hnew : ∀ q ∈ done ++ (held.toList ++ todo), q.id ≠ r.id := fun q hq =>
    fresh _ (h.appended q hq)
  refine ⟨r, ⟨[], by simp, ?_⟩, ?_, ?_, ?_, ?_, ?_, ?_, ?_, h.ordered.snoc trivial, h.pc.append _ _⟩
  · rw [hrows, World.content, write_content, hlog]
    simp [render_cons, r, LogRow.line, Frame.line, encodeFrame_eq]
  · refine h.disk.mono hsub fun q hq => ?_
    rw [hrows] at hq
    rcases mem_append.mp hq with hq | hq
    · exact .inl hq
    · rw [mem_singleton.mp hq]
      exact .inr fun g hg => (fresh g hg).symm
  · rw [hrows, map_append, nodup_append]
    refine ⟨h.distinct, by simp, ?_⟩
    rintro a ha b hb rfl
    obtain ⟨q, hq, rfl⟩ := mem_map.mp ha
    exact hnew q hq (by simpa using hb)
  · intro q hq
    rw [hrows] at hq
    rcases mem_append.mp hq with hq | hq
    · exact hsub (h.appended q hq)
    · rw [mem_singleton.mp hq]
      simp [r, LogRow.value]
  · intro g hg
    rcases mem_append.mp hg with hg | hg
    · obtain ⟨q, hq, rfl⟩ | ho | hh := h.settled g hg
      · refine .inl ⟨q, ?_, rfl⟩
        rw [← append_assoc]
        exact mem_append_left _ hq
      · exact .inr (.inl ho)
      · exact .inr (.inr (hh.append _))
    · obtain rfl : g = f.value := by simpa using hg
      exact .inl ⟨r, by simp, rfl⟩
  · intro q hq
    obtain ⟨ho, hc, ha⟩ := h.claim q hq
    exact ⟨ho, firstClaim_append hc, by simpa using ha⟩
  · intro q hq
    rcases mem_append.mp hq with hq | hq
    · exact (h.untouched q hq).append (by simp [Act.touches])
    rw [mem_singleton.mp hq]
    have hu : ∀ a ∈ w.history, a.touches ≠ some r.id := by
      intro a ha hid
      obtain ⟨g, hg, he⟩ := h.known a ha _ hid
      exact fresh g hg he
    exact (untouched_of_touches hu).append (by simp [Act.touches])
  · intro a ha id hid
    rcases mem_append.mp ha with ha | ha
    · obtain ⟨g, hg, he⟩ := h.known a ha id hid
      exact ⟨g, hsub hg, he⟩
    · rw [mem_singleton.mp ha] at hid
      cases hid

lemma tear (ino : Nat) (f : Frame crc32 fromStr) {k}
    (torn : k < (encodeFrame crc32 f.bytes).length) :
    Inv own { w with log := w.write ino ((encodeFrame crc32 f.bytes).take k) } done held todo cur := by
  obtain ⟨tail, ht, hlog⟩ := h.log
  have hk : (10 : UInt8) ∉ (encodeFrame crc32 f.bytes).take k := by
    rw [encodeFrame_eq] at torn ⊢
    rw [length_append, length_singleton] at torn
    rw [List.take_append_of_le_length (by omega)]
    exact fun hm => notMem_frameLine f.oneLine (List.mem_of_mem_take hm)
  refine { h with log := ⟨tail ++ (encodeFrame crc32 f.bytes).take k, by simp [ht, hk], ?_⟩ }
  rw [World.content, write_content, hlog, append_assoc]

lemma read {cursor records bytes diag} (hpc : w.pc = .opened cursor)
    (hread : repairAndRead crc32 fromStr w.content cursor.applied = .ok (records, bytes, diag)) :
    Inv own { w with
      log := w.rewrite bytes
      diag := w.diag ++ diag
      pc := if records = [] then .idle
        else .draining ⟨cursor, cursor, w.identity, records, cursor.applied⟩ } done held todo cur := by
  obtain ⟨tail, ht, hlog⟩ := h.log
  obtain rfl : cursor = cur := by
    have := h.pc
    rwa [hpc] at this
  cases hw : w.log with
  | none =>
    -- No log, no rows: nothing is read and nothing is written.
    rw [World.content, hw, h.cursorAt.applied] at hread
    cases hread
    refine { h with log := ⟨tail, ht, ?_⟩, pc := trivial }
    simpa [World.rewrite, World.content, hw] using hlog
  | some l =>
    obtain ⟨ino, old⟩ := l
    obtain rfl : old = render (done ++ (held.toList ++ todo)) ++ tail := by
      simpa [World.content, hw] using hlog
    obtain ⟨diag', hd⟩ := repairAndRead_render done (held.toList ++ todo) ht
    rw [World.content, hw, h.cursorAt.applied] at hread
    cases hd.symm.trans hread
    refine { h with log := ⟨[], by simp, by simp [World.rewrite, World.content, hw]⟩, pc := ?_ }
    split
    · trivial
    · exact .inr ⟨held.toList ++ todo, [], by simp, rfl, .inl rfl⟩

end

lemma next_row {run frame stop rest} (hrun : RunAt done held todo cur run)
    (hframes : run.frames = (frame, stop) :: rest) :
    ∃ r more after, held.toList ++ todo = r :: (more ++ after) ∧ frame = some r.value
      ∧ stop = extentOf (done ++ [r]) ∧ rest = recordsFrom stop more
      ∧ (run.cursor = cur ∨ held = none ∧ run.cursor.claimed ≤ extentOf done) := by
  rcases hrun with hnil | ⟨more, after, hrows, hf, hc⟩
  · rw [hnil] at hframes
    cases hframes
  rw [hf] at hframes
  cases more with
  | nil => cases hframes
  | cons r more =>
    obtain ⟨⟨rfl, rfl⟩, rfl⟩ := hframes
    exact ⟨r, more, after, hrows, rfl, by rw [extentOf_append, extentOf_singleton], rfl, hc⟩

section

variable (h : Inv own w done held todo cur)
include h

lemma untouched_behind {r todo'} (hrows : held.toList ++ todo = r :: todo')
    {a} (ha : a.touches = some r.id) : ∀ q ∈ todo', Untouched q.id (w.history ++ [a]) := by
  intro q hq
  have hmem : q ∈ todo := by
    cases held with
    | none =>
      obtain rfl : todo = r :: todo' := hrows
      exact mem_cons_of_mem _ hq
    | some r0 =>
      obtain ⟨-, rfl⟩ : r0 = r ∧ todo = todo' := by simpa using hrows
      exact hq
  refine (h.untouched q hmem).append fun b hb hid => ?_
  rw [mem_singleton.mp hb] at hid
  have hd := h.distinct
  rw [hrows, map_append, map_cons, nodup_append, nodup_cons] at hd
  exact hd.2.1.1 (mem_map.mpr ⟨q, hq, Option.some.inj (hid.symm.trans ha)⟩)

lemma known_snoc {a f} (hf : .appended f ∈ w.history) (ha : a.touches = some f.eventId) :
    ∀ b ∈ w.history ++ [a], ∀ id, b.touches = some id →
      ∃ f, .appended f ∈ w.history ++ [a] ∧ f.eventId = id := by
  intro b hb id hid
  rcases mem_append.mp hb with hb | hb
  · obtain ⟨g, hg, he⟩ := h.known b hb id hid
    exact ⟨g, mem_append_left _ hg, he⟩
  · rw [mem_singleton.mp hb, ha] at hid
    exact ⟨f, mem_append_left _ hf, Option.some.inj hid⟩

lemma claimStep {run frame stop rest} (hpc : w.pc = .draining run)
    (hframes : run.frames = (some frame, stop) :: rest) (hother : otherBoot own frame = false)
    (hown : validateOwnership crc32 fromStr w run) {recovering : Bool}
    (hrec : recovering = decide (run.cursor.applied < run.cursor.claimed
      ∧ stop = run.cursor.claimed)) {cursor : HookDrainCursor}
    (hcursor : cursor = { run.expected with
      claimed := stop, claimedEventId := some frame.eventId
      logExtentAtClaim := if recovering then run.expected.logExtentAtClaim else w.extent }) :
    ∃ r todo', Inv own { w with
      cursor := some cursor
      history := w.history ++ [.claimed frame.eventId cursor.logExtentAtClaim]
      pc := .claimed { run with expected := cursor, frames := rest } frame stop recovering }
      done (some r) todo' cursor := by
  have hrun : RunAt done held todo cur run := by
    have := h.pc
    rwa [hpc] at this
  obtain ⟨r, more, after, hrows, hfr, hstop, hrest, hc⟩ := next_row hrun hframes
  obtain rfl : frame = r.value := Option.some.inj hfr
  rw [h.expected_eq hown] at hcursor
  have hat := h.cursorAt
  have hpos : extentOf done < stop := by
    rw [hstop, extentOf_append, extentOf_singleton]
    omega
  have hsub : w.history ⊆ w.history ++ [.claimed r.value.eventId cursor.logExtentAtClaim] :=
    List.subset_append_left _ _
  have happ : .appended r.value ∈ w.history := h.appended r (by rw [hrows]; simp)
  -- A claim is made anew exactly when no claim is on the disk.
  have hclaim : (recovering = true ∧ held = some r ∧ run.cursor = cur)
      ∨ (recovering = false ∧ held = none ∧ run.cursor.claimed ≤ stop) := by
    cases held with
    | some r0 =>
      obtain ⟨rfl, -⟩ : r0 = r ∧ todo = more ++ after := by simpa using hrows
      obtain hc | ⟨hn, -⟩ := hc
      · refine .inl ⟨?_, rfl, hc⟩
        have hcl : cur.claimed = stop := by rw [hat.claimed, hstop]; rfl
        rw [hrec, hc, hcl, hat.applied]
        simpa using hpos
      · cases hn
    | none =>
      have hle : run.cursor.claimed ≤ run.cursor.applied ∨ run.cursor.claimed < stop := by
        obtain rfl | ⟨-, hc⟩ := hc
        · have : run.cursor.claimed = run.cursor.applied := by
            rw [hat.claimed, hat.applied]
            simp
          exact .inl this.le
        · exact .inr (by omega)
      refine .inr ⟨?_, rfl, ?_⟩
      · rw [hrec, decide_eq_false_iff_not]
        omega
      · obtain rfl | ⟨-, hc⟩ := hc
        · rw [hat.claimed]
          simp only [toList_none, append_nil]
          omega
        · omega
  have hfresh : held = none → Untouched r.id w.history := by
    rintro rfl
    obtain rfl : todo = r :: (more ++ after) := hrows
    exact h.untouched r mem_cons_self
  refine ⟨r, more ++ after, ?_, ?_, ?_, ?_, ?_, ?_, h.untouched_behind hrows rfl,
    h.known_snoc happ rfl, h.ordered.snoc trivial, ?_⟩
  · simpa [World.content, hrows] using h.log
  · refine .valid ?_
    rw [hcursor]
    exact ⟨hat.version, hat.applied, hat.appliedId, hstop, by simp [LogRow.id]⟩
  · simpa [hrows] using h.distinct
  · intro q hq
    refine hsub (h.appended q ?_)
    rw [hrows]
    exact hq
  · intro f hf
    obtain ⟨q, hq, rfl⟩ | ho | hh := h.settled f (by simpa using hf)
    · refine .inl ⟨q, ?_, rfl⟩
      rw [hrows] at hq
      exact hq
    · exact .inr (.inl ho)
    · exact .inr (.inr (hh.append _))
  · rintro q hq
    obtain rfl : r = q := Option.some.inj hq
    refine ⟨hother, ?_, ?_⟩
    · obtain ⟨hr, hh, -⟩ | ⟨hr, hh, -⟩ := hclaim
      · have hext : cursor.logExtentAtClaim = cur.logExtentAtClaim := by
          rw [hcursor, hr]
          rfl
        rw [hext]
        exact firstClaim_append (h.claim r hh).2.1
      · exact firstClaim_snoc (hfresh hh).claimed
    · obtain ⟨-, hh, -⟩ | ⟨-, hh, -⟩ := hclaim
      · simpa using (h.claim r hh).2.2
      · simpa using (hfresh hh).applied
  · refine ⟨⟨r, rfl, rfl, hstop, ?_, more, after, rfl, hrest⟩, ?_⟩
    · obtain ⟨-, hh, hcc⟩ | ⟨-, -, hle⟩ := hclaim
      · simp only [hcc, hat.claimed, hstop, hh]
        exact le_rfl
      · exact hle
    · obtain ⟨hr, -, hcc⟩ | ⟨hr, hh, -⟩ := hclaim
      · subst hr
        simp [hcursor, hcc]
      · subst hr
        rintro ⟨e, he⟩
        exact (hfresh hh).handed _ _ (by simpa using he) rfl

lemma handStep {run frame stop recovering} (hpc : w.pc = .claimed run frame stop recovering) :
    Inv own { w with
      history := w.history
        ++ [.handed frame (if recovering then some run.cursor.logExtentAtClaim else none)]
      pc := .handed run frame stop } done held todo cur := by
  have hp := h.pc
  rw [hpc] at hp
  obtain ⟨⟨r, rfl, rfl, hstop, hle, hmore⟩, hflag⟩ := hp
  obtain ⟨hother, hfirst, happ⟩ := h.claim r rfl
  set act : Act := .handed r.value (if recovering then some run.cursor.logExtentAtClaim else none)
  have hin : .appended r.value ∈ w.history := h.appended r (by simp)
  have hnow : Handed r.value (w.history ++ [act]) := ⟨_, mem_append_right _ mem_cons_self⟩
  have hallowed : Allowed own w.history act := by
    refine ⟨happ, fun hh => ?_⟩
    cases recovering with
    | true => exact ⟨_, if_pos rfl, by rw [show r.value.eventId = r.id from rfl, hfirst, hflag]⟩
    | false => exact absurd hh hflag
  refine ⟨h.log, h.disk.mono (List.subset_append_left _ _) fun q hq => .inl hq, h.distinct,
    fun q hq => mem_append_left _ (h.appended q hq), ?_, ?_, h.untouched_behind rfl rfl,
    h.known_snoc hin rfl, h.ordered.snoc hallowed, ⟨⟨r, rfl, rfl, hstop, hle, hmore⟩, hnow⟩⟩
  · intro f hf
    obtain hq | ho | hh := h.settled f (by simpa [act] using hf)
    · exact .inl hq
    · exact .inr (.inl ho)
    · exact .inr (.inr (hh.append _))
  · intro q hq
    obtain ⟨ho, hc, ha⟩ := h.claim q hq
    exact ⟨ho, firstClaim_append hc, by simpa [act] using ha⟩

lemma settleStep {run frame stop}
    (hpc : w.pc = .handed run frame stop) (hown : validateOwnership crc32 fromStr w run)
    {cursor : HookDrainCursor}
    (hcursor : cursor = { run.expected with
      applied := stop, appliedEventId := some frame.eventId }) :
    ∃ r, Inv own { w with
      cursor := some cursor
      history := w.history ++ [.applied frame.eventId]
      pc := .responding { run with expected := cursor, applied := stop } }
      (done ++ [r]) none todo cursor := by
  have hp := h.pc
  rw [hpc] at hp
  obtain ⟨⟨r, rfl, rfl, hstop, hle, more, after, hmore, hframes⟩, hhanded⟩ := hp
  rw [h.expected_eq hown] at hcursor
  have hat := h.cursorAt
  have hrows : done ++ [r] ++ (Option.toList none ++ todo) = done ++ ((some r).toList ++ todo) := by
    simp
  have hin : .appended r.value ∈ w.history := h.appended r (by simp)
  refine ⟨r, ?_, .valid ?_, ?_, ?_, ?_, ?_, ?_, h.known_snoc hin rfl, h.ordered.snoc trivial, ?_⟩
  · rw [hrows]
    exact h.log
  · subst hcursor
    exact ⟨hat.version, hstop, by simp [LogRow.id], by simpa using hat.claimed, by
      simpa using hat.claimedId⟩
  · rw [hrows]
    exact h.distinct
  · rw [hrows]
    exact fun q hq => mem_append_left _ (h.appended q hq)
  · intro f hf
    obtain ⟨q, hq, rfl⟩ | ho | hh := h.settled f (by simpa using hf)
    · rcases mem_cons.mp hq with rfl | hq
      · exact .inr (.inr (hhanded.append _))
      · exact .inl ⟨q, hq, rfl⟩
    · exact .inr (.inl ho)
    · exact .inr (.inr (hh.append _))
  · intro q hq
    cases hq
  · exact h.untouched_behind rfl rfl
  · exact .inr ⟨more, after, hmore, by rw [← hstop]; exact hframes, .inr ⟨rfl, by rw [← hstop]; exact hle⟩⟩

end

/-- The batch of frames of other boots is a run of rows at the front of the rest. -/
lemma dropOtherBoot_records (own : Option String) (dropped : Nat) (last : EventId) (pos : Nat)
    (rows : List (LogRow crc32 fromStr)) :
    ∃ a b, rows = a ++ b ∧ (∀ r ∈ a, otherBoot own r.value = true)
      ∧ dropOtherBoot own dropped last pos (recordsFrom pos rows)
        = (dropped + a.length, (a.getLast?.map LogRow.id).getD last, pos + extentOf a,
          recordsFrom (pos + extentOf a) b) := by
  induction rows generalizing dropped last pos with
  | nil => exact ⟨[], [], rfl, by simp, by simp [recordsFrom, dropOtherBoot, extentOf]⟩
  | cons r rest ih =>
    cases ho : otherBoot own r.value with
    | false =>
      exact ⟨[], r :: rest, rfl, by simp, by simp [recordsFrom, dropOtherBoot, ho, extentOf]⟩
    | true =>
      obtain ⟨a, b, rfl, ha, hd⟩ := ih (dropped + 1) r.id (pos + (r.line.length + 1))
      rw [LogRow.id] at hd
      refine ⟨r :: a, b, rfl, by simpa [ho] using ha, ?_⟩
      have hext : pos + extentOf (r :: a) = pos + (r.line.length + 1) + extentOf a := by
        rw [← singleton_append, extentOf_append, extentOf_singleton, ← Nat.add_assoc]
      have hlast : ((r :: a).getLast?.map LogRow.id).getD last
          = (a.getLast?.map LogRow.id).getD r.value.eventId := by
        rcases a.eq_nil_or_concat with rfl | ⟨a, q, rfl⟩ <;> simp [List.getLast?_cons, LogRow.id]
      rw [hext, hlast, length_cons, Nat.add_comm a.length 1, ← Nat.add_assoc]
      simpa only [cons_append, recordsFrom, dropOtherBoot, ho, if_true] using hd

lemma passed_records (pos : Nat) (a b : List (LogRow crc32 fromStr)) :
    passed ((recordsFrom pos (a ++ b)).take a.length) = a.map fun r => .applied r.id := by
  induction a generalizing pos with
  | nil => rfl
  | cons r rest ih =>
    have := ih (pos + (r.line.length + 1))
    simp only [passed] at this
    simp [passed, recordsFrom, this, LogRow.id]

section

variable (h : Inv own w done held todo cur)
include h

lemma dropStep {run frame stop rest} (hpc : w.pc = .draining run)
    (hframes : run.frames = (some frame, stop) :: rest) (hother : otherBoot own frame = true)
    (hown : validateOwnership crc32 fromStr w run) {dropped last stop' rest'}
    (hdrop : dropOtherBoot own 1 frame.eventId stop rest = (dropped, last, stop', rest'))
    {cursor : HookDrainCursor}
    (hcursor : cursor = { run.expected with
      applied := stop', claimed := stop', appliedEventId := some last, claimedEventId := some last })
    (diag : List DiagEvent) :
    ∃ batch todo', Inv own { w with
      cursor := some cursor
      diag := diag
      history := w.history ++ passed (run.frames.take dropped)
      pc := .responding { run with expected := cursor, frames := rest', applied := stop' } }
      (done ++ batch) none todo' cursor := by
  have hrun : RunAt done held todo cur run := by
    have := h.pc
    rwa [hpc] at this
  obtain ⟨r, more, after, hrows, hfr, hstop, hrest, hc⟩ := next_row hrun hframes
  obtain rfl : frame = r.value := Option.some.inj hfr
  -- A claimed frame is of this boot, so the batch starts with no claim on the disk.
  obtain rfl : held = none := by
    cases held with
    | none => rfl
    | some r0 =>
      obtain ⟨rfl, -⟩ : r0 = r ∧ todo = more ++ after := by simpa using hrows
      have := (h.claim r0 rfl).1
      rw [hother] at this
      cases this
  obtain ⟨a, b, rfl, ha, hd⟩ := dropOtherBoot_records own 1 r.value.eventId stop more
  rw [hrest, hd] at hdrop
  cases hdrop
  obtain rfl : todo = (r :: a) ++ (b ++ after) := by simpa using hrows
  have hat := h.cursorAt
  have hstop' : stop + extentOf a = extentOf (done ++ (r :: a)) := by
    rw [hstop, ← extentOf_append, append_assoc]
    rfl
  have hlast : some ((a.getLast?.map LogRow.id).getD r.value.eventId)
      = (done ++ (r :: a)).getLast?.map LogRow.id := by
    rcases a.eq_nil_or_concat with rfl | ⟨a, q, rfl⟩ <;> simp [List.getLast?_cons, LogRow.id]
  have hpass : passed (run.frames.take (1 + a.length)) = (r :: a).map fun q => .applied q.id := by
    have hfr : run.frames = recordsFrom (extentOf done) ((r :: a) ++ b) := by
      rw [hframes, hrest, hstop, extentOf_append, extentOf_singleton]
      rfl
    rw [hfr, Nat.add_comm, ← length_cons (a := r), passed_records]
  have hlog : done ++ (r :: a) ++ (Option.toList none ++ (b ++ after))
      = done ++ (Option.toList none ++ ((r :: a) ++ (b ++ after))) := by simp
  have hboot : ∀ q ∈ r :: a, otherBoot own q.value = true := by
    rintro q hq
    rcases mem_cons.mp hq with rfl | hq
    · exact hother
    · exact ha q hq
  rw [h.expected_eq hown] at hcursor
  refine ⟨r :: a, b ++ after, ?_, .valid ?_, ?_, ?_, ?_, by simp, ?_, ?_, h.ordered.passed _, ?_⟩
  · rw [hlog]
    exact h.log
  · subst hcursor
    exact ⟨hat.version, hstop', hlast, by simpa using hstop', by simpa using hlast⟩
  · rw [hlog]
    exact h.distinct
  · rw [hlog]
    exact fun q hq => mem_append_left _ (h.appended q hq)
  · intro f hf
    rw [hpass] at hf ⊢
    obtain ⟨q, hq, rfl⟩ | ho | hh := h.settled f (by simpa using hf)
    · rw [toList_none, nil_append] at hq
      rcases mem_append.mp hq with hq | hq
      · exact .inr (.inl (hboot q hq))
      · exact .inl ⟨q, hq, rfl⟩
    · exact .inr (.inl ho)
    · exact .inr (.inr (hh.append _))
  · intro q hq
    rw [hpass]
    refine (h.untouched q (mem_append_right _ hq)).append fun act hact hid => ?_
    obtain ⟨p, hp, rfl⟩ := mem_map.mp hact
    have hdist := h.distinct
    rw [map_append, toList_none, nil_append, map_append, nodup_append,
      nodup_append] at hdist
    exact hdist.2.1.2.2 _ (mem_map_of_mem hp) _ (mem_map_of_mem hq)
      (Option.some.inj hid)
  · intro act hact id hid
    rw [hpass] at hact ⊢
    rcases mem_append.mp hact with hact | hact
    · obtain ⟨f, hf, he⟩ := h.known act hact id hid
      exact ⟨f, mem_append_left _ hf, he⟩
    · obtain ⟨p, hp, rfl⟩ := mem_map.mp hact
      refine ⟨p.value, mem_append_left _ (h.appended p ?_), Option.some.inj hid⟩
      exact mem_append_right _ (mem_append_right _ (mem_append_left _ hp))
  · refine .inr ⟨b, after, rfl, by rw [hstop'], .inr ⟨rfl, ?_⟩⟩
    have hgrow : extentOf done ≤ extentOf (done ++ (r :: a)) := by
      rw [extentOf_append]
      omega
    obtain hc | ⟨-, hc⟩ := hc
    · have hcl : run.cursor.claimed = extentOf done := by simpa [hc] using hat.claimed
      exact hcl.trans_le hgrow
    · exact hc.trans hgrow

lemma truncateStep {run exhausted} (hpc : w.pc = .finishing run exhausted)
    (hdrained : drained crc32 fromStr w.content w.cursor = .ok true) :
    Inv own { w with
      log := w.rewrite (some [])
      history := w.history ++ [.truncated]
      pc := .truncated run exhausted } ([] : List (LogRow crc32 fromStr)) none [] default := by
  obtain ⟨tail, ht, hlog⟩ := h.log
  have hp := h.pc
  rw [hpc] at hp
  have hat := h.cursorAt
  have hlen : logLen w.content = extentOf done + extentOf (held.toList ++ todo) + tail.length := by
    rw [show logLen w.content = (w.content.getD []).length by cases w.content <;> rfl, hlog]
    simp [extentOf, Nat.add_assoc]
  -- The guard admits only a log that ends with the applied rows.
  simp only [drained, h.readCursor_eq, Except.map] at hdrained
  split at hdrained
  · cases hdrained
  obtain ⟨happ, -⟩ : cur.applied = logLen w.content ∧ cur.claimed = logLen w.content := by
    simpa using hdrained
  rw [hat.applied, hlen] at happ
  have hnil : held.toList ++ todo = [] := extentOf_eq_zero (by omega)
  have hdone : extentOf done ≠ 0 := by omega
  have hsettled : ∀ f, .appended f ∈ w.history → otherBoot own f = true ∨ Handed f w.history := by
    intro f hf
    obtain ⟨q, hq, -⟩ | hs := h.settled f hf
    · rw [hnil] at hq
      cases hq
    · exact hs
  refine ⟨⟨[], by simp, ?_⟩, ?_, by simp, by simp, ?_, by simp, by simp, ?_, h.ordered.snoc ?_, ?_⟩
  · simp only [World.content, World.rewrite]
    cases w.log <;> rfl
  · have hfile := h.disk
    generalize w.cursor = file at hfile ⊢
    cases hfile with
    | absent hd | stale hd => exact absurd (by rw [hd]; rfl) hdone
    | valid hc =>
      rcases done.eq_nil_or_concat with rfl | ⟨a, r, rfl⟩
      · exact absurd rfl hdone
      refine .stale (f := r.value) rfl rfl hc.version (by rw [hc.applied]; exact hdone) ?_ ?_ (by simp)
      · rw [hc.appliedId]
        simp [LogRow.id]
      · exact mem_append_left _ (h.appended r (by simp))
  · intro f hf
    obtain ho | hh := hsettled f (by simpa using hf)
    · exact .inr (.inl ho)
    · exact .inr (.inr (hh.append _))
  · intro a ha id hid
    rcases mem_append.mp ha with ha | ha
    · obtain ⟨f, hf, he⟩ := h.known a ha id hid
      exact ⟨f, mem_append_left _ hf, he⟩
    · rw [mem_singleton.mp ha] at hid
      cases hid
  · intro f hf hown
    obtain ho | hh := hsettled f hf
    · rw [hown] at ho
      cases ho
    · exact hh
  · refine ⟨?_, rfl, rfl⟩
    obtain hnone | ⟨more, after, hm, hf, -⟩ := hp
    · exact hnone
    · rw [hnil] at hm
      obtain ⟨rfl, -⟩ : more = [] ∧ after = [] := by simpa using hm.symm
      exact hf

lemma resetStep {run exhausted} (hpc : w.pc = .truncated run exhausted) : Inv own { w with
      cursor := some default
      pc := if exhausted then .idle else .responding { run with applied := 0 } }
      ([] : List (LogRow crc32 fromStr)) none todo default := by
  have hp := h.pc
  rw [hpc] at hp
  obtain ⟨hframes, rfl, rfl⟩ := hp
  refine { h with disk := .valid cursorAt_default, claim := by simp, pc := ?_ }
  split
  · trivial
  · exact .inl hframes

end

end Inv

/-- Every step of the machine keeps the split. -/
lemma Step.inv {w'} (st : Step crc32 fromStr own w w') (h : Inv own w done held todo cur) :
    SplitInv crc32 fromStr own w' := by
  cases st with
  | append ino f fresh =>
    obtain ⟨r, h'⟩ := h.append ino f fresh
    exact ⟨_, _, _, _, h'⟩
  | tear ino f k torn => exact ⟨_, _, _, _, h.tear ino f torn⟩
  | events extent =>
    exact ⟨_, _, _, _, { h with }⟩
  | restart => exact ⟨_, _, _, _, h.goto trivial⟩
  | load hpc hread =>
    exact ⟨_, _, _, _, h.goto (Except.ok.inj (hread.symm.trans h.readCursor_eq))⟩
  | read hpc hread => exact ⟨_, _, _, _, h.read hpc hread⟩
  | skip hpc hframes hown hcursor =>
    -- Whatever torn appends leave shares its line with a whole frame: no row is skipped.
    have hrun := h.pc
    rw [hpc] at hrun
    obtain ⟨r, -, -, -, hfr, -⟩ := Inv.next_row hrun hframes
    cases hfr
  | drop hpc hframes hother hown hdrop hcursor =>
    obtain ⟨_, _, h'⟩ := h.dropStep hpc hframes hother hown hdrop hcursor _
    exact ⟨_, _, _, _, h'⟩
  | claim hpc hframes hother hown hrec hcursor =>
    obtain ⟨_, _, h'⟩ := h.claimStep hpc hframes hother hown hrec hcursor
    exact ⟨_, _, _, _, h'⟩
  | hand hpc => exact ⟨_, _, _, _, h.handStep hpc⟩
  | settle hpc hown hcursor =>
    obtain ⟨_, h'⟩ := h.settleStep hpc hown hcursor
    exact ⟨_, _, _, _, h'⟩
  | respond hpc | unfinished hpc hdrained =>
    have hrun := h.pc
    rw [hpc] at hrun
    exact ⟨_, _, _, _, h.goto hrun⟩
  | @finish run exhausted hpc hlen =>
    have hrun : RunAt done held todo cur run := by
      have hp := h.pc
      cases exhausted with
      | true => exact .inl hpc.2
      | false =>
        rwa [hpc] at hp
    exact ⟨_, _, _, _, h.goto hrun⟩
  | truncate hpc hdrained => exact ⟨_, _, _, _, h.truncateStep hpc hdrained⟩
  | reset hpc => exact ⟨_, _, _, _, h.resetStep hpc⟩

/-- What a restart would read is exactly the rows no applied cursor is past. -/
lemma Inv.pending_eq (h : Inv own w done held todo cur) :
    pending crc32 fromStr w = (held.toList ++ todo).map LogRow.value := by
  obtain ⟨tail, ht, hlog⟩ := h.log
  have hrec : ∀ pos, ∀ rows : List (LogRow crc32 fromStr),
      (recordsFrom pos rows).filterMap Prod.fst = rows.map LogRow.value := by
    intro pos rows
    induction rows generalizing pos with
    | nil => rfl
    | cons r rest ih => simp [recordsFrom, ih]
  simp only [pending, h.readCursor_eq, h.cursorAt.applied]
  cases hw : w.content with
  | none =>
    have hnil : held.toList ++ todo = [] := by
      rw [hw, Option.getD_none, eq_comm, append_eq_nil_iff] at hlog
      have := extentOf_eq_zero (congrArg List.length hlog.1)
      exact (append_eq_nil_iff.mp this).2
    rw [hnil]
    rfl
  | some bytes =>
    rw [hw, getD_some] at hlog
    obtain ⟨diag, hd⟩ := repairAndRead_render done (held.toList ++ todo) ht
    rw [hlog, hd]
    exact hrec _ _

/-- In every run of appenders and a drainer that may stop anywhere: a frame of the current boot is
handed over or is still among those a restart reads; none is truncated away before it was handed
over; none is handed over once an applied cursor is past it; and a second hand-over is flagged with
the extent of the first claim. -/
theorem ingress_drained_in_order {w : World}
    (h : Reachable World.Fresh (fun a (_ : Unit) b => Step crc32 fromStr own a b) w) :
    (∀ f, .appended f ∈ w.history → otherBoot own f = false →
        Handed f w.history ∨ f ∈ pending crc32 fromStr w)
      ∧ Ordered own w.history := by
  obtain ⟨done, held, todo, cur, hi⟩ := h.invariant (P := SplitInv crc32 fromStr own)
    (fun s hs => ⟨_, _, _, _, fresh_inv hs⟩) fun s _ s' _ ⟨_, _, _, _, hs⟩ st => st.inv hs
  refine ⟨fun f hf hown => ?_, hi.ordered⟩
  rw [hi.pending_eq]
  obtain ⟨r, hr, rfl⟩ | ho | hh := hi.settled f hf
  · exact .inr (mem_map_of_mem hr)
  · rw [hown] at ho
    cases ho
  · exact .inl hh

end Safety

section Witness

def pingHook : HookIngress :=
  ⟨none, "1", "evt_1", 0, "claude", some "Stop", "", "/", 1, []⟩

/-- The frame as it is written. -/
def pingText : Bytes :=
  ascii "\x7b\"schema_version\":\"1\",\"event_id\":\"evt_1\",\"ts\":\"1970-01-01T00:00:00Z\"," ++
  ascii "\"source\":\"claude\",\"event\":\"Stop\",\"payload\":\"\",\"cwd\":\"/\"," ++
  ascii "\"hook_pid\":1,\"env\":\x7b\x7d\x7d"

def readPing (bytes : Bytes) : Except Bytes HookIngress :=
  if bytes = pingText then .ok pingHook else .error []

def pingFrame : Frame noCrc readPing where
  bytes := pingText
  value := pingHook
  utf8 := by decide +kernel
  oneLine := by decide +kernel
  opens := by decide +kernel
  fits := by decide +kernel
  decodes := if_pos rfl
  isolated x := by
    refine ⟨[], if_neg fun h => ?_⟩
    have := congrArg List.length h
    simp [pingText, ascii] at this

def pingLog : Option Bytes := some (encodeFrame noCrc pingText)

/-- The cursor once the frame is claimed. -/
def pingClaim : HookDrainCursor := ⟨1, 0, 161, none, some "evt_1", ⟨1, 5⟩⟩

lemma read_pingLog :
    repairAndRead noCrc readPing pingLog 0 = .ok ([(some pingHook, 161)], pingLog, []) := by
  decide +kernel

lemma readCursor_pingClaim : readCursor noCrc readPing pingLog (some pingClaim) = .ok pingClaim := by
  decide +kernel

lemma owns_pingLog {w : World} {run : Run} (hlog : w.content = pingLog)
    (hcursor : w.cursor = some pingClaim) (hexpected : run.expected = pingClaim)
    (hidentity : w.identity = run.identity) : validateOwnership noCrc readPing w run := by
  rw [validateOwnership, hlog, hcursor, hexpected]
  exact ⟨readCursor_pingClaim, hidentity⟩

/-- The frame is handed over, the drainer dies, and the restart hands it over again, flagged with
the extent of the first claim although the event log has moved on. -/
theorem interrupted_frame_is_flagged : ∃ w : World,
    w.history = [.appended pingHook, .claimed "evt_1" ⟨1, 5⟩, .handed pingHook none,
      .claimed "evt_1" ⟨1, 5⟩, .handed pingHook (some ⟨1, 5⟩)]
      ∧ (∀ f, .appended f ∈ w.history → otherBoot none f = false →
          Handed f w.history ∨ f ∈ pending noCrc readPing w)
      ∧ Ordered none w.history := by
  let Run := Reachable World.Fresh fun a (_ : Unit) b => Step noCrc readPing none a b
  have r0 : Run ⟨none, none, ⟨1, 5⟩, .idle, [], []⟩ := .start ⟨rfl, rfl, rfl, rfl⟩
  have r1 := r0.next (a := ()) (.append 7 pingFrame (by simp))
  have r2 := r1.next (a := ()) (.load rfl rfl)
  have r3 := r2.next (a := ()) (.read rfl read_pingLog)
  have r4 := r3.next (a := ()) (.claim rfl rfl rfl ⟨rfl, rfl⟩ rfl rfl)
  have r5 := r4.next (a := ()) (.hand rfl)
  have r6 := r5.next (a := ()) .restart
  have r7 := r6.next (a := ()) (.events ⟨1, 90⟩)
  have r8 := r7.next (a := ()) (.load rfl readCursor_pingClaim)
  have r9 := r8.next (a := ()) (.read rfl read_pingLog)
  have r10 := r9.next (a := ()) (.claim rfl rfl rfl (owns_pingLog rfl rfl rfl rfl) rfl rfl)
  have r11 := r10.next (a := ()) (.hand rfl)
  exact ⟨_, rfl, ingress_drained_in_order r11⟩

end Witness

end Rimz.Ingress
