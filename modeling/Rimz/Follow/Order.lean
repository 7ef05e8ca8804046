import Rimz.Follow.Poll

/-!
# What a follower has visited

The frames from the cursor's generation on are a row of closed segments, one per archive, and the
open one in the active log. As long as a poll meets the files that belong to the generation it read,
what it visits and what is still unread make up what was appended.
-/

namespace Rimz.Follow
open Rimz.Lib Rimz.EventLog

section Order
variable {T : Type*} {crc32 : Bytes → UInt32} {fromStr : Bytes → Except Bytes T}

/-- An archive a poll still has to read: its index, the frames it skips and those it visits. -/
structure Job (fromStr : Bytes → Except Bytes T) where
  archive : Nat
  skipped : List (Payload fromStr)
  fresh : List (Payload fromStr)

/-- The pair of the poll's loop for a job. -/
def Job.file (crc32 : Bytes → UInt32) (j : Job fromStr) : Nat × Nat :=
  (j.archive, (encodeLog crc32 fromStr j.skipped).length)

/-- The archive holds what the job says. -/
def Job.Holds (crc32 : Bytes → UInt32) (archives : List Bytes) (j : Job fromStr) : Prop :=
  archives[j.archive]? = some (encodeLog crc32 fromStr (j.skipped ++ j.fresh))
    ∧ (encodeLog crc32 fromStr (j.skipped ++ j.fresh)).length < 2 ^ 63

/-- The cursor stands behind `seen`, at the front of its generation, and `unread` is all that
follows. -/
def Synced (crc32 : Bytes → UInt32) (w : World T) (closed : List (List (Payload fromStr)))
    (current : List (Payload fromStr)) : Prop :=
  ∃ seen unread, closed.flatten ++ current = seen ++ unread
    ∧ (∃ first rest, closed ++ [current] = first :: rest ∧ seen <+: first)
    ∧ w.cursor.offset = (encodeLog crc32 fromStr seen).length
    ∧ w.appended = w.visited ++ unread.map Payload.value

/-- What a poll knows at each place. -/
def PcAt (crc32 : Bytes → UInt32) (w : World T) (closed : List (List (Payload fromStr)))
    (current : List (Payload fromStr)) : Pc → Prop
  | .idle => Synced crc32 w closed current
  | .listing generation => Synced crc32 w closed current ∧ w.cursor.generation < generation
    ∧ generation ≤ w.generation
  | .stat generation | .reading generation =>
    Synced crc32 w closed current ∧ w.cursor.generation = generation
  | .archives generation files => ∃ jobs : List (Job fromStr), files = jobs.map (Job.file crc32)
    ∧ (∀ j ∈ jobs, j.Holds crc32 w.archives)
    ∧ w.cursor.generation < generation
    ∧ generation ≤ w.generation
    ∧ w.appended = w.visited ++ (jobs.flatMap Job.fresh
        ++ ((closed.drop (generation - w.cursor.generation)).flatten ++ current)).map Payload.value

structure Inv (crc32 : Bytes → UInt32) (w : World T) (old : List Bytes)
    (closed : List (List (Payload fromStr))) (current : List (Payload fromStr)) : Prop where
  archives : w.archives = old ++ closed.map (encodeLog crc32 fromStr)
  active : w.active.getD [] = encodeLog crc32 fromStr current
  sizes : ∀ seg ∈ closed ++ [current], (encodeLog crc32 fromStr seg).length < 2 ^ 63
  generation : w.generation + w.boundary.toNat = w.cursor.generation + closed.length
  published : w.cursor.generation ≤ w.generation
  empty : w.boundary = true → current = []
  running : w.failed = false
  pc : PcAt crc32 w closed current w.pc

variable {w : World T} {old : List Bytes} {closed : List (List (Payload fromStr))}
  {current : List (Payload fromStr)}

lemma Opened.inv (h : Opened crc32 fromStr w) :
    ∃ current : List (Payload fromStr), Inv crc32 w w.archives [] current := by
  obtain ⟨hb, hpc, hv, hf, hg, seen, unread, hactive, hsize, hoff, happ⟩ := h
  refine ⟨seen ++ unread, ⟨by simp, hactive, ?_, by simp [hb, hg], hg.ge, by simp [hb], hf, ?_⟩⟩
  · rw [World.activeLen, hactive] at hsize
    simpa using hsize
  · rw [hpc]
    exact ⟨seen, unread, by simp, ⟨_, [], rfl, prefix_append _ _⟩, hoff, by simp [hv, happ]⟩

namespace Inv

section
variable (h : Inv crc32 w old closed current)
include h

lemma append (p : Payload fromStr) (hb : w.boundary = false)
    (hsize : (w.active.getD [] ++ encodeFrame crc32 p.bytes).length < 2 ^ 63) :
    Inv crc32 { w with
      active := some (w.active.getD [] ++ encodeFrame crc32 p.bytes)
      appended := w.appended ++ [p.value] } old closed (current ++ [p]) := by
  have hlog : encodeLog crc32 fromStr (current ++ [p])
      = w.active.getD [] ++ encodeFrame crc32 p.bytes := by
    rw [encodeLog_append, h.active]
    simp [encodeLog]
  have hsync : Synced crc32 w closed current →
      Synced crc32 { w with
        active := some (w.active.getD [] ++ encodeFrame crc32 p.bytes)
        appended := w.appended ++ [p.value] } closed (current ++ [p]) := by
    rintro ⟨seen, unread, hstream, ⟨first, rest, hfirst, hpre⟩, hoff, happ⟩
    refine ⟨seen, unread ++ [p], by rw [← append_assoc, hstream, append_assoc], ?_, hoff,
      by simp [happ]⟩
    cases closed with
    | nil =>
      obtain ⟨rfl, -⟩ : first = current ∧ rest = [] := by simpa using hfirst.symm
      exact ⟨first ++ [p], [], rfl, hpre.trans (prefix_append _ _)⟩
    | cons c cs =>
      obtain ⟨rfl, -⟩ : c = first ∧ _ := by simpa using hfirst
      exact ⟨c, cs ++ [current ++ [p]], rfl, hpre⟩
  refine ⟨h.archives, hlog.symm, ?_, h.generation, h.published,
    fun hn => absurd hn (by simp [hb]), h.running, ?_⟩
  · intro seg hm
    rcases mem_append.mp hm with hm | hm
    · exact h.sizes seg (mem_append_left _ hm)
    · rw [mem_singleton.mp hm, hlog]
      exact hsize
  · have hpc := h.pc
    generalize w.pc = pc at hpc ⊢
    cases pc with
    | idle => exact hsync hpc
    | listing g | stat g | reading g => exact ⟨hsync hpc.1, hpc.2⟩
    | archives g files =>
      obtain ⟨jobs, hf, hj, hlt, hle, happ⟩ := hpc
      exact ⟨jobs, hf, hj, hlt, hle, by simp [happ]⟩

lemma rename (hb : w.boundary = false) :
    Inv crc32 { w with
      archives := w.archives ++ [w.active.getD []], active := none, boundary := true }
      old (closed ++ [current]) [] := by
  have hsync : Synced crc32 w closed current →
      Synced crc32 { w with
        archives := w.archives ++ [w.active.getD []], active := none, boundary := true }
        (closed ++ [current]) [] := by
    rintro ⟨seen, unread, hstream, ⟨first, rest, hfirst, hpre⟩, hoff, happ⟩
    exact ⟨seen, unread, by simpa using hstream, ⟨first, rest ++ [[]], by simp [hfirst], hpre⟩, hoff,
      happ⟩
  refine ⟨by simp [h.archives, h.active], rfl, ?_, ?_, h.published, fun _ => rfl, h.running, ?_⟩
  · intro seg hm
    rcases mem_append.mp hm with hm | hm
    · exact h.sizes seg hm
    · rw [mem_singleton.mp hm]
      simp [encodeLog]
  · have := h.generation
    simp only [hb, toNat_false, Bool.toNat_true, length_append, length_singleton] at this ⊢
    omega
  · have hpc := h.pc
    generalize w.pc = pc at hpc ⊢
    cases pc with
    | idle => exact hsync hpc
    | listing g | stat g | reading g => exact ⟨hsync hpc.1, hpc.2⟩
    | archives g files =>
      obtain ⟨jobs, hf, hj, hlt, hle, happ⟩ := hpc
      refine ⟨jobs, hf, fun j hm => ?_, hlt, hle, ?_⟩
      · obtain ⟨hget, hsz⟩ := hj j hm
        refine ⟨?_, hsz⟩
        obtain ⟨hlen, -⟩ := List.getElem?_eq_some_iff.mp hget
        rw [List.getElem?_append_left hlen]
        exact hget
      · have hk : g - w.cursor.generation ≤ closed.length := by
          have := h.generation
          omega
        simpa [List.drop_append_of_le_length hk] using happ

lemma publish (hb : w.boundary = true) (hmax : w.generation < u64Max) :
    Inv crc32 { w with generation := min (w.generation + 1) u64Max, boundary := false }
      old closed current := by
  have hg : min (w.generation + 1) u64Max = w.generation + 1 := by omega
  rw [hg]
  refine ⟨h.archives, h.active, h.sizes, ?_, h.published.trans (Nat.le_succ _), nofun, h.running, ?_⟩
  · have := h.generation
    simp only [hb, toNat_false, Bool.toNat_true] at this ⊢
    omega
  · have hpc := h.pc
    generalize w.pc = pc at hpc ⊢
    cases pc with
    | idle | stat g | reading g => exact hpc
    | listing g => exact ⟨hpc.1, hpc.2.1, hpc.2.2.trans (Nat.le_succ _)⟩
    | archives g files =>
      obtain ⟨jobs, hf, hj, hlt, hle, happ⟩ := hpc
      exact ⟨jobs, hf, hj, hlt, hle.trans (Nat.le_succ _), happ⟩

lemma goto {pc} (warnings : List Warning) (hpc : PcAt crc32 w closed current pc) :
    Inv crc32 { w with pc := pc, warnings := warnings } old closed current := by
  refine ⟨h.archives, h.active, h.sizes, h.generation, h.published, h.empty, h.running, ?_⟩
  cases pc with
  | idle | listing g | stat g | reading g | archives g files => exact hpc

end

/-- The archives of the segments from index `i` on, each to be read from its start. -/
def jobsFrom (i : Nat) : List (List (Payload fromStr)) → List (Job fromStr)
  | [] => []
  | seg :: segs => ⟨i, [], seg⟩ :: jobsFrom (i + 1) segs

lemma jobsFrom_files (i : Nat) (segs : List (List (Payload fromStr))) :
    (jobsFrom i segs).map (Job.file crc32) = (List.range' i segs.length).map fun a => (a, 0) := by
  induction segs generalizing i with
  | nil => rfl
  | cons seg segs ih =>
    simp [jobsFrom, Job.file, ih, List.range'_succ, encodeLog]

lemma jobsFrom_fresh (i : Nat) (segs : List (List (Payload fromStr))) :
    (jobsFrom i segs).flatMap Job.fresh = segs.flatten := by
  induction segs generalizing i with
  | nil => rfl
  | cons seg segs ih => simp [jobsFrom, ih]

lemma jobsFrom_holds {archives} (before : List Bytes) (segs : List (List (Payload fromStr)))
    (ha : archives = before ++ segs.map (encodeLog crc32 fromStr))
    (hs : ∀ seg ∈ segs, (encodeLog crc32 fromStr seg).length < 2 ^ 63) :
    ∀ j ∈ jobsFrom before.length segs, j.Holds crc32 archives := by
  induction segs generalizing before with
  | nil => simp [jobsFrom]
  | cons seg segs ih =>
    intro j hj
    rcases mem_cons.mp hj with rfl | hj
    · refine ⟨?_, by simpa using hs seg mem_cons_self⟩
      rw [ha, List.getElem?_append_right (Nat.le_refl _)]
      simp
    · refine ih (before ++ [encodeLog crc32 fromStr seg]) (by simpa using ha)
        (fun q hq => hs q (mem_cons_of_mem _ hq)) j ?_
      simpa using hj

section
variable (h : Inv crc32 w old closed current)
include h

/-- With no rotation since, the newest archives are those of the generations to catch up on. -/
lemma list {g} (hpc : w.pc = .listing g) (hcalm : w.generation = g ∧ w.boundary = false)
    (reader : Reader) : Inv crc32 (Follow.pollStep crc32 fromStr reader w) old closed current := by
  have hp := h.pc
  rw [hpc] at hp
  obtain ⟨⟨seen, unread, hstream, ⟨first, rest, hfirst, suffix, hpre⟩, hoff, happ⟩, hlt, -⟩ := hp
  have hgen := h.generation
  rw [hcalm.1, hcalm.2, toNat_false] at hgen
  have hneeded : g - w.cursor.generation = closed.length := by omega
  obtain ⟨segs, rfl⟩ : ∃ segs, closed = first :: segs := by
    cases closed with
    | nil =>
      rw [List.length_nil] at hgen
      omega
    | cons c cs =>
      obtain ⟨rfl, -⟩ : c = first ∧ _ := by simpa using hfirst
      exact ⟨cs, rfl⟩
  have hfound : newestArchives w.archives.length (segs.length + 1)
      = List.range' old.length (segs.length + 1) := by
    simp [newestArchives, h.archives, List.range_eq_range', List.drop_range']
  simp only [Follow.pollStep, hpc, hneeded, length_cons, hfound, List.length_range',
    beq_self_eq_true]
  refine h.goto _ ⟨⟨old.length, seen, suffix⟩ :: jobsFrom (old.length + 1) segs, ?_, ?_, hlt,
    hcalm.1.ge, ?_⟩
  · simp [List.range'_succ, withStarts, Job.file, hoff, jobsFrom_files]
  · intro j hj
    rcases mem_cons.mp hj with rfl | hj
    · refine ⟨?_, ?_⟩
      · rw [h.archives, hpre, List.getElem?_append_right (Nat.le_refl _)]
        simp
      · rw [hpre]
        exact h.sizes first (by simp)
    · have hrest := jobsFrom_holds (old ++ [encodeLog crc32 fromStr first]) segs
        (by simpa using h.archives) (fun q hq => h.sizes q (by simp [hq])) j
      exact hrest (by simpa using hj)
  · have hun : unread = suffix ++ (segs.flatten ++ current) := by
      have e : seen ++ unread = seen ++ (suffix ++ (segs.flatten ++ current)) := by
        rw [← hstream, List.flatten_cons, ← hpre]
        simp
      exact List.append_cancel_left e
    simp [happ, hun, hneeded, jobsFrom_fresh]

lemma readArchive {g f files} (hpc : w.pc = .archives g (f :: files)) (reader : Reader) :
    Inv crc32 (Follow.pollStep crc32 fromStr reader w) old closed current := by
  have hp := h.pc
  rw [hpc] at hp
  obtain ⟨jobs, hfiles, hjobs, hlt, hle, happ⟩ := hp
  cases jobs with
  | nil => cases hfiles
  | cons j jobs =>
    obtain ⟨rfl, rfl⟩ : f = j.file crc32 ∧ files = jobs.map (Job.file crc32) := by
      simpa using hfiles
    obtain ⟨hget, hsize⟩ := hjobs j mem_cons_self
    have hvisit := visitFromOffset_log j.skipped j.fresh hsize
    simp only [Follow.pollStep, hpc, Job.file, hget, hvisit]
    refine ⟨h.archives, h.active, h.sizes, h.generation, h.published, h.empty, h.running, jobs, rfl,
      fun q hq => hjobs q (mem_cons_of_mem _ hq), hlt, hle, ?_⟩
    simp [happ]

/-- The cursor moves past the archives it has read. -/
lemma leaveArchives {g} (hpc : w.pc = .archives g []) (reader : Reader) :
    ∃ old' closed', Inv crc32 (Follow.pollStep crc32 fromStr reader w) old' closed' current := by
  have hp := h.pc
  rw [hpc] at hp
  obtain ⟨jobs, hfiles, -, hlt, hle, happ⟩ := hp
  obtain rfl : jobs = [] := by simpa using hfiles.symm
  set k := g - w.cursor.generation with hk
  have hgen := h.generation
  have hsplit : closed = closed.take k ++ closed.drop k := (List.take_append_drop k closed).symm
  simp only [Follow.pollStep, hpc]
  refine ⟨old ++ (closed.take k).map (encodeLog crc32 fromStr), closed.drop k, ?_, h.active, ?_, ?_,
    hle, h.empty, h.running, ⟨[], (closed.drop k).flatten ++ current, rfl, ?_, rfl, ?_⟩, rfl⟩
  · rw [h.archives, append_assoc, ← map_append, ← hsplit]
  · intro seg hm
    refine h.sizes seg ?_
    rcases mem_append.mp hm with hm | hm
    · exact mem_append_left _ (List.mem_of_mem_drop hm)
    · exact mem_append_right _ hm
  · show w.generation + w.boundary.toNat = g + (closed.drop k).length
    rw [List.length_drop]
    omega
  · obtain ⟨first, rest, hfr⟩ := List.exists_cons_of_ne_nil
      (show closed.drop k ++ [current] ≠ [] by simp)
    exact ⟨first, rest, hfr, nil_prefix⟩
  · simpa using happ

/-- The active log of the generation the poll read, or one with nothing behind the held offset. -/
lemma readActive {g} (hpc : w.pc = .reading g)
    (hcalm : w.generation = g ∨ w.activeLen ≤ w.cursor.offset)
    (reader : Reader) : Inv crc32 (Follow.pollStep crc32 fromStr reader w) old closed current := by
  have hp := h.pc
  rw [hpc] at hp
  obtain ⟨hsync, hcg⟩ := hp
  by_cases hend : w.activeLen ≤ w.cursor.offset
  · simp only [Follow.pollStep, hpc, visitFromOffset_end hend]
    refine ⟨h.archives, h.active, h.sizes, h.generation, h.published, h.empty, h.running, ?_⟩
    obtain ⟨seen, unread, hstream, hfirst, hoff, happ⟩ := hsync
    exact ⟨seen, unread, hstream, hfirst, hoff, by simpa using happ⟩
  -- No rotation has begun: a renamed log would be empty.
  have hg : w.generation = w.cursor.generation := by
    rcases hcalm with hcalm | hcalm
    · rw [hcalm, hcg]
    · exact absurd hcalm hend
  have hb : w.boundary = false := by
    by_contra hb
    rw [World.activeLen, h.active, h.empty (by simpa using hb)] at hend
    simp [encodeLog] at hend
  have hgen := h.generation
  rw [hg, hb, toNat_false] at hgen
  obtain rfl : closed = [] := List.length_eq_zero_iff.mp (by omega)
  obtain ⟨seen, unread, hstream, -, hoff, happ⟩ := hsync
  obtain rfl : current = seen ++ unread := by simpa using hstream
  obtain ⟨bytes, hbytes⟩ : ∃ bytes, w.active = some bytes := by
    cases hw : w.active with
    | none => exact absurd (by simp [World.activeLen, hw]) hend
    | some bytes => exact ⟨bytes, rfl⟩
  obtain rfl : bytes = encodeLog crc32 fromStr (seen ++ unread) := by
    have := h.active
    rwa [hbytes, getD_some] at this
  have hvisit := visitFromOffset_log seen unread (h.sizes (seen ++ unread) (by simp))
  simp only [Follow.pollStep, hpc, hbytes, hoff, hvisit]
  refine ⟨h.archives, rfl, h.sizes, h.generation, h.published, h.empty,
    h.running, ⟨seen ++ unread, [], by simp, ⟨seen ++ unread, [], rfl, List.prefix_refl _⟩, rfl, ?_⟩⟩
  simp [happ]

/-- The next file access of a poll, on files that belong to the generation it read. -/
lemma pollStep (reader : Reader) (hcalm : Calm fromStr w .poll) :
    ∃ old' closed', Inv crc32 (Follow.pollStep crc32 fromStr reader w) old' closed' current := by
  have hpc := h.pc
  simp only [Calm] at hcalm
  cases hw : w.pc with
  | idle =>
    rw [hw] at hpc
    simp only [Follow.pollStep, hw]
    split
    · exact ⟨_, _, h.goto w.warnings ⟨hpc, ‹_›, Nat.le_refl _⟩⟩
    rename_i hle
    have heq : w.cursor.generation = w.generation := Nat.le_antisymm h.published (Nat.le_of_not_lt hle)
    rw [if_neg (by omega)]
    exact ⟨_, _, h.goto w.warnings ⟨hpc, heq⟩⟩
  | listing g =>
    rw [hw] at hcalm
    exact ⟨_, _, h.list hw hcalm reader⟩
  | archives g files =>
    cases files with
    | nil => exact h.leaveArchives hw reader
    | cons f files => exact ⟨_, _, h.readArchive hw reader⟩
  | stat g =>
    rw [hw] at hpc
    simp only [Follow.pollStep, hw]
    split
    · exact ⟨_, _, h.goto w.warnings hpc⟩
    · exact ⟨_, _, h.goto w.warnings hpc.1⟩
  | reading g =>
    rw [hw] at hcalm
    exact ⟨_, _, h.readActive hw hcalm reader⟩

end

end Inv

lemma Inv.visited_prefix (h : Inv crc32 w old closed current) : w.visited <+: w.appended := by
  have hpc := h.pc
  generalize w.pc = pc at hpc
  have hsync : Synced crc32 w closed current → w.visited <+: w.appended := by
    rintro ⟨_, _, _, _, _, happ⟩
    exact ⟨_, happ.symm⟩
  cases pc with
  | idle => exact hsync hpc
  | listing g | stat g | reading g => exact hsync hpc.1
  | archives g files =>
    obtain ⟨_, _, _, _, _, happ⟩ := hpc
    exact ⟨_, happ.symm⟩

/-- Some split of the frames into segments holds. -/
def Segmented (crc32 : Bytes → UInt32) (fromStr : Bytes → Except Bytes T) (w : World T) : Prop :=
  ∃ (old : List Bytes) (closed : List (List (Payload fromStr))) (current : List (Payload fromStr)),
    Inv crc32 w old closed current

lemma Inv.next [DecidableEq T] {reader rehome w' a} (h : Inv crc32 w old closed current)
    (hn : next crc32 fromStr reader rehome w a = some w') (hcalm : Calm fromStr w a) :
    Segmented crc32 fromStr w' := by
  cases a with
  | append p =>
    simp only [Follow.next, Option.ite_none_right_eq_some, Option.some.injEq] at hn
    obtain ⟨⟨hb, hsize⟩, rfl⟩ := hn
    exact ⟨_, _, _, h.append p hb hsize⟩
  | rename =>
    simp only [Follow.next, Option.ite_none_right_eq_some, Option.some.injEq] at hn
    obtain ⟨⟨hb, -⟩, rfl⟩ := hn
    exact ⟨_, _, _, h.rename hb⟩
  | rewrite ps => exact hcalm.elim
  | publish =>
    simp only [Follow.next, Option.ite_none_right_eq_some, Option.some.injEq] at hn
    obtain ⟨hb, rfl⟩ := hn
    exact ⟨_, _, _, h.publish hb hcalm⟩
  | poll =>
    cases hn
    obtain ⟨old', closed', h'⟩ := h.pollStep reader hcalm
    exact ⟨old', closed', current, h'⟩

/-- In every run whose steps are all calm, no poll fails and what the polls have visited is a part
from the front of what was appended, each event once and in order. -/
theorem follow_visits_prefix [DecidableEq T] (reader : Reader) (rehome : T → T) {w : World T}
    (h : Reachable (Opened crc32 fromStr)
      (fun w a w' => next crc32 fromStr reader rehome w a = some w' ∧ Calm fromStr w a) w) :
    w.visited <+: w.appended ∧ w.failed = false := by
  obtain ⟨_, _, _, hi⟩ := h.invariant (P := Segmented crc32 fromStr)
    (fun s hs => ⟨_, _, hs.inv⟩) fun s a s' _ ⟨_, _, _, hs⟩ st => hs.next st.1 st.2
  exact ⟨hi.visited_prefix, hi.running⟩

end Order

section Runs

/-- Events with one field, a digit: the text `{"n":1}`. -/
def readDigit : Bytes → Except Bytes Nat
  | [123, 34, 110, 34, 58, d, 125] => if 48 ≤ d ∧ d ≤ 57 then .ok (d.toNat - 48) else .error []
  | _ => .error []

def digit (n : Fin 10) : Payload readDigit where
  bytes := [123, 34, 110, 34, 58, UInt8.ofNat (48 + n), 125]
  value := n
  utf8 := by revert n; decide
  oneLine := by revert n; decide
  opens := rfl
  fits := by revert n; decide
  decodes := by revert n; decide

/-- A cursor behind the only frame of the first log. -/
def liveEdge : World Nat where
  archives := []
  active := some (encodeLog noCrc readDigit [digit 1])
  generation := 0
  boundary := false
  cursor := ⟨0, (encodeLog noCrc readDigit [digit 1]).length⟩
  pc := .idle
  visited := []
  warnings := []
  failed := false
  appended := []

lemma liveEdge_opened : Opened noCrc readDigit liveEdge :=
  ⟨rfl, rfl, rfl, rfl, rfl, [digit 1], [], rfl, by decide, rfl, rfl⟩

/-- A rotation between two polls: the archive is finished first, then the new log is read. -/
theorem rotation_between_polls : ∃ w : World Nat, w.visited = [2, 3] ∧ w.appended = [2, 3]
    ∧ w.visited <+: w.appended ∧ w.failed = false := by
  let Run := Reachable (Opened noCrc readDigit) fun w a w' =>
    next noCrc readDigit .eventFollower id w a = some w' ∧ Calm readDigit w a
  have r0 : Run liveEdge := .start liveEdge_opened
  have r1 := r0.next (a := Act.append (digit 2)) ⟨rfl, trivial⟩
  have r2 := r1.next (a := Act.rename) ⟨rfl, trivial⟩
  have r3 := r2.next (a := Act.publish) ⟨rfl, show 0 < u64Max by decide⟩
  have r4 := r3.next (a := Act.append (digit 3)) ⟨rfl, trivial⟩
  have r5 := r4.next (a := Act.poll) ⟨rfl, trivial⟩
  have r6 := r5.next (a := Act.poll) ⟨rfl, rfl, rfl⟩
  have r7 := r6.next (a := Act.poll) ⟨rfl, trivial⟩
  have r8 := r7.next (a := Act.poll) ⟨rfl, trivial⟩
  have r9 := r8.next (a := Act.poll) ⟨rfl, trivial⟩
  have r10 := r9.next (a := Act.poll) ⟨rfl, .inl rfl⟩
  exact ⟨_, rfl, rfl, follow_visits_prefix .eventFollower id r10⟩

/-- Two ways to visit what was not next. A rotation lands between the generation and the active log,
and the new log grows past the held offset: the poll reads there. And after an identity rewrite the
next poll takes the generation for a rotation and visits the whole log again. -/
theorem follower_visits_out_of_order :
    (∃ acts, ∀ reader ∈ [Reader.eventFollower, Reader.launchTail],
      ∃ w, run noCrc readDigit reader id acts liveEdge = some w
        ∧ w.visited = [4] ∧ w.appended = [2, 3, 4])
    ∧ ∃ acts, ∀ reader ∈ [Reader.eventFollower, Reader.launchTail],
      ∃ w, run noCrc readDigit reader (· + 5) acts liveEdge = some w
        ∧ w.visited = [6] ∧ w.appended = [] := by
  refine ⟨⟨[.poll, .poll, .append (digit 2), .rename, .publish, .append (digit 3),
    .append (digit 4), .poll], ?_⟩, ⟨[.rewrite [digit 6], .publish, .poll, .poll, .poll, .poll,
    .poll],
    ?_⟩⟩
  all_goals
    intro reader _
    cases reader with
    | eventFollower | launchTail => exact ⟨_, rfl, rfl, rfl⟩

end Runs

end Rimz.Follow
