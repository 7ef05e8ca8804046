import Rimz.Queue.Envelope

/-!
# Reading a paste back

A delivery pastes a batch as one text (`payload`); a submitted prompt is aligned back to the records
of the batch (`alignSubmittedPrompt`). The alignment undoes the paste, with whatever the composer
held around it, exactly where the reader's grammar takes every line that names a sender.
-/

namespace Rimz.Queue

open Rimz.Lib

section Alignment
variable {peers : List Peer} {rootChannel : Option String} {record : MessageRecord}
  {rest records : List MessageRecord}

/-- The reader takes the line that names the record's sender: what its header writes between
`From: @` and the line of its content. Only agents and subagents are named freely. -/
def Attributable (peers : List Peer) (rootChannel : Option String) (record : MessageRecord) : Prop :=
  match record.sender with
  | .agent .. | .subagent .. =>
    ∃ lead line, anchorOf record.sender = some lead
      ∧ messageHeader record.sender peers record.channel rootChannel
        = some (lead ++ line ++ "\nContent:\n")
      ∧ (parseSenderHandle line.toList).isSome = true
  | _ => True

/-! ## One header -/

lemma newline_notMem_of_parseSenderHandle {line} (h : (parseSenderHandle line).isSome = true) :
    '\n' ∉ line := by
  have blank : isWhitespace '\n' = true := rfl
  intro hmem
  simp only [parseSenderHandle] at h
  cases hsplit : splitOncePat " (".toList line with
  | none =>
    simp only [hsplit] at h
    split at h
    · next hline => simp [any_eq_false.mp hline.2 _ hmem] at blank
    · cases h
  | some parts =>
    obtain ⟨handle, label⟩ := parts
    rw [eq_append_of_splitOncePat hsplit] at hmem
    simp only [hsplit] at h
    split at h
    · next hlast =>
      split at h
      · cases h
      rename_i hlabel
      split at h
      · next hhandle =>
        -- neither part has whitespace, and the parenthesis around the label is none
        rw [not_or, not_eq_true] at hlabel
        rw [← List.dropLast_append_getLast? _ hlast] at hmem
        simp only [mem_append, mem_singleton] at hmem
        rcases hmem with (hmem | hmem) | hmem | hmem
        · simp [any_eq_false.mp hhandle.2 _ hmem] at blank
        · revert hmem
          decide
        · have := any_eq_false.mp hlabel.2 _ hmem
          simp [blank] at this
        · revert hmem
          decide
      · cases h
    · cases h

lemma line_unique {lead line line' stop : String} :
    lead ++ line ++ stop = lead ++ line' ++ stop ↔ line = line' := by
  constructor
  · intro h
    have := congrArg String.toList h
    simpa [String.toList_inj] using this
  · rintro rfl
    rfl

/-- Senders in three shapes: no header, a fixed header, a line that names the sender. -/
lemma header_cases (peers : List Peer) (rootChannel : Option String) (record : MessageRecord) :
    (anchorOf record.sender = none ∧ headerText peers rootChannel record = []
        ∧ Attributable peers rootChannel record
        ∧ ∀ body, dropHeader record.sender body = some body)
      ∨ (∃ anchor, anchorOf record.sender = some anchor
        ∧ headerText peers rootChannel record = anchor.toList
        ∧ Attributable peers rootChannel record
        ∧ ∀ body, dropHeader record.sender body = dropLeading anchor.toList body)
      ∨ ∃ anchor line, anchorOf record.sender = some anchor
        ∧ headerText peers rootChannel record
          = anchor.toList ++ (line ++ "\nContent:\n".toList)
        ∧ (Attributable peers rootChannel record ↔ (parseSenderHandle line).isSome = true)
        ∧ ∀ body, dropHeader record.sender body = dropHeader.attributed body anchor := by
  obtain ⟨sender, hsender⟩ : ∃ sender, record.sender = sender := ⟨_, rfl⟩
  unfold headerText Attributable
  rw [hsender]
  cases sender with
  | system => exact .inl ⟨rfl, rfl, trivial, fun _ => rfl⟩
  | human | harness notice => exact .inr (.inl ⟨_, rfl, rfl, trivial, fun _ => rfl⟩)
  | subagent kind name =>
    refine .inr (.inr ⟨_, name.toList, rfl, ?_, ⟨?_, ?_⟩, fun _ => rfl⟩)
    · simp [messageHeader]
    · rintro ⟨lead, line, hlead, hheader, hparse⟩
      cases hlead
      rw [messageHeader, Option.some.injEq, line_unique] at hheader
      rwa [hheader]
    · exact fun hparse => ⟨_, name, rfl, rfl, hparse⟩
  | agent kind agentId name profile role channel =>
    obtain ⟨line, hline⟩ : ∃ line, messageHeader (.agent kind agentId name profile role channel)
        peers record.channel rootChannel
          = some ("Type: AGENT_MESSAGE\nFrom: @" ++ line ++ "\nContent:\n") :=
      messageHeader_agent kind agentId name profile role channel record.channel
    refine .inr (.inr ⟨_, line.toList, rfl, ?_, ⟨?_, ?_⟩, fun _ => rfl⟩)
    · simp [hline]
    · rintro ⟨lead, line', hlead, hheader, hparse⟩
      cases hlead
      rw [hline, Option.some.injEq, line_unique] at hheader
      rwa [hheader]
    · exact fun hparse => ⟨_, line, rfl, hline, hparse⟩

lemma dropHeader_append (h : Attributable peers rootChannel record) (body : List Char) :
    dropHeader record.sender (headerText peers rootChannel record ++ body) = some body := by
  rcases header_cases peers rootChannel record with
    ⟨_, hheader, _, hdrop⟩ | ⟨anchor, _, hheader, _, hdrop⟩ | ⟨anchor, line, _, hheader, hiff, hdrop⟩
  · rw [hdrop, hheader, nil_append]
  · rw [hdrop, hheader, dropLeading_append]
  have hparse := hiff.mp h
  obtain ⟨handle, hhandle⟩ := isSome_iff_exists.mp hparse
  have hsplit : splitOncePat "\nContent:\n".toList (line ++ "\nContent:\n".toList ++ body)
      = some (line, body) :=
    splitOncePat_append (newline_notMem_of_parseSenderHandle hparse)
  rw [hdrop, hheader, dropHeader.attributed, append_assoc, dropLeading_append]
  simp only [hsplit, hhandle, map_some]

lemma solid_left {handle left tail text}
    (heq : handle ++ left ++ "\nContent:\n".toList ++ tail = handle ++ "\nContent:\n".toList ++ text)
    (hleft : left ≠ []) : solid left ≠ [] := by
  match left, hleft with
  | [c], _ => simp at heq
  | c :: d :: left, _ =>
    obtain ⟨rfl, rfl, _⟩ : c = '\n' ∧ d = 'C' ∧ _ := by simpa using heq
    simp [solid, isWhitespace]

/-- Where the reader cuts a header it does not take as written, it cuts inside the line that names
the sender. -/
lemma attributable_or_short {body tail}
    (h : dropHeader record.sender (headerText peers rootChannel record ++ tail) = some body) :
    Attributable peers rootChannel record
      ∨ ∃ pre, headerText peers rootChannel record ++ tail = pre ++ body
        ∧ (solid pre).length < (solid (headerText peers rootChannel record)).length := by
  rcases header_cases peers rootChannel record with
    ⟨_, _, hok, _⟩ | ⟨_, _, _, hok, _⟩ | ⟨anchor, line, _, hheader, hiff, hdrop⟩
  · exact .inl hok
  · exact .inl hok
  rw [hdrop, hheader, dropHeader.attributed, append_assoc, dropLeading_append] at h
  cases hsplit : splitOncePat "\nContent:\n".toList (line ++ "\nContent:\n".toList ++ tail) with
  | none =>
    simp only [hsplit] at h
    cases h
  | some parts =>
    obtain ⟨handle, text⟩ := parts
    simp only [hsplit] at h
    obtain ⟨accepted, hparse, rfl⟩ := map_eq_some_iff.mp h
    have heq := eq_append_of_splitOncePat hsplit
    -- the cut is at the first `Content:`, so the accepted handle begins the line
    obtain ⟨left, rfl⟩ : ∃ left, line = handle ++ left := by
      have hle := length_le_of_splitOncePat hsplit rfl
      have hpre : handle <+: line ++ ("\nContent:\n".toList ++ tail) :=
        ⟨"\nContent:\n".toList ++ text, by rw [← append_assoc, ← heq, append_assoc]⟩
      obtain ⟨left, hleft⟩ := List.prefix_of_prefix_length_le hpre (prefix_append _ _) hle
      exact ⟨left, hleft.symm⟩
    by_cases hleft : left = []
    · subst hleft
      rw [append_nil] at hiff
      exact .inl (hiff.mpr (by rw [hparse]; rfl))
    refine .inr ⟨anchor.toList ++ (handle ++ "\nContent:\n".toList), ?_, ?_⟩
    · rw [hheader, append_assoc, heq]
      simp
    · have hsolid : solid left ≠ [] := solid_left heq hleft
      have := List.length_pos_iff.mpr hsolid
      simp only [hheader, solid_append, length_append]
      omega

/-! ## One record -/

/-- The text of a record as the alignment looks for it: trimmed where the paste was. -/
def wanted (first last : Bool) (text : List Char) : List Char :=
  let text := if first then trimStart text else text
  if last then trimEnd text else text

lemma solid_wanted (first last : Bool) (text : List Char) :
    solid (wanted first last text) = solid text := by
  unfold wanted
  cases first <;> cases last <;> simp [solid_trimStart, solid_trimEnd]

lemma trimStart_wanted {last text} : trimStart (wanted true last text) = wanted true last text := by
  cases last
  · exact trimStart_trimStart
  · show trimStart (trimEnd (trimStart text)) = trimEnd (trimStart text)
    rw [trimStart_trimEnd, trimStart_trimStart]

/-- A paste as the alignment meets it: without its outer whitespace, where it still has any. -/
def trimmed (first : Bool) (text : List Char) : List Char :=
  let text := trimEnd text
  if first then trimStart text else text

/-- What follows a record's text. -/
def after (peers : List Peer) (rootChannel : Option String) (trail : List Char)
    (rest : List MessageRecord) : List Char :=
  if rest = [] then trail
  else "\n\n".toList ++ (trimmed false (payload peers rootChannel rest) ++ trail)

/-- Texts are not blank. -/
abbrev Spoken (records : List MessageRecord) : Prop :=
  ∀ record ∈ records, solid record.text.toList ≠ []

lemma solid_payload (h : Spoken records) (hne : records ≠ []) :
    solid (payload peers rootChannel records) ≠ [] := by
  cases records with
  | nil => exact absurd rfl hne
  | cons record rest =>
    have hrecord := h record mem_cons_self
    cases rest with
    | nil => simp [payload, rendered, solid_append, hrecord]
    | cons next rest => simp [payload, rendered, List.intercalate, solid_append, hrecord]

lemma toUpper_ne_y (c : Char) : c.toUpper ≠ 'y' := by
  unfold Char.toUpper
  split
  · next hlower =>
    intro h
    have hval := congrArg (fun c : Char => c.val.toNat) h
    have hhigh : c.toNat ≤ 122 := hlower.2
    simp at hval
    omega
  · next hlower =>
    rintro rfl
    exact hlower (by decide)

lemma anchor_shape {sender anchor} (h : anchorOf sender = some anchor) :
    ∃ more, anchor.toList = 'T' :: 'y' :: more ∧ 'y' ∉ more ∧ 'T' ∉ more.getLast? := by
  cases sender with
  | system => cases h
  | human | agent | subagent =>
    cases h
    exact ⟨_, rfl, by decide, by decide⟩
  | harness notice =>
    cases h
    refine ⟨"pe: ".toList ++ (notice.headerType.toList ++ "\nFrom: @rimz\nContent:\n".toList),
      by simp, ?_, by rw [← append_assoc, List.getLast?_append]; simp⟩
    have hupper : 'y' ∉ notice.headerType.toList := by
      cases notice with
      | other text =>
        simp only [HarnessNotice.headerType, String.toList_ofList, mem_map, not_exists, not_and]
        exact fun c _ => toUpper_ne_y c
      | _ => decide
    simp [hupper]

lemma trimStart_header_append (hne : headerText peers rootChannel record ≠ []) {body} :
    trimStart (headerText peers rootChannel record ++ body)
      = headerText peers rootChannel record ++ body := by
  have solidHead {anchor : String} (h : anchorOf record.sender = some anchor) (body : List Char) :
      trimStart (anchor.toList ++ body) = anchor.toList ++ body := by
    obtain ⟨more, hmore, _⟩ := anchor_shape h
    rw [hmore]
    rfl
  rcases header_cases peers rootChannel record with
    ⟨_, hheader, _⟩ | ⟨anchor, hanchor, hheader, _⟩ | ⟨anchor, line, hanchor, hheader, _⟩
  · exact absurd hheader hne
  · rw [hheader, solidHead hanchor]
  · rw [hheader, append_assoc, solidHead hanchor]

lemma trimEnd_payload_cons (trail : List Char) (h : Spoken (record :: rest)) :
    trimEnd (payload peers rootChannel (record :: rest)) ++ trail
      = headerText peers rootChannel record
        ++ (wanted false rest.isEmpty record.text.toList ++ after peers rootChannel trail rest) := by
  cases rest with
  | nil =>
    have hfull : trimEnd record.text.toList ≠ [] :=
      mt trimEnd_eq_nil_iff.mp (h record mem_cons_self)
    simp [payload, rendered, wanted, after, trimEnd_append hfull]
  | cons next rest =>
    have hspoken : Spoken (next :: rest) := fun r hr => h r (mem_cons_of_mem _ hr)
    have hfull : trimEnd (payload peers rootChannel (next :: rest)) ≠ [] :=
      mt trimEnd_eq_nil_iff.mp (solid_payload hspoken (cons_ne_nil _ _))
    have hpayload : payload peers rootChannel (record :: next :: rest)
        = rendered peers rootChannel record ++ "\n\n".toList
          ++ payload peers rootChannel (next :: rest) := by
      simp [payload, List.intercalate]
    rw [hpayload, trimEnd_append hfull]
    simp [rendered, wanted, after, trimmed]

lemma wanted_false (last : Bool) {text} (h : solid text ≠ []) :
    wanted false last text = text.takeWhile isWhitespace ++ wanted true last text := by
  have hsplit : text = text.takeWhile isWhitespace ++ trimStart text :=
    (List.takeWhile_append_dropWhile ..).symm
  cases last with
  | false => exact hsplit
  | true =>
    have hfull : trimEnd (trimStart text) ≠ [] := by
      rwa [Ne, trimEnd_eq_nil_iff, solid_trimStart]
    calc trimEnd text = trimEnd (text.takeWhile isWhitespace ++ trimStart text) := by rw [← hsplit]
      _ = text.takeWhile isWhitespace ++ trimEnd (trimStart text) := trimEnd_append hfull

lemma trimStart_wanted_false {last text} :
    trimStart (wanted false last text) = wanted true last text := by
  cases last with
  | false => rfl
  | true => exact trimStart_trimEnd

lemma trim_header_wanted {header last text} (h : solid text ≠ []) :
    trim (header ++ wanted false last text) = trim (header ++ text) := by
  cases last with
  | false => rfl
  | true =>
    show trim (header ++ trimEnd text) = trim (header ++ text)
    rw [← trimEnd_append (mt trimEnd_eq_nil_iff.mp h), trim_trimEnd]

/-- The paste of a batch opens with its first record. -/
lemma trimmed_payload_cons (first : Bool) (trail : List Char) (h : Spoken (record :: rest)) :
    ∃ gap, trimStart gap = [] ∧ (first = false → gap = [])
      ∧ trimmed first (payload peers rootChannel (record :: rest)) ++ trail
        = headerText peers rootChannel record
          ++ (gap ++ (wanted first rest.isEmpty record.text.toList
            ++ after peers rootChannel trail rest))
      ∧ trim (headerText peers rootChannel record
          ++ (gap ++ wanted first rest.isEmpty record.text.toList))
        = trim (rendered peers rootChannel record) := by
  have htext := h record mem_cons_self
  have hopen : trimEnd (payload peers rootChannel (record :: rest)) ++ trail = _ :=
    trimEnd_payload_cons trail h
  have hfull : trimStart (trimEnd (payload peers rootChannel (record :: rest))) ≠ [] := by
    rw [Ne, trimStart_eq_nil_iff, solid_trimEnd]
    exact solid_payload h (cons_ne_nil _ _)
  cases first with
  | false => exact ⟨[], rfl, fun _ => rfl, hopen, trim_header_wanted htext⟩
  | true =>
    have hstart : trimmed true (payload peers rootChannel (record :: rest)) ++ trail
        = trimStart (headerText peers rootChannel record
          ++ (wanted false rest.isEmpty record.text.toList
            ++ after peers rootChannel trail rest)) := by
      rw [← hopen, trimStart_append hfull]
      rfl
    by_cases hheader : headerText peers rootChannel record = []
    · refine ⟨[], rfl, fun _ => rfl, ?_, ?_⟩
      · have hwanted : trimStart (wanted false rest.isEmpty record.text.toList) ≠ [] := by
          rwa [Ne, trimStart_eq_nil_iff, solid_wanted]
        rw [hstart, hheader, nil_append, trimStart_append hwanted, trimStart_wanted_false]
        rfl
      · rw [hheader, nil_append, nil_append, ← trimStart_wanted_false, trim_trimStart,
          ← nil_append (wanted false _ _), trim_header_wanted htext, rendered, hheader]
    · refine ⟨record.text.toList.takeWhile isWhitespace, ?_, nofun, ?_, ?_⟩
      · rw [trimStart_eq_nil_iff, solid_takeWhile]
      · rw [hstart, trimStart_header_append hheader, wanted_false _ htext, append_assoc]
      · rw [← wanted_false _ htext, trim_header_wanted htext, rendered]

lemma wanted_eq {first text} :
    (if rest = [] then trimEnd (if first then trimStart text else text)
      else if first then trimStart text else text) = wanted first rest.isEmpty text := by
  cases rest <;> rfl

/-- The alignment of one record, where its header and text stand as looked for. -/
lemma alignSubmittedPromptFrom_cons {first remaining header gap tail}
    (hremaining : remaining = header ++ (gap ++ (wanted first rest.isEmpty record.text.toList ++ tail)))
    (htext : solid record.text.toList ≠ []) (hblank : trimStart gap = [])
    (hgap : first = false → gap = []) (hdrop : dropHeader record.sender remaining
      = some (gap ++ (wanted first rest.isEmpty record.text.toList ++ tail))) :
    alignSubmittedPromptFrom first remaining (record :: rest)
      = let here := trim (header ++ (gap ++ wanted first rest.isEmpty record.text.toList))
        if rest = [] then some ([here], tail)
        else (dropLeading "\n\n".toList tail).bind fun next =>
          (alignSubmittedPromptFrom false next rest).map fun p => (here :: p.1, p.2) := by
  have hwanted : wanted first rest.isEmpty record.text.toList ≠ [] := fun hnil => by
    have hsolid := solid_wanted first rest.isEmpty record.text.toList
    rw [hnil] at hsolid
    exact htext hsolid.symm
  have hbody : (if first = true
      then trimStart (gap ++ (wanted first rest.isEmpty record.text.toList ++ tail))
      else gap ++ (wanted first rest.isEmpty record.text.toList ++ tail))
        = wanted first rest.isEmpty record.text.toList ++ tail := by
    cases first with
    | false => rw [hgap rfl]; rfl
    | true =>
      rw [if_pos rfl, trimStart_append_of_blank hblank,
        trimStart_append (by rwa [trimStart_wanted]), trimStart_wanted]
  have htake : remaining.take (remaining.length - tail.length)
      = header ++ (gap ++ wanted first rest.isEmpty record.text.toList) := by
    have hassoc : remaining
        = (header ++ (gap ++ wanted first rest.isEmpty record.text.toList)) ++ tail := by
      rw [hremaining]
      simp only [append_assoc]
    rw [hassoc, length_append, Nat.add_sub_cancel, List.take_left']
    rfl
  rw [alignSubmittedPromptFrom, hdrop]
  dsimp only
  rw [hbody, wanted_eq, if_neg hwanted, dropLeading_append]
  dsimp only
  rw [htake]
  by_cases hrest : rest = []
  · rw [if_pos hrest, if_pos hrest]
  · rw [if_neg hrest, if_neg hrest]
    cases dropLeading "\n\n".toList tail <;> rfl

/-- A record that was aligned: its header was cut off, its text came next, and its segment is what
both took. -/
lemma eq_of_alignSubmittedPromptFrom {first remaining segments left}
    (h : alignSubmittedPromptFrom first remaining (record :: rest) = some (segments, left)) :
    ∃ body tail, dropHeader record.sender remaining = some body
      ∧ (if first then trimStart body else body)
        = wanted first rest.isEmpty record.text.toList ++ tail
      ∧ segments.head? = some (trim (remaining.take (remaining.length - tail.length))) := by
  rw [alignSubmittedPromptFrom] at h
  cases hdrop : dropHeader record.sender remaining with
  | none => simp [hdrop] at h
  | some body =>
    rw [hdrop] at h
    dsimp only at h
    rw [wanted_eq] at h
    split at h
    · cases h
    cases htext : dropLeading (wanted first rest.isEmpty record.text.toList)
        (if first then trimStart body else body) with
    | none => simp [htext] at h
    | some tail =>
      refine ⟨body, tail, rfl, eq_append_of_dropLeading htext, ?_⟩
      rw [htext] at h
      dsimp only at h
      split at h
      · cases h
        rfl
      cases hjoin : dropLeading "\n\n".toList tail with
      | none =>
        rw [hjoin] at h
        cases h
      | some next =>
        rw [hjoin] at h
        obtain ⟨⟨more, rest'⟩, _, heq⟩ := map_eq_some_iff.mp h
        cases heq
        rfl

/-! ## A whole paste -/

/-- Where the first record is attributable, the rest of the paste is aligned next. -/
lemma alignSubmittedPromptFrom_payload_cons (first : Bool) (trail : List Char)
    (h : Spoken (record :: rest)) (hok : Attributable peers rootChannel record) :
    alignSubmittedPromptFrom first
        (trimmed first (payload peers rootChannel (record :: rest)) ++ trail) (record :: rest)
      = let here := trim (rendered peers rootChannel record)
        if rest = [] then some ([here], trail)
        else (alignSubmittedPromptFrom false
          (trimmed false (payload peers rootChannel rest) ++ trail) rest).map fun p =>
            (here :: p.1, p.2) := by
  obtain ⟨gap, hblank, hgap, hopen, hsegment⟩ :=
    trimmed_payload_cons first trail h
  have hdrop := dropHeader_append hok
    (gap ++ (wanted first rest.isEmpty record.text.toList ++ after peers rootChannel trail rest))
  rw [← hopen] at hdrop
  rw [alignSubmittedPromptFrom_cons hopen (h record mem_cons_self) hblank hgap hdrop, hsegment]
  by_cases hrest : rest = []
  · simp only [if_pos hrest, after]
  · simp only [if_neg hrest, after, dropLeading_append, bind_some]

lemma alignSubmittedPromptFrom_payload (first : Bool) (trail : List Char) (h : Spoken records)
    (hne : records ≠ []) (hok : ∀ record ∈ records, Attributable peers rootChannel record) :
    alignSubmittedPromptFrom first (trimmed first (payload peers rootChannel records) ++ trail)
        records
      = some (records.map fun record => trim (rendered peers rootChannel record), trail) := by
  induction records generalizing first with
  | nil => exact absurd rfl hne
  | cons record rest ih =>
    rw [alignSubmittedPromptFrom_payload_cons first trail h (hok record mem_cons_self)]
    by_cases hrest : rest = []
    · subst hrest
      rfl
    · rw [ih false (fun r hr => h r (mem_cons_of_mem _ hr)) hrest
        fun r hr => hok r (mem_cons_of_mem _ hr)]
      simp only [if_neg hrest, map_some, map_cons]

/-- A record whose segment is its own rendering was attributed: a header cut short leaves text of
the line behind. -/
lemma attributable_of_segment {first trail segments left} (h : Spoken (record :: rest))
    (halign : alignSubmittedPromptFrom first
        (trimmed first (payload peers rootChannel (record :: rest)) ++ trail) (record :: rest)
      = some (segments, left))
    (hsegment : segments.head? = some (trim (rendered peers rootChannel record))) :
    Attributable peers rootChannel record := by
  obtain ⟨gap, _, _, hopen, _⟩ :=
    trimmed_payload_cons first trail h
  obtain ⟨body, tail, hdrop, hbody, hhead⟩ := eq_of_alignSubmittedPromptFrom halign
  rw [hopen] at hdrop hhead
  rcases attributable_or_short hdrop with hok | ⟨pre, hpre, hshort⟩
  · exact hok
  -- count what is no whitespace: the cut part, the text, and nothing else
  exfalso
  obtain ⟨skip, hskip, hbody⟩ : ∃ skip, solid skip = []
      ∧ body = skip ++ (wanted first rest.isEmpty record.text.toList ++ tail) := by
    cases first with
    | false => exact ⟨[], rfl, hbody⟩
    | true =>
      refine ⟨body.takeWhile isWhitespace, solid_takeWhile, ?_⟩
      rw [← hbody]
      exact (List.takeWhile_append_dropWhile ..).symm
  have htake : (pre ++ body).take ((pre ++ body).length - tail.length)
      = pre ++ (skip ++ wanted first rest.isEmpty record.text.toList) := by
    have hassoc : pre ++ body
        = (pre ++ (skip ++ wanted first rest.isEmpty record.text.toList)) ++ tail := by
      rw [hbody]
      simp only [append_assoc]
    rw [hassoc, length_append, Nat.add_sub_cancel, List.take_left']
    rfl
  rw [hpre, htake, hsegment, Option.some.injEq] at hhead
  have hcount := congrArg (fun s => (solid s).length) hhead
  simp only [solid_trim, rendered, solid_append, solid_wanted, hskip, length_append,
    List.length_nil] at hcount
  omega

/-- Only attributable senders give every record its own rendering. -/
lemma attributable_of_alignSubmittedPromptFrom {first left} (h : Spoken records)
    (halign : alignSubmittedPromptFrom first (trimmed first (payload peers rootChannel records))
        records
      = some (records.map fun record => trim (rendered peers rootChannel record), left)) :
    ∀ record ∈ records, Attributable peers rootChannel record := by
  induction records generalizing first with
  | nil => exact fun _ hr => nomatch hr
  | cons record rest ih =>
    rw [← append_nil (trimmed first _)] at halign
    have hok : Attributable peers rootChannel record := attributable_of_segment h halign rfl
    rw [alignSubmittedPromptFrom_payload_cons first [] h hok] at halign
    intro r hr
    rcases mem_cons.mp hr with rfl | hr
    · exact hok
    have hrest : rest ≠ [] := List.ne_nil_of_mem hr
    rw [if_neg hrest, append_nil] at halign
    obtain ⟨⟨more, left'⟩, hmore, heq⟩ := map_eq_some_iff.mp halign
    cases heq
    exact ih (fun r hr => h r (mem_cons_of_mem _ hr)) hmore r hr

/-- No proper ending of an anchor begins it. -/
lemma anchor_borderless {anchor sender b ending} (hanchor : anchorOf sender = some anchor)
    (hsplit : b ++ ending = anchor.toList) (hb : b ≠ []) (hending : ending ≠ []) :
    ¬ending <+: anchor.toList := by
  obtain ⟨more, hmore, hy, hT⟩ := anchor_shape hanchor
  intro hpre
  rw [hmore] at hsplit hpre
  -- the ending lies in what follows `Ty`
  obtain ⟨b', rfl⟩ : ∃ b', more = b' ++ ending := by
    match b, ending, hb, hending with
    | [c], d :: ending, _, _ =>
      obtain ⟨rfl, _⟩ := cons_prefix_cons.mp hpre
      simp at hsplit
    | c :: d :: b', ending, _, _ =>
      simp only [cons_append, List.cons.injEq] at hsplit
      exact ⟨b', hsplit.2.2.symm⟩
  match ending, hending with
  | [c], _ =>
    obtain ⟨rfl, _⟩ := cons_prefix_cons.mp hpre
    simp at hT
  | c :: d :: ending, _ =>
    obtain ⟨_, hpre⟩ := cons_prefix_cons.mp hpre
    obtain ⟨rfl, _⟩ := cons_prefix_cons.mp hpre
    simp at hy

/-- An anchor begins nowhere inside text without one, nor across its end. -/
lemma anchor_not_before {anchor sender a b lead more} (hanchor : anchorOf sender = some anchor)
    (hlead : ¬anchor.toList <:+: lead) (hsplit : lead = a ++ b) (hb : b ≠ []) :
    anchor.toList.isPrefixOf (b ++ (anchor.toList ++ more)) = false := by
  rw [Bool.eq_false_iff, Ne, isPrefixOf_iff_prefix]
  intro hpre
  rcases Nat.lt_or_ge b.length anchor.toList.length with hlt | hge
  · -- the anchor would end in a part of its own beginning
    obtain ⟨ending, hending⟩ : b <+: anchor.toList :=
      List.prefix_of_prefix_length_le (prefix_append _ _) hpre hlt.le
    have hending' : ending <+: anchor.toList := by
      rw [← hending, List.prefix_append_right_inj, hending] at hpre
      refine List.prefix_of_prefix_length_le hpre (prefix_append _ _) ?_
      rw [← hending, length_append]
      omega
    refine anchor_borderless hanchor hending hb ?_ hending'
    rintro rfl
    rw [← hending, append_nil] at hlt
    exact Nat.lt_irrefl _ hlt
  · obtain ⟨tail, htail⟩ := List.prefix_of_prefix_length_le hpre (prefix_append _ _) hge
    exact hlead ⟨a, tail, by rw [hsplit, ← htail, append_assoc]⟩

lemma trimmed_true {text} : trimmed true text = trim text := trimStart_trimEnd

/-- The paste of a batch with a named sender first begins with its anchor. -/
lemma trim_payload_anchor {anchor} (h : Spoken (record :: rest))
    (hanchor : anchorOf record.sender = some anchor) :
    ∃ more, trim (payload peers rootChannel (record :: rest)) = anchor.toList ++ more := by
  obtain ⟨gap, _, _, hopen, _⟩ :=
    trimmed_payload_cons true [] h
  rw [append_nil, trimmed_true] at hopen
  rcases header_cases peers rootChannel record with
    ⟨hnone, _⟩ | ⟨anchor', hsome, hheader, _⟩ | ⟨anchor', line, hsome, hheader, _⟩
  · rw [hanchor] at hnone
    cases hnone
  · rw [hanchor] at hsome
    cases hsome
    exact ⟨_, by rw [hopen, hheader]⟩
  · rw [hanchor] at hsome
    cases hsome
    exact ⟨_, by rw [hopen, hheader, append_assoc]⟩

/-- A paste among composer text: the first copy of the anchor opens the paste. -/
lemma alignSubmittedPrompt_anchored {anchor} (h : Spoken (record :: rest))
    (hanchor : anchorOf record.sender = some anchor) {lead trail} (hlead : ¬anchor.toList <:+: lead)
    (hok : ∀ r ∈ record :: rest, Attributable peers rootChannel r) :
    alignSubmittedPrompt (lead ++ trim (payload peers rootChannel (record :: rest)) ++ trail)
        (record :: rest)
      = some (nonemptyTrimmed lead,
          (record :: rest).map fun r => trim (rendered peers rootChannel r),
          nonemptyTrimmed trail) := by
  have hsolid : solid (payload peers rootChannel (record :: rest)) ≠ [] :=
    solid_payload h (cons_ne_nil _ _)
  have halign := alignSubmittedPromptFrom_payload true (trimEnd trail) h (cons_ne_nil _ _) hok
  rw [trimmed_true] at halign
  obtain ⟨more, hmore⟩ :=
    trim_payload_anchor h hanchor
  have hfirst : anchor.toList.isPrefixOf
      (trim (payload peers rootChannel (record :: rest)) ++ trimEnd trail) = true := by
    rw [ isPrefixOf_iff_prefix, hmore, append_assoc]
    exact prefix_append _ _
  have hleadTrim : ¬anchor.toList <:+: trimStart lead := fun hcopy =>
    hlead (hcopy.trans (List.dropWhile_suffix _).isInfix)
  have hfull : trim (payload peers rootChannel (record :: rest)) ++ trimEnd trail ≠ [] := by
    rw [Ne, append_eq_nil_iff, trim_eq_nil_iff]
    exact fun hnil => hsolid hnil.1
  obtain ⟨later, hlater⟩ :=
    matchSplits_append hfirst hfull fun a b hsplit hb => by
      rw [hmore, append_assoc]
      exact anchor_not_before hanchor hleadTrim hsplit hb
  simp only [alignSubmittedPrompt, hanchor]
  rw [trim_append_trim hsolid, append_assoc, hlater, List.findSome?_cons, halign]
  simp only [map_some, nil_append, nonemptyTrimmed, trim_trimStart, trim_trimEnd]

lemma alignSubmittedPrompt_plain (h : Spoken (record :: rest))
    (hanchor : anchorOf record.sender = none)
    (hok : ∀ r ∈ record :: rest, Attributable peers rootChannel r) :
    alignSubmittedPrompt (trim (payload peers rootChannel (record :: rest))) (record :: rest)
      = some (none, (record :: rest).map fun r => trim (rendered peers rootChannel r), none) := by
  have halign := alignSubmittedPromptFrom_payload true [] h (cons_ne_nil _ _) hok
  rw [trimmed_true, append_nil] at halign
  simp only [alignSubmittedPrompt, hanchor, trim_trim, halign]

/-- A paste that aligns without leading text was aligned from its first character. -/
lemma alignSubmittedPromptFrom_of_alignSubmittedPrompt {segments}
    (halign : alignSubmittedPrompt (trim (payload peers rootChannel (record :: rest)))
      (record :: rest) = some (none, segments, none)) :
    ∃ left, alignSubmittedPromptFrom true (trim (payload peers rootChannel (record :: rest)))
      (record :: rest) = some (segments, left) := by
  simp only [alignSubmittedPrompt, trim_trim] at halign
  cases hanchor : anchorOf record.sender with
  | none =>
    simp only [hanchor] at halign
    split at halign
    · next hfrom =>
      cases halign
      exact ⟨[], hfrom⟩
    · cases halign
  | some anchor =>
    simp only [hanchor] at halign
    obtain ⟨split, hsplit, hmatch⟩ := List.exists_of_findSome?_eq_some halign
    obtain ⟨⟨found, left⟩, hfrom, heq⟩ := map_eq_some_iff.mp hmatch
    simp only [Prod.mk.injEq] at heq
    obtain ⟨hlead, rfl, _⟩ := heq
    have hparts := mem_matchSplits hsplit
    -- the text before the match is blank, and the paste begins with none
    have hblank : trim split.1 = [] := by
      unfold nonemptyTrimmed at hlead
      split at hlead
      · assumption
      · cases hlead
    have hnil : split.1 = [] := by
      have hstart : trimStart (split.1 ++ split.2) = split.1 ++ split.2 := by
        rw [hparts, nil_append, trim, trimStart_trimEnd, trimStart_trimStart]
      rw [trimStart_append_of_blank (by rwa [trimStart_eq_nil_iff, ← trim_eq_nil_iff])] at hstart
      have hlength := congrArg List.length hstart
      have hdrop : (trimStart split.2).length ≤ split.2.length := List.length_dropWhile_le ..
      rw [length_append] at hlength
      exact List.length_eq_zero_iff.mp (by omega)
    rw [hnil, nil_append, nil_append] at hparts
    exact ⟨left, by rw [← hparts]; exact hfrom⟩

end Alignment

section Paste
variable (peers : List Peer) (rootChannel : Option String)

/-- A batched paste aligns back to its records, also among composer text around it, if and only if
the reader takes every line that names a sender. The composer text before the paste includes the
whitespace that sets it off. -/
theorem payload_aligns_iff (records : List MessageRecord) (hne : records ≠ [])
    (hspoken : ∀ record ∈ records, trim record.text.toList ≠ []) :
    (alignSubmittedPrompt (trim (payload peers rootChannel records)) records
        = some (none, records.map fun record => trim (rendered peers rootChannel record), none)
      ∧ ∀ anchor, (records.head?.bind fun first => anchorOf first.sender) = some anchor →
        ∀ lead trail, ¬anchor.toList <:+: lead →
          alignSubmittedPrompt (lead ++ trim (payload peers rootChannel records) ++ trail) records
            = some (nonemptyTrimmed lead,
              records.map fun record => trim (rendered peers rootChannel record),
              nonemptyTrimmed trail))
      ↔ ∀ record ∈ records, Attributable peers rootChannel record := by
  have h : Spoken records := fun record hr => mt trim_eq_nil_iff.mpr (hspoken record hr)
  cases records with
  | nil => exact absurd rfl hne
  | cons record rest =>
    constructor
    · rintro ⟨halign, _⟩
      obtain ⟨left, hfrom⟩ := alignSubmittedPromptFrom_of_alignSubmittedPrompt halign
      rw [← trimmed_true] at hfrom
      exact attributable_of_alignSubmittedPromptFrom h hfrom
    · intro hok
      refine ⟨?_, fun anchor hanchor lead trail hlead =>
        alignSubmittedPrompt_anchored h hanchor hlead hok⟩
      cases hanchor : anchorOf record.sender with
      | none => exact alignSubmittedPrompt_plain h hanchor hok
      | some anchor =>
        have hlead : ¬anchor.toList <:+: [] := by
          obtain ⟨more, hmore, _⟩ := anchor_shape hanchor
          simp [hmore]
        have halign : alignSubmittedPrompt
            ([] ++ trim (payload peers rootChannel (record :: rest)) ++ []) (record :: rest) = _ :=
          alignSubmittedPrompt_anchored h hanchor hlead hok
        rw [nil_append, append_nil] at halign
        exact halign

/-- A prompt from `sender` to an agent without a channel. -/
def promptFrom (sender : MessageSender) (text : String) : MessageRecord where
  messageId := 1
  workspaceId := "w1"
  kind := "claude"
  agentId := "s1"
  agentName := none
  address := none
  channel := none
  sender := sender
  automated := false
  replyWait := false
  body := .prompt
  text := text
  enter := true
  gate := .done
  force := false
  paneId := none
  status := .sent
  enqueuedAt := 0
  updatedAt := 0
  registerBy := none
  attempts := 1
  unconfirmedSends := 0
  lastAttemptAt := some 0
  lastSentAt := some 0
  lastError := none
  deliveredAt := none
  notBefore := none
  after := []
  when_ := []
  retryAfter := none
  typingHold := none
  queuedNoticeAt := none
  autoCompact := none
  softCompact := none
  compactedContextTokens := none
  idleSince := none
  batchId := none

/-- A message of the user and one of the agent `@fox`, delivered together. -/
theorem payload_aligns_user_and_agent :
    let batch := [promptFrom .human "please review",
      promptFrom (.agent "claude" (some "s2") (some "fox") none none none) "done"]
    alignSubmittedPrompt (trim (payload [] none batch)) batch
      = some (none, batch.map fun record => trim (rendered [] none record), none) := by
  refine ((payload_aligns_iff [] none _ (by decide) (by decide +kernel)).mpr ?_).1
  intro record hrecord
  rcases mem_cons.mp hrecord with rfl | hrecord
  · trivial
  · rcases mem_singleton.mp hrecord with rfl
    exact ⟨_, "fox (claude)", rfl, by decide +kernel, by decide +kernel⟩

/-- The agent `@fox` works in the checkout `my app`. The header names it `@fox#my app`, which the
reader refuses for its space: the paste does not align. -/
theorem spaced_checkout_does_not_align :
    let fox : Peer := { kind := "claude", name := some "fox", worktreePath := some "/src/my app" }
    let batch := [promptFrom (.agent "claude" (some "s2") (some "fox") none none none) "done"]
    rendered [fox] (some "rimz") batch[0]
        = "Type: AGENT_MESSAGE\nFrom: @fox#my app (claude)\nContent:\ndone".toList
      ∧ alignSubmittedPrompt (trim (payload [fox] (some "rimz") batch)) batch = none := by
  decide +kernel

end Paste

end Rimz.Queue
