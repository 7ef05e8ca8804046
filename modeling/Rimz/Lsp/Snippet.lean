import Rimz.Lsp.Adaptation

/-!
# Snippets and the text they insert

The snippet syntax of the protocol as trees, with their braced spelling and the text they stand for.
`plain` reads the spelling in one pass that only counts open defaults; it returns that text.
-/

namespace Rimz.Lsp.Adaptation
open Rimz.Lib

/-- What a `$` names: a tab stop by its digits, or a variable. -/
structure SnippetName where
  chars : List Char
  nonempty : chars ≠ []
  named : ∀ ch ∈ chars, isNameChar (chars.head?.any Char.isDigit) ch = true

/-- A sequence of snippet elements. Tab stops and bare variables are `mark`s, placeholders and
variables with a default are `holder`s. -/
inductive Snippet where
  | done
  | text (chars : List Char) (next : Snippet)
  | mark (name : SnippetName) (next : Snippet)
  | holder (name : SnippetName) (default next : Snippet)
  | choice (name : SnippetName) (first : List Char) (others : List (List Char)) (next : Snippet)

/-- The characters with a backslash in front of the special ones. -/
def escape (special : List Char) (chars : List Char) : List Char :=
  chars.flatMap fun ch => if ch ∈ special then ['\\', ch] else [ch]

/-- The spelling of the strings of a choice, each behind its separator. -/
def choices (others : List (List Char)) : List Char :=
  others.flatMap fun chars => ',' :: escape [',', '|', '\\'] chars

/-- The braced spelling. -/
def Snippet.print : Snippet → List Char
  | done => []
  | text chars next => escape ['$', '\x7d', '\\'] chars ++ next.print
  | mark name next => '$' :: '\x7b' :: (name.chars ++ '\x7d' :: next.print)
  | holder name default next =>
    '$' :: '\x7b' :: (name.chars ++ ':' :: (default.print ++ '\x7d' :: next.print))
  | choice name first others next =>
    '$' :: '\x7b' :: (name.chars ++ '|' :: (escape [',', '|', '\\'] first
      ++ (choices others ++ '|' :: '\x7d' :: next.print)))

/-- The text a snippet inserts. -/
def Snippet.plainText : Snippet → List Char
  | done => []
  | text chars next => chars ++ next.plainText
  | mark _ next => next.plainText
  | holder _ default next => default.plainText ++ next.plainText
  | choice _ first _ next => first ++ next.plainText

/-- The loop takes `chars` to `out` and goes on with `rest`. -/
def Scans (defaults : Nat) (chars out : List Char) (defaults' : Nat) (rest : List Char) : Prop :=
  ∀ fuel, chars.length ≤ fuel → ∃ fuel', rest.length ≤ fuel'
    ∧ plainFrom fuel defaults chars = out ++ plainFrom fuel' defaults' rest

variable {d d' d'' : Nat} {a b c o o' rest : List Char}

lemma Scans.refl : Scans d rest [] d rest := fun fuel enough => ⟨fuel, enough, rfl⟩

lemma Scans.trans (h : Scans d a o d' b) (h' : Scans d' b o' d'' c) : Scans d a (o ++ o') d'' c := by
  intro fuel enough
  obtain ⟨fuel', enough', e⟩ := h fuel enough
  obtain ⟨fuel'', enough'', e'⟩ := h' fuel' enough'
  exact ⟨fuel'', enough'', by rw [e, e', append_assoc]⟩

/-- One round of the loop. -/
lemma Scans.round {ch} (h : ∀ fuel, plainFrom (fuel + 1) d (ch :: a) = o ++ plainFrom fuel d' rest)
    (shorter : rest.length ≤ a.length) : Scans d (ch :: a) o d' rest := by
  intro fuel enough
  cases fuel with
  | zero => simp at enough
  | succ fuel =>
    refine ⟨fuel, ?_, h fuel⟩
    simp only [length_cons] at enough
    omega

lemma scans_text (chars : List Char) :
    Scans d (escape ['$', '\x7d', '\\'] chars ++ rest) chars d rest := by
  induction chars with
  | nil => exact .refl
  | cons ch chars ih =>
    refine Scans.trans (o := [ch]) ?_ ih
    simp only [escape, List.flatMap_cons, append_assoc]
    split
    · next special =>
      refine Scans.round (fun fuel => ?_) (by simp)
      simp only [mem_cons, not_mem_nil, or_false] at special
      simp [plainFrom, special]
    · next plain =>
      refine Scans.round (fun fuel => ?_) (by simp)
      simp only [mem_cons, not_mem_nil, or_false, not_or] at plain
      simp [plainFrom, plain]

lemma scans_close : Scans (d + 1) ('\x7d' :: rest) [] d rest := by
  refine Scans.round (fun fuel => ?_) (Nat.le_refl _)
  simp [plainFrom]

/-- The name of a braced element, and what the character behind it opens. -/
lemma plainFrom_name (name : SnippetName) {ch} (behind : ch = ':' ∨ ch = '|' ∨ ch = '\x7d')
    (fuel : Nat) : plainFrom (fuel + 1) d ('$' :: '\x7b' :: (name.chars ++ ch :: rest))
      = if ch = ':' then plainFrom fuel (d + 1) rest
        else if ch = '|' then (choice true rest).1 ++ plainFrom fuel d (choice true rest).2
        else plainFrom fuel d rest := by
  have other : ∀ numeric, isNameChar numeric ch = false := by
    rcases behind with rfl | rfl | rfl
    all_goals decide
  have head : (name.chars ++ ch :: rest).head? = name.chars.head? :=
    List.head?_append_of_ne_nil _ name.nonempty
  have take : (name.chars ++ ch :: rest).takeWhile
      (isNameChar (name.chars.head?.any Char.isDigit)) = name.chars := by
    rw [List.takeWhile_append_of_pos name.named, List.takeWhile_cons_of_neg (by simp [other]), append_nil]
  have drop : (name.chars ++ ch :: rest).dropWhile
      (isNameChar (name.chars.head?.any Char.isDigit)) = ch :: rest := by
    rw [List.dropWhile_append_of_pos name.named, List.dropWhile_cons_of_neg (by simp [other])]
  simp only [plainFrom, List.head?_cons, List.drop_one, List.tail_cons, if_true, head, take, drop,
    name.nonempty]
  rcases behind with rfl | rfl | rfl
  all_goals rfl

lemma Scans.name (name : SnippetName) {ch} (behind : ch = ':' ∨ ch = '|' ∨ ch = '\x7d')
    (goes : ∀ fuel, (if ch = ':' then plainFrom fuel (d + 1) a
      else if ch = '|' then (choice true a).1 ++ plainFrom fuel d (choice true a).2
      else plainFrom fuel d a) = o ++ plainFrom fuel d' rest) (shorter : rest.length ≤ a.length) :
    Scans d ('$' :: '\x7b' :: (name.chars ++ ch :: a)) o d' rest := by
  refine Scans.round (fun fuel => (plainFrom_name name behind fuel).trans (goes fuel)) ?_
  simp only [length_cons, length_append]
  omega

lemma choice_escape (first : Bool) (chars : List Char) :
    choice first (escape [',', '|', '\\'] chars ++ rest)
      = (if first then chars ++ (choice first rest).1 else (choice first rest).1, (choice first rest).2) := by
  induction chars with
  | nil => cases first <;> rfl
  | cons ch chars ih =>
    simp only [escape, List.flatMap_cons, append_assoc]
    split
    · next special =>
      simp only [mem_cons, not_mem_nil, or_false] at special
      rcases special with rfl | rfl | rfl
      all_goals
        simp only [cons_append, nil_append, choice]
        erw [ih]
        cases first <;> rfl
    · next plain =>
      simp only [mem_cons, not_mem_nil, or_false, not_or] at plain
      simp only [cons_append, nil_append]
      rw [choice]
      · erw [ih]
        cases first <;> rfl
      all_goals simp_all

lemma choice_others (others : List (List Char)) :
    choice false (choices others ++ '|' :: '\x7d' :: rest) = ([], rest) := by
  induction others with
  | nil => rfl
  | cons chars others ih =>
    simp only [choices, List.flatMap_cons, cons_append, append_assoc, choice]
    rw [choice_escape]
    exact ih

lemma choice_first (first : List Char) (others : List (List Char)) :
    choice true (escape [',', '|', '\\'] first ++ (choices others ++ '|' :: '\x7d' :: rest))
      = (first, rest) := by
  have after : choice true (choices others ++ '|' :: '\x7d' :: rest) = ([], rest) := by
    cases others with
    | nil => rfl
    | cons chars others =>
      simp only [choices, List.flatMap_cons, cons_append, append_assoc, choice]
      rw [choice_escape]
      exact choice_others others
  rw [choice_escape, after]
  simp

lemma scans_print (s : Snippet) : Scans d (s.print ++ rest) s.plainText d rest := by
  induction s generalizing d rest with
  | done => exact .refl
  | text chars next ih =>
    rw [Snippet.print, append_assoc]
    exact (scans_text chars).trans ih
  | mark name next ih =>
    simp only [Snippet.print, cons_append, append_assoc]
    exact Scans.trans (.name (o := []) name (.inr (.inr rfl)) (fun _ => rfl) (Nat.le_refl _)) ih
  | holder name default next ihd ihn =>
    simp only [Snippet.print, cons_append, append_assoc]
    refine Scans.trans (Scans.trans (.name (o := []) name (.inl rfl) (fun _ => rfl) ?_) ihd)
      (scans_close.trans ihn)
    exact Nat.le_refl _
  | choice name first others next ih =>
    simp only [Snippet.print, cons_append, append_assoc]
    refine Scans.trans (Scans.name name (.inr (.inl rfl)) (fun fuel => ?_) ?_) ih
    · rw [if_neg (by decide), if_pos rfl, choice_first]
    · simp only [length_append, length_cons]
      omega

/-- `plain` on the spelling of a snippet is the text of the snippet. -/
theorem plain_print (s : Snippet) :
    plain (.string (String.ofList s.print)) = .string (String.ofList s.plainText) := by
  have scans : Scans 0 (s.print ++ []) s.plainText 0 [] := scans_print s
  rw [append_nil] at scans
  obtain ⟨fuel, -, e⟩ := scans s.print.length (Nat.le_refl _)
  rw [plain, String.toList_ofList, e]
  cases fuel <;> simp [plainFrom]

end Rimz.Lsp.Adaptation
