import Rimz.Lib.Bytes

/-!
# UTF-8 validation

`core::str::from_utf8` as the standard library runs it: one pass over the lead-byte table that
reports where the valid prefix ends and, unless the input merely stopped early, how long the
offending sequence is.
-/

namespace Rimz.Lib

structure Utf8Error where
  validUpTo : Nat
  errorLen : Option Nat

/-- The `Display` text of a `Utf8Error`. -/
def Utf8Error.text (e : Utf8Error) : Bytes :=
  match e.errorLen with
  | some n =>
    ascii "invalid utf-8 sequence of " ++ decimal n ++ ascii " bytes from index "
      ++ decimal e.validUpTo
  | none => ascii "incomplete utf-8 byte sequence from index " ++ decimal e.validUpTo

/-- A continuation byte. -/
def isCont (b : UInt8) : Bool :=
  0x80 ≤ b.toNat && b.toNat ≤ 0xBF

/-- `utf8_char_width`, with `0` for a byte that starts no character. -/
def charWidth (b : UInt8) : Nat :=
  if b.toNat < 0x80 then 1
  else if 0xC2 ≤ b.toNat ∧ b.toNat ≤ 0xDF then 2
  else if 0xE0 ≤ b.toNat ∧ b.toNat ≤ 0xEF then 3
  else if 0xF0 ≤ b.toNat ∧ b.toNat ≤ 0xF4 then 4
  else 0

/-- The second bytes a three- or four-byte lead admits. -/
def secondOk (b0 b1 : UInt8) : Bool :=
  if b0 = 0xE0 then 0xA0 ≤ b1.toNat && b1.toNat ≤ 0xBF
  else if b0 = 0xED then 0x80 ≤ b1.toNat && b1.toNat ≤ 0x9F
  else if b0 = 0xF0 then 0x90 ≤ b1.toNat && b1.toNat ≤ 0xBF
  else if b0 = 0xF4 then 0x80 ≤ b1.toNat && b1.toNat ≤ 0x8F
  else isCont b1

/-- `run_utf8_validation` from byte index `pos`; `none` means the input is valid UTF-8. -/
def utf8Error (pos : Nat) : Bytes → Option Utf8Error
  | [] => none
  | b0 :: rest =>
    if charWidth b0 = 1 then utf8Error (pos + 1) rest
    else if charWidth b0 = 2 then
      match rest with
      | [] => some ⟨pos, none⟩
      | b1 :: r1 => if isCont b1 then utf8Error (pos + 2) r1 else some ⟨pos, some 1⟩
    else if charWidth b0 = 3 then
      match rest with
      | [] => some ⟨pos, none⟩
      | b1 :: r1 =>
        if secondOk b0 b1 then
          match r1 with
          | [] => some ⟨pos, none⟩
          | b2 :: r2 => if isCont b2 then utf8Error (pos + 3) r2 else some ⟨pos, some 2⟩
        else some ⟨pos, some 1⟩
    else if charWidth b0 = 4 then
      match rest with
      | [] => some ⟨pos, none⟩
      | b1 :: r1 =>
        if secondOk b0 b1 then
          match r1 with
          | [] => some ⟨pos, none⟩
          | b2 :: r2 =>
            if isCont b2 then
              match r2 with
              | [] => some ⟨pos, none⟩
              | b3 :: r3 => if isCont b3 then utf8Error (pos + 4) r3 else some ⟨pos, some 3⟩
            else some ⟨pos, some 2⟩
        else some ⟨pos, some 1⟩
    else some ⟨pos, some 1⟩

/-- Valid text in front only shifts the validation of what follows. -/
lemma utf8Error_append {pos a b} (h : utf8Error pos a = none) :
    utf8Error pos (a ++ b) = utf8Error (pos + a.length) b := by
  fun_induction utf8Error pos a with
  | case1 => rfl
  | case2 pos b0 rest hw ih =>
    rw [cons_append, utf8Error.eq_def]
    simp only [hw, if_true, length_cons]
    rw [ih h]
    congr 1
    omega
  | case4 pos b0 _ hw b1 r1 hc ih =>
    rw [cons_append, cons_append, utf8Error.eq_def]
    simp only [hw, hc, if_true, length_cons]
    norm_num
    rw [ih h]
    congr 1
    omega
  | case8 pos b0 _ _ hw b1 hs b2 r2 hc ih =>
    rw [cons_append, cons_append, cons_append, utf8Error.eq_def]
    simp only [hw, hs, hc, if_true, length_cons]
    norm_num
    rw [ih h]
    congr 1
    omega
  | case14 pos b0 _ _ _ hw b1 hs b2 hc b3 r3 hc' ih =>
    rw [cons_append, cons_append, cons_append, cons_append, utf8Error.eq_def]
    simp only [hw, hs, hc, hc', if_true, length_cons]
    norm_num
    rw [ih h]
    congr 1
    omega
  | _ => exact absurd h (by simp)

/-- Validity does not depend on the index the validation counts from. -/
lemma utf8Error_shift {pos pos' a} (h : utf8Error pos a = none) : utf8Error pos' a = none := by
  fun_induction utf8Error pos a generalizing pos' with
  | case1 => rfl
  | case2 pos b0 rest hw ih =>
    rw [utf8Error.eq_def]
    simpa only [hw, if_true] using ih h
  | case4 pos b0 _ hw b1 r1 hc ih =>
    rw [utf8Error.eq_def]
    simpa [hw, hc] using ih h
  | case8 pos b0 _ _ hw b1 hs b2 r2 hc ih =>
    rw [utf8Error.eq_def]
    simpa [hw, hs, hc] using ih h
  | case14 pos b0 _ _ _ hw b1 hs b2 hc b3 r3 hc' ih =>
    rw [utf8Error.eq_def]
    simpa [hw, hs, hc, hc'] using ih h
  | _ => exact absurd h (by simp)

/-- ASCII text is valid UTF-8. -/
lemma utf8Error_of_ascii {pos a} (h : ∀ b ∈ a, b.toNat < 0x80) : utf8Error pos a = none := by
  induction a generalizing pos with
  | nil => rfl
  | cons b bs ih =>
    have hb : charWidth b = 1 := by
      simp [charWidth, h b (by simp)]
    rw [utf8Error.eq_def]
    simp only [hb, if_true]
    exact ih fun x hx => h x (by simp [hx])

end Rimz.Lib
