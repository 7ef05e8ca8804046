import Mathlib.Tactic.IntervalCases
import Rimz.Lib.Names

/-!
# Byte strings

The part of the standard library that line-framed records rest on, over arbitrary element types
where it does not depend on the alphabet: `read_until` iterated over a reader (`rowsOf`),
`split_once` (`splitOnce`), and the number formats `{}`, `{:08x}` and `from_str_radix` on ASCII
text.
-/

namespace Rimz.Lib

abbrev Bytes := List UInt8

/-- The bytes of an ASCII literal. -/
def ascii (s : String) : Bytes :=
  s.toList.map fun c => UInt8.ofNat c.toNat

section Split
variable {α : Type*} [DecidableEq α]

/-- The successive results of `read_until d` on a reader: every row keeps its delimiter, and only
the last one can lack it. -/
def rowsOf (d : α) : List α → List (List α)
  | [] => []
  | b :: bs =>
    if b = d then [b] :: rowsOf d bs
    else
      match rowsOf d bs with
      | [] => [[b]]
      | r :: rs => (b :: r) :: rs

/-- `str::split_once` at the first delimiter. -/
def splitOnce (d : α) : List α → Option (List α × List α)
  | [] => none
  | b :: bs =>
    if b = d then some ([], bs)
    else (splitOnce d bs).map fun p => (b :: p.1, p.2)

/-- `Iterator::rposition`: the index of the last element that satisfies `p`. -/
def rposition (p : α → Bool) : List α → Option Nat
  | [] => none
  | b :: bs =>
    match rposition p bs with
    | some i => some (i + 1)
    | none => if p b then some 0 else none

/-- A terminated row comes off the front of the reader. -/
lemma rowsOf_append_delim {d} {a b : List α} (h : d ∉ a) :
    rowsOf d (a ++ d :: b) = (a ++ [d]) :: rowsOf d b := by
  induction a with
  | nil => simp [rowsOf]
  | cons x xs ih =>
    simp only [mem_cons, not_or] at h
    have e : rowsOf d (xs ++ d :: b) = (xs ++ [d]) :: rowsOf d b := ih h.2
    simp [rowsOf, e, Ne.symm h.1]

/-- A reader without a delimiter yields one unterminated row. -/
lemma rowsOf_eq_singleton {d} {a : List α} (h : d ∉ a) (hne : a ≠ []) : rowsOf d a = [a] := by
  induction a with
  | nil => exact absurd rfl hne
  | cons x xs ih =>
    simp only [mem_cons, not_or] at h
    by_cases e : xs = []
    · subst e
      simp [rowsOf, Ne.symm h.1]
    · simp [rowsOf, ih h.2 e, Ne.symm h.1]

/-- The rows that end in their delimiter. -/
def wholeRows (d : α) (a : List α) : List (List α) :=
  (rowsOf d a).takeWhile fun row => row.getLast? = some d

lemma wholeRows_of_notMem {d} {a : List α} (h : d ∉ a) : wholeRows d a = [] := by
  by_cases hne : a = []
  · subst hne
    rfl
  · have last : a.getLast? ≠ some d := fun e => h (mem_of_getLast? e)
    simp [wholeRows, rowsOf_eq_singleton h hne, last]

lemma wholeRows_append_delim {d} {a b : List α} (h : d ∉ a) :
    wholeRows d (a ++ d :: b) = (a ++ [d]) :: wholeRows d b := by
  simp [wholeRows, rowsOf_append_delim h]

/-- Reading on behind the last delimiter misses no row and reads none twice. -/
lemma wholeRows_append (d : α) (a b : List α) :
    wholeRows d (a ++ b)
      = wholeRows d a ++ wholeRows d ((a ++ b).drop (wholeRows d a).flatten.length) := by
  induction h : a.length using Nat.strong_induction_on generalizing a with
  | _ n ih =>
    by_cases hd : d ∈ a
    · obtain ⟨x, y, rfl, hx⟩ := List.eq_append_cons_of_mem hd
      have shorter : y.length < n := by
        rw [← h]
        simp
        omega
      have tail := ih y.length shorter y rfl
      have split : (x ++ d :: y) ++ b = x ++ d :: (y ++ b) := by simp
      have behind : (x ++ d :: (y ++ b)).drop ((x ++ [d]).length + (wholeRows d y).flatten.length)
          = (y ++ b).drop (wholeRows d y).flatten.length := by
        rw [← List.drop_drop, show x ++ d :: (y ++ b) = (x ++ [d]) ++ (y ++ b) by simp,
          drop_left]
      rw [split, wholeRows_append_delim hx, wholeRows_append_delim hx, List.flatten_cons,
        length_append, behind, tail]
      rfl
    · rw [wholeRows_of_notMem hd]
      simp

/-- Splitting at a delimiter the left part does not contain. -/
lemma splitOnce_append {d} {a b : List α} (h : d ∉ a) : splitOnce d (a ++ d :: b) = some (a, b) := by
  induction a with
  | nil => simp [splitOnce]
  | cons x xs ih =>
    simp only [mem_cons, not_or] at h
    simp [splitOnce, ih h.2, Ne.symm h.1]

/-- With more text in front, the split is in that text or, where it has no delimiter, as before. -/
lemma splitOnce_append_left {d} {a b : List α} (h : d ∉ a) (x : List α) :
    (∃ y z, splitOnce d (x ++ (a ++ d :: b)) = some (y, z ++ (a ++ d :: b)))
      ∨ splitOnce d (x ++ (a ++ d :: b)) = some (x ++ a, b) := by
  by_cases hx : d ∈ x
  · obtain ⟨y, z, rfl, hy⟩ := List.eq_append_cons_of_mem hx
    exact .inl ⟨y, z, by simpa using splitOnce_append (b := z ++ (a ++ d :: b)) hy⟩
  · refine .inr ?_
    rw [← append_assoc]
    exact splitOnce_append (by simp [hx, h])

omit [DecidableEq α] in
lemma rposition_eq_none {p} {a : List α} (h : ∀ b ∈ a, p b = false) : rposition p a = none := by
  induction a with
  | nil => rfl
  | cons x xs ih =>
    have e := ih fun b hb => h b (mem_cons_of_mem _ hb)
    simp [rposition, e, h x mem_cons_self]

omit [DecidableEq α] in
lemma rposition_append {p} {a b : List α} {x} (hx : p x = true) (h : ∀ y ∈ b, p y = false) :
    rposition p (a ++ x :: b) = some a.length := by
  induction a with
  | nil => simp [rposition, rposition_eq_none h, hx]
  | cons y ys ih => simp [rposition, ih]

end Split

/-- `{}` of an unsigned integer. -/
def decimal (n : Nat) : Bytes :=
  (Nat.toDigits 10 n).map fun c => UInt8.ofNat c.toNat

def hexDigit (n : Nat) : UInt8 :=
  if n < 10 then UInt8.ofNat (48 + n) else UInt8.ofNat (87 + n)

/-- `{:08x}` of a `u32`. -/
def lowerHex8 (v : UInt32) : Bytes :=
  [7, 6, 5, 4, 3, 2, 1, 0].map fun i => hexDigit (v.toNat / 16 ^ i % 16)

/-- `char::to_digit` on an ASCII byte. -/
def toDigit (radix : Nat) (b : UInt8) : Option Nat :=
  let v :=
    if 48 ≤ b.toNat ∧ b.toNat ≤ 57 then b.toNat - 48
    else if 97 ≤ b.toNat ∧ b.toNat ≤ 122 then b.toNat - 87
    else if 65 ≤ b.toNat ∧ b.toNat ≤ 90 then b.toNat - 55
    else radix
  if v < radix then some v else none

/-- The digit loop of `from_str_radix`, with its overflow checks. -/
def digitsRadix (radix bound : Nat) : Nat → Bytes → Option Nat
  | acc, [] => some acc
  | acc, b :: bs =>
    match toDigit radix b with
    | none => none
    | some v => if acc * radix + v < bound then digitsRadix radix bound (acc * radix + v) bs else none

/-- `from_str_radix` of an unsigned type of `bound` values: one leading `+` is allowed, a lone one
and the empty text are not. -/
def fromStrRadix (radix bound : Nat) : Bytes → Option Nat
  | [] => none
  | b :: bs =>
    if b = 43 then
      match bs with
      | [] => none
      | _ => digitsRadix radix bound 0 bs
    else digitsRadix radix bound 0 (b :: bs)

/-- A hex digit reads back. -/
lemma toDigit_hexDigit {n} (h : n < 16) : toDigit 16 (hexDigit n) = some n := by
  interval_cases n <;> decide

/-- A decimal digit character reads back. -/
lemma toDigit_of_isDigit {c : Char} (h : c.isDigit = true) :
    toDigit 10 (UInt8.ofNat c.toNat) = some (c.toNat - 48) := by
  have hc : 48 ≤ c.toNat ∧ c.toNat ≤ 57 := by
    simp only [Char.isDigit, and_eq_true, decide_eq_true_eq] at h
    exact ⟨h.1, h.2⟩
  have hv : (UInt8.ofNat c.toNat).toNat = c.toNat := by
    simp only [UInt8.toNat_ofNat']
    omega
  simp only [toDigit, hv]
  rw [if_pos hc, if_pos (by omega)]

/-- Decimal text is made of ASCII digits. -/
lemma mem_decimal {n b} (h : b ∈ decimal n) : 48 ≤ b.toNat ∧ b.toNat ≤ 57 := by
  obtain ⟨c, hc, rfl⟩ := mem_map.mp h
  have hd := Nat.isDigit_of_mem_toDigits (by decide) (by decide) hc
  simp only [Char.isDigit, and_eq_true, decide_eq_true_eq] at hd
  have h1 : 48 ≤ c.toNat := hd.1
  have h2 : c.toNat ≤ 57 := hd.2
  simp only [UInt8.toNat_ofNat']
  omega

/-- Lowercase hex bytes, the alphabet of a checksum token. -/
def isLowerHex (b : UInt8) : Bool :=
  (48 ≤ b.toNat && b.toNat ≤ 57) || (97 ≤ b.toNat && b.toNat ≤ 102)

/-- `{:08x}` writes eight bytes. -/
@[simp] lemma length_lowerHex8 (v : UInt32) : (lowerHex8 v).length = 8 := rfl

/-- `{:08x}` writes lowercase hex only. -/
lemma isLowerHex_of_mem_lowerHex8 {v b} (h : b ∈ lowerHex8 v) : isLowerHex b = true := by
  obtain ⟨i, _, rfl⟩ := mem_map.mp h
  have hn : v.toNat / 16 ^ i % 16 < 16 := Nat.mod_lt _ (by decide)
  generalize v.toNat / 16 ^ i % 16 = n at hn
  interval_cases n <;> decide

/-- A digit string that stays below the bound is read to its value. -/
lemma digitsRadix_of_isDigit {bound acc cs} (hd : ∀ c ∈ cs, c.isDigit = true)
    (hb : Nat.ofDigitChars 10 cs acc < bound) :
    digitsRadix 10 bound acc (cs.map fun c => UInt8.ofNat c.toNat) = some (Nat.ofDigitChars 10 cs acc) := by
  induction cs generalizing acc with
  | nil => simp [digitsRadix]
  | cons c cs ih =>
    have hc := toDigit_of_isDigit (hd c (by simp))
    have hs : ∀ c ∈ cs, c.isDigit = true := fun x hx => hd x (by simp [hx])
    have e : acc * 10 + (c.toNat - 48) = 10 * acc + (c.toNat - '0'.toNat) := by
      simp only [Nat.mul_comm]
      rfl
    rw [Nat.ofDigitChars_cons] at hb ⊢
    -- The value read so far never exceeds the final one, so no overflow check fires.
    have hle : 10 * acc + (c.toNat - '0'.toNat) < bound := by
      refine lt_of_le_of_lt ?_ hb
      rw [@Nat.ofDigitChars_eq_ofDigitChars_zero cs (10 * acc + (c.toNat - '0'.toNat))]
      have hp : 1 ≤ 10 ^ cs.length := Nat.one_le_pow _ _ (by decide)
      calc 10 * acc + (c.toNat - '0'.toNat)
          ≤ 10 ^ cs.length * (10 * acc + (c.toNat - '0'.toNat)) := Nat.le_mul_of_pos_left _ hp
        _ ≤ _ := Nat.le_add_right _ _
    simp only [map_cons, digitsRadix, hc, e, if_pos hle]
    exact ih hs hb

/-- `{}` reads back through the unsigned parser of any type that holds the value. -/
lemma fromStrRadix_decimal {bound n} (h : n < bound) :
    fromStrRadix 10 bound (decimal n) = some n := by
  have hd : ∀ c ∈ Nat.toDigits 10 n, c.isDigit = true :=
    fun c hc => Nat.isDigit_of_mem_toDigits (by decide) (by decide) hc
  have hv : Nat.ofDigitChars 10 (Nat.toDigits 10 n) 0 = n := Nat.ofDigitChars_ten_toDigits
  have hr : digitsRadix 10 bound 0 (decimal n) = some (Nat.ofDigitChars 10 (Nat.toDigits 10 n) 0) :=
    digitsRadix_of_isDigit hd (by rw [hv]; exact h)
  rw [hv] at hr
  unfold decimal at hr ⊢
  cases e : Nat.toDigits 10 n with
  | nil => exact absurd e Nat.toDigits_ne_nil
  | cons c cs =>
    rw [e] at hr hd
    have hc := toDigit_of_isDigit (hd c (by simp))
    have hne : UInt8.ofNat c.toNat ≠ 43 := by
      intro e'
      rw [e'] at hc
      exact absurd hc (by simp [toDigit])
    simp only [map_cons] at hr ⊢
    simp only [fromStrRadix, if_neg hne, hr]

/-- `{:08x}` reads back through `u32::from_str_radix`. -/
lemma fromStrRadix_lowerHex8 (v : UInt32) :
    fromStrRadix 16 (2 ^ 32) (lowerHex8 v) = some v.toNat := by
  have hv : v.toNat < 2 ^ 32 := v.toNat_lt
  have hd : ∀ i, toDigit 16 (hexDigit (v.toNat / 16 ^ i % 16)) = some (v.toNat / 16 ^ i % 16) :=
    fun i => toDigit_hexDigit (Nat.mod_lt _ (by decide))
  have hne : hexDigit (v.toNat / 16 ^ 7 % 16) ≠ 43 := by
    intro e
    have := hd 7
    rw [e] at this
    exact absurd this (by simp [toDigit])
  -- Reading one more digit undoes one division; every prefix fits because the whole does.
  have hs : ∀ i, v.toNat / 16 ^ (i + 1) * 16 + v.toNat / 16 ^ i % 16 = v.toNat / 16 ^ i := by
    intro i
    rw [Nat.pow_succ, ← Nat.div_div_eq_div_mul]
    exact Nat.div_add_mod' _ _
  have hle : ∀ i, v.toNat / 16 ^ i < 2 ^ 32 := fun i => lt_of_le_of_lt (Nat.div_le_self _ _) hv
  have h0 : 0 * 16 + v.toNat / 16 ^ 7 % 16 = v.toNat / 16 ^ 7 := by omega
  simp only [lowerHex8, map_cons, map_nil, fromStrRadix, if_neg hne, digitsRadix, hd, h0,
    hs 0, hs 1, hs 2, hs 3, hs 4, hs 5, hs 6, if_pos (hle _)]
  simp

end Rimz.Lib
