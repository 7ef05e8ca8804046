import Mathlib.Data.Rat.Defs
import Rimz.Lib.Names

/-!
# JSON values

Values with their fields in the order of their keys, the lookups that answer `null` for what is
absent, and the edits of a field. A value is compared as a tree: two objects are equal when they
have the same fields.
-/

namespace Rimz.Lib

/-- A JSON number: an integer, or a finite float by its value. -/
inductive Number where
  | int (i : Int)
  | float (q : Rat)
  deriving DecidableEq

/-- A JSON value. The fields of an object stand in the order of their keys. -/
inductive Value where
  | null
  | bool (b : Bool)
  | number (n : Number)
  | string (s : String)
  | array (items : List Value)
  | object (fields : List (String × Value))

namespace Value

mutual

/-- Equality of two values, field by field. -/
def beq : Value → Value → Bool
  | .null, .null => true
  | .bool a, .bool b => a == b
  | .number a, .number b => a == b
  | .string a, .string b => a == b
  | .array as, .array bs => beqItems as bs
  | .object as, .object bs => beqFields as bs
  | _, _ => false

/-- Equality of two lists of values. -/
def beqItems : List Value → List Value → Bool
  | [], [] => true
  | a :: as, b :: bs => beq a b && beqItems as bs
  | _, _ => false

/-- Equality of two lists of fields. -/
def beqFields : List (String × Value) → List (String × Value) → Bool
  | [], [] => true
  | (k, a) :: as, (l, b) :: bs => k == l && (beq a b && beqFields as bs)
  | _, _ => false

end

mutual

lemma beq_iff : ∀ a b : Value, beq a b = true ↔ a = b
  | .null, b | .bool a, b | .number a, b | .string a, b => by cases b <;> simp [beq]
  | .array as, b => by
    cases b with
    | array bs => simp [beq, beqItems_iff as bs]
    | _ => simp [beq]
  | .object as, b => by
    cases b with
    | object bs => simp [beq, beqFields_iff as bs]
    | _ => simp [beq]

lemma beqItems_iff : ∀ as bs : List Value, beqItems as bs = true ↔ as = bs
  | [], bs => by cases bs <;> simp [beqItems]
  | a :: as, bs => by
    cases bs with
    | nil => simp [beqItems]
    | cons b bs => simp [beqItems, beq_iff a b, beqItems_iff as bs]

lemma beqFields_iff : ∀ as bs : List (String × Value), beqFields as bs = true ↔ as = bs
  | [], bs => by cases bs <;> simp [beqFields]
  | (k, a) :: as, bs => by
    cases bs with
    | nil => simp [beqFields]
    | cons b bs =>
      obtain ⟨l, b⟩ := b
      simp [beqFields, beq_iff a b, beqFields_iff as bs, and_assoc]

end

instance : DecidableEq Value := fun a b => decidable_of_iff _ (beq_iff a b)

/-- The field of a key in a list of fields. -/
def lookup (k : String) : List (String × Value) → Option Value
  | [] => none
  | (l, v) :: fields => if l = k then some v else lookup k fields

/-- A list of fields with one field set, in the order of the keys. -/
def insertField (k : String) (v : Value) : List (String × Value) → List (String × Value)
  | [] => [(k, v)]
  | (l, w) :: fields =>
    if l = k then (k, v) :: fields
    else if k < l then (k, v) :: (l, w) :: fields
    else (l, w) :: insertField k v fields

/-- The fields of an object out of fields in any order; the last of a key wins. -/
def collect (fields : List (String × Value)) : List (String × Value) :=
  fields.foldl (fun out field => insertField field.1 field.2 out) []

/-- The field of an object, if the value is one and has it. -/
def get? : Value → String → Option Value
  | .object fields, k => lookup k fields
  | _, _ => none

/-- The field of an object, `null` when there is none. -/
def index (v : Value) (k : String) : Value :=
  (v.get? k).getD .null

/-- Set a field; `null` becomes an object first. Other values have no fields to set. -/
def set : Value → String → Value → Value
  | .object fields, k, w => .object (insertField k w fields)
  | .null, k, w => .object [(k, w)]
  | v, _, _ => v

/-- Edit a field in place, from `null` when it is absent. -/
def modify (v : Value) (k : String) (f : Value → Value) : Value :=
  v.set k (f (v.index k))

/-- Drop a field. -/
def remove : Value → String → Value
  | .object fields, k => .object (fields.filter fun field => field.1 ≠ k)
  | v, _ => v

def asStr : Value → Option String
  | .string s => some s
  | _ => none

/-- An integer that fits 64 signed bits. -/
def asI64 : Value → Option Int
  | .number (.int i) => if -2 ^ 63 ≤ i ∧ i < 2 ^ 63 then some i else none
  | _ => none

def asBool : Value → Option Bool
  | .bool b => some b
  | _ => none

def asArray : Value → Option (List Value)
  | .array items => some items
  | _ => none

def isObject : Value → Bool
  | .object _ => true
  | _ => false

def int (i : Int) : Value :=
  .number (.int i)

lemma lookup_insertField (k l : String) (v : Value) (fields : List (String × Value)) :
    lookup l (insertField k v fields) = if k = l then some v else lookup l fields := by
  induction fields with
  | nil => simp [insertField, lookup]
  | cons field fields ih =>
    obtain ⟨m, w⟩ := field
    simp only [insertField]
    by_cases hm : m = k
    · subst hm
      by_cases hl : m = l <;> simp [lookup, hl]
    rw [if_neg hm]
    split
    · simp [lookup]
    simp only [lookup, ih]
    by_cases hl : m = l
    · have hk : k ≠ l := fun e => hm (hl.trans e.symm)
      simp [hl, hk]
    · simp [hl]

/-- The fields of an object after one of them was set. -/
lemma get?_set {v : Value} {k l w} (ho : v.isObject) :
    (v.set k w).get? l = if k = l then some w else v.get? l := by
  cases v with
  | object fields => exact lookup_insertField k l w fields
  | _ => cases ho

lemma isObject_set {v : Value} {k w} (ho : v.isObject) : (v.set k w).isObject := by
  cases v with
  | object fields => rfl
  | _ => cases ho

/-- A value with a field is an object. -/
lemma isObject_of_get? {v w : Value} {k} (h : v.get? k = some w) : v.isObject := by
  cases v with
  | object fields => rfl
  | _ => cases h

lemma index_of_get? {v w : Value} {k} (h : v.get? k = some w) : v.index k = w := by
  simp [index, h]

/-- A field that reads as a text is there. -/
lemma get?_of_asStr {v : Value} {k s} (h : (v.index k).asStr = some s) :
    v.get? k = some (.string s) := by
  unfold index at h
  cases hg : v.get? k with
  | none => simp [hg, asStr] at h
  | some w =>
    rw [hg] at h
    cases w with
    | string t =>
      simp only [getD_some, asStr, Option.some.injEq] at h
      rw [h]
    | _ => simp [asStr] at h

end Value

end Rimz.Lib
