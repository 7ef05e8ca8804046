import Mathlib.Data.List.FinRange
import Mathlib.Data.List.Indexes
import Mathlib.Data.List.Sort
import Mathlib.Data.String.Basic
import Rimz.Lib.Json

/-!
# Paths into JSON values

The members of a value with the segment that leads to each, the value at the end of a path, and the
values whose objects hold their keys in strictly increasing order. Such a value is determined by
its kind and its members.
-/

namespace Rimz.Lib.Value

/-- The segment of an array index in a path. -/
def segment (i : Nat) : String :=
  "[" ++ i.repr ++ "]"

lemma segment_injective {i j} (h : segment i = segment j) : i = j := by
  have inner : "[" ++ i.repr = "[" ++ j.repr := String.append_left_inj _ |>.mp h
  have digits : Nat.toDigits 10 i = Nat.toDigits 10 j :=
    String.ofList_injective (String.append_right_inj _ |>.mp inner)
  have value (n : Nat) : Nat.ofDigitChars 10 (Nat.toDigits 10 n) 0 = n :=
    Nat.ofDigitChars_ten_toDigits
  rw [← value i, digits, value j]

/-- The members of a value, each with the segment that leads to it. -/
def members : Value → List (String × Value)
  | .array items => items.mapIdx fun i v => (segment i, v)
  | .object fields => fields
  | _ => []

/-- The member a segment leads to. -/
def member (v : Value) (k : String) : Option Value :=
  lookup k v.members

/-- The value at the end of a path. -/
def follow : Value → List String → Option Value
  | v, [] => some v
  | v, k :: path => (v.member k).bind fun w => w.follow path

/-- Two objects, or two arrays. -/
def sameContainer : Value → Value → Bool
  | .object _, .object _ => true
  | .array _, .array _ => true
  | _, _ => false

/-- Every object of the value holds its keys in strictly increasing order. -/
inductive Ordered : Value → Prop where
  | mk {v : Value} :
    (∀ fields, v = .object fields → (fields.map Prod.fst).Pairwise (· < ·)) →
    (∀ k w, (k, w) ∈ v.members → Ordered w) →
    Ordered v

/-- A value in the only form that a reader builds: its objects are maps ordered by key. -/
def OrderedValue : Type :=
  { v : Value // v.Ordered }

@[simp] lemma follow_cons (v : Value) (k : String) (path : List String) :
    v.follow (k :: path) = (v.member k).bind fun w => w.follow path := rfl

lemma mem_of_lookup {k w fields} (h : lookup k fields = some w) : (k, w) ∈ fields := by
  induction fields with
  | nil => cases h
  | cons field fields ih =>
    obtain ⟨l, u⟩ := field
    simp only [lookup] at h
    split at h
    next e =>
      cases h
      exact mem_cons.mpr (.inl (by rw [e]))
    next => exact mem_cons_of_mem _ (ih h)

lemma lookup_of_mem {k w fields} (nodup : (fields.map Prod.fst).Nodup) (h : (k, w) ∈ fields) :
    lookup k fields = some w := by
  induction fields with
  | nil => cases h
  | cons field fields ih =>
    obtain ⟨l, u⟩ := field
    rw [map_cons, nodup_cons] at nodup
    rcases mem_cons.mp h with e | h
    · cases e
      simp [lookup]
    have hne : l ≠ k := by
      rintro rfl
      exact nodup.1 (mem_map.mpr ⟨_, h, rfl⟩)
    simp only [lookup, if_neg hne]
    exact ih nodup.2 h

lemma lookup_isSome_iff {k fields} : (lookup k fields).isSome ↔ k ∈ fields.map Prod.fst := by
  induction fields with
  | nil => simp [lookup]
  | cons field fields ih =>
    obtain ⟨l, u⟩ := field
    simp only [lookup, map_cons, mem_cons]
    by_cases e : l = k
    · simp [e]
    · simp [e, Ne.symm e, ih]

/-- Keys in strictly increasing order are distinct. -/
lemma nodup_members_array (items : List Value) :
    ((Value.array items).members.map Prod.fst).Nodup := by
  have e : (Value.array items).members.map Prod.fst =
      List.ofFn fun i : Fin items.length => segment i := by
    rw [members, List.mapIdx_eq_ofFn, List.map_ofFn]
    rfl
  rw [e, List.nodup_ofFn]
  intro i j h
  exact Fin.ext (segment_injective h)

/-- The segments of a value's members are distinct. -/
lemma Ordered.nodup_members {v : Value} (h : v.Ordered) : (v.members.map Prod.fst).Nodup := by
  cases h with
  | mk increasing _ =>
    cases v with
    | object fields => exact (increasing fields rfl).imp ne_of_lt
    | array items => exact nodup_members_array items
    | _ => exact nodup_nil

/-- A member stands under its segment. -/
lemma Ordered.member_of_mem {v w : Value} {k} (h : v.Ordered) (hm : (k, w) ∈ v.members) :
    v.member k = some w :=
  lookup_of_mem h.nodup_members hm

lemma Ordered.of_member {v w : Value} {k} (h : v.Ordered) (hm : v.member k = some w) :
    w.Ordered := by
  cases h with
  | mk _ below => exact below k w (mem_of_lookup hm)

lemma member_array {items i} : (Value.array items).member (segment i) = items[i]? := by
  cases hi : items[i]? with
  | some w =>
    apply lookup_of_mem (nodup_members_array items)
    rw [members, mem_mapIdx]
    obtain ⟨hlt, rfl⟩ := List.getElem?_eq_some_iff.mp hi
    exact ⟨i, hlt, rfl⟩
  | none =>
    apply Option.eq_none_iff_forall_ne_some.mpr
    intro w hw
    have hm := mem_of_lookup hw
    rw [members, mem_mapIdx] at hm
    obtain ⟨j, hlt, e⟩ := hm
    have hij : j = i := segment_injective (congrArg Prod.fst e)
    subst hij
    rw [List.getElem?_eq_getElem hlt] at hi
    cases hi

/-- Only the segments of its indices lead into an array. -/
lemma segment_of_member_array {items k} (h : ((Value.array items).member k).isSome) :
    ∃ i < items.length, k = segment i := by
  obtain ⟨w, hw⟩ := isSome_iff_exists.mp h
  obtain ⟨i, hi, e⟩ := mem_mapIdx.mp (mem_of_lookup hw)
  exact ⟨i, hi, (congrArg Prod.fst e).symm⟩

/-- The keys of an ordered object are strictly increasing. -/
lemma Ordered.increasing {fields} (h : (Value.object fields).Ordered) :
    fields.Pairwise fun a b => a.1 < b.1 := by
  cases h with
  | mk increasing _ => exact pairwise_map.mp (increasing fields rfl)

/-- Two containers of one kind with the same members are the same value. -/
lemma Ordered.ext {v w : Value} (hv : v.Ordered) (hw : w.Ordered) (kind : sameContainer v w = true)
    (h : ∀ k, v.member k = w.member k) : v = w := by
  cases v with
  | array left =>
    cases w with
    | array right =>
      congr 1
      apply List.ext_getElem?
      intro i
      rw [← member_array, ← member_array, h]
    | _ => cases kind
  | object left =>
    cases w with
    | object right =>
      have mem_iff : ∀ field, field ∈ left ↔ field ∈ right := by
        rintro ⟨k, u⟩
        constructor
        · intro hu
          exact mem_of_lookup ((h k).symm.trans (hv.member_of_mem hu))
        · intro hu
          exact mem_of_lookup ((h k).trans (hw.member_of_mem hu))
      have perm : left.Perm right :=
        (List.perm_ext_iff_of_nodup hv.nodup_members.of_map hw.nodup_members.of_map).mpr mem_iff
      congr 1
      exact perm.eq_of_pairwise (fun a b _ _ hab hba => absurd hab (lt_asymm hba))
        hv.increasing hw.increasing
    | _ => cases kind
  | _ => cases w <;> cases kind

end Rimz.Lib.Value
