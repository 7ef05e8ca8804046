import Mathlib.Data.List.Dedup
import Rimz.Lib.JsonPath

/-!
# What changed in a project's executable surface

A grant of trust keeps the executable surface it was given for. When the surface is another one
today, `executableSurfaceDiff` lists what differs, and the user decides from that list. Both walks
of the source are here: `diffValue` goes down the two values together while they are containers of
one kind, `pushMissing` lists the leaves of a part that only one of them has.

`Missing` and `Diffs` say what the two walks list, in terms of members and segments, for objects
and arrays alike. The facts about the list are inductions on them.
-/

namespace Rimz.Trust

open Rimz.Lib Rimz.Lib.Value

inductive SurfaceDiffKind where
  | added
  | removed
  | changed
  deriving DecidableEq

structure SurfaceDiffEntry where
  kind : SurfaceDiffKind
  path : List String
  granted : Option Value
  current : Option Value

/-- The entry of a leaf that one of the two values lacks. -/
def missingEntry (kind : SurfaceDiffKind) (path : List String) (value : Value) :
    SurfaceDiffEntry where
  kind := kind
  path := path
  granted := if kind ≠ .added then some value else none
  current := if kind = .added then some value else none

mutual

/-- The entries of a value that only one side has: one for each of its leaves. -/
def pushMissing (kind : SurfaceDiffKind) : List String → Value → List SurfaceDiffEntry
  | path, .object (field :: fields) => pushMissingFields kind path (field :: fields)
  | path, .array (item :: items) => pushMissingItems kind path 0 (item :: items)
  | path, value => [missingEntry kind path value]

/-- The loop over the fields of an object. -/
def pushMissingFields (kind : SurfaceDiffKind) :
    List String → List (String × Value) → List SurfaceDiffEntry
  | _, [] => []
  | path, (key, child) :: fields =>
    pushMissing kind (path ++ [key]) child ++ pushMissingFields kind path fields

/-- The loop over the items of an array, from an index on. -/
def pushMissingItems (kind : SurfaceDiffKind) :
    List String → Nat → List Value → List SurfaceDiffEntry
  | _, _, [] => []
  | path, index, child :: items =>
    pushMissing kind (path ++ [segment index]) child ++ pushMissingItems kind path (index + 1) items

end

/-- The keys of two objects, each once and in order. -/
def keySet (left right : List (String × Value)) : List String :=
  (left.map Prod.fst ++ right.map Prod.fst).dedup.insertionSort (· ≤ ·)

lemma sizeOf_lookup_lt (key : String) (fields : List (String × Value)) :
    sizeOf (lookup key fields) < sizeOf (some (Value.object fields)) := by
  cases h : lookup key fields with
  | none => simp
  | some w =>
    have hw := List.sizeOf_lt_of_mem (mem_of_lookup h)
    simp only [Option.some.sizeOf_spec, Value.object.sizeOf_spec, Prod.mk.sizeOf_spec] at hw ⊢
    omega

lemma sizeOf_getElem?_lt (index : Nat) (items : List Value) :
    sizeOf items[index]? < sizeOf (some (Value.array items)) := by
  cases h : items[index]? with
  | none => simp
  | some w =>
    have hw := List.sizeOf_lt_of_mem (mem_of_getElem? h)
    simp only [Option.some.sizeOf_spec, Value.array.sizeOf_spec] at hw ⊢
    omega

/-- The entries for what stands at one path in the two values. -/
def diffValue (path : List String) : Option Value → Option Value → List SurfaceDiffEntry
  | some (.object left), some (.object right) =>
    (keySet left right).flatMap fun key =>
      diffValue (path ++ [key]) (lookup key left) (lookup key right)
  | some (.array left), some (.array right) =>
    (List.range (max left.length right.length)).flatMap fun index =>
      diffValue (path ++ [segment index]) left[index]? right[index]?
  | some left, some right =>
    if left = right then []
    else [{ kind := .changed, path := path, granted := some left, current := some right }]
  | none, some right => pushMissing .added path right
  | some left, none => pushMissing .removed path left
  | none, none => []
termination_by granted current => sizeOf granted + sizeOf current
decreasing_by
  · have hl := sizeOf_lookup_lt key left
    have hr := sizeOf_lookup_lt key right
    omega
  · have hl := sizeOf_getElem?_lt index left
    have hr := sizeOf_getElem?_lt index right
    omega

def executableSurfaceDiff (granted current : Value) : List SurfaceDiffEntry :=
  diffValue [] (some granted) (some current)

/-! ## What the walks list -/

/-- The entries of a value that only one side has, by its members. -/
inductive Missing (kind : SurfaceDiffKind) :
    List String → Value → List SurfaceDiffEntry → Prop where
  | leaf {path v} :
    v.members = [] →
    Missing kind path v [missingEntry kind path v]
  | node {path v} {f : String × Value → List SurfaceDiffEntry} :
    v.members ≠ [] →
    (∀ m ∈ v.members, Missing kind (path ++ [m.1]) m.2 (f m)) →
    Missing kind path v (v.members.flatMap f)

/-- The entries for what stands at one path, by the members of the two values. -/
inductive Diffs : List String → Option Value → Option Value → List SurfaceDiffEntry → Prop where
  | absent {path} :
    Diffs path none none []
  | added {path v es} :
    Missing .added path v es →
    Diffs path none (some v) es
  | removed {path v es} :
    Missing .removed path v es →
    Diffs path (some v) none es
  | equal {path v} :
    sameContainer v v = false →
    Diffs path (some v) (some v) []
  | changed {path g c} :
    sameContainer g c = false →
    g ≠ c →
    Diffs path (some g) (some c)
      [{ kind := .changed, path := path, granted := some g, current := some c }]
  | node {path g c} {segments : List String} {f : String → List SurfaceDiffEntry} :
    sameContainer g c = true →
    segments.Nodup →
    (∀ k, (g.member k).isSome ∨ (c.member k).isSome → k ∈ segments) →
    (∀ k, Diffs (path ++ [k]) (g.member k) (c.member k) (f k)) →
    Diffs path (some g) (some c) (segments.flatMap f)

lemma pushMissingFields_eq (kind : SurfaceDiffKind) (path : List String)
    (fields : List (String × Value)) :
    pushMissingFields kind path fields =
      fields.flatMap fun m => pushMissing kind (path ++ [m.1]) m.2 := by
  induction fields with
  | nil => rfl
  | cons field fields ih => rw [flatMap_cons, pushMissingFields, ih]

lemma pushMissingItems_eq {kind path index items} :
    pushMissingItems kind path index items =
      (items.mapIdx fun i v => (segment (index + i), v)).flatMap fun m =>
        pushMissing kind (path ++ [m.1]) m.2 := by
  induction items generalizing index with
  | nil => rfl
  | cons item items ih =>
    rw [List.mapIdx_cons, flatMap_cons, pushMissingItems, ih]
    simp only [Nat.add_zero, Nat.add_assoc, Nat.add_comm 1]

lemma pushMissing_eq {kind path v} :
    pushMissing kind path v =
      if v.members = [] then [missingEntry kind path v]
      else v.members.flatMap fun m => pushMissing kind (path ++ [m.1]) m.2 := by
  cases v with
  | object fields =>
    cases fields with
    | nil => rfl
    | cons field fields => exact pushMissingFields_eq kind path (field :: fields)
  | array items =>
    cases items with
    | nil => rfl
    | cons item items =>
      rw [pushMissing, pushMissingItems_eq]
      simp [members]
  | _ => rfl

lemma sizeOf_lt_of_mem_members {v : Value} {m} (h : m ∈ v.members) : sizeOf m.2 < sizeOf v := by
  cases v with
  | object fields =>
    have hm := List.sizeOf_lt_of_mem (show m ∈ fields from h)
    have h2 : sizeOf m = 1 + sizeOf m.1 + sizeOf m.2 := rfl
    simp only [Value.object.sizeOf_spec]
    omega
  | array items =>
    obtain ⟨i, hi, rfl⟩ := mem_mapIdx.mp h
    have hm := List.sizeOf_lt_of_mem (List.getElem_mem hi)
    simp only [Value.array.sizeOf_spec]
    omega
  | _ => cases h

lemma missing (kind : SurfaceDiffKind) (path : List String) (v : Value) :
    Missing kind path v (pushMissing kind path v) := by
  rw [pushMissing_eq]
  split
  next h => exact .leaf h
  next h =>
    apply Missing.node h
    intro m hm
    have := sizeOf_lt_of_mem_members hm
    exact missing kind (path ++ [m.1]) m.2
termination_by sizeOf v

lemma mem_keySet {left right key} :
    key ∈ keySet left right ↔ (lookup key left).isSome ∨ (lookup key right).isSome := by
  rw [keySet, (List.perm_insertionSort _ _).mem_iff, List.mem_dedup, mem_append,
    lookup_isSome_iff, lookup_isSome_iff]

/-- The loop over the indices of two arrays, as one over the segments of both. -/
lemma diffs_array {path left right}
    (ih : ∀ index, Diffs (path ++ [segment index]) left[index]? right[index]?
      (diffValue (path ++ [segment index]) left[index]? right[index]?)) :
    Diffs path (some (.array left)) (some (.array right))
      (diffValue path (some (.array left)) (some (.array right))) := by
  have loop : diffValue path (some (.array left)) (some (.array right)) =
      ((List.range (max left.length right.length)).map segment).flatMap fun k =>
        diffValue (path ++ [k]) ((Value.array left).member k) ((Value.array right).member k) := by
    rw [diffValue, List.flatMap_map]
    simp only [member_array]
  rw [loop]
  apply Diffs.node rfl
  · exact List.nodup_range.map fun i j h => segment_injective h
  · rintro k (hk | hk)
    all_goals
      obtain ⟨i, hi, rfl⟩ := segment_of_member_array hk
      exact mem_map.mpr ⟨i, List.mem_range.mpr (by omega), rfl⟩
  · intro k
    by_cases hk : ∃ i, k = segment i
    · obtain ⟨i, rfl⟩ := hk
      simp only [member_array]
      exact ih i
    -- Neither array has a member there.
    have none_of (items : List Value) : (Value.array items).member k = none := by
      apply not_isSome_iff_eq_none.mp
      intro h
      obtain ⟨i, -, e⟩ := segment_of_member_array h
      exact hk ⟨i, e⟩
    rw [none_of, none_of, diffValue]
    exact .absent

/-- The entries of `diffValue` are those of the members of the two values. -/
lemma diffs (path : List String) {granted current} :
    Diffs path granted current (diffValue path granted current) := by
  induction path, granted, current using diffValue.induct with
  | case1 path left right ih =>
    rw [diffValue]
    apply Diffs.node rfl ((List.perm_insertionSort _ _).nodup_iff.mpr (List.nodup_dedup _))
    · intro k hk
      exact mem_keySet.mpr hk
    · exact ih
  | case2 path left right ih => exact diffs_array ih
  | case3 path left notObjects notArrays =>
    have apart : sameContainer left left = false := by
      cases left with
      | object fields => exact (notObjects fields fields rfl rfl).elim
      | array items => exact (notArrays items items rfl rfl).elim
      | _ => rfl
    rw [diffValue, if_pos rfl]
    · exact .equal apart
    · exact notObjects
    · exact notArrays
  | case4 path left right notObjects notArrays ne =>
    have apart : sameContainer left right = false := by
      unfold sameContainer
      split
      next l r => exact (notObjects l r rfl rfl).elim
      next l r => exact (notArrays l r rfl rfl).elim
      next => rfl
    rw [diffValue, if_neg ne]
    · exact .changed apart ne
    · exact notObjects
    · exact notArrays
  | case5 path right => rw [diffValue]; exact .added (missing _ path right)
  | case6 path left => rw [diffValue]; exact .removed (missing _ path left)
  | case7 path => rw [diffValue]; exact .absent

/-! ## A part that one side lacks -/

lemma Missing.ne_nil {kind path v es} (h : Missing kind path v es) : es ≠ [] := by
  induction h with
  | leaf => exact cons_ne_nil _ _
  | node some_members _ ih =>
    obtain ⟨m, rest, hm⟩ := List.exists_cons_of_ne_nil some_members
    rw [hm, flatMap_cons]
    intro e
    exact ih m (hm ▸ mem_cons_self) (append_eq_nil_iff.mp e).1

lemma Missing.reads {kind path v es} (h : Missing kind path v es) (hv : v.Ordered) {e}
    (he : e ∈ es) : ∃ q w, e = missingEntry kind (path ++ q) w ∧ v.follow q = some w := by
  induction h with
  | @leaf path v _ =>
    refine ⟨[], v, ?_, rfl⟩
    rw [append_nil]
    exact mem_singleton.mp he
  | @node path v f _ _ ih =>
    obtain ⟨⟨k, u⟩, hm, he⟩ := mem_flatMap.mp he
    have hk := hv.member_of_mem hm
    obtain ⟨q, w, rfl, hq⟩ := ih ⟨k, u⟩ hm (hv.of_member hk) he
    refine ⟨k :: q, w, ?_, ?_⟩
    · simp
    · rw [follow_cons, hk]
      exact hq

lemma Missing.covers {kind path v es} (h : Missing kind path v es) {q w} (hq : v.follow q = some w)
    (leaf : w.members = []) : missingEntry kind (path ++ q) w ∈ es := by
  induction h generalizing q with
  | @leaf path v no_members =>
    cases q with
    | nil =>
      cases hq
      rw [append_nil]
      exact mem_singleton_self _
    | cons k q =>
      rw [follow_cons, member, no_members] at hq
      cases hq
  | @node path v f some_members _ ih =>
    cases q with
    | nil =>
      cases hq
      exact (some_members leaf).elim
    | cons k q =>
      obtain ⟨u, hk, hq⟩ := bind_eq_some_iff.mp hq
      have hm := mem_of_lookup hk
      rw [append_cons]
      exact mem_flatMap.mpr ⟨⟨k, u⟩, hm, ih ⟨k, u⟩ hm hq⟩

/-! ## Paths that do not lie on each other -/

/-- Neither path leads through the other. -/
def Apart (p q : List String) : Prop :=
  ¬ p <+: q ∧ ¬ q <+: p

lemma apart_of_ne {path p q k l} (h : k ≠ l) : Apart (path ++ k :: p) (path ++ l :: q) := by
  constructor
  · intro hp
    rw [List.prefix_append_right_inj, cons_prefix_cons] at hp
    exact h hp.1
  · intro hp
    rw [List.prefix_append_right_inj, cons_prefix_cons] at hp
    exact h hp.1.symm

lemma Missing.apart {kind path v es} (h : Missing kind path v es) (hv : v.Ordered) :
    es.Pairwise fun a b => Apart a.path b.path := by
  induction h with
  | leaf => exact pairwise_singleton _ _
  | @node path v f _ below ih =>
    have hmember (m) (hm : m ∈ v.members) : m.2.Ordered :=
      hv.of_member (hv.member_of_mem hm)
    rw [List.pairwise_flatMap]
    constructor
    · intro m hm
      exact ih m hm (hmember m hm)
    · have keys : v.members.Pairwise fun a b => a.1 ≠ b.1 := pairwise_map.mp hv.nodup_members
      apply keys.imp_of_mem
      intro a b ha hb hab x hx y hy
      obtain ⟨p, _, rfl, -⟩ := (below a ha).reads (hmember a ha) hx
      obtain ⟨q, _, rfl, -⟩ := (below b hb).reads (hmember b hb) hy
      simp only [missingEntry, append_assoc, singleton_append]
      exact apart_of_ne hab

/-! ## The two values together -/

/-- The two sides of a comparison are values with ordered objects, where there is a value. -/
def Both (g c : Option Value) : Prop :=
  (∀ v, g = some v → v.Ordered) ∧ ∀ v, c = some v → v.Ordered

lemma Both.member {g c} (h : Both (some g) (some c)) (k : String) : Both (g.member k) (c.member k) :=
  ⟨fun _ hv => (h.1 g rfl).of_member hv, fun _ hv => (h.2 c rfl).of_member hv⟩

lemma Both.symm {g c} (h : Both g c) : Both c g :=
  ⟨h.2, h.1⟩

section

variable {path g c es} (h : Diffs path g c es) (both : Both g c)
include h both

lemma Diffs.reads {e} (he : e ∈ es) :
    ∃ q, e.path = path ++ q ∧ e.granted = g.bind (·.follow q) ∧ e.current = c.bind (·.follow q) := by
  induction h with
  | absent | equal => cases he
  | added missing =>
    obtain ⟨q, w, rfl, hq⟩ := missing.reads (both.2 _ rfl) he
    exact ⟨q, rfl, rfl, hq.symm⟩
  | removed missing =>
    obtain ⟨q, w, rfl, hq⟩ := missing.reads (both.1 _ rfl) he
    exact ⟨q, rfl, hq.symm, rfl⟩
  | changed =>
    rw [mem_singleton.mp he]
    exact ⟨[], (append_nil _).symm, rfl, rfl⟩
  | node _ _ _ _ ih =>
    obtain ⟨k, -, he⟩ := mem_flatMap.mp he
    obtain ⟨q, hpath, hg, hc⟩ := ih k (both.member k) he
    exact ⟨k :: q, by simp [hpath], hg, hc⟩

lemma Diffs.apart : es.Pairwise fun a b => Apart a.path b.path := by
  induction h with
  | absent | equal => exact .nil
  | added missing => exact missing.apart (both.2 _ rfl)
  | removed missing => exact missing.apart (both.1 _ rfl)
  | changed => exact pairwise_singleton _ _
  | @node path g c segments f _ nodup _ below ih =>
    rw [List.pairwise_flatMap]
    constructor
    · intro k _
      exact ih k (both.member k)
    · apply nodup.imp
      intro k l hkl x hx y hy
      obtain ⟨p, hp, -⟩ := (below k).reads (both.member k) hx
      obtain ⟨q, hq, -⟩ := (below l).reads (both.member l) hy
      rw [hp, hq, ← append_cons, ← append_cons]
      exact apart_of_ne hkl

lemma Diffs.nil_iff : es = [] ↔ g = c := by
  induction h with
  | absent | equal => simp
  | added missing | removed missing => simpa using missing.ne_nil
  | changed _ ne => simpa using ne
  | @node path g c segments f kind _ all _ ih =>
    rw [List.flatMap_eq_nil_iff, Option.some_inj]
    constructor
    · intro none_below
      apply (both.1 g rfl).ext (both.2 c rfl) kind
      intro k
      by_cases hk : k ∈ segments
      · exact (ih k (both.member k)).mp (none_below k hk)
      -- A segment outside leads nowhere in either value.
      have outside := mt (all k) hk
      rw [not_or, not_isSome_iff_eq_none, not_isSome_iff_eq_none] at outside
      rw [outside.1, outside.2]
    · rintro rfl k _
      exact (ih k (both.member k)).mpr rfl

end

/-! ## Coverage

Stated for the granted side; the current side follows by exchanging the two values. -/

/-- Some entry stands on the way to the path and, on one side, records the value there. -/
def Covers (es : List SurfaceDiffEntry) (side : SurfaceDiffEntry → Option Value)
    (path : List String) (v : Value) : Prop :=
  ∃ e ∈ es, ∃ rest, path = e.path ++ rest ∧ (side e).bind (·.follow rest) = some v

/-- Some entry stands below the path. -/
def Below (es : List SurfaceDiffEntry) (path : List String) : Prop :=
  ∃ e ∈ es, ∃ k rest, e.path = path ++ k :: rest

/-- A leaf of the granted value that the current value lacks is in an entry, unless the current
value has a container of the leaf's kind there: then entries stand below it. -/
lemma Diffs.covers {path g c es} (h : Diffs path g c es) (both : Both g c) {q v}
    (hq : g.bind (·.follow q) = some v) (leaf : v.members = [])
    (lacks : c.bind (·.follow q) ≠ some v) : Covers es (·.granted) (path ++ q) v ∨
      (∃ w, c.bind (·.follow q) = some w ∧ sameContainer v w = true) ∧ Below es (path ++ q) := by
  induction h generalizing q with
  | absent | added => cases hq
  | equal => exact (lacks hq).elim
  | removed missing =>
    exact .inl ⟨_, missing.covers hq leaf, [], (append_nil _).symm, rfl⟩
  | changed => exact .inl ⟨_, mem_singleton_self _, q, rfl, hq⟩
  | @node path g c segments f kind nodup all below ih =>
    cases q with
    | nil =>
      -- The leaf is the empty container itself: what the other side has in it is listed below.
      cases hq
      refine .inr ⟨⟨c, rfl, kind⟩, ?_⟩
      have some_entry : segments.flatMap f ≠ [] := by
        intro e
        have h := Diffs.node kind nodup all below
        exact lacks ((h.nil_iff both).mp e).symm
      obtain ⟨e, he⟩ := List.exists_mem_of_ne_nil _ some_entry
      obtain ⟨k, -, hk⟩ := mem_flatMap.mp he
      obtain ⟨rest, hpath, -⟩ := (below k).reads (both.member k) hk
      exact ⟨e, he, k, rest, by simp [hpath]⟩
    | cons k q =>
      have hk : k ∈ segments := by
        apply all k
        obtain ⟨u, hu, -⟩ := bind_eq_some_iff.mp (show (g.member k).bind _ = some v from hq)
        exact .inl (Option.isSome_of_eq_some hu)
      have inside {e} (he : e ∈ f k) : e ∈ segments.flatMap f := mem_flatMap.mpr ⟨k, hk, he⟩
      rcases ih k (both.member k) hq lacks with
        ⟨e, he, rest, hpath, hv⟩ | ⟨container, e, he, l, rest, hpath⟩
      · exact .inl ⟨e, inside he, rest, by simpa using hpath, hv⟩
      · exact .inr ⟨container, e, inside he, l, rest, by simpa using hpath⟩

/-- The kind of an entry with the two values exchanged. -/
def SurfaceDiffKind.swap : SurfaceDiffKind → SurfaceDiffKind
  | .added => .removed
  | .removed => .added
  | .changed => .changed

/-- An entry with the two values exchanged. -/
def SurfaceDiffEntry.swap (e : SurfaceDiffEntry) : SurfaceDiffEntry where
  kind := e.kind.swap
  path := e.path
  granted := e.current
  current := e.granted

lemma Missing.swap {kind path v es} (h : Missing kind path v es) (hk : kind ≠ .changed) :
    Missing kind.swap path v (es.map SurfaceDiffEntry.swap) := by
  induction h with
  | leaf no_members =>
    cases kind with
    | added | removed => exact .leaf no_members
    | changed => exact (hk rfl).elim
  | node some_members _ ih =>
    rw [List.map_flatMap]
    exact .node some_members ih

lemma sameContainer_comm (v w : Value) : sameContainer v w = sameContainer w v := by
  cases v <;> cases w <;> rfl

lemma Diffs.swap {path g c es} (h : Diffs path g c es) :
    Diffs path c g (es.map SurfaceDiffEntry.swap) := by
  induction h with
  | absent => exact .absent
  | added missing => exact .removed (missing.swap (by decide))
  | removed missing => exact .added (missing.swap (by decide))
  | equal apart => exact .equal apart
  | changed apart ne =>
    rw [sameContainer_comm] at apart
    exact .changed apart ne.symm
  | node kind nodup all _ ih =>
    rw [sameContainer_comm] at kind
    rw [List.map_flatMap]
    exact .node kind nodup (fun k hk => all k hk.symm) ih

/-- The diff hides nothing. It is empty exactly when the two values are equal, its paths do not lead
through each other, and every entry holds what the two values have at its path. A leaf that the
other value lacks is in the entry at its path or at one in front of it, except an empty container
that faces a container of its own kind: what the other one has inside is listed below it. -/
theorem executableSurfaceDiff_hides_nothing (granted current : OrderedValue) :
    let entries := executableSurfaceDiff granted.1 current.1
    (entries = [] ↔ granted = current) ∧
    (entries.Pairwise fun a b => ¬ a.path <+: b.path ∧ ¬ b.path <+: a.path) ∧
    (∀ e ∈ entries,
      e.granted = granted.1.follow e.path ∧ e.current = current.1.follow e.path) ∧
    (∀ path v, granted.1.follow path = some v → v.members = [] →
      current.1.follow path ≠ some v →
      Covers entries (·.granted) path v ∨
        (∃ w, current.1.follow path = some w ∧ sameContainer v w = true) ∧ Below entries path) ∧
    ∀ path v, current.1.follow path = some v → v.members = [] →
      granted.1.follow path ≠ some v →
      Covers entries (·.current) path v ∨
        (∃ w, granted.1.follow path = some w ∧ sameContainer v w = true) ∧ Below entries path := by
  intro entries
  have both : Both (some granted.1) (some current.1) :=
    ⟨fun v h => Option.some.inj h ▸ granted.2, fun v h => Option.some.inj h ▸ current.2⟩
  have h : Diffs [] (some granted.1) (some current.1) entries := diffs []
  refine ⟨?_, h.apart both, ?_, ?_, ?_⟩
  · rw [h.nil_iff both, Option.some_inj]
    exact Subtype.ext_iff.symm
  · intro e he
    obtain ⟨q, hpath, hg, hc⟩ := h.reads both he
    rw [hpath]
    exact ⟨hg, hc⟩
  · intro path v hv leaf lacks
    exact h.covers both hv leaf lacks
  · intro path v hv leaf lacks
    have swapped := h.swap.covers both.symm hv leaf lacks
    simpa [Covers, Below, SurfaceDiffEntry.swap] using swapped

/-- An empty object that gains a member is a leaf the current value lacks, and no entry stands at
its path or in front of it. -/
theorem grown_object_without_entry :
    let granted : Value := .object []
    let current : Value := .object [("hooks", .bool true)]
    granted.Ordered ∧ current.Ordered ∧
    granted.follow [] = some granted ∧ granted.members = [] ∧
    current.follow [] ≠ some granted ∧
    ¬ Covers (executableSurfaceDiff granted current) (·.granted) [] granted := by
  have entries : executableSurfaceDiff (.object []) (.object [("hooks", .bool true)]) =
      [missingEntry .added ["hooks"] (.bool true)] := by
    simp [executableSurfaceDiff, diffValue, keySet, lookup, pushMissing]
  have scalar : (Value.bool true).Ordered := .mk (fun _ h => by cases h) fun _ _ h => by cases h
  refine ⟨?_, ?_, rfl, rfl, ?_, ?_⟩
  · exact .mk (fun _ h => by cases h; exact .nil) fun _ _ h => by cases h
  · refine .mk (fun _ h => by cases h; exact pairwise_singleton _ _) fun k w h => ?_
    cases mem_singleton.mp h
    exact scalar
  · decide
  · rintro ⟨e, he, rest, hpath, -⟩
    rw [entries] at he
    rw [mem_singleton.mp he] at hpath
    cases hpath

end Rimz.Trust
