import Mathlib.Data.Finset.Max
import Rimz.Lib.Names

/-!
# Walks along edges

Paths and cycles of a graph given by its edges, and the depth-first search for the first path to a
goal. The search keeps the nodes it has entered and never enters one again, also after backing out
of it: a search that fails has entered a closed set of nodes without the goal.

The last section is about edges that close a cycle and are ordered by a key. Every edge looks at one
path back to its source, whichever the search finds, and fails when no edge of that path is above
it.
-/

namespace Rimz.Lib

section Paths
variable {ν ε : Type*} {src dst : ε → ν} {E : ε → Prop}

/-- A path along edges of `E`. -/
inductive Path (src dst : ε → ν) (E : ε → Prop) : ν → List ε → ν → Prop where
  | nil {v : ν} : Path src dst E v [] v
  | cons {e : ε} {p : List ε} {w : ν} : E e → Path src dst E (dst e) p w →
    Path src dst E (src e) (e :: p) w

lemma Path.append {u v w p q} (h : Path src dst E u p v) (h' : Path src dst E v q w) :
    Path src dst E u (p ++ q) w := by
  induction h with
  | nil => exact h'
  | cons he _ ih => exact .cons he (ih h')

lemma Path.edge {v w p} (h : Path src dst E v p w) : ∀ e ∈ p, E e := by
  induction h with
  | nil => exact fun e he => absurd he not_mem_nil
  | cons he _ ih =>
    intro e hmem
    cases hmem with
    | head => exact he
    | tail _ hmem => exact ih e hmem

lemma Path.mono {E'} (sub : ∀ e, E e → E' e) {v w p} (h : Path src dst E v p w) :
    Path src dst E' v p w := by
  induction h with
  | nil => exact .nil
  | cons he _ ih => exact .cons (sub _ he) ih

/-- A path cut at one of its edges. -/
lemma Path.cut {v w a b e} (h : Path src dst E v (a ++ e :: b) w) :
    Path src dst E v a (src e) ∧ Path src dst E (dst e) b w := by
  induction a generalizing v with
  | nil =>
    cases h with
    | cons _ h => exact ⟨.nil, h⟩
  | cons f a ih =>
    cases h with
    | cons hf h =>
      obtain ⟨before, after⟩ := ih h
      exact ⟨.cons hf before, after⟩

/-- A closed path that leaves no node twice. -/
structure IsCycle (src dst : ε → ν) (E : ε → Prop) (c : List ε) : Prop where
  nonempty : c ≠ []
  closed : ∃ v, Path src dst E v c v
  simple : (c.map src).Nodup

/-- A cycle read from one of its edges on. -/
lemma IsCycle.rotate {c e} (h : IsCycle src dst E c) (he : e ∈ c) :
    ∃ p, Path src dst E (dst e) p (src e) ∧ (e :: p).Perm c := by
  obtain ⟨a, b, rfl⟩ := List.append_of_mem he
  obtain ⟨v, closed⟩ := h.closed
  obtain ⟨before, after⟩ := closed.cut
  refine ⟨b ++ a, after.append before, ?_⟩
  exact (perm_append_comm : (e :: b ++ a).Perm (a ++ e :: b))

/-- A path back to the source of an edge closes a cycle. -/
lemma isCycle_of_back {e p} (he : E e) (h : Path src dst E (dst e) p (src e))
    (simple : (p.map src).Nodup) (avoids : src e ∉ p.map src) : IsCycle src dst E (e :: p) :=
  ⟨cons_ne_nil e p, ⟨src e, .cons he h⟩, nodup_cons.mpr ⟨avoids, simple⟩⟩

/-- Where a node has one edge at most, paths that stop at their first visit of the goal agree. -/
lemma Path.unique (single : ∀ e f, E e → E f → src e = src f → e = f) {v w p q}
    (hp : Path src dst E v p w)
    (hq : Path src dst E v q w) (ap : w ∉ p.map src) (aq : w ∉ q.map src) : p = q := by
  induction hp generalizing q with
  | nil =>
    cases hq with
    | nil => rfl
    | cons => exact absurd mem_cons_self aq
  | @cons e p w he _ ih =>
    generalize hv : src e = v at hq
    cases hq with
    | nil => exact absurd (by simp [hv]) ap
    | @cons f q _ hf hq =>
      obtain rfl := single e f he hf hv
      rw [map_cons, mem_cons, not_or] at ap aq
      rw [ih hq ap.2 aq.2]

end Paths

section Search
variable {ν ε : Type*} (src dst : ε → ν)

/-- Try the edges in order, each by `walk` from its end, until one leads to the goal. -/
def tryEdges (walk : ν → List ν → Option (List ε) × List ν) :
    List ε → List ν → Option (List ε) × List ν
  | [], seen => (none, seen)
  | e :: rest, seen =>
    match walk (dst e) seen with
    | (some p, seen) => (some (e :: p), seen)
    | (none, seen) => tryEdges walk rest seen

variable {src dst}

/-- What a search promises about the path it returns, whatever fuel it has. -/
structure Finds (src dst : ε → ν) (edges : List ε) (goal : ν)
    (walk : ν → List ν → Option (List ε) × List ν) : Prop where
  grows : ∀ v seen, ∀ x ∈ seen, x ∈ (walk v seen).2
  path : ∀ v seen p, (walk v seen).1 = some p → Path src dst (· ∈ edges) v p goal
    ∧ (p.map src).Nodup ∧ ∀ x ∈ p.map src, x ∉ seen ∧ x ≠ goal

lemma tryEdges_grows {edges goal walk} (h : Finds src dst edges goal walk) (es : List ε)
    (seen : List ν) : ∀ x ∈ seen, x ∈ (tryEdges dst walk es seen).2 := by
  induction es generalizing seen with
  | nil => exact fun x hx => hx
  | cons e es ih =>
    intro x hx
    have hx := h.grows (dst e) seen x hx
    rw [tryEdges]
    cases r : walk (dst e) seen with
    | mk found seen' =>
      rw [r] at hx
      cases found with
      | some p => exact hx
      | none => exact ih seen' x hx

/-- A path found by trying the edges of a node goes on from one of them. -/
lemma tryEdges_path {edges goal walk} (h : Finds src dst edges goal walk) {es seen q}
    (found : (tryEdges dst walk es seen).1 = some q) :
    ∃ e ∈ es, ∃ p, q = e :: p ∧ Path src dst (· ∈ edges) (dst e) p goal ∧ (p.map src).Nodup
      ∧ ∀ x ∈ p.map src, x ∉ seen ∧ x ≠ goal := by
  induction es generalizing seen with
  | nil => cases found
  | cons e es ih =>
    have step := h.path (dst e) seen
    have grows := h.grows (dst e) seen
    rw [tryEdges] at found
    cases r : walk (dst e) seen with
    | mk here seen' =>
      rw [r] at found step grows
      cases here with
      | some p =>
        obtain ⟨path, simple, avoids⟩ := step p rfl
        exact ⟨e, mem_cons_self, p, (Option.some.inj found).symm, path, simple, avoids⟩
      | none =>
        obtain ⟨f, hf, p, hq, path, simple, avoids⟩ := ih found
        refine ⟨f, mem_cons_of_mem _ hf, p, hq, path, simple, fun x hx => ?_⟩
        exact ⟨fun hs => (avoids x hx).1 (grows x hs), (avoids x hx).2⟩

/-- The nodes entered between `seen` and `seen'` are not the goal, and their edges end in
`seen'`. -/
def ClosedAfter (src dst : ε → ν) (edges : List ε) (goal : ν) (seen seen' : List ν) : Prop :=
  ∀ x ∈ seen', x ∉ seen → x ≠ goal ∧ ∀ e ∈ edges, src e = x → dst e ∈ seen'

lemma ClosedAfter.trans {edges goal a b c} (h : ClosedAfter src dst edges goal a b)
    (h' : ClosedAfter src dst edges goal b c) (sub : ∀ x ∈ b, x ∈ c) :
    ClosedAfter src dst edges goal a c := by
  intro x hx ha
  by_cases hb : x ∈ b
  · obtain ⟨away, out⟩ := h x hb ha
    exact ⟨away, fun e he hs => sub _ (out e he hs)⟩
  · exact h' x hx hb

variable [DecidableEq ν]

variable (src dst) in
/-- The first path to the goal in depth-first order, and the nodes entered. -/
def firstPath (edges : List ε) (goal : ν) : Nat → ν → List ν → Option (List ε) × List ν
  | 0, _, seen => (none, seen)
  | fuel + 1, v, seen =>
    if v = goal then (some [], seen)
    else if v ∈ seen then (none, seen)
    else
      tryEdges dst (firstPath edges goal fuel) (edges.filter fun e => decide (src e = v)) (v :: seen)

lemma firstPath_finds (edges : List ε) (goal : ν) (fuel : Nat) :
    Finds src dst edges goal (firstPath src dst edges goal fuel) := by
  induction fuel with
  | zero => exact ⟨fun v seen x hx => hx, nofun⟩
  | succ fuel ih =>
    constructor
    · intro v seen x hx
      rw [firstPath]
      split
      · exact hx
      · split
        · exact hx
        · exact tryEdges_grows ih _ _ x (mem_cons_of_mem _ hx)
    · intro v seen p found
      rw [firstPath] at found
      split at found
      · rename_i here
        obtain rfl := Option.some.inj found
        exact ⟨here ▸ .nil, nodup_nil, fun x hx => absurd hx not_mem_nil⟩
      rename_i away
      split at found
      · cases found
      rename_i fresh
      obtain ⟨e, he, p, rfl, path, simple, avoids⟩ := tryEdges_path ih found
      obtain ⟨he, hv⟩ := mem_filter.mp he
      have hv : src e = v := of_decide_eq_true hv
      refine ⟨hv ▸ .cons he path, ?_, ?_⟩
      · exact nodup_cons.mpr
          ⟨fun hmem => (avoids _ hmem).1 (hv ▸ mem_cons_self), simple⟩
      · intro x hx
        rcases mem_cons.mp hx with rfl | hx
        · exact ⟨hv ▸ fresh, hv ▸ away⟩
        · exact ⟨fun hs => (avoids x hx).1 (mem_cons_of_mem _ hs), (avoids x hx).2⟩

/-- What a search promises when it fails, with fuel for the nodes not yet entered. -/
def Exhausts (src dst : ε → ν) (edges : List ε) (goal : ν) (nodes : Finset ν) (fuel : Nat)
    (walk : ν → List ν → Option (List ε) × List ν) : Prop :=
  ∀ v seen, v ∈ nodes → (nodes \ seen.toFinset).card < fuel → (walk v seen).1 = none →
    v ∈ (walk v seen).2 ∧ ClosedAfter src dst edges goal seen (walk v seen).2

lemma tryEdges_exhausts {edges goal nodes fuel walk} (finds : Finds src dst edges goal walk)
    (h : Exhausts src dst edges goal nodes fuel walk) {es seen} (inside : ∀ e ∈ es, dst e ∈ nodes)
    (enough : (nodes \ seen.toFinset).card < fuel) (lost : (tryEdges dst walk es seen).1 = none) :
    (∀ e ∈ es, dst e ∈ (tryEdges dst walk es seen).2)
      ∧ ClosedAfter src dst edges goal seen (tryEdges dst walk es seen).2 := by
  induction es generalizing seen with
  | nil => exact ⟨fun e he => absurd he not_mem_nil, fun x hx hs => absurd hx hs⟩
  | cons e es ih =>
    have step := h (dst e) seen (inside e mem_cons_self) enough
    have grows := finds.grows (dst e) seen
    rw [tryEdges] at lost ⊢
    cases r : walk (dst e) seen with
    | mk here seen' =>
      rw [r] at lost step grows
      cases here with
      | some p => cases lost
      | none =>
        obtain ⟨entered, closed⟩ := step rfl
        -- Entering more nodes leaves no more of them to enter.
        have fewer : nodes \ seen'.toFinset ⊆ nodes \ seen.toFinset := by
          intro x hx
          rw [Finset.mem_sdiff, List.mem_toFinset] at hx ⊢
          exact ⟨hx.1, fun hs => hx.2 (grows x hs)⟩
        obtain ⟨ends, rest⟩ := ih (fun f hf => inside f (mem_cons_of_mem _ hf))
          (Nat.lt_of_le_of_lt (Finset.card_le_card fewer) enough) lost
        have grows' := tryEdges_grows finds es seen'
        refine ⟨fun f hf => ?_, closed.trans rest grows'⟩
        rcases mem_cons.mp hf with rfl | hf
        · exact grows' _ entered
        · exact ends f hf

lemma firstPath_exhausts (edges : List ε) (goal : ν) {nodes} (inside : ∀ e ∈ edges, dst e ∈ nodes)
    (fuel : Nat) : Exhausts src dst edges goal nodes fuel (firstPath src dst edges goal fuel) := by
  induction fuel with
  | zero => exact fun v seen _ enough => absurd enough (Nat.not_lt_zero _)
  | succ fuel ih =>
    intro v seen hv enough lost
    rw [firstPath] at lost ⊢
    split at lost
    · cases lost
    rename_i away
    rw [if_neg away]
    split at lost
    · rename_i again
      rw [if_pos again]
      exact ⟨again, fun x hx hs => absurd hx hs⟩
    rename_i fresh
    rw [if_neg fresh]
    have fewer : (nodes \ (v :: seen).toFinset).card < fuel := by
      have smaller : nodes \ (v :: seen).toFinset ⊂ nodes \ seen.toFinset := by
        rw [Finset.ssubset_iff_of_subset]
        · exact ⟨v, by simp [hv, fresh], by simp⟩
        · intro x hx
          simp only [Finset.mem_sdiff, List.mem_toFinset, mem_cons, not_or] at hx ⊢
          exact ⟨hx.1, hx.2.2⟩
      exact Nat.lt_of_lt_of_le (Finset.card_lt_card smaller) (Nat.le_of_lt_succ enough)
    have finds : Finds src dst edges goal (firstPath src dst edges goal fuel) :=
      firstPath_finds edges goal fuel
    obtain ⟨ends, closed⟩ := tryEdges_exhausts finds ih
      (fun e he => inside e (mem_filter.mp he).1) fewer lost
    refine ⟨tryEdges_grows finds _ _ v mem_cons_self, fun x hx hs => ?_⟩
    by_cases hxv : x = v
    · subst hxv
      exact ⟨away, fun e he hsrc => ends e (mem_filter.mpr ⟨he, decide_eq_true hsrc⟩)⟩
    · exact closed x hx (by simp [hxv, hs])

/-- A search from scratch fails only where there is no path. -/
lemma no_path_of_firstPath {edges goal v} {nodes : Finset ν} (inside : ∀ e ∈ edges, dst e ∈ nodes)
    (hv : v ∈ nodes) {fuel} (enough : nodes.card < fuel)
    (lost : (firstPath src dst edges goal fuel v []).1 = none) (p : List ε) :
    ¬ Path src dst (· ∈ edges) v p goal := by
  obtain ⟨entered, closed⟩ := firstPath_exhausts edges goal inside fuel v [] hv (by simpa) lost
  generalize (firstPath src dst edges goal fuel v []).2 = seen at entered closed
  clear lost hv
  -- Along a path the search has entered every node, but not the goal.
  intro path
  induction path with
  | nil => exact (closed _ entered not_mem_nil).1 rfl
  | cons he _ ih => exact ih ((closed _ entered not_mem_nil).2 _ he rfl) closed

end Search

section Youngest
variable {ν ε κ : Type*} [LinearOrder κ] (src dst : ε → ν) (E : ε → Prop) (key : ε → κ)

/-- A choice of one path back to its source for every edge that has any. -/
structure Backs (back : ε → Option (List ε)) : Prop where
  path : ∀ e p, E e → back e = some p → Path src dst E (dst e) p (src e) ∧ (p.map src).Nodup
    ∧ src e ∉ p.map src
  exists_ : ∀ e p, E e → Path src dst E (dst e) p (src e) → back e ≠ none

/-- The edge is above every edge of the path it looks at. -/
def Yields (back : ε → Option (List ε)) (e : ε) : Prop :=
  E e ∧ ∃ p, back e = some p ∧ ∀ f ∈ p, key f ≤ key e

variable {src dst E key} {back : ε → Option (List ε)}

/-- An edge that yields is the greatest of a cycle it is on. -/
lemma Yields.cycle (h : Backs src dst E back) {e} (he : Yields E key back e) :
    ∃ c, IsCycle src dst E c ∧ e ∈ c ∧ ∀ f ∈ c, key f ≤ key e := by
  obtain ⟨hE, p, found, above⟩ := he
  obtain ⟨path, simple, avoids⟩ := h.path e p hE found
  refine ⟨e :: p, isCycle_of_back hE path simple avoids, mem_cons_self, fun f hf => ?_⟩
  rcases mem_cons.mp hf with rfl | hf
  · exact le_refl _
  · exact above f hf

/-- The edges of a cycle are edges. -/
lemma IsCycle.edge {c} (h : IsCycle src dst E c) {e} (he : e ∈ c) : E e := by
  obtain ⟨v, closed⟩ := h.closed
  exact closed.edge e he

/-- Every edge of a cycle looks at some path, and that path closes a cycle with it. -/
lemma IsCycle.looks_back {c} (hc : IsCycle src dst E c) (h : Backs src dst E back) {e}
    (he : e ∈ c) : ∃ p, back e = some p ∧ IsCycle src dst E (e :: p) := by
  have hE := hc.edge he
  obtain ⟨q, around, -⟩ := hc.rotate he
  obtain ⟨p, found⟩ := ne_none_iff_exists'.mp (h.exists_ e q hE around)
  obtain ⟨path, simple, avoids⟩ := h.path e p hE found
  exact ⟨p, found, isCycle_of_back hE path simple avoids⟩

/-- Of finitely many edges on cycles the greatest yields, whatever paths are looked at. -/
lemma exists_yields (key : ε → κ) (h : Backs src dst E back) {edges : List ε}
    (finite : ∀ e, E e → e ∈ edges)
    {c} (hc : IsCycle src dst E c) :
    ∃ e, (∃ c, IsCycle src dst E c ∧ e ∈ c) ∧ Yields E key back e := by
  classical
  let onCycle := edges.toFinset.filter fun e => ∃ c, IsCycle src dst E c ∧ e ∈ c
  have mem : ∀ e, e ∈ onCycle ↔ ∃ c, IsCycle src dst E c ∧ e ∈ c := by
    intro e
    simp only [onCycle, Finset.mem_filter, List.mem_toFinset, and_iff_right_iff_imp]
    rintro ⟨c, hc, he⟩
    exact finite e (hc.edge he)
  obtain ⟨e₀, he₀⟩ := List.exists_mem_of_ne_nil c hc.nonempty
  obtain ⟨e, he, greatest⟩ := Finset.exists_max_image onCycle key ⟨e₀, (mem e₀).mpr ⟨c, hc, he₀⟩⟩
  obtain ⟨d, hd, hed⟩ := (mem e).mp he
  obtain ⟨p, found, cycle⟩ := hd.looks_back h hed
  -- The edges of the path it looks at are on a cycle with it.
  refine ⟨e, ⟨d, hd, hed⟩, hd.edge hed, p, found, fun f hf => ?_⟩
  exact greatest f ((mem f).mpr ⟨e :: p, cycle, mem_cons_of_mem _ hf⟩)

/-- Where a node has one edge at most, exactly one edge of each cycle yields. -/
lemma existsUnique_yields (h : Backs src dst E back)
    (distinct : ∀ e f, E e → E f → key e = key f → e = f)
    (single : ∀ e f, E e → E f → src e = src f → e = f) {c} (hc : IsCycle src dst E c) :
    ∃! e, e ∈ c ∧ Yields E key back e := by
  classical
  -- The path an edge looks at is the rest of the cycle.
  have rest : ∀ e ∈ c, ∀ p, back e = some p → (e :: p).Perm c := by
    intro e he p found
    have hE := hc.edge he
    obtain ⟨q, around, perm⟩ := hc.rotate he
    obtain ⟨path, -, avoids⟩ := h.path e p hE found
    have simple : ((e :: q).map src).Nodup := (perm.map src).nodup_iff.mpr hc.simple
    rw [path.unique single around avoids (nodup_cons.mp simple).1]
    exact perm
  obtain ⟨e₀, he₀⟩ := List.exists_mem_of_ne_nil c hc.nonempty
  obtain ⟨e, he, greatest⟩ := Finset.exists_max_image c.toFinset key ⟨e₀, List.mem_toFinset.mpr he₀⟩
  rw [List.mem_toFinset] at he
  obtain ⟨p, found, -⟩ := hc.looks_back h he
  refine ⟨e, ⟨he, hc.edge he, p, found, fun f hf => ?_⟩, ?_⟩
  · have hfc := (rest e he p found).mem_iff.mp (mem_cons_of_mem _ hf)
    exact greatest f (List.mem_toFinset.mpr hfc)
  · rintro f ⟨hf, -, q, lookedAt, above⟩
    by_contra other
    have hef : e ∈ q := by
      rcases mem_cons.mp ((rest f hf q lookedAt).mem_iff.mpr he) with h | h
      · exact absurd h.symm other
      · exact h
    have equal := le_antisymm (above e hef) (greatest f (List.mem_toFinset.mpr hf))
    exact other (distinct f e (hc.edge hf) (hc.edge he) equal.symm)

end Youngest

section Avoiding
variable {ν : Type*} {E : ν → ν → Prop} {V : Finset ν} {u v w : ν}

/-- Walks that do not enter a node of `V`. -/
inductive Avoiding (E : ν → ν → Prop) (V : Finset ν) (u : ν) : ν → Prop where
  | start : u ∉ V → Avoiding E V u u
  | next {v w : ν} : Avoiding E V u v → E v w → w ∉ V → Avoiding E V u w

lemma Avoiding.mono {V'} (sub : V ⊆ V') (h : Avoiding E V' u v) : Avoiding E V u v := by
  induction h with
  | start hu => exact .start fun hmem => hu (sub hmem)
  | next _ he hw ih => exact ih.next he fun hmem => hw (sub hmem)

/-- A step in front of a walk. -/
lemma Avoiding.cons (hu : u ∉ V) (he : E u v) (h : Avoiding E V v w) : Avoiding E V u w := by
  induction h with
  | start hv => exact (Avoiding.start hu).next he hv
  | next _ he' hw ih => exact ih.next he' hw

/-- A walk to another node goes on from its last visit at the start without coming back to it. -/
lemma Avoiding.leave [DecidableEq ν] (h : Avoiding E V u w) :
    w = u ∨ ∃ v, E u v ∧ Avoiding E (insert u V) v w := by
  induction h with
  | start => exact .inl rfl
  | @next v w _ he hw ih =>
    by_cases e : w = u
    · exact .inl e
    right
    have fresh : w ∉ insert u V := by
      rw [Finset.mem_insert, not_or]
      exact ⟨e, hw⟩
    rcases ih with rfl | ⟨x, hx, walk⟩
    · exact ⟨w, he, .start fresh⟩
    · exact ⟨x, hx, walk.next he fresh⟩

end Avoiding

end Rimz.Lib
