import Mathlib.Logic.Relation
import Rimz.Lib.Names

/-!
# A search for a cycle

Depth-first search over a successor function, with the nodes already expanded, until a node has the
goal as a successor. The search runs on fuel; a finite list that holds every node with successors
says how much is enough, and then a search that fails has found a closed set without an edge to the
goal.
-/

namespace Rimz.Lib

section Search
variable {α : Type*} [DecidableEq α] (next : α → List α) (goal : α)

/-- Depth-first search for an edge to the goal, last successor first. -/
def searchFrom : Nat → List α → List α → Bool
  | 0, _, _ => false
  | _ + 1, [], _ => false
  | fuel + 1, node :: pending, seen =>
    if node ∈ seen then searchFrom fuel pending seen
    else if goal ∈ next node then true
    else searchFrom fuel ((next node).reverse ++ pending) (node :: seen)

/-- What the nodes not yet expanded can still add to the search. -/
def searchWeight (seen : List α) : List α → Nat
  | [] => 0
  | n :: nodes => (if n ∈ seen then 0 else (next n).length + 1) + searchWeight seen nodes

lemma searchWeight_cons_le (nodes seen : List α) (x : α) :
    searchWeight next (x :: seen) nodes ≤ searchWeight next seen nodes := by
  induction nodes with
  | nil => exact Nat.le_refl _
  | cons n nodes ih =>
    simp only [searchWeight, mem_cons]
    by_cases hs : n ∈ seen
    · simp only [hs, or_true, if_true]
      omega
    · simp only [hs, or_false, if_false]
      split <;> omega

lemma searchWeight_expand {nodes seen x} (hx : x ∈ nodes) (hs : x ∉ seen) :
    searchWeight next (x :: seen) nodes + ((next x).length + 1) ≤ searchWeight next seen nodes := by
  induction nodes with
  | nil => cases hx
  | cons n nodes ih =>
    simp only [searchWeight]
    by_cases hn : n = x
    · subst hn
      have mono := searchWeight_cons_le next nodes seen n
      simp only [hs, mem_cons, true_or, if_true, if_false]
      omega
    · have rest := ih ((mem_cons.mp hx).resolve_left (Ne.symm hn))
      simp only [mem_cons, hn, false_or]
      omega

variable {next goal}

/-- A search that fails with enough fuel has met a closed set of nodes, none with the goal as a
successor. -/
lemma searchFrom_false {nodes} (hnodes : ∀ x, x ∉ nodes → next x = []) :
    ∀ {fuel : Nat} {pending seen : List α},
      pending.length + searchWeight next seen nodes < fuel →
      (∀ x ∈ seen, goal ∉ next x ∧ ∀ y ∈ next x, y ∈ seen ∨ y ∈ pending) →
      searchFrom next goal fuel pending seen = false →
      ∃ S : α → Prop, (∀ x ∈ seen, S x) ∧ (∀ x ∈ pending, S x)
        ∧ ∀ x, S x → goal ∉ next x ∧ ∀ y ∈ next x, S y := by
  intro fuel
  induction fuel with
  | zero => intro pending seen enough; omega
  | succ fuel ih =>
    intro pending seen enough closed failed
    match pending with
    | [] =>
      refine ⟨(· ∈ seen), fun _ h => h, nofun, fun x hx => ⟨(closed x hx).1, fun y hy => ?_⟩⟩
      exact ((closed x hx).2 y hy).resolve_right not_mem_nil
    | node :: pending =>
      rw [searchFrom] at failed
      simp only [length_cons] at enough
      by_cases hs : node ∈ seen
      · rw [if_pos hs] at failed
        obtain ⟨S, inSeen, inPending, stays⟩ := ih (by omega)
          (fun x hx => ⟨(closed x hx).1, fun y hy => by
            rcases (closed x hx).2 y hy with h | h
            · exact .inl h
            · rcases mem_cons.mp h with h | h
              · exact .inl (h ▸ hs)
              · exact .inr h⟩) failed
        refine ⟨S, inSeen, fun x hx => ?_, stays⟩
        rcases mem_cons.mp hx with h | h
        · exact h ▸ inSeen node hs
        · exact inPending x h
      rw [if_neg hs] at failed
      by_cases hg : goal ∈ next node
      · rw [if_pos hg] at failed
        cases failed
      rw [if_neg hg] at failed
      have lighter : (next node).length + searchWeight next (node :: seen) nodes
          ≤ searchWeight next seen nodes := by
        by_cases hn : node ∈ nodes
        · have := searchWeight_expand next hn hs
          omega
        · rw [hnodes node hn]
          have := searchWeight_cons_le next nodes seen node
          simpa using this
      obtain ⟨S, inSeen, inPending, stays⟩ := ih
        (by simp only [length_append, length_reverse]; omega)
        (fun x hx => by
          rcases mem_cons.mp hx with h | h
          · subst h
            exact ⟨hg, fun y hy => .inr (mem_append_left _ (List.mem_reverse.mpr hy))⟩
          refine ⟨(closed x h).1, fun y hy => ?_⟩
          rcases (closed x h).2 y hy with h' | h'
          · exact .inl (mem_cons_of_mem _ h')
          · rcases mem_cons.mp h' with h' | h'
            · exact .inl (h' ▸ mem_cons_self)
            · exact .inr (mem_append_right _ h')) failed
      refine ⟨S, fun x hx => inSeen x (mem_cons_of_mem _ hx), fun x hx => ?_, stays⟩
      rcases mem_cons.mp hx with h | h
      · exact h ▸ inSeen node mem_cons_self
      · exact inPending x (mem_append_right _ h)

/-- A search from the goal that fails with enough fuel: the goal is on no cycle. -/
lemma acyclic_of_searchFrom {nodes} (hnodes : ∀ x, x ∉ nodes → next x = []) {fuel}
    (enough : 1 + searchWeight next [] nodes < fuel)
    (failed : searchFrom next goal fuel [goal] [] = false) :
    ¬Relation.TransGen (fun a b => b ∈ next a) goal goal := by
  obtain ⟨S, -, start, stays⟩ := searchFrom_false hnodes (by simpa using enough)
    (fun x hx => absurd hx not_mem_nil) failed
  have reached : ∀ x, Relation.ReflTransGen (fun a b => b ∈ next a) goal x → S x := by
    intro x path
    induction path with
    | refl => exact start goal mem_cons_self
    | tail _ edge ih => exact (stays _ ih).2 _ edge
  intro cycle
  obtain ⟨x, path, edge⟩ := Relation.TransGen.tail'_iff.mp cycle
  exact (stays x (reached x path)).1 edge

end Search

end Rimz.Lib
