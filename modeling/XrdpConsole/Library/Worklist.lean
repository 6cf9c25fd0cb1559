import Mathlib.Data.List.Nodup
import Mathlib.Logic.Relation

/-!
# Closure by a worklist

The nodes that can be reached from a root along `next`, collected with a stack of nodes
whose neighbours have not been looked at yet. Each turn takes one node off the stack and
puts on it the neighbours that had not been found before, so that a turn for each node of
the graph is enough.
-/

namespace XrdpConsole.Library

set_option autoImplicit false

variable {Node : Type}

/-- What has been found so far, and the part of it still to be looked at, top first. -/
structure Worklist (Node : Type) where
  found : List Node
  pending : List Node

def Reaches (next : Node → List Node) (root node : Node) : Prop :=
  Relation.ReflTransGen (fun parent child => child ∈ next parent) root node

variable [DecidableEq Node]

def visit (list : Worklist Node) (node : Node) : Worklist Node :=
  if node ∈ list.found then
    list
  else
    { found := list.found ++ [node], pending := node :: list.pending }

def closeOver (next : Node → List Node) : Nat → Worklist Node → Option (List Node)
  | _, ⟨found, []⟩ => some found
  | 0, ⟨_, _ :: _⟩ => none
  | turns + 1, ⟨found, node :: pending⟩ =>
      closeOver next turns ((next node).foldl visit ⟨found, pending⟩)

/-- What holds between two turns: every edge out of a node that is not pending has been
followed. -/
structure Explored (next : Node → List Node) (root : Node) (list : Worklist Node) : Prop where
  distinct : list.found.Nodup
  reached : ∀ node ∈ list.found, Reaches next root node
  pending : ∀ node ∈ list.pending, node ∈ list.found
  start : root ∈ list.found
  closed : ∀ node ∈ list.found, node ∉ list.pending → ∀ child ∈ next node, child ∈ list.found

/-- The turns that are left to take while only `nodes` can be found. -/
def budget (nodes : List Node) (list : Worklist Node) : Nat :=
  list.pending.length + (nodes.filter (· ∉ list.found)).length

/-! ## One node found -/

theorem visit_found (list : Worklist Node) (node other : Node) :
    other ∈ (visit list node).found ↔ other ∈ list.found ∨ other = node := by
  unfold visit
  split
  · rename_i present
    constructor
    · exact Or.inl
    · intro either
      cases either with
      | inl before => exact before
      | inr same => simpa [same] using present
  · simp

theorem visit_pending (list : Worklist Node) (node other : Node) :
    other ∈ (visit list node).pending ↔
      other ∈ list.pending ∨ (other = node ∧ node ∉ list.found) := by
  unfold visit
  split
  · rename_i present
    simp [present]
  · rename_i fresh
    simp [fresh, or_comm]

theorem visit_distinct (list : Worklist Node) (node : Node) (distinct : list.found.Nodup) :
    (visit list node).found.Nodup := by
  unfold visit
  split
  · exact distinct
  · rename_i fresh
    simp only [List.nodup_append, distinct, List.nodup_singleton, List.mem_singleton, true_and]
    intro other member _ same equal
    exact fresh (same ▸ equal ▸ member)

theorem visit_budget (nodes : List Node) (list : Worklist Node) {node : Node}
    (inside : node ∈ nodes) : budget nodes (visit list node) ≤ budget nodes list := by
  unfold visit
  split
  · exact Nat.le_refl _
  · rename_i fresh
    have fewer : ((nodes.filter (· ∉ list.found)).filter (· ≠ node)).length <
        (nodes.filter (· ∉ list.found)).length := by
      apply List.length_filter_lt_length_iff_exists.mpr
      exact ⟨node, by simp [inside, fresh], by simp⟩
    have same : (nodes.filter (· ∉ list.found)).filter (· ≠ node) =
        nodes.filter (· ∉ list.found ++ [node]) := by
      rw [List.filter_filter]
      apply List.filter_congr
      intro other _
      simp [and_comm]
    rw [same] at fewer
    simp only [budget, List.length_cons]
    omega

/-! ## One turn -/

theorem fold_found (children : List Node) (list : Worklist Node) (other : Node) :
    other ∈ (children.foldl visit list).found ↔ other ∈ list.found ∨ other ∈ children := by
  induction children generalizing list with
  | nil => simp
  | cons child children ih => simp [ih, visit_found, or_assoc]

theorem fold_pending (children : List Node) (list : Worklist Node) (other : Node) :
    other ∈ (children.foldl visit list).pending ↔
      other ∈ list.pending ∨ (other ∈ children ∧ other ∉ list.found) := by
  induction children generalizing list with
  | nil => simp
  | cons child children ih =>
      rw [List.foldl_cons, ih, visit_found, visit_pending, List.mem_cons]
      by_cases same : other = child
      · subst same
        tauto
      · tauto

theorem fold_distinct (children : List Node) (list : Worklist Node)
    (distinct : list.found.Nodup) : (children.foldl visit list).found.Nodup := by
  induction children generalizing list with
  | nil => exact distinct
  | cons child children ih => exact ih _ (visit_distinct list child distinct)

theorem fold_budget (nodes children : List Node) (list : Worklist Node)
    (inside : ∀ child ∈ children, child ∈ nodes) :
    budget nodes (children.foldl visit list) ≤ budget nodes list := by
  induction children generalizing list with
  | nil => exact Nat.le_refl _
  | cons child children ih =>
      have rest := ih (visit list child) fun other member =>
        inside other (List.mem_cons_of_mem child member)
      exact Nat.le_trans rest (visit_budget nodes list (inside child (List.mem_cons_self ..)))

theorem turn_explored {next : Node → List Node} {root node : Node} {found pending : List Node}
    (explored : Explored next root ⟨found, node :: pending⟩) :
    Explored next root ((next node).foldl visit ⟨found, pending⟩) := by
  have present : node ∈ found := explored.pending node (List.mem_cons_self ..)
  constructor
  · exact fold_distinct _ _ explored.distinct
  · intro other member
    cases (fold_found _ _ _).mp member with
    | inl before => exact explored.reached other before
    | inr child => exact (explored.reached node present).tail child
  · intro other member
    rw [fold_found]
    cases (fold_pending _ _ _).mp member with
    | inl before => exact Or.inl (explored.pending other (List.mem_cons_of_mem node before))
    | inr child => exact Or.inr child.1
  · exact (fold_found _ _ _).mpr (Or.inl explored.start)
  · intro other member settled child edge
    rw [fold_pending, not_or, not_and_not_right] at settled
    rw [fold_found]
    have before : other ∈ found := by
      cases (fold_found _ _ _).mp member with
      | inl before => exact before
      | inr fresh => exact settled.2 fresh
    by_cases same : other = node
    · exact Or.inr (same ▸ edge)
    · apply Or.inl
      apply explored.closed other before _ child edge
      simpa [same] using settled.1

/-! ## The whole search -/

theorem close_over_explored {next : Node → List Node} {root : Node} {nodes : List Node}
    (inside : ∀ node, ∀ child ∈ next node, child ∈ nodes) (turns : Nat) (list : Worklist Node)
    (explored : Explored next root list) (enough : budget nodes list ≤ turns) :
    ∃ found, closeOver next turns list = some found ∧ Explored next root ⟨found, []⟩ := by
  induction turns generalizing list with
  | zero =>
      obtain ⟨found, pending⟩ := list
      cases pending with
      | nil => exact ⟨found, rfl, explored⟩
      | cons node pending => simp [budget] at enough
  | succ turns ih =>
      obtain ⟨found, pending⟩ := list
      cases pending with
      | nil => exact ⟨found, rfl, explored⟩
      | cons node pending =>
          apply ih _ (turn_explored explored)
          have less := fold_budget nodes (next node) ⟨found, pending⟩ (inside node)
          simp only [budget, List.length_cons] at less enough ⊢
          omega

/-- With a turn for each node the search ends, with each node that can be reached once. -/
theorem close_over_reaches {next : Node → List Node} (root : Node) {nodes : List Node}
    (inside : ∀ node, ∀ child ∈ next node, child ∈ nodes) :
    ∃ found, closeOver next (nodes.length + 1) ⟨[root], [root]⟩ = some found ∧ found.Nodup ∧
      ∀ node, node ∈ found ↔ Reaches next root node := by
  have start : Explored next root ⟨[root], [root]⟩ := by
    constructor
    · simp
    · intro node member
      rw [List.mem_singleton] at member
      rw [member]
      exact Relation.ReflTransGen.refl
    · simp
    · simp
    · simp
  have enough : budget nodes ⟨[root], [root]⟩ ≤ nodes.length + 1 := by
    have most := List.length_filter_le (· ∉ [root]) nodes
    simp only [budget, List.length_singleton]
    omega
  obtain ⟨found, run, explored⟩ := close_over_explored inside _ _ start enough
  refine ⟨found, run, explored.distinct, fun node => ⟨explored.reached node, fun reaches => ?_⟩⟩
  induction reaches with
  | refl => exact explored.start
  | tail _ edge ih => exact explored.closed _ ih (by simp) _ edge

end XrdpConsole.Library
