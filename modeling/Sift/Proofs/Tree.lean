import Sift.Condition.Basic

/-!
# Nodes of a condition tree

Statements about all leaves or all groups of a tree, at any depth, are statements about its nodes.

* `Condition.nodes`: the conditions in a tree, itself included.
* `Condition.EveryLeaf`: a property of all leaves of a tree.
* `Condition.height`: how deep groups nest in a tree.
* `Condition.tree_induction`: what holds of leaves, and of a group once it holds of the conditions
  in it, holds of every tree.
-/

namespace Sift.Condition

mutual

/-- The conditions in a tree, the tree itself first. -/
def nodes : Condition → List Condition
  | .leaf l => [.leaf l]
  | .group gate children => .group gate children :: nodesAll children

/-- The conditions in several trees. -/
def nodesAll : List Condition → List Condition
  | [] => []
  | c :: rest => nodes c ++ nodesAll rest

end

mutual

/-- How deep groups nest in a tree, the tree itself counted if it is one. -/
def height : Condition → Nat
  | .leaf _ => 0
  | .group _ children => heightAll children + 1

/-- How deep groups nest in several trees. -/
def heightAll : List Condition → Nat
  | [] => 0
  | c :: rest => max (height c) (heightAll rest)

end

variable {c x : Condition} {gate : Gate} {children : List Condition}

theorem tree_induction {motive : Condition → Prop} (leaf : ∀ l, motive (.leaf l))
    (group : ∀ gate children, (∀ c ∈ children, motive c) → motive (.group gate children)) :
    ∀ c, motive c
  | .leaf l => leaf l
  | .group gate children => group gate children fun c _ => tree_induction leaf group c

@[simp] theorem mem_nodesAll : x ∈ nodesAll children ↔ ∃ c ∈ children, x ∈ c.nodes := by
  induction children with
  | nil => simp [nodesAll]
  | cons c rest ih => simp [nodesAll, ih]

@[simp] theorem mem_nodes_leaf {l : Leaf} : x ∈ (leaf l).nodes ↔ x = .leaf l := by
  simp [nodes]

@[simp] theorem mem_nodes_group :
    x ∈ (group gate children).nodes ↔ x = .group gate children ∨ ∃ c ∈ children, x ∈ c.nodes := by
  simp [nodes]

/-- **All leaves of a tree**, at any depth, have the property. -/
def EveryLeaf (p : Leaf → Prop) (c : Condition) : Prop := ∀ l, .leaf l ∈ c.nodes → p l

variable {p : Leaf → Prop}

@[simp] theorem everyLeaf_leaf {l : Leaf} : (leaf l).EveryLeaf p ↔ p l := by
  simp [EveryLeaf]

@[simp] theorem everyLeaf_group :
    (group gate children).EveryLeaf p ↔ ∀ c ∈ children, c.EveryLeaf p := by
  simp only [EveryLeaf, mem_nodes_group, reduceCtorEq, false_or]
  constructor
  · intro h c hc l hl
    exact h l ⟨c, hc, hl⟩
  · rintro h l ⟨c, hc, hl⟩
    exact h c hc l hl

theorem heightAll_le {n : Nat} : heightAll children ≤ n ↔ ∀ c ∈ children, c.height ≤ n := by
  induction children with
  | nil => simp [heightAll]
  | cons c rest ih =>
    rw [heightAll, Nat.max_le, ih]
    simp

end Sift.Condition
