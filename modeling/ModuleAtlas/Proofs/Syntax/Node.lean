import Mathlib.Data.List.Basic
import ModuleAtlas.Syntax.Node

/-!
# The nodes of a tree in preorder

A tree in preorder is its root and then its children, each in preorder (`preorder_eq`). What stands
inside a node stands inside the tree around it (`preorder_subset_of_mem`), and so does the node around
a node that is visited (`mem_preorder_of_mem_visits`).
-/

namespace ModuleAtlas.Syntax.Node

variable {root node child parent : Node} {nodes : List Node}

/-! ## Visits -/

mutual
/-- The visits of a tree do not depend on what comes after them. -/
theorem visitsOnto_eq_append (parent : Option Node) (node : Node) (tail : List (Option Node × Node)) :
    node.visitsOnto parent tail = node.visitsOnto parent [] ++ tail := by
  cases node with
  | mk label children => exact congrArg (_ :: ·) (forestVisitsOnto_eq_append _ children tail)
/-- The same of several trees. -/
theorem forestVisitsOnto_eq_append (parent : Option Node) (nodes : List Node)
    (tail : List (Option Node × Node)) :
    forestVisitsOnto parent nodes tail = forestVisitsOnto parent nodes [] ++ tail := by
  cases nodes with
  | nil => rfl
  | cons node more =>
    rw [forestVisitsOnto, forestVisitsOnto, visitsOnto_eq_append parent node,
      visitsOnto_eq_append parent node (forestVisitsOnto parent more []),
      forestVisitsOnto_eq_append parent more tail, List.append_assoc]
end

/-- The visits of several trees are those of each of them. -/
theorem forestVisitsOnto_nil (parent : Option Node) (nodes : List Node) :
    forestVisitsOnto parent nodes [] = nodes.flatMap (·.visitsOnto parent []) := by
  induction nodes with
  | nil => rfl
  | cons node more ih => rw [forestVisitsOnto, visitsOnto_eq_append, ih, List.flatMap_cons]

/-- The nodes that are visited do not depend on what is around the tree. -/
theorem map_snd_visitsOnto (parent : Option Node) (node : Node) :
    (node.visitsOnto parent []).map (·.2) = node.preorder := by
  cases node
  rfl

/-! ## Preorder -/

/-- A tree in preorder is its root, and then its children in preorder. -/
theorem preorder_eq (node : Node) : node.preorder = node :: node.children.flatMap preorder := by
  cases node with
  | mk label children =>
    have hchildren : (forestVisitsOnto (some (.mk label children)) children []).map (·.2)
        = children.flatMap preorder := by
      rw [forestVisitsOnto_nil, List.map_flatMap]
      exact List.flatMap_congr fun child _ => map_snd_visitsOnto _ child
    rw [preorder, visits, visitsOnto, List.map_cons, hchildren]
    rfl

theorem mem_preorder_self (node : Node) : node ∈ node.preorder := by
  rw [preorder_eq]
  exact List.mem_cons_self

theorem mem_preorder_of_mem_children (hchild : child ∈ node.children) : child ∈ node.preorder := by
  rw [preorder_eq]
  exact List.mem_cons_of_mem _ (List.mem_flatMap.mpr ⟨child, hchild, mem_preorder_self child⟩)

mutual
/-- What stands inside a node of a tree stands inside the tree. -/
theorem preorder_subset_of_mem (root : Node) (h : node ∈ root.preorder) :
    node.preorder ⊆ root.preorder := by
  cases root with
  | mk label children =>
    rw [preorder_eq] at h
    rcases List.mem_cons.mp h with rfl | h
    · exact List.Subset.refl _
    · rw [preorder_eq (mk label children)]
      exact List.subset_cons_of_subset _ (forestPreorder_subset_of_mem children h)
/-- The same of several trees. -/
theorem forestPreorder_subset_of_mem (nodes : List Node) (h : node ∈ nodes.flatMap preorder) :
    node.preorder ⊆ nodes.flatMap preorder := by
  cases nodes with
  | nil => cases h
  | cons first more =>
    rw [List.flatMap_cons] at h ⊢
    rcases List.mem_append.mp h with h | h
    · exact List.subset_append_of_subset_left _ (preorder_subset_of_mem first h)
    · exact List.subset_append_of_subset_right _ (forestPreorder_subset_of_mem more h)
end

/-- A child of a node of a tree stands inside the tree. -/
theorem child_mem_preorder (h : node ∈ root.preorder) (hchild : child ∈ node.children) :
    child ∈ root.preorder :=
  preorder_subset_of_mem root h (mem_preorder_of_mem_children hchild)

theorem preorder_subset_of_mem_children (hchild : child ∈ node.children) :
    child.preorder ⊆ node.preorder :=
  preorder_subset_of_mem node (mem_preorder_of_mem_children hchild)

theorem mem_preorder_of_mem_visits {visit : Option Node × Node} (h : visit ∈ root.visits) :
    visit.2 ∈ root.preorder :=
  List.mem_map_of_mem h

mutual
/-- The node around a node that is visited is the one around the tree, or stands inside the tree. -/
theorem parent_of_mem_visitsOnto {around : Option Node} (root : Node)
    (h : (some parent, node) ∈ root.visitsOnto around []) :
    around = some parent ∨ parent ∈ root.preorder := by
  cases root with
  | mk label children =>
    rw [visitsOnto] at h
    rcases List.mem_cons.mp h with heq | h
    · exact .inl (Prod.mk.inj heq).1.symm
    · refine .inr ?_
      rw [preorder_eq]
      rcases parent_of_mem_forestVisitsOnto children h with heq | h
      · rw [Option.some.inj heq]
        exact List.mem_cons_self
      · exact List.mem_cons_of_mem _ h
/-- The same of several trees. -/
theorem parent_of_mem_forestVisitsOnto {around : Option Node} (nodes : List Node)
    (h : (some parent, node) ∈ forestVisitsOnto around nodes []) :
    around = some parent ∨ parent ∈ nodes.flatMap preorder := by
  cases nodes with
  | nil => cases h
  | cons first more =>
    rw [forestVisitsOnto, visitsOnto_eq_append, List.mem_append] at h
    rw [List.flatMap_cons, List.mem_append]
    rcases h with h | h
    · exact (parent_of_mem_visitsOnto first h).imp_right .inl
    · exact (parent_of_mem_forestVisitsOnto more h).imp_right .inr
end

/-- The node around a node that is visited stands inside the tree. -/
theorem parent_mem_preorder (h : (some parent, node) ∈ root.visits) : parent ∈ root.preorder :=
  (parent_of_mem_visitsOnto root h).resolve_left (Option.some_ne_none parent).symm

/-! ## Leaves -/

/-- The nodes of a tree that have no children, in source order. -/
def leaves (node : Node) : List Node := node.preorder.filter (·.children.isEmpty)

theorem leaves_of_children_eq (h : node.children = []) : node.leaves = [node] := by
  rw [leaves, preorder_eq, h]
  exact List.filter_cons_of_pos (by rw [h]; rfl)

theorem leaves_eq_flatMap (h : node.children ≠ []) : node.leaves = node.children.flatMap leaves := by
  have hinner : node.children.isEmpty = false := List.isEmpty_eq_false_iff.mpr h
  rw [leaves, preorder_eq, List.filter_cons, hinner, if_neg Bool.false_ne_true, List.filter_flatMap]
  rfl

/-- The leaves of a node over leaves are its children. -/
theorem leaves_eq_children (h : node.children ≠ [])
    (hleaves : ∀ child ∈ node.children, child.children = []) : node.leaves = node.children := by
  rw [leaves_eq_flatMap h]
  exact (List.flatMap_congr fun child hchild => leaves_of_children_eq (hleaves child hchild)).trans
    (List.flatMap_singleton' _)

/-! ## Children -/

theorem mem_children_of_child? {field : String} (h : node.child? field = some child) :
    child ∈ node.children ∧ child.label.field = some field := by
  refine ⟨List.mem_of_find?_eq_some h, ?_⟩
  have hfield := List.find?_some h
  exact beq_iff_eq.mp hfield

theorem mem_childrenAs {field : String} :
    child ∈ node.childrenAs field ↔ child ∈ node.children ∧ child.label.field = some field := by
  rw [childrenAs, List.mem_filter, beq_iff_eq]

theorem mem_childrenOf {kind : String} :
    child ∈ node.childrenOf kind ↔ child ∈ node.children ∧ child.kind = kind := by
  rw [childrenOf, List.mem_filter, beq_iff_eq]

end ModuleAtlas.Syntax.Node
