import ModuleAtlas.Proofs.Syntax.Node
import ModuleAtlas.Proofs.Text.Lines
import ModuleAtlas.Proofs.Text.Slice

/-!
# Where nodes stand in a text

A node stands in a text if its places lie between characters and its row counts the line ends in front
of it (`Node.StandsIn`). The nodes of a tree are placed in a text if they all stand in it, children
stand inside their parents, and the children of a node stand one after the other (`IsPlaced`). Then the
nodes start one after the other in preorder, and their rows ascend (`IsPlaced.inOrder`).
-/

namespace ModuleAtlas.Syntax

variable {text piece : String} {root node other child : Node}

/-! ## One node -/

/-- The node has a text, and its row is the number of line ends in front of it. -/
def Node.StandsIn (text : String) (node : Node) : Prop :=
  (node.text? text).isSome ∧
    (Text.takeBytes? node.start text.toList).map (·.count '\n') = some node.row

instance (text : String) (node : Node) : Decidable (node.StandsIn text) :=
  inferInstanceAs (Decidable (_ ∧ _))

namespace Node

theorem standsIn_of_eq {front rest : List Char} (htext : text.toList = front ++ (piece.toList ++ rest))
    (hstart : Text.byteCount front = node.start)
    (hstop : node.start + Text.byteCount piece.toList = node.stop)
    (hrow : front.count '\n' = node.row) : node.StandsIn text := by
  have hslice : node.text? text = some piece :=
    Text.slice?_eq_some_iff.mpr ⟨front, rest, htext, hstart, hstop⟩
  refine ⟨Option.isSome_iff_exists.mpr ⟨piece, hslice⟩, ?_⟩
  rw [Text.takeBytes?_eq_some_iff.mpr ⟨_, htext, hstart⟩, Option.map_some, hrow]

/-- What stands in front of a node is counted in bytes by its start and in lines by its row. -/
theorem StandsIn.exists_front (h : node.StandsIn text) :
    ∃ front piece rest, text.toList = front ++ (String.toList piece ++ rest) ∧
      node.text? text = some piece ∧ Text.byteCount front = node.start ∧
      node.start + Text.byteCount piece.toList = node.stop ∧ front.count '\n' = node.row := by
  obtain ⟨hpiece, hrow⟩ := h
  obtain ⟨piece, hpiece⟩ := Option.isSome_iff_exists.mp hpiece
  obtain ⟨front, rest, htext, hstart, hstop⟩ := Text.slice?_eq_some_iff.mp hpiece
  rw [Text.takeBytes?_eq_some_iff.mpr ⟨_, htext, hstart⟩, Option.map_some, Option.some.injEq] at hrow
  exact ⟨front, piece, rest, htext, hpiece, hstart, hstop, hrow⟩

theorem StandsIn.start_le_stop (h : node.StandsIn text) : node.start ≤ node.stop := by
  obtain ⟨-, piece, -, -, -, -, hstop, -⟩ := h.exists_front
  omega

/-- A node that spells something stops behind its start. -/
theorem StandsIn.start_lt_stop (h : node.StandsIn text) (hpiece : node.text? text = some piece)
    (hne : piece ≠ "") : node.start < node.stop := by
  obtain ⟨-, piece', -, -, hpiece', -, hstop, -⟩ := h.exists_front
  obtain rfl : piece' = piece := Option.some.inj (hpiece'.symm.trans hpiece)
  have hbytes : Text.byteCount piece'.toList ≠ 0 :=
    fun hzero => hne (String.toList_eq_nil_iff.mp (Text.byteCount_eq_zero_iff.mp hzero))
  omega

/-- Of two fronts of a text, the one with fewer bytes is a front of the other. -/
theorem prefix_of_byteCount_le {front front' : List Char} (chars : List Char) (h : front <+: chars)
    (h' : front' <+: chars) (hle : Text.byteCount front ≤ Text.byteCount front') : front <+: front' := by
  rcases List.prefix_or_prefix_of_prefix h h' with hprefix | ⟨more, rfl⟩
  · exact hprefix
  · rw [Text.byteCount_append] at hle
    have hmore : more = [] := Text.byteCount_eq_zero_iff.mp (by omega)
    simp only [hmore, List.append_nil, List.prefix_rfl]

/-- A node stands where a front of the text ends and up to where another one ends. -/
theorem standsIn_of_fronts {front back : List Char} (hfront : front <+: text.toList)
    (hback : back <+: text.toList) (hstart : Text.byteCount front = node.start)
    (hstop : Text.byteCount back = node.stop) (hrow : front.count '\n' = node.row)
    (hle : node.start ≤ node.stop) : node.StandsIn text := by
  obtain ⟨piece, rfl⟩ := prefix_of_byteCount_le text.toList hfront hback (by omega)
  obtain ⟨rest, htext⟩ := hback
  rw [Text.byteCount_append, hstart, ← String.toList_ofList (l := piece)] at hstop
  have hwhole : text.toList = front ++ ((String.ofList piece).toList ++ rest) := by
    rw [← htext, String.toList_ofList, List.append_assoc]
  exact standsIn_of_eq hwhole hstart hstop hrow

theorem StandsIn.exists_back (h : node.StandsIn text) :
    ∃ back, back <+: text.toList ∧ Text.byteCount back = node.stop := by
  obtain ⟨front, piece, rest, htext, -, hstart, hstop, -⟩ := h.exists_front
  refine ⟨front ++ piece.toList, ?_, ?_⟩
  · rw [htext, ← List.append_assoc]
    exact List.prefix_append _ _
  · rw [Text.byteCount_append, hstart, hstop]

/-- What starts further on stands on the same line or on a later one. -/
theorem StandsIn.row_le (h : node.StandsIn text) (hother : other.StandsIn text)
    (hle : node.start ≤ other.start) : node.row ≤ other.row := by
  obtain ⟨front, piece, rest, htext, -, hstart, -, hrow⟩ := h.exists_front
  obtain ⟨front', piece', rest', htext', -, hstart', -, hrow'⟩ := hother.exists_front
  rw [← hrow, ← hrow']
  refine (prefix_of_byteCount_le _ (List.prefix_append front (piece.toList ++ rest)) ?_ ?_).count_le '\n'
  · rw [← htext, htext']
    exact List.prefix_append _ _
  · rwa [hstart, hstart']

/-- What is not empty stands on one of the lines. -/
theorem StandsIn.row_lt (h : node.StandsIn text) (hlt : node.start < node.stop) :
    node.row < (Text.lines text).length := by
  obtain ⟨front, piece, rest, htext, -, -, hstop, hrow⟩ := h.exists_front
  have hne : piece.toList ++ rest ≠ [] := by
    intro hempty
    rw [(List.append_eq_nil_iff.mp hempty).1] at hstop
    exact absurd hstop (by simp only [Text.byteCount_nil]; omega)
  rw [← hrow]
  exact Text.count_lt_length_lines htext hne

/-- What stands inside a node is a part of its text. -/
theorem StandsIn.isInfix (h : node.StandsIn text) (hchild : child.StandsIn text)
    (hstart : node.start ≤ child.start) (hstop : child.stop ≤ node.stop) {part : String}
    (hpiece : node.text? text = some piece) (hpart : child.text? text = some part) :
    part.toList <:+: piece.toList := by
  obtain ⟨front, piece', rest, htext, hpiece', hfront, hend, -⟩ := h.exists_front
  obtain ⟨front', part', rest', htext', hpart', hfront', hend', -⟩ := hchild.exists_front
  obtain rfl : piece' = piece := Option.some.inj (hpiece'.symm.trans hpiece)
  obtain rfl : part' = part := Option.some.inj (hpart'.symm.trans hpart)
  have hwhole : front' ++ part'.toList <+: front ++ piece'.toList := by
    refine prefix_of_byteCount_le text.toList ?_ ?_ ?_
    · rw [htext', ← List.append_assoc]
      exact List.prefix_append _ _
    · rw [htext, ← List.append_assoc]
      exact List.prefix_append _ _
    · rw [Text.byteCount_append, Text.byteCount_append]
      omega
  obtain ⟨before, rfl⟩ : front <+: front' := by
    refine prefix_of_byteCount_le text.toList ?_ ?_ ?_
    · rw [htext]
      exact List.prefix_append _ _
    · rw [htext']
      exact List.prefix_append _ _
    · omega
  rw [List.append_assoc] at hwhole
  exact (List.suffix_append before part'.toList).isInfix.trans
    ((List.prefix_append_right_inj front).mp hwhole).isInfix

end Node

/-! ## A tree -/

/-- In preorder, nodes never start on an earlier line than the nodes before them, and all start on lines
of the text. The root of a text without anything in it may start at its end. -/
structure InOrder (text : String) (root : Node) : Prop where
  ascending : root.preorder.Pairwise fun a b => a.row ≤ b.row
  inside : root.children ≠ [] → ∀ node ∈ root.preorder, node.row < (Text.lines text).length

instance (text : String) (root : Node) : Decidable (InOrder text root) :=
  decidable_of_iff
    (root.preorder.Pairwise (fun a b => a.row ≤ b.row) ∧
      (root.children.isEmpty = false → ∀ node ∈ root.preorder, node.row < (Text.lines text).length))
    ⟨fun ⟨h, h'⟩ => ⟨h, fun hne => h' (List.isEmpty_eq_false_iff.mpr hne)⟩,
      fun ⟨h, h'⟩ => ⟨h, fun hne => h' (List.isEmpty_eq_false_iff.mp hne)⟩⟩

/-- All nodes of a tree stand in a text, children inside their parents and one after the other. -/
structure IsPlaced (text : String) (root : Node) : Prop where
  stands : ∀ node ∈ root.preorder, node.StandsIn text
  inside : ∀ node ∈ root.preorder, ∀ child ∈ node.children,
    node.start ≤ child.start ∧ child.stop ≤ node.stop
  apart : ∀ node ∈ root.preorder, node.children.Pairwise fun a b => a.stop ≤ b.start

instance (text : String) (root : Node) : Decidable (IsPlaced text root) :=
  decidable_of_iff
    ((∀ node ∈ root.preorder, node.StandsIn text) ∧
      (∀ node ∈ root.preorder, ∀ child ∈ node.children,
        node.start ≤ child.start ∧ child.stop ≤ node.stop) ∧
      ∀ node ∈ root.preorder, node.children.Pairwise fun a b => a.stop ≤ b.start)
    ⟨fun ⟨h, h', h''⟩ => ⟨h, h', h''⟩, fun ⟨h, h', h''⟩ => ⟨h, h', h''⟩⟩

namespace IsPlaced

/-- A part of a placed tree is placed. -/
theorem of_mem (h : IsPlaced text root) (hnode : node ∈ root.preorder) : IsPlaced text node where
  stands other hother := h.stands other (Node.preorder_subset_of_mem root hnode hother)
  inside other hother := h.inside other (Node.preorder_subset_of_mem root hnode hother)
  apart other hother := h.apart other (Node.preorder_subset_of_mem root hnode hother)

theorem of_mem_children (h : IsPlaced text root) (hchild : child ∈ root.children) :
    IsPlaced text child :=
  h.of_mem (Node.mem_preorder_of_mem_children hchild)

theorem standsIn (h : IsPlaced text root) : root.StandsIn text :=
  h.stands root root.mem_preorder_self

mutual
/-- What stands inside a placed tree stands between its start and its stop. -/
theorem within (root : Node) (h : IsPlaced text root) (hnode : node ∈ root.preorder) :
    root.start ≤ node.start ∧ node.stop ≤ root.stop := by
  cases root with
  | mk label children =>
    rw [Node.preorder_eq, List.mem_cons] at hnode
    rcases hnode with rfl | hnode
    · exact ⟨le_rfl, le_rfl⟩
    · obtain ⟨child, hchild, hstart, hstop⟩ :=
        forest_within children (fun child hchild => h.of_mem_children hchild) hnode
      obtain ⟨hstart', hstop'⟩ := h.inside _ (Node.mem_preorder_self _) child hchild
      exact ⟨hstart'.trans hstart, hstop.trans hstop'⟩
/-- What stands inside one of several placed trees stands between its start and its stop. -/
theorem forest_within (nodes : List Node) (h : ∀ root ∈ nodes, IsPlaced text root)
    (hnode : node ∈ nodes.flatMap Node.preorder) :
    ∃ root ∈ nodes, root.start ≤ node.start ∧ node.stop ≤ root.stop := by
  cases nodes with
  | nil => cases hnode
  | cons first more =>
    rw [List.flatMap_cons, List.mem_append] at hnode
    rcases hnode with hnode | hnode
    · exact ⟨first, List.mem_cons_self, within first (h first List.mem_cons_self) hnode⟩
    · obtain ⟨root, hroot, hwithin⟩ :=
        forest_within more (fun root hroot => h root (List.mem_cons_of_mem _ hroot)) hnode
      exact ⟨root, List.mem_cons_of_mem _ hroot, hwithin⟩
end

/-- Nodes inside different children stand one after the other. -/
theorem stop_le_start {first : Node} (h : IsPlaced text first) (hchild : IsPlaced text child)
    (hapart : first.stop ≤ child.start) (hnode : node ∈ first.preorder)
    (hother : other ∈ child.preorder) : node.stop ≤ other.start :=
  ((within first h hnode).2.trans hapart).trans (within child hchild hother).1

mutual
/-- In preorder, the nodes of a placed tree start one after the other. -/
theorem pairwise_start (root : Node) (h : IsPlaced text root) :
    root.preorder.Pairwise fun a b => a.start ≤ b.start := by
  cases root with
  | mk label children =>
    rw [Node.preorder_eq, List.pairwise_cons]
    refine ⟨fun node hnode => (within _ h ?_).1, ?_⟩
    · rw [Node.preorder_eq]
      exact List.mem_cons_of_mem _ hnode
    · exact forest_pairwise_start children (fun child hchild => h.of_mem_children hchild)
        (h.apart _ (Node.mem_preorder_self _))
/-- The same of several trees one after the other. -/
theorem forest_pairwise_start (nodes : List Node) (h : ∀ root ∈ nodes, IsPlaced text root)
    (hapart : nodes.Pairwise fun a b => a.stop ≤ b.start) :
    (nodes.flatMap Node.preorder).Pairwise fun a b => a.start ≤ b.start := by
  cases nodes with
  | nil => exact .nil
  | cons first more =>
    obtain ⟨hfirst, hmore⟩ := List.forall_mem_cons.mp h
    obtain ⟨hbefore, hapart⟩ := List.pairwise_cons.mp hapart
    rw [List.flatMap_cons, List.pairwise_append]
    refine ⟨pairwise_start first hfirst, forest_pairwise_start more hmore hapart, ?_⟩
    intro node hnode other hother
    obtain ⟨child, hchild, hother⟩ := List.mem_flatMap.mp hother
    have hstands := hfirst.stands node hnode
    exact hstands.start_le_stop.trans
      (hfirst.stop_le_start (hmore child hchild) (hbefore child hchild) hnode hother)
end

/-- The nodes of a placed tree are in order if none below the root is empty. -/
theorem inOrder (h : IsPlaced text root)
    (hne : ∀ node ∈ root.children.flatMap Node.preorder, node.start < node.stop) :
    InOrder text root := by
  have hascending : root.preorder.Pairwise fun a b => a.row ≤ b.row := by
    refine (pairwise_start root h).imp_of_mem fun {a b} ha hb hle => ?_
    exact (h.stands a ha).row_le (h.stands b hb) hle
  have hbelow : ∀ node ∈ root.children.flatMap Node.preorder,
      node.row < (Text.lines text).length := by
    intro node hnode
    refine (h.stands node ?_).row_lt (hne node hnode)
    rw [Node.preorder_eq]
    exact List.mem_cons_of_mem _ hnode
  refine ⟨hascending, fun hchildren node hnode => ?_⟩
  rw [Node.preorder_eq, List.mem_cons] at hnode
  rcases hnode with rfl | hnode
  · -- the root does not start on a later line than its first child
    obtain ⟨child, hchild⟩ := List.exists_mem_of_ne_nil _ hchildren
    have hmem := List.mem_flatMap.mpr ⟨child, hchild, child.mem_preorder_self⟩
    rw [Node.preorder_eq] at hascending
    exact ((List.pairwise_cons.mp hascending).1 child hmem).trans_lt (hbelow child hmem)
  · exact hbelow node hnode

/-- The text of a node in a placed tree is a part of the text around it. -/
theorem isInfix (h : IsPlaced text root) (hnode : node ∈ root.preorder) {part : String}
    (hpiece : root.text? text = some piece) (hpart : node.text? text = some part) :
    part.toList <:+: piece.toList := by
  obtain ⟨hstart, hstop⟩ := within root h hnode
  exact h.standsIn.isInfix (h.stands node hnode) hstart hstop hpiece hpart

end IsPlaced

end ModuleAtlas.Syntax
