import Mathlib.Data.List.Flatten
import ModuleAtlas.Proofs.Syntax.Standing
import ModuleAtlas.Source

/-!
# Exports and the nodes that name them

Every export is recorded for one node inside the syntax tree, whose text is its name and whose line is
its line. The nodes of several exports stand in different children of a node, in source order
(`Declares`), so in a tree that is placed in its text they stand at different places
(`Declares.standApart`). In each language it is known what nodes these are.

* `Go.IsExportedName`, `Python.IsPublicName`, `EcmaScript.IsExportedName` : the nodes that name exports.
* `StandApart` : exports whose names stand at different places of a text.
-/

namespace ModuleAtlas

open Syntax (InOrder IsPlaced)

section Trees

variable {P : Syntax.Node → Prop} {text : String} {root node : Syntax.Node} {parts : List Syntax.Node}
  {exports : List Export} {x : Export} {found : Option Export}

/-! ## Exports for nodes -/

/-- Exports that are recorded for nodes inside a node: one for such a node, or those of several of its
children one after the other. -/
inductive Declares (P : Syntax.Node → Prop) (text : String) : Syntax.Node → List Export → Prop where
  | name {node name : Syntax.Node} {x : Export} (hname : name ∈ node.preorder) (hnames : P name)
      (htext : name.text? text = some x.name) (hline : x.line = name.line) : Declares P text node [x]
  | parts {node : Syntax.Node} {parts : List Syntax.Node} {exports : Syntax.Node → List Export}
      (hparts : parts.Sublist node.children) (h : ∀ part ∈ parts, Declares P text part (exports part)) :
      Declares P text node (parts.flatMap exports)

theorem declares_nil (P : Syntax.Node → Prop) (text : String) (node : Syntax.Node) :
    Declares P text node [] := by
  rw [← List.flatMap_nil (f := fun _ : Syntax.Node => ([] : List Export))]
  exact .parts (List.nil_sublist _) fun _ h => absurd h List.not_mem_nil

theorem declares_toList (h : ∀ x, found = some x → Declares P text node [x]) :
    Declares P text node found.toList := by
  cases found with
  | none => exact declares_nil P text node
  | some x => exact h x rfl

theorem declares_filterMap {f : Syntax.Node → Option Export} (hparts : parts.Sublist node.children)
    (h : ∀ part ∈ parts, ∀ x, f part = some x → Declares P text part [x]) :
    Declares P text node (parts.filterMap f) := by
  rw [List.filterMap_eq_flatMap_toList]
  exact .parts hparts fun part hpart => declares_toList (h part hpart)

/-- An export of what a node spells is recorded for the node. -/
theorem declares_exportOf? {isExported : String → Bool} {kind : SymbolKind} {name : Syntax.Node}
    (h : Extraction.exportOf? text isExported kind name = some x) (hname : name ∈ node.preorder)
    (hnames : P name) : Declares P text node [x] := by
  obtain ⟨spelt, hspelt, rfl⟩ := Option.map_eq_some_iff.mp h
  exact .name hname hnames (Option.filter_eq_some_iff.mp hspelt).1 rfl

namespace Declares

/-- What a child exports is exported by the node around it. -/
theorem of_mem_children {part : Syntax.Node} (h : Declares P text part exports)
    (hpart : part ∈ node.children) : Declares P text node exports := by
  rw [← List.flatMap_singleton (fun _ => exports) part]
  exact .parts (List.singleton_sublist.mpr hpart) fun other hother => List.mem_singleton.mp hother ▸ h

/-- What is exported has a node that names it. -/
theorem exists_node (h : Declares P text node exports) (hx : x ∈ exports) :
    ∃ name ∈ node.preorder, P name ∧ name.text? text = some x.name ∧ x.line = name.line := by
  induction h with
  | name hname hnames htext hline =>
    obtain rfl := List.mem_singleton.mp hx
    exact ⟨_, hname, hnames, htext, hline⟩
  | parts hparts _ ih =>
    obtain ⟨part, hpart, hx⟩ := List.mem_flatMap.mp hx
    obtain ⟨name, hname, hrest⟩ := ih part hpart hx
    exact ⟨name, Syntax.Node.preorder_subset_of_mem_children (hparts.subset hpart) hname, hrest⟩

/-- The lines of exports are among those of the nodes, in their order. -/
theorem lines_sublist (h : Declares P text node exports) :
    (exports.map (·.line)).Sublist (node.preorder.map (·.line)) := by
  induction h with
  | name hname _ _ hline =>
    rw [List.map_singleton, List.singleton_sublist, hline]
    exact List.mem_map_of_mem hname
  | @parts node parts exports hparts _ ih =>
    rw [Syntax.Node.preorder_eq, List.map_cons, List.map_flatMap, List.map_flatMap]
    exact ((List.Sublist.flatMap_right parts ih).trans (hparts.flatMap _)).cons _

end Declares

/-! ## Places of exports -/

/-- The name of an export stands behind so many bytes of a text, and the export has the line of that
place. -/
def Export.StandsAt (x : Export) (text : String) (place : Nat) : Prop :=
  ∃ front rest, text.toList = front ++ (x.name.toList ++ rest) ∧ Text.byteCount front = place ∧
    x.line = front.count '\n' + 1

/-- The names of some exports stand in a text, each at a place of its own, one after the other. -/
def StandApart (text : String) (exports : List Export) : Prop :=
  ∃ placed : List (Export × Nat), placed.map Prod.fst = exports ∧
    (∀ p ∈ placed, p.1.StandsAt text p.2) ∧ placed.Pairwise fun a b => a.2 < b.2

theorem standsAt_of_standsIn {name : Syntax.Node} (h : name.StandsIn text)
    (htext : name.text? text = some x.name) (hline : x.line = name.line) :
    x.StandsAt text name.start := by
  obtain ⟨front, piece, rest, happend, hpiece, hstart, -, hrow⟩ := h.exists_front
  obtain rfl : piece = x.name := Option.some.inj (hpiece.symm.trans htext)
  exact ⟨front, rest, happend, hstart, by rw [hline, Syntax.Node.line, hrow]⟩

/-- Exports that are recorded for nodes inside a placed node stand inside it, one after the other. -/
theorem Declares.exists_placed (h : Declares P text node exports) (hplaced : IsPlaced text node)
    (hne : ∀ name ∈ node.preorder, P name → name.start < name.stop) :
    ∃ placed : List (Export × Nat), placed.map Prod.fst = exports ∧
      (∀ p ∈ placed, p.1.StandsAt text p.2 ∧ node.start ≤ p.2 ∧ p.2 < node.stop) ∧
      placed.Pairwise fun a b => a.2 < b.2 := by
  induction h with
  | @name node name x hname hnames htext hline =>
    obtain ⟨hstart, hstop⟩ := IsPlaced.within node hplaced hname
    refine ⟨[(x, name.start)], rfl, fun p hp => ?_, List.pairwise_singleton _ _⟩
    obtain rfl := List.mem_singleton.mp hp
    exact ⟨standsAt_of_standsIn (hplaced.stands name hname) htext hline, hstart,
      (hne name hname hnames).trans_le hstop⟩
  | @parts node parts exports hparts _ ih =>
    have hinside : ∀ part ∈ parts, ∃ placed : List (Export × Nat), placed.map Prod.fst = exports part ∧
        (∀ p ∈ placed, p.1.StandsAt text p.2 ∧ part.start ≤ p.2 ∧ p.2 < part.stop) ∧
        placed.Pairwise fun a b => a.2 < b.2 := by
      intro part hpart
      have hchild := hparts.subset hpart
      exact ih part hpart (hplaced.of_mem_children hchild) fun name hname =>
        hne name (Syntax.Node.preorder_subset_of_mem_children hchild hname)
    choose! placed hexports hstands hascending using hinside
    refine ⟨parts.flatMap placed, ?_, fun p hp => ?_, ?_⟩
    · rw [List.map_flatMap]
      exact List.flatMap_congr hexports
    · obtain ⟨part, hpart, hp⟩ := List.mem_flatMap.mp hp
      obtain ⟨hat, hstart, hstop⟩ := hstands part hpart p hp
      obtain ⟨hstart', hstop'⟩ :=
        hplaced.inside node node.mem_preorder_self part (hparts.subset hpart)
      exact ⟨hat, hstart'.trans hstart, hstop.trans_le hstop'⟩
    · -- the places in one part lie in front of the next part
      refine List.pairwise_flatMap.mpr ⟨hascending, ?_⟩
      refine ((hplaced.apart node node.mem_preorder_self).sublist hparts).imp_of_mem ?_
      intro a b ha hb hapart p hp q hq
      have hbefore := (hstands a ha p hp).2.2
      have hafter := (hstands b hb q hq).2.1
      omega

/-- Exports that are recorded for nodes which are not empty stand at different places of a text. -/
theorem Declares.standApart (h : Declares P text node exports) (hplaced : IsPlaced text node)
    (hne : ∀ name ∈ node.preorder, P name → name.start < name.stop) : StandApart text exports := by
  obtain ⟨placed, hexports, hstands, hascending⟩ := h.exists_placed hplaced hne
  exact ⟨placed, hexports, fun p hp => (hstands p hp).1, hascending⟩

end Trees

/-! ## Go -/

namespace Go

variable {text : String} {root node : Syntax.Node} {kind : SymbolKind} {x : Export}

/-- The kinds of constructs whose names are exported. -/
def namedKinds : List String :=
  ["function_declaration", "type_spec", "type_alias", "const_spec", "var_spec"]

/-- A node that names an export: it is the name of such a construct, and a visible one. -/
def IsExportedName (text : String) (root name : Syntax.Node) : Prop :=
  (∃ construct ∈ root.preorder, construct.kind ∈ namedKinds ∧ name ∈ construct.childrenAs "name") ∧
    ∃ spelt, name.text? text = some spelt ∧ isExported spelt = true

/-- The export of a name of a construct. -/
theorem declares_nameExport? {name construct : Syntax.Node} (h : nameExport? text kind name = some x)
    (hconstruct : construct ∈ root.preorder) (hkind : construct.kind ∈ namedKinds)
    (hname : name ∈ construct.childrenAs "name") (hinside : name ∈ node.preorder) :
    Declares (IsExportedName text root) text node [x] := by
  refine declares_exportOf? h hinside ⟨⟨construct, hconstruct, hkind, hname⟩, ?_⟩
  obtain ⟨spelt, hspelt, -⟩ := Option.map_eq_some_iff.mp h
  exact ⟨spelt, Option.filter_eq_some_iff.mp hspelt⟩

theorem declares_namedExport? (h : namedExport? text kind node = some x) (hnode : node ∈ root.preorder)
    (hkind : node.kind ∈ namedKinds) : Declares (IsExportedName text root) text node [x] := by
  obtain ⟨name, hname, h⟩ := Option.bind_eq_some_iff.mp h
  obtain ⟨hchild, hfield⟩ := Syntax.Node.mem_children_of_child? hname
  exact declares_nameExport? h hnode hkind (Syntax.Node.mem_childrenAs.mpr ⟨hchild, hfield⟩)
    (Syntax.Node.mem_preorder_of_mem_children hchild)

/-- The exports of several parts are those of each part with a name in the grammar. -/
theorem specsExports_eq (text : String) (kind : SymbolKind) (specs : List Syntax.Node) :
    specsExports text kind specs
      = (specs.filter (·.label.isNamed)).flatMap (specExports text kind) := by
  induction specs with
  | nil => rfl
  | cons spec specs ih =>
    rw [specsExports, ih, List.filter_cons]
    split <;> rfl

mutual
/-- The exports of a part of a declaration are recorded for names of specs in it. -/
theorem declares_specExports (node : Syntax.Node) (hnode : node ∈ root.preorder) :
    Declares (IsExportedName text root) text node (specExports text kind node) := by
  cases node with
  | mk label children =>
    rw [specExports]
    split_ifs with htype hvalue hlist
    · refine declares_toList fun x hx => declares_namedExport? hx hnode ?_
      rw [Bool.or_eq_true, beq_iff_eq, beq_iff_eq] at htype
      rcases htype with hkind | hkind <;> simp [Syntax.Node.kind, Syntax.Node.label, namedKinds, hkind]
    · refine declares_filterMap List.filter_sublist fun name hname x hx => ?_
      refine declares_nameExport? hx hnode ?_ hname name.mem_preorder_self
      rw [Bool.or_eq_true, beq_iff_eq, beq_iff_eq] at hvalue
      rcases hvalue with hkind | hkind <;> simp [Syntax.Node.kind, Syntax.Node.label, namedKinds, hkind]
    · rw [specsExports_eq]
      exact .parts List.filter_sublist fun part hpart =>
        declares_specsExports children (fun _ hchild => Syntax.Node.child_mem_preorder hnode hchild)
          part (List.mem_of_mem_filter hpart)
    · exact declares_nil _ _ _
/-- The same of several parts. -/
theorem declares_specsExports (nodes : List Syntax.Node) (hnodes : ∀ node ∈ nodes, node ∈ root.preorder)
    (part : Syntax.Node) (hpart : part ∈ nodes) :
    Declares (IsExportedName text root) text part (specExports text kind part) := by
  cases nodes with
  | nil => cases hpart
  | cons first more =>
    obtain ⟨hfirst, hmore⟩ := List.forall_mem_cons.mp hnodes
    rcases List.mem_cons.mp hpart with rfl | hpart
    · exact declares_specExports part hfirst
    · exact declares_specsExports more hmore part hpart
end

theorem declares_declarationExports (hnode : node ∈ root.preorder) :
    Declares (IsExportedName text root) text node (declarationExports text node) := by
  have hspecs : ∀ kind, Declares (IsExportedName text root) text node
      (specsExports text kind node.children) := by
    intro kind
    rw [specsExports_eq]
    exact .parts List.filter_sublist fun part hpart =>
      declares_specExports part (Syntax.Node.child_mem_preorder hnode (List.mem_of_mem_filter hpart))
  unfold declarationExports
  split
  · rename_i hkind
    refine declares_toList fun x hx => declares_namedExport? hx hnode ?_
    rw [hkind]
    exact List.mem_cons_self
  · exact hspecs .type
  · exact hspecs .constant
  · exact hspecs .variable
  · exact declares_nil _ _ _

theorem declares_exports (root : Syntax.Node) (text : String) :
    Declares (IsExportedName text root) text root (extraction root text).exports :=
  .parts List.filter_sublist fun _ hnode => declares_declarationExports
    (Syntax.Node.mem_preorder_of_mem_children (List.mem_of_mem_filter hnode))

end Go

/-! ## Python -/

namespace Python

variable {text : String} {root node : Syntax.Node} {kind : SymbolKind} {x : Export}

/-- A node that names an export: an identifier, or the name of a function or a class. -/
def IsPublicName (root name : Syntax.Node) : Prop :=
  name.kind = "identifier" ∨ ∃ definition ∈ root.preorder,
    definition.kind ∈ ["function_definition", "class_definition"] ∧
      name ∈ definition.childrenAs "name"

theorem declares_namedExport? (h : namedExport? text kind node = some x) (hnode : node ∈ root.preorder)
    (hkind : node.kind ∈ ["function_definition", "class_definition"]) :
    Declares (IsPublicName root) text node [x] := by
  obtain ⟨name, hname, h⟩ := Option.bind_eq_some_iff.mp h
  obtain ⟨hchild, hfield⟩ := Syntax.Node.mem_children_of_child? hname
  exact declares_exportOf? h (Syntax.Node.mem_preorder_of_mem_children hchild)
    (.inr ⟨node, hnode, hkind, Syntax.Node.mem_childrenAs.mpr ⟨hchild, hfield⟩⟩)

theorem declares_assignmentExport? (h : assignmentExport? text node = some x) :
    Declares (IsPublicName root) text node [x] := by
  obtain ⟨assignment, hassignment, h⟩ := Option.bind_eq_some_iff.mp h
  rw [Option.ite_none_right_eq_some] at h
  obtain ⟨target, htarget, h⟩ := Option.bind_eq_some_iff.mp h.2
  rw [targetExport?, Option.ite_none_right_eq_some, beq_iff_eq] at h
  obtain ⟨hkind, h⟩ := h
  obtain ⟨spelt, hspelt, rfl⟩ := Option.map_eq_some_iff.mp h
  have hinside := Syntax.Node.child_mem_preorder
    (Syntax.Node.mem_preorder_of_mem_children
      (List.mem_of_mem_filter (List.mem_of_mem_head? hassignment)))
    (Syntax.Node.mem_children_of_child? htarget).1
  exact .name hinside (.inl hkind) (Option.filter_eq_some_iff.mp hspelt).1 rfl

mutual
theorem declares_definitionExport? (node : Syntax.Node) (hnode : node ∈ root.preorder)
    (h : definitionExport? text node = some x) : Declares (IsPublicName root) text node [x] := by
  cases node with
  | mk label children =>
    rw [definitionExport?] at h
    split at h
    · rename_i hkind
      exact declares_namedExport? h hnode (by simp [Syntax.Node.kind, Syntax.Node.label, hkind])
    · rename_i hkind
      exact declares_namedExport? h hnode (by simp [Syntax.Node.kind, Syntax.Node.label, hkind])
    · obtain ⟨part, hpart, hdeclares⟩ := declares_decoratedExport? children
        (fun _ hchild => Syntax.Node.child_mem_preorder hnode hchild) h
      exact hdeclares.of_mem_children hpart
    · exact declares_assignmentExport? h
    · cases h
theorem declares_decoratedExport? (parts : List Syntax.Node)
    (hparts : ∀ part ∈ parts, part ∈ root.preorder) (h : decoratedExport? text parts = some x) :
    ∃ part ∈ parts, Declares (IsPublicName root) text part [x] := by
  cases parts with
  | nil => cases h
  | cons part more =>
    obtain ⟨hpart, hmore⟩ := List.forall_mem_cons.mp hparts
    rw [decoratedExport?] at h
    split at h
    · exact ⟨part, List.mem_cons_self, declares_definitionExport? part hpart h⟩
    · obtain ⟨other, hother, hdeclares⟩ := declares_decoratedExport? more hmore h
      exact ⟨other, List.mem_cons_of_mem _ hother, hdeclares⟩
end

theorem declares_exports (root : Syntax.Node) (text : String) :
    Declares (IsPublicName root) text root (extraction root text).exports :=
  declares_filterMap List.filter_sublist fun part hpart _ h => declares_definitionExport? part
    (Syntax.Node.mem_preorder_of_mem_children (List.mem_of_mem_filter hpart)) h

end Python

/-! ## ECMAScript -/

namespace EcmaScript

variable {text : String} {node part : Syntax.Node} {kind : SymbolKind} {x : Export}

/-- A node that names an export: a name that is no destructuring. -/
def IsExportedName (name : Syntax.Node) : Prop := name.kind ∈ exportedKinds

theorem declares_namedExport? (h : namedExport? text kind node = some x) :
    Declares IsExportedName text node [x] := by
  obtain ⟨name, hname, h⟩ := Option.bind_eq_some_iff.mp h
  obtain ⟨hname, hkind⟩ := Option.filter_eq_some_iff.mp hname
  exact declares_exportOf? h
    (Syntax.Node.mem_preorder_of_mem_children (Syntax.Node.mem_children_of_child? hname).1)
    (List.contains_iff_mem.mp hkind)

theorem declares_partExports (part : Syntax.Node) :
    Declares IsExportedName text part (partExports text part) := by
  unfold partExports
  split_ifs
  iterate 2 exact declares_toList fun _ => declares_namedExport?
  iterate 2 exact declares_filterMap List.filter_sublist fun _ _ _ => declares_namedExport?
  exact declares_nil _ _ _

theorem declares_statementExports (node : Syntax.Node) :
    Declares IsExportedName text node (statementExports text node) := by
  unfold statementExports
  split_ifs
  · exact declares_nil _ _ _
  · exact .parts (List.Sublist.refl _) fun part _ => declares_partExports part
  · exact declares_nil _ _ _

theorem declares_exports (root : Syntax.Node) (text : String) :
    Declares IsExportedName text root (extraction root text).exports :=
  .parts (List.Sublist.refl _) fun node _ => declares_statementExports node

end EcmaScript

end ModuleAtlas
