import ModuleAtlas.Grammar
import ModuleAtlas.Proofs.Identifier

/-!
# Imports and exports in source order

Imports are gathered from the nodes of a syntax tree, each before what is inside it, with the line where
the node starts (`exists_imports_eq`), and exports are recorded for nodes, with their lines. So if the
nodes of the tree start one after the other, then in both lists the lines ascend, and each of them is a
line of the text (`lines_extractText`).
-/

namespace ModuleAtlas

open Syntax (InOrder)
open Syntax.Node (mem_children_of_child? mem_childrenAs mem_preorder_of_mem_visits)

section Trees

variable {language : Language} {text : String} {root node : Syntax.Node}
  {visit : Option Syntax.Node × Syntax.Node} {i : Import}

/-! ## Lines of imports -/

/-- An import that a node stands for: it has the line of the node, and the node is no leaf. -/
structure IsImportOf (i : Import) (node : Syntax.Node) : Prop where
  line_eq : i.line = node.line
  ne_nil : node.children ≠ []

theorem Go.isImportOf (h : Go.importOf? text node = some i) : IsImportOf i node := by
  unfold Go.importOf? at h
  split at h
  · obtain ⟨path, hpath, rfl⟩ := Option.map_eq_some_iff.mp h
    obtain ⟨child, hchild, -⟩ := Option.bind_eq_some_iff.mp hpath
    exact ⟨rfl, List.ne_nil_of_mem (mem_children_of_child? hchild).1⟩
  · cases h

theorem Python.isImportOf (h : i ∈ Python.importsOf text node) : IsImportOf i node := by
  unfold Python.importsOf at h
  split at h
  · obtain ⟨module, hmodule, rfl⟩ := List.mem_map.mp h
    obtain ⟨name, hname, -⟩ := List.mem_filterMap.mp hmodule
    exact ⟨rfl, List.ne_nil_of_mem (mem_childrenAs.mp hname).1⟩
  · obtain ⟨module, hmodule, rfl⟩ := Option.map_eq_some_iff.mp (Option.mem_toList.mp h)
    obtain ⟨child, hchild, -⟩ := Option.bind_eq_some_iff.mp hmodule
    exact ⟨rfl, List.ne_nil_of_mem (mem_children_of_child? hchild).1⟩
  · cases h

theorem EcmaScript.isImportOf (h : EcmaScript.importOf? text visit = some i) :
    IsImportOf i visit.2 := by
  unfold EcmaScript.importOf? at h
  split at h
  · unfold importStatement? at h
    split at h
    · rename_i literal hliteral
      obtain ⟨source, -, rfl⟩ := Option.map_eq_some_iff.mp h
      exact ⟨rfl, List.ne_nil_of_mem (mem_children_of_child? hliteral).1⟩
    · obtain ⟨source, hsource, rfl⟩ := Option.map_eq_some_iff.mp h
      obtain ⟨literal, hliteral, -⟩ := Option.bind_eq_some_iff.mp hsource
      obtain ⟨clause, hclause, -⟩ := Option.bind_eq_some_iff.mp hliteral
      exact ⟨rfl, List.ne_nil_of_mem (List.mem_of_find?_eq_some hclause)⟩
  · obtain ⟨source, hsource, rfl⟩ := Option.map_eq_some_iff.mp h
    obtain ⟨literal, hliteral, -⟩ := Option.bind_eq_some_iff.mp hsource
    exact ⟨rfl, List.ne_nil_of_mem (mem_children_of_child? hliteral).1⟩
  · simp only [callImport?, bind, Option.bind_eq_some_iff] at h
    obtain ⟨function, hfunction, _, -, _, -, _, -, _, -, _, -, h⟩ := h
    cases h
    exact ⟨rfl, List.ne_nil_of_mem (mem_children_of_child? hfunction).1⟩
  · cases h

/-- The imports of a file are those that its nodes stand for. -/
theorem exists_imports_eq (language : Language) (root : Syntax.Node) (text : String) :
    ∃ importsAt : Option Syntax.Node × Syntax.Node → List Import,
      (language.extraction root text).imports = root.visits.flatMap importsAt ∧
        ∀ visit, ∀ i ∈ importsAt visit, IsImportOf i visit.2 := by
  have hscript : ∃ importsAt : Option Syntax.Node × Syntax.Node → List Import,
      root.visits.filterMap (EcmaScript.importOf? text) = root.visits.flatMap importsAt ∧
        ∀ visit, ∀ i ∈ importsAt visit, IsImportOf i visit.2 :=
    ⟨_, List.filterMap_eq_flatMap_toList _ _, fun _ _ hi =>
      EcmaScript.isImportOf (Option.mem_toList.mp hi)⟩
  cases language with
  | go =>
    refine ⟨fun visit => (Go.importOf? text visit.2).toList, ?_, fun _ _ hi =>
      Go.isImportOf (Option.mem_toList.mp hi)⟩
    show root.preorder.filterMap _ = _
    rw [List.filterMap_eq_flatMap_toList, Syntax.Node.preorder, List.flatMap_map]
  | python =>
    refine ⟨fun visit => Python.importsOf text visit.2, ?_, fun _ _ hi => Python.isImportOf hi⟩
    show root.preorder.flatMap _ = _
    rw [Syntax.Node.preorder, List.flatMap_map]
  | typeScript => exact hscript
  | javaScript => exact hscript

theorem exists_node_of_mem_imports (hi : i ∈ (language.extraction root text).imports) :
    ∃ node ∈ root.preorder, IsImportOf i node := by
  obtain ⟨importsAt, himports, hat⟩ := exists_imports_eq language root text
  rw [himports] at hi
  obtain ⟨visit, hvisit, hi⟩ := List.mem_flatMap.mp hi
  exact ⟨visit.2, mem_preorder_of_mem_visits hvisit, hat visit i hi⟩

/-! ## Lines in order -/

theorem pairwise_line_imports (h : root.preorder.Pairwise fun a b => a.row ≤ b.row) :
    ((language.extraction root text).imports.map (·.line)).Pairwise (· ≤ ·) := by
  obtain ⟨importsAt, himports, hat⟩ := exists_imports_eq language root text
  rw [himports, List.pairwise_map, List.pairwise_flatMap]
  refine ⟨fun visit _ => List.pairwise_of_forall_mem_list fun i hi j hj => ?_, ?_⟩
  · rw [(hat visit i hi).line_eq, (hat visit j hj).line_eq]
  · refine (List.pairwise_map.mp h).imp fun hle i hi j hj => ?_
    rw [(hat _ i hi).line_eq, (hat _ j hj).line_eq]
    exact Nat.succ_le_succ hle

theorem pairwise_line_exports (h : root.preorder.Pairwise fun a b => a.row ≤ b.row) :
    ((language.extraction root text).exports.map (·.line)).Pairwise (· ≤ ·) := by
  refine List.Pairwise.sublist (declares_exports language root text).lines_sublist ?_
  exact List.pairwise_map.mpr (h.imp fun hle => Nat.succ_le_succ hle)

/-- A tree with imports or exports in it is more than its root. -/
theorem children_ne_nil_of_mem {line : Nat}
    (h : line ∈ (language.extraction root text).imports.map (·.line) ++
      (language.extraction root text).exports.map (·.line)) : root.children ≠ [] := by
  intro hnil
  rcases List.mem_append.mp h with h | h
  · obtain ⟨i, hi, -⟩ := List.mem_map.mp h
    obtain ⟨node, hnode, hat⟩ := exists_node_of_mem_imports hi
    rw [Syntax.Node.preorder_eq, hnil] at hnode
    obtain rfl := List.mem_singleton.mp hnode
    exact hat.ne_nil hnil
  · have hexports : (language.extraction root text).exports = [] := by
      cases language with
      | go =>
        show (root.children.filter _).flatMap _ = []
        rw [hnil]
        rfl
      | python =>
        show (root.children.filter _).filterMap _ = []
        rw [hnil]
        rfl
      | typeScript | javaScript =>
        show root.children.flatMap _ = []
        rw [hnil]
        rfl
    rw [hexports] at h
    cases h

theorem exists_node_of_mem_lines {line : Nat}
    (h : line ∈ (language.extraction root text).imports.map (·.line) ++
      (language.extraction root text).exports.map (·.line)) :
    ∃ node ∈ root.preorder, line = node.line := by
  rcases List.mem_append.mp h with h | h
  · obtain ⟨i, hi, rfl⟩ := List.mem_map.mp h
    obtain ⟨node, hnode, hat⟩ := exists_node_of_mem_imports hi
    exact ⟨node, hnode, hat.line_eq⟩
  · obtain ⟨x, hx, rfl⟩ := List.mem_map.mp h
    obtain ⟨name, hname, -, -, hline⟩ := (declares_exports language root text).exists_node hx
    exact ⟨name, hname, hline⟩

end Trees

/-- In every language, the imports of a text have ascending lines, its exports have ascending lines,
and all of them are lines of the text. -/
theorem lines_extractText [Syntax.Parser] {language : Language} {path text : String} {e : Extraction}
    (horder : InOrder text (Syntax.parse (dialectOf language path) text).root)
    (h : extractText language path text = .ok e) :
    (e.imports.map (·.line)).Pairwise (· ≤ ·) ∧ (e.exports.map (·.line)).Pairwise (· ≤ ·) ∧
    ∀ line ∈ e.imports.map (·.line) ++ e.exports.map (·.line),
      1 ≤ line ∧ line ≤ (Text.lines text).length := by
  obtain ⟨-, rfl⟩ := extractText_eq_ok_iff.mp h
  refine ⟨pairwise_line_imports horder.ascending, pairwise_line_exports horder.ascending, ?_⟩
  intro line hline
  obtain ⟨node, hnode, rfl⟩ := exists_node_of_mem_lines hline
  exact ⟨Nat.succ_pos node.row, horder.inside (children_ne_nil_of_mem hline) node hnode⟩

/-- A module with an import inside a declaration, and exports on several lines. -/
def layeredText : String :=
  "import \x7b a \x7d from './a';\nexport const x = 1,\n  y = require('./b');\nexport \x7b a \x7d;\n"

theorem lines_layeredText :
    InOrder layeredText (Syntax.parse (dialectOf .typeScript "m.ts") layeredText).root ∧
    ∃ e, extractText .typeScript "m.ts" layeredText = .ok e ∧
    e.imports.map (·.line) = [1, 3] ∧ e.exports.map (·.line) = [2, 3, 4] ∧
    (Text.lines layeredText).length = 4 ∧
    (e.imports.map (·.line)).Pairwise (· ≤ ·) ∧ (e.exports.map (·.line)).Pairwise (· ≤ ·) ∧
    ∀ line ∈ e.imports.map (·.line) ++ e.exports.map (·.line),
      1 ≤ line ∧ line ≤ (Text.lines layeredText).length := by
  have horder : InOrder layeredText (Syntax.parse (dialectOf .typeScript "m.ts") layeredText).root := by
    decide +kernel
  have hread : (extractText .typeScript "m.ts" layeredText).toOption.map (fun e =>
      (e.imports.map (·.line), e.exports.map (·.line))) = some ([1, 3], [2, 3, 4]) := by
    decide +kernel
  refine ⟨horder, ?_⟩
  cases hextract : extractText .typeScript "m.ts" layeredText with
  | error line =>
    rw [hextract] at hread
    cases hread
  | ok e =>
    rw [hextract] at hread
    obtain ⟨himports, hexports⟩ := Prod.mk.inj (Option.some.inj hread)
    exact ⟨e, rfl, himports, hexports, by decide +kernel, lines_extractText horder hextract⟩

end ModuleAtlas
