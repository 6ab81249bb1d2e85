import ModuleAtlas.Grammar
import ModuleAtlas.Proofs.Analysis
import ModuleAtlas.Proofs.DeadExport
import ModuleAtlas.Proofs.Syntax.Node

/-!
# Exports under other names

The list of an export statement can give a name away under another one, as in `export { a as b }` or
`export { a as default }`. What is recorded is `a`, the name in front, whatever the other name is
(`mem_exports_of_mem_specifiers`), whereas an import of it lists `b`. So the export of a specifier is
reported unless it is exempt or the name in front is used somewhere, and imports of the other name
make no difference (`mem_deadExports_specifier`).
-/

namespace ModuleAtlas

variable {α : Type} [Average α]

namespace EcmaScript

/-! ## Specifiers -/

/-- A name in the list of an export statement, with the other name it is given there. -/
structure Specifier where
  name : String
  /-- the kind of the node that spells the name -/
  kind : String
  line : Nat
  renamed : Option String := none
  deriving DecidableEq, Repr

variable {text : String} {root statement : Syntax.Node} {s : Specifier}

/-- The export that is recorded for the name in front. -/
def Specifier.export (s : Specifier) : Export := ⟨s.name, .variable, s.line⟩

/-- The specifier that a node is. -/
def specifierOf? (text : String) (node : Syntax.Node) : Option Specifier := do
  let own ← node.child? "name"
  let name ← own.text? text
  some ⟨name, own.kind, own.line, (node.child? "alias").bind (·.text? text)⟩

/-- The specifiers of an export statement that has no source and exports no default by itself. -/
def specifiersOf (text : String) (statement : Syntax.Node) : List Specifier :=
  if (statement.child? "source").isSome || statement.children.any (·.kind == "default") then []
  else (statement.childrenOf "export_clause").flatMap fun clause =>
    (clause.childrenOf "export_specifier").filterMap (specifierOf? text)

/-- The specifiers in the export statements at the top level of a file. -/
def specifiers (root : Syntax.Node) (text : String) : List Specifier :=
  (root.childrenOf "export_statement").flatMap (specifiersOf text)

/-- The names in front are exported, unless they are quoted. -/
theorem namedExport?_of_specifierOf? {node : Syntax.Node} (h : specifierOf? text node = some s)
    (hkind : s.kind ∈ exportedKinds) : namedExport? text .variable node = some s.export := by
  obtain ⟨own, hown, h⟩ := Option.bind_eq_some_iff.mp h
  obtain ⟨name, hname, h⟩ := Option.bind_eq_some_iff.mp h
  cases h
  rw [namedExport?, hown, Option.filter_some, if_pos (List.contains_iff_mem.mpr hkind), Option.bind_some,
    Extraction.exportOf?, hname]
  rfl

/-- Every specifier with a plain name in front is an export of that name. -/
theorem mem_exports_of_mem_specifiers (hs : s ∈ specifiers root text) (hkind : s.kind ∈ exportedKinds) :
    s.export ∈ (extraction root text).exports := by
  obtain ⟨statement, hstatement, hs⟩ := List.mem_flatMap.mp hs
  obtain ⟨hchild, hexport⟩ := Syntax.Node.mem_childrenOf.mp hstatement
  rw [specifiersOf, List.mem_ite_nil_left] at hs
  obtain ⟨hplain, hs⟩ := hs
  obtain ⟨clause, hclause, hs⟩ := List.mem_flatMap.mp hs
  obtain ⟨node, hnode, hs⟩ := List.mem_filterMap.mp hs
  obtain ⟨hpart, hlist⟩ := Syntax.Node.mem_childrenOf.mp hclause
  refine List.mem_flatMap.mpr ⟨statement, hchild, ?_⟩
  rw [statementExports, if_pos (beq_iff_eq.mpr hexport), if_neg hplain]
  refine List.mem_flatMap.mpr ⟨clause, hpart, ?_⟩
  have hexports : partExports text clause
      = (clause.childrenOf "export_specifier").filterMap (namedExport? text .variable) := by
    rw [partExports, hlist]
    rfl
  rw [hexports]
  exact List.mem_filterMap.mpr ⟨node, hnode, namedExport?_of_specifierOf? hs hkind⟩

end EcmaScript

open EcmaScript (Specifier)

section Parser

variable [Syntax.Parser] {files : List SourceFile} {file : SourceFile} {s : Specifier}

/-! ## Specifiers of a file -/

namespace SourceFile

/-- The syntax tree of a TypeScript or JavaScript file that can be read, and its text. -/
def script? (file : SourceFile) : Option (Syntax.Node × String) :=
  if file.language = .typeScript ∨ file.language = .javaScript then
    (String.fromUTF8? file.content).bind fun text =>
      let tree := Syntax.parse (dialectOf file.language file.path) text
      if tree.hasError then none else some (tree.root, text)
  else none

/-- The specifiers in the export statements of a TypeScript or JavaScript file. -/
def specifiers (file : SourceFile) : List Specifier :=
  match file.script? with
  | some (root, text) => EcmaScript.specifiers root text
  | none => []

/-- What is extracted from a file is what its syntax tree holds. -/
theorem extract_of_script? {root : Syntax.Node} {text : String} (h : file.script? = some (root, text)) :
    file.extract = .ok (EcmaScript.extraction root text) := by
  rw [script?, Option.ite_none_right_eq_some] at h
  obtain ⟨hlanguage, h⟩ := h
  obtain ⟨text', htext, h⟩ := Option.bind_eq_some_iff.mp h
  dsimp only at h
  rw [Option.ite_none_left_eq_some] at h
  obtain ⟨haccepted, h⟩ := h
  cases h
  refine extract_eq_ok_iff.mpr ⟨text, htext, extractText_eq_ok_iff.mpr ⟨?_, ?_⟩⟩
  · rwa [Bool.not_eq_true] at haccepted
  · rcases hlanguage with hlanguage | hlanguage <;> rw [hlanguage] <;> rfl

/-- The imports and the identifiers of a file can be read off its syntax tree. -/
theorem exists_extract_of_script? {imports : List Import} {words : List String}
    (h : (file.script?.map fun (root, text) => ((EcmaScript.extraction root text).imports,
      (root.preorder.filter fun node => EcmaScript.identifierKinds.contains node.kind).filterMap
        (·.text? text))) = some (imports, words)) :
    ∃ e, file.extract = .ok e ∧ e.imports = imports ∧ ∀ word, word ∈ e.identifiers ↔ word ∈ words := by
  obtain ⟨⟨root, text⟩, hscript, heq⟩ := Option.map_eq_some_iff.mp h
  obtain ⟨himports, hwords⟩ := Prod.mk.inj heq
  refine ⟨_, extract_of_script? hscript, himports, fun word => ?_⟩
  rw [EcmaScript.extraction, Extraction.identifiersOf, Text.mem_sortedUnique, hwords]

theorem exists_script_of_mem_specifiers (hs : s ∈ file.specifiers) :
    ∃ root text, file.script? = some (root, text) ∧ s ∈ EcmaScript.specifiers root text := by
  unfold specifiers at hs
  split at hs
  · rename_i root text hscript
    exact ⟨root, text, hscript, hs⟩
  · cases hs

theorem language_ne_go_of_mem_specifiers (hs : s ∈ file.specifiers) : file.language ≠ .go := by
  obtain ⟨root, text, hscript, -⟩ := exists_script_of_mem_specifiers hs
  rw [script?, Option.ite_none_right_eq_some] at hscript
  intro hgo
  rw [hgo] at hscript
  exact absurd hscript.1 (by decide)

end SourceFile

/-! ## What is reported of a specifier -/

/-- An export is not used if no file with imports names it and no import takes in every name. -/
theorem not_used_of_forall {manifest : Manifest} {g : Graph} {x : DeadExport}
    (h : ∀ file ∈ files, ∀ extraction, file.extract = .ok extraction →
      ∀ i ∈ extraction.imports,
        i.wildcard = false ∧ x.name ∉ i.names ∧ x.name ∉ extraction.identifiers) :
    ¬ (linkedProject files manifest).Used g x := by
  rintro ⟨id, -, facts, hfacts, e, he, target, -, -, hnames⟩
  obtain ⟨file, hfile, -, hextract, hedges⟩ := exists_file_of_facts? hfacts
  rw [hedges] at he
  obtain ⟨i, hi, rfl⟩ := List.mem_map.mp he
  obtain ⟨hwildcard, hlisted, hword⟩ := h file hfile _ hextract i hi
  rcases hnames with htakes | hlists | hoccurs
  · rw [hwildcard] at htakes
    cases htakes
  · exact hlisted hlists
  · exact hword hoccurs

/-- A specifier is an export of the name in front, be there another name or not. -/
theorem reported_mem_exports (hpaths : (files.map (·.path)).Nodup) (hfile : file ∈ files)
    (hsource : file.fileClass = .source) (hs : s ∈ file.specifiers)
    (hkind : s.kind ∈ EcmaScript.exportedKinds) (manifest : Manifest) :
    Project.reported file.path s.export ∈ (linkedProject files manifest).exports := by
  obtain ⟨root, text, hscript, hs⟩ := SourceFile.exists_script_of_mem_specifiers hs
  have hfacts := facts?_linkedProject hpaths hfile hsource (SourceFile.extract_of_script? hscript)
    manifest
  exact Project.mem_exports.mpr
    ⟨_, hfacts, _, EcmaScript.mem_exports_of_mem_specifiers hs hkind, rfl⟩

/-- A file with specifiers is not written in Go. -/
theorem not_isGo_of_mem_specifiers (hpaths : (files.map (·.path)).Nodup) (hfile : file ∈ files)
    (hsource : file.fileClass = .source) (hs : s ∈ file.specifiers) (manifest : Manifest) :
    ¬ (linkedProject files manifest).IsGo file.path := by
  obtain ⟨root, text, hscript, -⟩ := SourceFile.exists_script_of_mem_specifiers hs
  have hfacts := facts?_linkedProject hpaths hfile hsource (SourceFile.extract_of_script? hscript)
    manifest
  rw [Project.isGo_iff hfacts]
  exact SourceFile.language_ne_go_of_mem_specifiers hs

/-- Whatever other name a specifier gives, also if that is `default`, it is an export of the name in
front, and this is reported unless it is exempt or used under the name in front. -/
theorem mem_deadExports_specifier (hpaths : (files.map (·.path)).Nodup) (hfile : file ∈ files)
    (hsource : file.fileClass = .source) (hs : s ∈ file.specifiers)
    (hkind : s.kind ∈ EcmaScript.exportedKinds) (manifest : Manifest) (settings : AnalysisSettings) :
    let p := linkedProject files manifest
    let g := projectGraph files manifest
    let x := Project.reported file.path s.export
    x ∈ p.exports ∧
    (x ∈ (analyzeProject files manifest settings : Metrics α).deadExports ↔
      ¬ p.Exempt g settings file.path ∧ ¬ p.Used g x) := by
  intro p g x
  have hexport : x ∈ p.exports := reported_mem_exports hpaths hfile hsource hs hkind manifest
  have hlisted : ¬ p.Unlisted x.module := fun hunlisted =>
    not_isGo_of_mem_specifiers hpaths hfile hsource hs manifest hunlisted.1
  refine ⟨hexport, ?_⟩
  rw [deadExports_analyzeProject, Project.mem_deadExports (closed_projectGraph _ _)]
  constructor
  · rintro ⟨-, hexempt, hused⟩
    exact ⟨hexempt, fun h => hlisted (hused h)⟩
  · rintro ⟨hexempt, hunused⟩
    exact ⟨hexport, hexempt, fun h => absurd h hunused⟩

end Parser

/-- A module that exports two of its variables under other names, one of them as the default. -/
def renamingModule : SourceFile where
  path := "m.ts"
  language := .typeScript
  content := "const a = 1;\nconst c = 2;\nexport \x7b a as b, c as default \x7d;\n".toUTF8

/-- A program that imports both. -/
def renamingProgram : SourceFile where
  path := "main.ts"
  language := .typeScript
  content := "import d, \x7b b \x7d from './m';\nb(d);\n".toUTF8

theorem specifiers_renamingModule : renamingModule.specifiers =
    [⟨"a", "identifier", 3, some "b"⟩, ⟨"c", "identifier", 3, some "default"⟩] := by
  decide +kernel

theorem mem_deadExports_renamingModule :
    let files := [renamingProgram, renamingModule]
    let s : Specifier := ⟨"a", "identifier", 3, some "b"⟩
    let p := linkedProject files {}
    let x := Project.reported "m.ts" s.export
    ((files.map (·.path)).Nodup ∧ renamingModule ∈ files ∧ renamingModule.fileClass = .source ∧
      s ∈ renamingModule.specifiers ∧ s.kind ∈ EcmaScript.exportedKinds) ∧
    x ∈ p.exports ∧
    (x ∈ (analyzeProject files {} {} : Metrics ℚ).deadExports ↔
      ¬ p.Exempt (projectGraph files {}) {} "m.ts" ∧ ¬ p.Used (projectGraph files {}) x) := by
  intro files s p x
  have hpaths : (files.map (·.path)).Nodup := by decide
  have hfile : renamingModule ∈ files := List.mem_of_mem_getLast? rfl
  have hs : s ∈ renamingModule.specifiers := by
    rw [specifiers_renamingModule]
    exact List.mem_cons_self
  have hkind : s.kind ∈ EcmaScript.exportedKinds := by decide
  exact ⟨⟨hpaths, hfile, rfl, hs, hkind⟩, mem_deadExports_specifier hpaths hfile rfl hs hkind {} {}⟩

/-- Both are reported as unused, one although the program lists its other name, and the other although
it is the default. -/
theorem deadExports_renamingModule :
    let files := [renamingProgram, renamingModule]
    (∃ facts, (linkedProject files {}).facts? "main.ts" = some facts ∧
      ∃ e ∈ facts.edges, e.target? = some "m.ts" ∧ "b" ∈ e.statement.names) ∧
    (renamingModule.specifiers.map fun s => (s.name, s.renamed))
      = [("a", some "b"), ("c", some "default")] ∧
    ∀ s ∈ renamingModule.specifiers, Project.reported "m.ts" s.export
      ∈ (analyzeProject files {} {} : Metrics ℚ).deadExports := by
  intro files
  have hpaths : (files.map (·.path)).Nodup := by decide
  have hprogram : renamingProgram ∈ files := List.mem_cons_self
  have hmodule : renamingModule ∈ files := List.mem_of_mem_getLast? rfl
  have hreadProgram : ∃ e, renamingProgram.extract = .ok e ∧
      e.imports = [{ source := "./m", names := ["b"], line := 1 }] ∧
      ∀ word, word ∈ e.identifiers ↔ word ∈ ["d", "b", "b", "d"] :=
    SourceFile.exists_extract_of_script? (by decide +kernel)
  have hreadModule : renamingModule.extract.toOption.map (·.imports) = some [] := by decide +kernel
  obtain ⟨read, hread, himports, hwords⟩ := hreadProgram
  obtain ⟨read', hread', himports'⟩ := SourceFile.exists_extract_of_map hreadModule
  refine ⟨?_, by rw [specifiers_renamingModule]; rfl, fun s hs => ?_⟩
  · refine ⟨_, facts?_linkedProject hpaths hprogram rfl hread {}, ?_⟩
    dsimp only
    rw [himports]
    refine ⟨_, List.mem_cons_self, ?_, List.mem_cons_self⟩
    show Resolution.target? _ = _
    decide +kernel
  · have hfields : s.kind ∈ EcmaScript.exportedKinds ∧ s.name ∈ ["a", "c"] := by
      rw [specifiers_renamingModule] at hs
      revert s
      decide
    obtain ⟨hkind, hname⟩ := hfields
    have hexport := reported_mem_exports hpaths hmodule rfl hs hkind {}
    -- the program is the only file with imports, and neither of the two names occurs in it
    have hunused : ¬ (linkedProject files {}).Used (projectGraph files {})
        (Project.reported "m.ts" s.export) := by
      refine not_used_of_forall fun file hfile extraction hextract i hi => ?_
      rcases List.mem_pair.mp hfile with rfl | rfl
      · rw [hread] at hextract
        cases hextract
        rw [himports, List.mem_singleton] at hi
        subst hi
        rw [hwords]
        show _ ∧ s.name ∉ ["b"] ∧ s.name ∉ ["d", "b", "b", "d"]
        revert hname
        generalize s.name = name
        revert name
        decide
      · rw [hread'] at hextract
        cases hextract
        rw [himports'] at hi
        cases hi
    have hexempt : ¬ (linkedProject files {}).Exempt (projectGraph files {}) {} "m.ts" := by
      rintro (⟨hignored, -⟩ | ⟨hgo, -⟩)
      · cases hignored
      · exact not_isGo_of_mem_specifiers hpaths hmodule rfl hs {} hgo
    rw [deadExports_analyzeProject, Project.mem_deadExports (closed_projectGraph _ _)]
    exact ⟨hexport, hexempt, fun hused => absurd hused hunused⟩

end ModuleAtlas
