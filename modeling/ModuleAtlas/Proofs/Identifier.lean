import ModuleAtlas.Proofs.Declaration
import ModuleAtlas.Proofs.NodeType
import ModuleAtlas.Proofs.Project

/-!
# Exported names are identifiers

Exports and identifiers are read off a syntax tree in two ways: the exports by the constructs at the
top level, the identifiers by the kinds of the nodes. What names an export is a node of one of these
kinds (`kind_mem_of_names`), so every exported name is among the identifiers of the file
(`name_mem_identifiers`). In TypeScript and JavaScript the exports ask for the kind themselves; in Go
and Python the grammar has to see to it.
-/

namespace ModuleAtlas

open Extraction (identifiersOf)

/-! ## Identifiers -/

theorem Extraction.mem_identifiersOf {kinds : List String} {root : Syntax.Node} {text name : String} :
    name ∈ identifiersOf kinds root text ↔
      ∃ node ∈ root.preorder, node.kind ∈ kinds ∧ node.text? text = some name := by
  simp only [identifiersOf, Text.mem_sortedUnique, List.mem_filterMap, List.mem_filter,
    List.contains_iff_mem, and_assoc]

/-- The identifiers of a text are the words of its grammar. -/
theorem identifiers_extraction (language : Language) (root : Syntax.Node) (text : String) :
    (language.extraction root text).identifiers = identifiersOf language.nodeTypes.words root text := by
  cases language <;> rfl

theorem mem_identifiers_extraction {language : Language} {root : Syntax.Node} {text name : String} :
    name ∈ (language.extraction root text).identifiers ↔
      ∃ node ∈ root.preorder, node.kind ∈ language.nodeTypes.words ∧ node.text? text = some name := by
  rw [identifiers_extraction, Extraction.mem_identifiersOf]

/-! ## What names an export -/

section Trees

variable {text : String} {root name : Syntax.Node} {language : Language} {x : Export}

/-- A node that names an export of a text in a language. -/
def Names (language : Language) (text : String) (root : Syntax.Node) : Syntax.Node → Prop :=
  match language with
  | .go => Go.IsExportedName text root
  | .python => Python.IsPublicName root
  | .typeScript | .javaScript => EcmaScript.IsExportedName

theorem declares_exports (language : Language) (root : Syntax.Node) (text : String) :
    Declares (Names language text root) text root (language.extraction root text).exports := by
  cases language with
  | go => exact Go.declares_exports root text
  | python => exact Python.declares_exports root text
  | typeScript => exact EcmaScript.declares_exports root text
  | javaScript => exact EcmaScript.declares_exports root text

/-- In Go, the names of constructs are identifiers or commas, and no comma is visible. -/
theorem Go.kind_mem_of_isExportedName (h : Go.nodeTypes.Describe text root)
    (hname : Go.IsExportedName text root name) (hmem : name ∈ root.preorder) :
    name.kind ∈ Go.identifierKinds := by
  obtain ⟨⟨construct, hconstruct, hkind, hchild⟩, spelt, hspelt, hexported⟩ := hname
  have htype := h.type_mem hconstruct hkind hchild
    [⟨",", false⟩, { kind := "identifier" }, { kind := "type_identifier" }] (by decide)
  rcases List.mem_cons.mp htype with hcomma | htype
  · obtain ⟨c, hc, hmark⟩ := h.openers _ List.mem_cons_self name hmem hcomma spelt hspelt
    rw [List.mem_singleton.mp hmark] at hc
    rw [Go.isExported, hc, Option.any_some, Bool.and_eq_true, Bool.and_eq_true] at hexported
    exact absurd hexported.1.1 (by decide)
  · rcases List.mem_pair.mp htype with htype | htype <;>
    · rw [show name.kind = _ from congrArg NodeType.kind htype]
      decide

theorem Python.kind_mem_of_isPublicName (h : Python.nodeTypes.Describe text root)
    (hname : Python.IsPublicName root name) : name.kind ∈ Python.identifierKinds := by
  refine List.mem_singleton.mpr ?_
  obtain hkind | ⟨definition, hdefinition, hkind, hchild⟩ := hname
  · exact hkind
  · have htype := h.type_mem hdefinition hkind hchild [{ kind := "identifier" }] (by decide)
    exact congrArg NodeType.kind (List.mem_singleton.mp htype)

theorem EcmaScript.kind_mem_of_isExportedName (hname : EcmaScript.IsExportedName name) :
    name.kind ∈ EcmaScript.identifierKinds := by
  have hsub : EcmaScript.exportedKinds ⊆ EcmaScript.identifierKinds := by decide
  exact hsub hname

/-- What names an export is an identifier. Only the grammars of Go and Python have a part in it. -/
theorem kind_mem_of_names
    (h : language = .go ∨ language = .python → language.nodeTypes.Describe text root)
    (hname : Names language text root name) (hmem : name ∈ root.preorder) :
    name.kind ∈ language.nodeTypes.words := by
  cases language with
  | go => exact Go.kind_mem_of_isExportedName (h (.inl rfl)) hname hmem
  | python => exact Python.kind_mem_of_isPublicName (h (.inr rfl)) hname
  | typeScript => exact EcmaScript.kind_mem_of_isExportedName hname
  | javaScript => exact EcmaScript.kind_mem_of_isExportedName hname

/-- The names of exports are among the identifiers. -/
theorem name_mem_identifiers_extraction
    (h : language = .go ∨ language = .python → language.nodeTypes.Describe text root)
    (hx : x ∈ (language.extraction root text).exports) :
    x.name ∈ (language.extraction root text).identifiers := by
  obtain ⟨name, hmem, hname, htext, -⟩ := (declares_exports language root text).exists_node hx
  exact mem_identifiers_extraction.mpr ⟨name, hmem, kind_mem_of_names h hname hmem, htext⟩

/-- Identifiers look like words. -/
theorem isWordLike_of_mem_identifiers (h : language.nodeTypes.Describe text root) {word : String}
    (hword : word ∈ (language.extraction root text).identifiers) :
    Lexicon.IsWordLike word.toList := by
  obtain ⟨node, hnode, hkind, htext⟩ := mem_identifiers_extraction.mp hword
  exact h.words node hnode hkind word htext

end Trees

/-! ## Texts and files -/

section Parser

variable [Syntax.Parser] {language : Language} {path text : String} {file : SourceFile}
  {e : Extraction}

/-- In every language, the names that a text exports are among its identifiers. -/
theorem name_mem_identifiers
    (hconforms : language = .go ∨ language = .python → Conforms language path text)
    (h : extractText language path text = .ok e) : ∀ x ∈ e.exports, x.name ∈ e.identifiers := by
  obtain ⟨haccepted, rfl⟩ := extractText_eq_ok_iff.mp h
  exact fun x hx => name_mem_identifiers_extraction (fun hlanguage => hconforms hlanguage haccepted) hx

/-- In every file, the names that it exports are among its identifiers. -/
theorem SourceFile.name_mem_identifiers
    (hconforms : file.language = .go ∨ file.language = .python → file.Conforms)
    (h : file.extract = .ok e) : ∀ x ∈ e.exports, x.name ∈ e.identifiers := by
  obtain ⟨text, htext, h⟩ := extract_eq_ok_iff.mp h
  exact ModuleAtlas.name_mem_identifiers (fun hlanguage => hconforms hlanguage text htext) h

end Parser

end ModuleAtlas
