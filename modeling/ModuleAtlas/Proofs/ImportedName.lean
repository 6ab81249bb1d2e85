import ModuleAtlas.Grammar
import ModuleAtlas.Proofs.Analysis
import ModuleAtlas.Proofs.DeadExport
import ModuleAtlas.Proofs.Identifier

/-!
# The names that imports list

An import lists the names that it takes from a module. A listed name which looks like a word is an
identifier of the importing file (`mem_identifiers_of_mem_names`): what is listed otherwise is quoted,
is a number, has a point in it or stands in brackets. Exported names look like words, so the list of
an import never decides alone whether an export is used: without the lists the same exports are
reported (`deadExports_withoutNames`).

* `Project.withoutNames` : a project whose imports list no names.
-/

namespace ModuleAtlas

open Lexicon (IsWordLike)
open NodeTypes.Describe (IsWordless)
open Syntax.Node (child_mem_preorder mem_children_of_child? mem_childrenAs mem_childrenOf
  mem_preorder_of_mem_visits parent_mem_preorder)

/-! ## Python -/

namespace Python

variable {text name : String} {root node : Syntax.Node} {i : Import}

/-- The names that imports list are dotted names. -/
theorem exists_dotted_of_mem_names (h : nodeTypes.Describe text root) (hnode : node ∈ root.preorder)
    (hi : i ∈ importsOf text node) (hname : name ∈ i.names) :
    ∃ thing ∈ root.preorder, thing.kind = "dotted_name" ∧ thing.text? text = some name := by
  unfold importsOf at hi
  split at hi
  · obtain ⟨module, -, rfl⟩ := List.mem_map.mp hi
    cases hname
  · rename_i hkind
    obtain ⟨module, -, rfl⟩ := Option.map_eq_some_iff.mp (Option.mem_toList.mp hi)
    obtain ⟨child, hchild, hname⟩ := List.mem_filterMap.mp hname
    obtain ⟨thing, hthing, htext⟩ := Option.bind_eq_some_iff.mp hname
    have hinside := child_mem_preorder hnode (mem_childrenAs.mp hchild).1
    have htype := h.type_mem hnode (List.mem_singleton.mpr hkind) hchild
      [{ kind := "dotted_name" }, { kind := "aliased_import" }] (by decide)
    unfold thing? at hthing
    split at hthing
    · rename_i halias
      obtain ⟨hmem, hfield⟩ := mem_children_of_child? hthing
      have hdotted := h.type_mem hinside (List.mem_singleton.mpr (beq_iff_eq.mp halias))
        (mem_childrenAs.mpr ⟨hmem, hfield⟩) [{ kind := "dotted_name" }] (by decide)
      exact ⟨thing, child_mem_preorder hinside hmem,
        congrArg NodeType.kind (List.mem_singleton.mp hdotted), htext⟩
    · rename_i hplain
      cases hthing
      rcases List.mem_pair.mp htype with hdotted | halias
      · exact ⟨child, hinside, congrArg NodeType.kind hdotted, htext⟩
      · exact absurd (beq_iff_eq.mpr (congrArg NodeType.kind halias)) hplain
  · cases hi

end Python

/-! ## ECMAScript -/

namespace EcmaScript

variable {text kind name : String} {root list declarator : Syntax.Node}
  {visit : Option Syntax.Node × Syntax.Node} {i : Import}

/-- A node of one of several types is an identifier or looks like no word, if all of them do. -/
theorem word_or_wordless_of_mem {allowed : List NodeType} {node : Syntax.Node}
    (hall : ∀ type ∈ allowed, type.kind ∈ nodeTypes.words ∨ IsWordless nodeTypes type)
    (htype : node.type ∈ allowed) :
    node.kind ∈ nodeTypes.words ∨ IsWordless nodeTypes node.type :=
  hall node.type htype

/-- A name that specifiers list is an identifier, or it is quoted. -/
theorem exists_node_of_mem_specifiedNames (h : nodeTypes.Describe text root)
    (hlist : list ∈ root.preorder) (hkind : kind ∈ ["import_specifier", "export_specifier"])
    (hname : name ∈ specifiedNames text kind list) :
    ∃ node ∈ root.preorder, (node.kind ∈ nodeTypes.words ∨ IsWordless nodeTypes node.type) ∧
      node.text? text = some name := by
  obtain ⟨specifier, hspecifier, hname⟩ := List.mem_filterMap.mp hname
  obtain ⟨node, hnode, htext⟩ := Option.bind_eq_some_iff.mp hname
  obtain ⟨hmem, hfield⟩ := mem_children_of_child? hnode
  obtain ⟨hchild, hspecified⟩ := mem_childrenOf.mp hspecifier
  have hinside := child_mem_preorder hlist hchild
  have htype := h.type_mem hinside (hspecified ▸ hkind) (mem_childrenAs.mpr ⟨hmem, hfield⟩)
    [{ kind := "identifier" }, { kind := "string" }] (by decide)
  refine ⟨node, child_mem_preorder hinside hmem, ?_, htext⟩
  exact word_or_wordless_of_mem (by decide) htype

/-- A name that a destructuring takes out is an identifier, or a key that looks like no word. -/
theorem exists_node_of_mem_boundNames (h : nodeTypes.Describe text root)
    (hdeclarator : declarator ∈ root.preorder) (hname : name ∈ boundNames text declarator) :
    ∃ node ∈ root.preorder, (node.kind ∈ nodeTypes.words ∨ IsWordless nodeTypes node.type) ∧
      node.text? text = some name := by
  unfold boundNames at hname
  split_ifs at hname
  · split at hname
    · rename_i pattern hpattern
      split_ifs at hname
      · obtain ⟨part, hpart, hname⟩ := List.mem_filterMap.mp (Text.mem_sortedUnique.mp hname)
        have hinside := child_mem_preorder
          (child_mem_preorder hdeclarator (mem_children_of_child? hpattern).1)
          (List.mem_of_mem_filter hpart)
        unfold takenName? at hname
        split_ifs at hname with hshorthand hpair
        · refine ⟨part, hinside, .inl ?_, hname⟩
          rw [beq_iff_eq.mp hshorthand]
          decide
        · obtain ⟨key, hkey, htext⟩ := Option.bind_eq_some_iff.mp hname
          obtain ⟨hmem, hfield⟩ := mem_children_of_child? hkey
          have htype := h.type_mem hinside (List.mem_singleton.mpr (beq_iff_eq.mp hpair))
            (mem_childrenAs.mpr ⟨hmem, hfield⟩)
            [{ kind := "property_identifier" }, { kind := "private_property_identifier" },
              { kind := "string" }, { kind := "number" }, { kind := "computed_property_name" }]
            (by decide)
          refine ⟨key, child_mem_preorder hinside hmem, ?_, htext⟩
          exact word_or_wordless_of_mem (by decide) htype
      · cases hname
    · cases hname
  · cases hname

/-- The names of an import stand in specifiers inside it, or in a destructuring around it. -/
theorem specified_or_bound (h : importOf? text visit = some i) (hvisit : visit ∈ root.visits)
    (hname : name ∈ i.names) :
    (∃ list ∈ root.preorder, ∃ kind ∈ ["import_specifier", "export_specifier"],
      name ∈ specifiedNames text kind list) ∨
    ∃ declarator ∈ root.preorder, name ∈ boundNames text declarator := by
  have hnode := mem_preorder_of_mem_visits hvisit
  unfold importOf? at h
  split at h
  · unfold importStatement? at h
    split at h
    · obtain ⟨source, -, rfl⟩ := Option.map_eq_some_iff.mp h
      obtain ⟨clause, hclause, hname⟩ := List.mem_flatMap.mp hname
      obtain ⟨list, hlist, hname⟩ := List.mem_flatMap.mp hname
      have hinside := child_mem_preorder (child_mem_preorder hnode (mem_childrenOf.mp hclause).1)
        (mem_childrenOf.mp hlist).1
      exact .inl ⟨list, hinside, _, by decide, hname⟩
    · obtain ⟨source, -, rfl⟩ := Option.map_eq_some_iff.mp h
      cases hname
  · obtain ⟨source, -, rfl⟩ := Option.map_eq_some_iff.mp h
    obtain ⟨clause, hclause, hname⟩ := List.mem_flatMap.mp hname
    exact .inl ⟨clause, child_mem_preorder hnode (mem_childrenOf.mp hclause).1, _, by decide, hname⟩
  · simp only [callImport?, bind, Option.bind_eq_some_iff] at h
    obtain ⟨_, -, _, -, kind, -, _, -, _, -, _, -, h⟩ := h
    cases h
    dsimp only at hname
    split_ifs at hname
    · obtain ⟨parent, node⟩ := visit
      cases parent with
      | none => cases hname
      | some declarator => exact .inr ⟨declarator, parent_mem_preorder hvisit, hname⟩
    · cases hname
  · cases h

end EcmaScript

/-! ## All languages -/

section Files

variable {language : Language} {text name : String} {root : Syntax.Node} {i : Import}

/-- What an import lists is a node that is an identifier or looks like no word, or a dotted name. -/
theorem exists_node_of_mem_names (h : language.nodeTypes.Describe text root)
    (hi : i ∈ (language.extraction root text).imports) (hname : name ∈ i.names) :
    ∃ node ∈ root.preorder, node.text? text = some name ∧
      ((node.kind ∈ language.nodeTypes.words ∨ IsWordless language.nodeTypes node.type) ∨
        node.kind ∈ language.nodeTypes.dotted) := by
  have hscript : EcmaScript.nodeTypes.Describe text root →
      i ∈ (EcmaScript.extraction root text).imports → ∃ node ∈ root.preorder,
        node.text? text = some name ∧ ((node.kind ∈ EcmaScript.nodeTypes.words ∨
          IsWordless EcmaScript.nodeTypes node.type) ∨ node.kind ∈ EcmaScript.nodeTypes.dotted) := by
    intro h hi
    obtain ⟨visit, hvisit, hi⟩ := List.mem_filterMap.mp hi
    obtain ⟨list, hlist, kind, hkind, hname⟩ | ⟨declarator, hdeclarator, hname⟩ :=
      EcmaScript.specified_or_bound hi hvisit hname
    · obtain ⟨node, hnode, hkinds, htext⟩ :=
        EcmaScript.exists_node_of_mem_specifiedNames h hlist hkind hname
      exact ⟨node, hnode, htext, .inl hkinds⟩
    · obtain ⟨node, hnode, hkinds, htext⟩ :=
        EcmaScript.exists_node_of_mem_boundNames h hdeclarator hname
      exact ⟨node, hnode, htext, .inl hkinds⟩
  cases language with
  | go =>
    -- imports of Go list no names
    obtain ⟨node, -, hi⟩ := List.mem_filterMap.mp hi
    unfold Go.importOf? at hi
    split at hi
    · obtain ⟨path, -, rfl⟩ := Option.map_eq_some_iff.mp hi
      cases hname
    · cases hi
  | python =>
    obtain ⟨node, hnode, hi⟩ := List.mem_flatMap.mp hi
    obtain ⟨thing, hthing, hkind, htext⟩ := Python.exists_dotted_of_mem_names h hnode hi hname
    exact ⟨thing, hthing, htext, .inr (List.mem_singleton.mpr hkind)⟩
  | typeScript => exact hscript h hi
  | javaScript => exact hscript h hi

/-- In every language, a listed name that looks like a word is an identifier. -/
theorem mem_identifiers_of_mem_names (h : language.nodeTypes.Describe text root)
    (hi : i ∈ (language.extraction root text).imports) (hname : name ∈ i.names)
    (hword : IsWordLike name.toList) : name ∈ (language.extraction root text).identifiers := by
  rw [mem_identifiers_extraction]
  obtain ⟨node, hnode, htext, (hkind | hkind) | hkind⟩ := exists_node_of_mem_names h hi hname
  · exact ⟨node, hnode, hkind, htext⟩
  · exact absurd hword (h.not_isWordLike hnode hkind htext)
  · exact h.exists_word_of_dotted hnode hkind htext hword

variable [Syntax.Parser] {file other : SourceFile} {e ofOther : Extraction} {x : Export}

/-- Exported names look like words. -/
theorem SourceFile.isWordLike_name (hconforms : file.Conforms) (h : file.extract = .ok e)
    (hx : x ∈ e.exports) : IsWordLike x.name.toList := by
  have hname := name_mem_identifiers (fun _ => hconforms) h x hx
  obtain ⟨text, htext, h⟩ := extract_eq_ok_iff.mp h
  obtain ⟨haccepted, rfl⟩ := extractText_eq_ok_iff.mp h
  exact isWordLike_of_mem_identifiers (hconforms text htext haccepted) hname

/-- A name that an import lists and that any file exports is an identifier of the importing file. -/
theorem SourceFile.mem_identifiers_of_exported (hconforms : file.Conforms) (hother : other.Conforms)
    (h : file.extract = .ok e) (hextract : other.extract = .ok ofOther) (hi : i ∈ e.imports)
    (hx : x ∈ ofOther.exports) (hname : x.name ∈ i.names) : x.name ∈ e.identifiers := by
  have hword := isWordLike_name hother hextract hx
  obtain ⟨text, htext, h⟩ := extract_eq_ok_iff.mp h
  obtain ⟨haccepted, rfl⟩ := extractText_eq_ok_iff.mp h
  exact mem_identifiers_of_mem_names (hconforms text htext haccepted) hi hname hword

end Files

/-! ## Projects without the lists -/

/-- An import without the names that it lists. -/
def Import.withoutNames (i : Import) : Import := { i with names := [] }

/-- A linked import without the names that it lists. -/
def ImportEdge.withoutNames (e : ImportEdge) : ImportEdge :=
  { e with statement := e.statement.withoutNames }

/-- What is known about a module, less the names that its imports list. -/
def Facts.withoutNames (facts : Facts) : Facts :=
  { facts with
    extraction := { facts.extraction with
      imports := facts.extraction.imports.map Import.withoutNames }
    edges := facts.edges.map ImportEdge.withoutNames }

namespace Project

variable {p : Project} {g : Graph} {id : String} {x : DeadExport}

/-- A project whose imports list no names. -/
def withoutNames (p : Project) : Project := ⟨p.modules.map fun _ facts => facts.withoutNames⟩

theorem facts?_withoutNames (p : Project) (id : String) :
    p.withoutNames.facts? id = (p.facts? id).map Facts.withoutNames :=
  Keyed.find?_map _ p.modules id

theorem ids_withoutNames (p : Project) : p.withoutNames.ids = p.ids := Keyed.keys_map _ p.modules

theorem exports_withoutNames (p : Project) : p.withoutNames.exports = p.exports := by
  rw [exports, withoutNames, Keyed.map, List.flatMap_map]
  rfl

/-- Where the imports lead does not depend on the names that they list. -/
theorem graph_withoutNames (p : Project) : p.withoutNames.graph = p.graph := by
  have himports : p.withoutNames.importCalls = p.importCalls := by
    rw [importCalls, withoutNames, Keyed.map, List.flatMap_map]
    exact List.flatMap_congr fun _ _ => List.map_map
  have hmodules : p.withoutNames.moduleCalls = p.moduleCalls := by
    rw [moduleCalls, withoutNames, Keyed.map, List.map_map]
    rfl
  rw [graph_eq_ofCalls, graph_eq_ofCalls, himports, hmodules]

theorem isGo_withoutNames (p : Project) : p.withoutNames.IsGo = p.IsGo := by
  funext id
  simp only [IsGo, facts?_withoutNames, Option.map_eq_some_iff, exists_exists_and_eq_and]
  rfl

/-- Every export that an import lists is an identifier of the importing module. -/
def ListsIdentifiers (p : Project) : Prop :=
  ∀ id facts, p.facts? id = some facts → ∀ e ∈ facts.edges, ∀ x ∈ p.exports,
    x.name ∈ e.statement.names → x.name ∈ facts.extraction.identifiers

/-- Then what is used does not depend on the names that are listed. -/
theorem used_withoutNames (h : p.ListsIdentifiers) (hx : x ∈ p.exports) :
    p.withoutNames.Used g x ↔ p.Used g x := by
  have hshows : p.withoutNames.Shows = p.Shows := by
    unfold Shows
    rw [isGo_withoutNames, ids_withoutNames]
  unfold Used
  rw [hshows]
  constructor
  · rintro ⟨id, hid, _, hfacts, _, he, target, htarget, hshown, hnames⟩
    rw [facts?_withoutNames] at hfacts
    obtain ⟨facts, hlisting, rfl⟩ := Option.map_eq_some_iff.mp hfacts
    obtain ⟨e, hlinked, rfl⟩ := List.mem_map.mp he
    refine ⟨id, hid, facts, hlisting, e, hlinked, target, htarget, hshown, ?_⟩
    exact hnames.imp_right fun hnames => hnames.imp_left fun hlisted => absurd hlisted List.not_mem_nil
  · rintro ⟨id, hid, facts, hfacts, e, he, target, htarget, hshown, hnames⟩
    refine ⟨id, hid, facts.withoutNames, ?_, e.withoutNames, List.mem_map_of_mem he, target, htarget,
      hshown, ?_⟩
    · rw [facts?_withoutNames, hfacts]
      rfl
    · rcases hnames with hwildcard | hlisted | hoccurs
      · exact .inl hwildcard
      · exact .inr (.inr (h id facts hfacts e he x hx hlisted))
      · exact .inr (.inr hoccurs)

theorem deadExports_withoutNames (h : p.ListsIdentifiers) (hg : g.Closed) (manifest : Manifest)
    (settings : AnalysisSettings) :
    p.withoutNames.deadExports g (p.withoutNames.resolver manifest) settings
      = p.deadExports g (p.resolver manifest) settings := by
  rw [deadExports_eq_filter hg, deadExports_eq_filter hg, exports_withoutNames]
  refine List.filter_congr fun x hx => ?_
  rw [decide_eq_decide, used_withoutNames h hx]
  unfold Exempt Unlisted
  rw [isGo_withoutNames]

end Project

section Linked

variable [Syntax.Parser]

/-- In a project of source files, listed exports are identifiers of the importing module. -/
theorem listsIdentifiers_linkedProject {files : List SourceFile}
    (hconforms : ∀ file ∈ files, file.Conforms) (manifest : Manifest) :
    (linkedProject files manifest).ListsIdentifiers := by
  intro id facts hfacts e he x hx hname
  obtain ⟨file, hfile, -, hextract, hedges⟩ := exists_file_of_facts? hfacts
  obtain ⟨facts', hfacts', y, hy, hxy⟩ := Project.mem_exports.mp hx
  obtain ⟨other, hother, -, hextract', -⟩ := exists_file_of_facts? hfacts'
  have hsame : y.name = x.name := congrArg DeadExport.name hxy
  rw [← hsame] at hname ⊢
  rw [hedges] at he
  obtain ⟨i, hi, rfl⟩ := List.mem_map.mp he
  exact SourceFile.mem_identifiers_of_exported (hconforms file hfile) (hconforms other hother) hextract
    hextract' hi hy hname

/-- The names that imports list never decide alone. A name that an import of one file lists and
another file exports is an identifier of the importing file. So in every project the same exports are
reported if the lists of names are left out once the imports are linked. -/
theorem listed_names_decide_nothing {α : Type} [Average α] :
    (∀ (file other : SourceFile) (e ofOther : Extraction), file.Conforms → other.Conforms →
      file.extract = .ok e → other.extract = .ok ofOther → ∀ i ∈ e.imports, ∀ x ∈ ofOther.exports,
        x.name ∈ i.names → x.name ∈ e.identifiers) ∧
    ∀ (files : List SourceFile) (manifest : Manifest) (settings : AnalysisSettings),
      (∀ file ∈ files, file.Conforms) →
      let unlisting := (linkedProject files manifest).withoutNames
      (unlisting.metrics (unlisting.resolver manifest) settings : Metrics α).deadExports
        = (analyzeProject files manifest settings : Metrics α).deadExports := by
  refine ⟨fun file other e ofOther hfile hother h hextract i hi x hx hname => ?_,
    fun files manifest settings hconforms => ?_⟩
  · exact SourceFile.mem_identifiers_of_exported hfile hother h hextract hi hx hname
  · intro unlisting
    rw [deadExports_analyzeProject]
    have hgraph : unlisting.graph = projectGraph files manifest := Project.graph_withoutNames _
    show unlisting.deadExports unlisting.graph _ settings = _
    rw [hgraph]
    exact Project.deadExports_withoutNames (listsIdentifiers_linkedProject hconforms manifest)
      (closed_projectGraph files manifest) manifest settings

end Linked

/-- A program that imports a name of a module under another one. -/
def listingProgram : SourceFile where
  path := "main.ts"
  language := .typeScript
  content := "import \x7b b as c \x7d from './m';\nc();\n".toUTF8

/-- The module, which exports two names. -/
def listedModule : SourceFile where
  path := "m.ts"
  language := .typeScript
  content := "export const a = 1, b = 2;\n".toUTF8

theorem listed_names_listingProgram :
    (listingProgram.Conforms ∧ listedModule.Conforms) ∧
    (∃ e ofOther, listingProgram.extract = .ok e ∧ listedModule.extract = .ok ofOther ∧
      ∃ i ∈ e.imports, ∃ x ∈ ofOther.exports, x.name ∈ i.names ∧ x.name ∈ e.identifiers) ∧
    let files := [listingProgram, listedModule]
    let unlisting := (linkedProject files {}).withoutNames
    (unlisting.metrics (unlisting.resolver {}) {} : Metrics ℚ).deadExports
      = (analyzeProject files {} {} : Metrics ℚ).deadExports := by
  have hprogram : listingProgram.Conforms := by decide +kernel
  have hmodule : listedModule.Conforms := by decide +kernel
  have hreadProgram : listingProgram.extract.toOption.map (·.imports)
      = some [{ source := "./m", names := ["b"], line := 1 }] := by
    decide +kernel
  have hreadModule : listedModule.extract.toOption.map (·.exports)
      = some [⟨"a", .constant, 1⟩, ⟨"b", .constant, 1⟩] := by
    decide +kernel
  obtain ⟨e, hextract, himports⟩ := SourceFile.exists_extract_of_map hreadProgram
  obtain ⟨ofOther, hextract', hexports⟩ := SourceFile.exists_extract_of_map hreadModule
  have hi : { source := "./m", names := ["b"], line := 1 } ∈ e.imports := by
    rw [himports]
    exact List.mem_cons_self
  have hx : ⟨"b", .constant, 1⟩ ∈ ofOther.exports := by
    rw [hexports]
    exact List.mem_cons_of_mem _ List.mem_cons_self
  have hname : "b" ∈ ["b"] := List.mem_cons_self
  obtain ⟨hused, hdead⟩ := listed_names_decide_nothing (α := ℚ)
  refine ⟨⟨hprogram, hmodule⟩, ⟨e, ofOther, hextract, hextract', _, hi, _, hx, hname,
    hused _ _ _ _ hprogram hmodule hextract hextract' _ hi _ hx hname⟩, ?_⟩
  exact hdead _ {} {} (List.forall_mem_cons.mpr ⟨hprogram, List.forall_mem_singleton.mpr hmodule⟩)

end ModuleAtlas
