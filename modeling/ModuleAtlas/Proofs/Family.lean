import ModuleAtlas.Proofs.Package
import ModuleAtlas.Proofs.Workspace.EntryPoint

/-!
# Cycles stay within one language family

An import in a Go file leads to a Go file, and one in a Python file to a Python file, because all
files that it may mean are named like such files (`Resolver.ofPath_of_resolve`). Only an import in a
TypeScript or JavaScript file may lead to a file of any language. So edges between languages exist,
but no way leads back along them: where files are named for their languages, a cycle has modules of one
family only (`family_cycles`).
-/

namespace ModuleAtlas

/-! ## Families -/

/-- Languages whose files import each other. -/
inductive Family where
  | go
  | python
  | ecmaScript
  deriving DecidableEq, Repr

/-- The family of a language. -/
def Language.family : Language → Family
  | .go => .go
  | .python => .python
  | .typeScript | .javaScript => .ecmaScript

/-- The family for which a file is named. -/
def Family.ofPath (path : String) : Family :=
  if Text.endsWith ".go" path then .go
  else if Text.endsWith ".py" path || Text.endsWith ".pyi" path then .python
  else .ecmaScript

/-- The files named for Go are those in Go, and the files named for Python are those in Python. -/
structure SourceFile.Tagged (file : SourceFile) : Prop where
  go : Text.endsWith ".go" file.path = true ↔ file.language = .go
  python : Text.endsWith ".py" file.path = true ∨ Text.endsWith ".pyi" file.path = true ↔
    file.language = .python

instance (file : SourceFile) : Decidable file.Tagged :=
  decidable_of_iff (_ ∧ _) ⟨fun ⟨go, python⟩ => ⟨go, python⟩, fun h => ⟨h.go, h.python⟩⟩

variable {file : SourceFile} {files : List SourceFile} {manifests : List Manifest}
  {manifest : Manifest} {path base directory a b : String}

theorem SourceFile.Tagged.family_eq (h : file.Tagged) :
    file.language.family = Family.ofPath file.path := by
  have hgo := h.go
  have hpython := h.python
  unfold Family.ofPath Language.family
  cases hlanguage : file.language <;> simp_all

/-- A path has the family of the same path below a root. -/
theorem Family.ofPath_under (root path : String) :
    Family.ofPath (Path.under root path) = Family.ofPath path := by
  unfold Family.ofPath
  rw [Path.endsWith_under (by decide), Path.endsWith_under (by decide),
    Path.endsWith_under (by decide)]

/-- A file is still named for its language if it is named relative to a root. -/
theorem SourceFile.Tagged.within {root : String} (h : file.Tagged)
    (hcontains : containsPath root file.path = true) : (file.within root).Tagged := by
  have hpath : Path.under root (file.within root).path = file.path := under_relativeTo hcontains
  obtain ⟨hgo, hpython⟩ := h
  rw [← hpath, Path.endsWith_under (by decide)] at hgo
  rw [← hpath, Path.endsWith_under (by decide), Path.endsWith_under (by decide)] at hpython
  exact ⟨hgo, hpython⟩

/-! ## What an import leads to -/

theorem Family.ofPath_of_endsWith_go (h : Text.endsWith ".go" path = true) :
    Family.ofPath path = .go := by
  rw [ofPath, if_pos h]

/-- No file is named for Go and Python at once. -/
theorem Family.ofPath_of_endsWith_python (last : String) (hlast : last ∈ [".py", ".pyi"])
    (h : Text.endsWith last path = true) : Family.ofPath path = .python := by
  have hnot : ¬ Text.endsWith ".go" path = true := by
    -- of two ends of one text, one is an end of the other
    have hends : ∀ last ∈ [".py", ".pyi"],
        ¬ (last.toList <:+ ".go".toList ∨ ".go".toList <:+ last.toList) := by
      decide
    intro hgo
    rw [Text.endsWith_iff] at h hgo
    exact hends last hlast (List.suffix_or_suffix_of_suffix h hgo)
  rw [ofPath, if_neg hnot, if_pos]
  rw [Bool.or_eq_true]
  rcases List.mem_pair.mp hlast with rfl | rfl
  · exact Or.inl h
  · exact Or.inr h

/-- The path of an entry of a directory ends with the name of the entry. -/
theorem Path.suffix_child (directory name : String) :
    name.toList <:+ (Path.child directory name).toList := by
  unfold Path.child
  split
  · exact List.suffix_refl _
  · split
    · rename_i hname
      rw [hname]
      exact List.nil_suffix
    · rw [String.toList_append]
      exact List.suffix_append _ _

/-- A file whose path has such an end put to it is named for Python. -/
theorem Family.ofPath_append {last : String} (hlast : last ∈ [".py", ".pyi"]) (base : String) :
    Family.ofPath (base ++ last) = .python := by
  apply ofPath_of_endsWith_python last hlast
  rw [Text.endsWith_iff, String.toList_append]
  exact List.suffix_append _ _

namespace Reference

theorem ofPath_of_mem_packageFiles (h : path ∈ packageFiles base) :
    Family.ofPath path = .python := by
  obtain rfl := List.mem_singleton.mp h
  apply Family.ofPath_of_endsWith_python ".py" (by simp)
  rw [Text.endsWith_iff]
  exact List.IsSuffix.trans (by decide) (Path.suffix_child base "__init__.py")

theorem ofPath_of_mem_pythonFiles (h : path ∈ pythonFiles base) :
    Family.ofPath path = .python := by
  rw [pythonFiles, List.mem_append] at h
  rcases h with hmodule | hpackage
  · split at hmodule
    · cases hmodule
    · rcases List.mem_pair.mp hmodule with rfl | rfl
      · exact Family.ofPath_append (by simp) base
      · exact Family.ofPath_append (by simp) base
  · exact ofPath_of_mem_packageFiles hpackage

theorem ofPath_of_mem_submoduleFiles {names : List String} (h : path ∈ submoduleFiles base names) :
    Family.ofPath path = .python := by
  obtain ⟨name, -, hmem⟩ := List.mem_flatMap.mp h
  exact ofPath_of_mem_pythonFiles hmem

theorem ofPath_of_mem_filesBelow {dotted : String} {names : List String}
    (h : path ∈ filesBelow directory dotted names) : Family.ofPath path = .python := by
  simp only [filesBelow] at h
  split at h
  · rcases List.mem_append.mp h with hsub | hpackage
    · exact ofPath_of_mem_submoduleFiles hsub
    · exact ofPath_of_mem_packageFiles hpackage
  · rcases List.mem_append.mp h with hmodule | hsub
    · exact ofPath_of_mem_pythonFiles hmodule
    · exact ofPath_of_mem_submoduleFiles hsub

/-- All files that an import in a Python file may mean are named for Python. -/
theorem ofDottedName_cases (manifest : Manifest) (importer : String) (i : Import) :
    (∃ candidates hops, ofDottedName manifest importer i = .file candidates hops ∧
      ∀ path ∈ candidates, Family.ofPath path = .python) ∨
    ofDottedName manifest importer i = .outside := by
  simp only [ofDottedName]
  split
  · -- a relative import
    split
    · exact Or.inl ⟨_, _, rfl, fun path hpath => ofPath_of_mem_filesBelow hpath⟩
    · exact Or.inr rfl
  · refine Or.inl ⟨_, _, rfl, fun path hpath => ?_⟩
    rw [List.mem_append, List.mem_append] at hpath
    rcases hpath with (hroot | hsrc) | hown
    · exact ofPath_of_mem_filesBelow hroot
    · exact ofPath_of_mem_filesBelow hsrc
    · -- below the declared package
      cases hrest : manifest.pythonPackage.bind fun name => below? '.' name i.source with
      | none =>
        rw [hrest] at hown
        cases hown
      | some rest =>
        rw [hrest] at hown
        exact ofPath_of_mem_filesBelow hown

end Reference

namespace Resolver

variable {i : Import} {paths : List String} {hops : ℕ}

theorem ofPath_of_resolve_go (h : (ofFiles paths manifest).resolve i a .go = .internal b hops) :
    Family.ofPath b = .go := by
  obtain ⟨directory, -, hfile⟩ := resolve_go_eq_internal_iff.mp h
  have hmember := mem_goFilesIn_of_representative? hfile
  exact Family.ofPath_of_endsWith_go (mem_goFilesIn_ofFiles.mp hmember).2.1

theorem ofPath_of_resolve_python
    (h : (ofFiles paths manifest).resolve i a .python = .internal b hops) :
    Family.ofPath b = .python := by
  obtain ⟨hchoice, -⟩ := locate_eq_internal_iff.mp h
  rcases Reference.ofDottedName_cases (ofFiles paths manifest).manifest a i with
    ⟨candidates, steps, hreference, hpython⟩ | hreference
  · rw [reference, hreference] at hchoice
    exact hpython b (List.mem_of_find?_eq_some hchoice)
  · rw [reference, hreference] at hchoice
    cases hchoice

/-- An import in a Go or Python file leads to a file named for the same family. -/
theorem ofPath_of_resolve {language : Language} (hfamily : language.family ≠ .ecmaScript)
    (h : (ofFiles paths manifest).resolve i a language = .internal b hops) :
    Family.ofPath b = language.family := by
  cases language with
  | go => exact ofPath_of_resolve_go h
  | python => exact ofPath_of_resolve_python h
  | typeScript => exact absurd rfl hfamily
  | javaScript => exact absurd rfl hfamily

end Resolver

/-! ## The modules of a project -/

namespace Project

variable {p : Project}

/-- The modules are named for their languages. -/
def Tagged (p : Project) : Prop :=
  ∀ id facts, p.facts? id = some facts → facts.language.family = Family.ofPath id

theorem tagged_ofFiles [Syntax.Parser] (h : ∀ file ∈ files, file.Tagged) : (ofFiles files).Tagged := by
  intro id facts hfacts
  obtain ⟨file, hfile, rfl, hlanguage, -⟩ := exists_of_facts?_ofFiles hfacts
  rw [← hlanguage]
  exact (h file hfile).family_eq

/-- An import in a Go or Python module leads to a module of the same family. -/
theorem Tagged.ofPath_of_edge (h : p.Tagged) (hfamily : Family.ofPath a ≠ .ecmaScript)
    (hedge : (p.link (p.resolver manifest)).graph.Edge a b) :
    Family.ofPath b = Family.ofPath a := by
  have hid : a ∈ p.ids := by
    rw [← ids_link (p.resolver manifest), ← ids_graph]
    exact (closed_graph _ hedge).1
  obtain ⟨facts, hfacts⟩ := mem_ids_iff.mp hid
  obtain ⟨-, -, -, hdependencies, -⟩ := counts_link manifest hfacts
  obtain ⟨hops, hmem⟩ := (hdependencies b).mp hedge
  obtain ⟨i, -, hresolve⟩ := List.mem_map.mp hmem
  rw [← h a facts hfacts] at hfamily ⊢
  exact Resolver.ofPath_of_resolve hfamily hresolve

/-- A way from a Go or Python module stays in its family. -/
theorem Tagged.ofPath_of_reaches (h : p.Tagged) (hfamily : Family.ofPath a ≠ .ecmaScript)
    (hreaches : (p.link (p.resolver manifest)).graph.Reaches a b) :
    Family.ofPath b = Family.ofPath a := by
  induction hreaches with
  | single hedge => exact h.ofPath_of_edge hfamily hedge
  | tail _ hedge ih =>
    rw [← ih] at hfamily ⊢
    exact h.ofPath_of_edge hfamily hedge

/-- Modules that lead to each other are of one family. -/
theorem Tagged.ofPath_of_mutual (h : p.Tagged)
    (hmutual : (p.link (p.resolver manifest)).graph.Mutual a b) :
    Family.ofPath a = Family.ofPath b := by
  by_cases ha : Family.ofPath a = .ecmaScript
  · by_cases hb : Family.ofPath b = .ecmaScript
    · rw [ha, hb]
    · exact h.ofPath_of_reaches hb hmutual.2
  · exact (h.ofPath_of_reaches ha hmutual.1).symm

end Project

/-! ## Cycles -/

theorem tagged_filesOf (htagged : ∀ file ∈ files, file.Tagged) {roots : List String}
    (hscan : "" ∈ roots) (root : String) : ∀ file ∈ filesOf roots root files, file.Tagged := by
  intro own hown
  obtain ⟨file, hfile, rfl⟩ := List.mem_map.mp hown
  obtain ⟨hmem, howner⟩ := List.mem_filter.mp hfile
  exact (htagged file hmem).within
    (containsPath_of_owningRoot_eq hscan (of_decide_eq_true howner))

section

variable {α : Type} [Average α] [Syntax.Parser]

/-- The modules of a cycle are files of one family. -/
def Cycle.OfOneFamily (c : Cycle) (files : List SourceFile) : Prop :=
  ∃ family : Family, ∀ id ∈ c.modules, IsModulePath files id ∧
    ∀ file ∈ files, file.path = id → file.language.family = family

/-- If files are named for their languages, it is enough to look at the names. -/
theorem Cycle.ofOneFamily {c : Cycle} (htagged : ∀ file ∈ files, file.Tagged)
    (hmodules : ∀ id ∈ c.modules, IsModulePath files id)
    (hsame : ∀ a ∈ c.modules, ∀ b ∈ c.modules, Family.ofPath a = Family.ofPath b) :
    c.OfOneFamily files := by
  refine ⟨Family.ofPath (c.modules.headD ""), fun id hid => ⟨hmodules id hid, ?_⟩⟩
  rintro file hfile rfl
  rw [(htagged file hfile).family_eq]
  apply hsame _ hid
  rw [List.headD_eq_head?_getD, List.head?_eq_some_head (List.ne_nil_of_mem hid)]
  exact List.head_mem _

/-- The modules of a cycle of a project are named for one family. -/
theorem ofPath_of_mem_cycles (htagged : ∀ file ∈ files, file.Tagged) {c : Cycle}
    (hc : c ∈ (projectGraph files manifest).cycles) (ha : a ∈ c.modules) (hb : b ∈ c.modules) :
    Family.ofPath a = Family.ofPath b := by
  have hmutual := Graph.mutual_of_mem_cycles (closed_projectGraph files manifest) hc ha hb
  exact (Project.tagged_ofFiles htagged).ofPath_of_mutual hmutual

/-- Where files are named for their languages, the modules of every cycle are of one family, in the
analysis of a project and in that of a workspace. -/
theorem family_cycles (files : List SourceFile) (manifest : Manifest) (manifests : List Manifest)
    (settings : AnalysisSettings) (htagged : ∀ file ∈ files, file.Tagged) :
    (∀ c ∈ (analyzeProject files manifest settings : Metrics α).cycles, c.OfOneFamily files) ∧
    ∀ c ∈ (analyzeWorkspace files manifests settings : Metrics α).cycles, c.OfOneFamily files := by
  constructor
  · -- a single project
    intro c hc
    rw [cycles_analyzeProject] at hc
    apply Cycle.ofOneFamily htagged
    · intro id hid
      have hmem := Graph.mem_ids_of_mem_cycles (closed_projectGraph files manifest) hc hid
      rw [ids_projectGraph] at hmem
      exact Project.mem_ids_ofFiles.mp hmem
    · intro a ha b hb
      exact ofPath_of_mem_cycles htagged hc ha hb
  · -- a workspace, whose cycles are those of its projects
    intro c hc
    rw [flatMap_analyzeWorkspace Metrics.cycles rfl (fun _ _ => rfl), List.mem_flatMap] at hc
    obtain ⟨m, hm, hc⟩ := hc
    rw [projectMetrics, Metrics.below_eq_mapPaths, Metrics.mapPaths, cycles_analyzeProject] at hc
    obtain ⟨own, hown, rfl⟩ := List.mem_map.mp hc
    have hscan := scanRoot_mem_workspaceRoots manifests
    apply Cycle.ofOneFamily htagged
    · intro id hid
      obtain ⟨x, hx, rfl⟩ := List.mem_map.mp hid
      have hmem := Graph.mem_ids_of_mem_cycles (closed_groupGraph files manifests m) hown hx
      exact (mem_ids_groupGraph.mp hmem).2
    · -- below the root of their project the modules have the same families
      intro a ha b hb
      obtain ⟨x, hx, rfl⟩ := List.mem_map.mp ha
      obtain ⟨y, hy, rfl⟩ := List.mem_map.mp hb
      rw [Family.ofPath_under, Family.ofPath_under]
      exact ofPath_of_mem_cycles (tagged_filesOf htagged hscan m.root) hown hx hy

end

/-- Two scripts that import each other, one of which also imports a Python file by its path, and two
Python files that import each other. -/
def mixedFiles : List SourceFile :=
  [{ path := "web/app.ts", language := .typeScript,
     content := "import './view';\nimport '../tools/build.py';\n".toUTF8 },
   { path := "web/view.js", language := .javaScript, content := "import './app.js';\n".toUTF8 },
   { path := "tools/build.py", language := .python, content := "from . import paths\n".toUTF8 },
   { path := "tools/paths.py", language := .python, content := "import tools.build\n".toUTF8 }]

/-- The scripts lead to the Python files, and still no cycle has both. -/
theorem family_cycles_mixedFiles :
    (∀ file ∈ mixedFiles, file.Tagged) ∧
    (projectGraph mixedFiles {}).Edge "web/app.ts" "tools/build.py" ∧
    (analyzeProject mixedFiles {} {} : Metrics ℚ).cycles
      = [⟨["tools/build.py", "tools/paths.py"]⟩, ⟨["web/app.ts", "web/view.js"]⟩] ∧
    (∀ c ∈ (analyzeProject mixedFiles {} {} : Metrics ℚ).cycles, c.OfOneFamily mixedFiles) ∧
    ∀ c ∈ (analyzeWorkspace mixedFiles [] {} : Metrics ℚ).cycles, c.OfOneFamily mixedFiles := by
  have htagged : ∀ file ∈ mixedFiles, file.Tagged := by decide
  refine ⟨htagged, ?_, ?_, family_cycles mixedFiles {} [] {} htagged⟩
  · show _ ∈ Graph.dependencies _ _
    decide +kernel
  · rw [cycles_analyzeProject]
    decide +kernel

end ModuleAtlas
