import ModuleAtlas.Grammar
import ModuleAtlas.Proofs.Analysis
import ModuleAtlas.Proofs.DeadExport

/-!
# Which files of a Go package are reached

An import in a Go module names a package, a directory, and its edge in the graph leads to the one
file that stands for the package. The exports of the other files count as imported along with it
(`Project.Shows`), but the walk from the entry points does not go on from these files. They and what
they import are listed as unreachable unless something else leads to them, so a package is not
always reached as a whole (`ReachedWhole`).

* `edge_iff_of_isGo` : the edges of a Go module.
* `reached_iff_ledTo` : what makes a module reachable.
* `reachedWhole_iff` : the packages that are reached as a whole.
-/

namespace ModuleAtlas

variable {configured : List String} {manifest : Manifest} {directory a b : String}

/-! ## What an import in a Go module leads to -/

/-- An import in a Go module names a package, unless it refers to nothing in the project. -/
theorem Reference.ofPackagePath_cases (manifest : Manifest) (importer : String) (i : Import) :
    (∃ directory hops, ofPackagePath manifest importer i = .package directory hops) ∨
      ofPackagePath manifest importer i = .outside := by
  unfold ofPackagePath
  split
  · -- a relative import
    split
    · exact Or.inl ⟨_, _, rfl⟩
    · exact Or.inr rfl
  · -- an import below the module path
    split
    · exact Or.inl ⟨_, _, rfl⟩
    · exact Or.inr rfl

namespace Resolver

variable {r : Resolver} {i : Import} {hops : ℕ}

/-- An import in a Go module leads to the file that stands for the package it names. -/
theorem resolve_go_eq_internal_iff : r.resolve i a .go = .internal b hops ↔
    ∃ directory, reference r.manifest i a .go = .package directory hops ∧
      r.representative? directory = some b := by
  rw [resolve, locate_eq_internal_iff]
  constructor
  · rintro ⟨hchoice, rfl⟩
    rcases Reference.ofPackagePath_cases r.manifest a i with ⟨named, steps, hreference⟩ | hreference
    · rw [reference, hreference] at hchoice ⊢
      exact ⟨named, rfl, hchoice⟩
    · rw [reference, hreference] at hchoice
      cases hchoice
  · rintro ⟨directory, hreference, hfile⟩
    rw [hreference]
    exact ⟨hfile, rfl⟩

/-- The file that stands for a package is in its directory. -/
theorem parent_of_representative? {paths : List String}
    (h : (ofFiles paths manifest).representative? directory = some b) : Path.parent b = directory :=
  (mem_goFilesIn_ofFiles.mp (mem_goFilesIn_of_representative? h)).2.2

end Resolver

namespace Project

variable {p : Project} {g : Graph}

/-- An import in a module names a package directory. -/
def ImportsPackage (p : Project) (manifest : Manifest) (a directory : String) : Prop :=
  ∃ facts, p.facts? a = some facts ∧ ∃ i ∈ facts.extraction.imports, ∃ hops,
    reference manifest i a facts.language = .package directory hops

/-- The edges of a Go module lead to the files that stand for the packages it imports. -/
theorem edge_iff_of_isGo (hgo : p.IsGo a) :
    (p.link (p.resolver manifest)).graph.Edge a b ↔ ∃ directory,
      p.ImportsPackage manifest a directory ∧
        (p.resolver manifest).representative? directory = some b := by
  obtain ⟨facts, hfacts, hlanguage⟩ := hgo
  obtain ⟨-, -, -, hedge, -⟩ := counts_link manifest hfacts
  have himports : ∀ directory, p.ImportsPackage manifest a directory ↔
      ∃ i ∈ facts.extraction.imports, ∃ hops,
        reference manifest i a .go = .package directory hops := by
    intro directory
    simp only [ImportsPackage, hfacts, Option.some.injEq, exists_eq_left', hlanguage]
  rw [Graph.Edge, hedge, hlanguage]
  simp only [List.mem_map, Resolver.resolve_go_eq_internal_iff, himports]
  constructor
  · rintro ⟨hops, i, hi, directory, hnames, hfile⟩
    exact ⟨directory, ⟨i, hi, hops, hnames⟩, hfile⟩
  · rintro ⟨directory, ⟨i, hi, hops, hnames⟩, hfile⟩
    exact ⟨hops, i, hi, directory, hnames, hfile⟩

/-! ## What is reached -/

/-- If a file of a package is reached, then all of its files are, and all modules that they import. -/
def ReachedWhole (p : Project) (g : Graph) (configured : List String) (directory : String) : Prop :=
  (∃ b, p.IsGo b ∧ Path.parent b = directory ∧ g.Reached configured b) →
    ∀ b, p.IsGo b → Path.parent b = directory →
      b ∉ g.unreachable configured ∧ ∀ c, g.Edge b c → c ∉ g.unreachable configured

/-- Something leads to the module: it is a seed, or it stands for a package that a reached module
imports, or it is imported by a reached module that is not written in Go. -/
def LedTo (p : Project) (manifest : Manifest) (g : Graph) (configured : List String) (b : String) :
    Prop :=
  g.Seed configured b ∨
  ((p.resolver manifest).representative? (Path.parent b) = some b ∧
    ∃ a, g.Reached configured a ∧ p.IsGo a ∧ p.ImportsPackage manifest a (Path.parent b)) ∨
  ∃ a, g.Reached configured a ∧ ¬ p.IsGo a ∧ g.Edge a b

/-- A module is reached exactly if something leads to it. -/
theorem reached_iff_ledTo (p : Project) (manifest : Manifest) (configured : List String)
    (b : String) :
    (p.link (p.resolver manifest)).graph.Reached configured b ↔
      p.LedTo manifest (p.link (p.resolver manifest)).graph configured b := by
  rw [Graph.reached_iff, LedTo]
  refine or_congr_right ?_
  constructor
  · rintro ⟨a, hreached, hedge⟩
    by_cases hgo : p.IsGo a
    · obtain ⟨directory, himports, hfile⟩ := (edge_iff_of_isGo hgo).mp hedge
      obtain rfl : Path.parent b = directory := Resolver.parent_of_representative? hfile
      exact Or.inl ⟨hfile, a, hreached, hgo, himports⟩
    · exact Or.inr ⟨a, hreached, hgo, hedge⟩
  · rintro (⟨hfile, a, hreached, hgo, himports⟩ | ⟨a, hreached, -, hedge⟩)
    · exact ⟨a, hreached, (edge_iff_of_isGo hgo).mpr ⟨_, himports, hfile⟩⟩
    · exact ⟨a, hreached, hedge⟩

theorem IsGo.mem_ids (h : p.IsGo b) : b ∈ p.ids := by
  obtain ⟨facts, hfacts, -⟩ := h
  exact mem_ids_iff.mpr ⟨facts, hfacts⟩

/-- What a reached module imports is reached as well. -/
theorem reachedWhole_iff_forall_reached (hg : g.Closed) (hids : g.ids = p.ids) :
    p.ReachedWhole g configured directory ↔
      ((∃ b, p.IsGo b ∧ Path.parent b = directory ∧ g.Reached configured b) →
        ∀ b, p.IsGo b → Path.parent b = directory → g.Reached configured b) := by
  unfold ReachedWhole
  refine imp_congr_right fun _ => forall₃_congr fun b hgo _ => ?_
  have hid : b ∈ g.ids := by
    rw [hids]
    exact hgo.mem_ids
  rw [Graph.not_mem_unreachable_iff hg hid]
  refine and_iff_left_of_imp fun hreached c hedge => ?_
  rw [Graph.not_mem_unreachable_iff hg (hg hedge).2, Graph.reached_iff]
  exact Or.inr ⟨b, hreached, hedge⟩

/-- The unreachable modules are those to which nothing leads. So a package with a reached file is
reached as a whole exactly if something leads to each of its files by itself: it is not enough that
something leads to the file that stands for the package. -/
theorem reachedWhole_iff (p : Project) (manifest : Manifest) (configured : List String) :
    let g := (p.link (p.resolver manifest)).graph
    (∀ b, b ∈ g.unreachable configured ↔ b ∈ p.ids ∧ ¬ p.LedTo manifest g configured b) ∧
    ∀ directory, p.ReachedWhole g configured directory ↔
      ((∃ b, p.IsGo b ∧ Path.parent b = directory ∧ g.Reached configured b) →
        ∀ b, p.IsGo b → Path.parent b = directory → p.LedTo manifest g configured b) := by
  intro g
  have hclosed : g.Closed := closed_graph _
  have hids : g.ids = p.ids := by rw [ids_graph, ids_link]
  refine ⟨fun b => ?_, fun directory => ?_⟩
  · rw [Graph.mem_unreachable hclosed, hids, ← reached_iff_ledTo]
    rfl
  · rw [reachedWhole_iff_forall_reached hclosed hids]
    simp only [← reached_iff_ledTo, g]

end Project

/-- A readable Go file is a Go module. -/
theorem isGo_ofFiles [Syntax.Parser] {files : List SourceFile} {file : SourceFile}
    (hpaths : (files.map (·.path)).Nodup) (hfile : file ∈ files)
    (hreadable : file.isReadable = true) (hlanguage : file.language = .go) :
    (Project.ofFiles files).IsGo file.path := by
  obtain ⟨hsource, extraction, hextract⟩ := SourceFile.isReadable_iff.mp hreadable
  exact ⟨_, Project.facts?_ofFiles hpaths hfile hsource hextract, hlanguage⟩

/-- A program that imports a package of two files, the second of which imports another package. -/
def splitPackage : List SourceFile :=
  [{ path := "main.go", language := .go,
     content := "package main\nimport \"example.com/app/lib\"\nfunc main() { lib.Run() }\n".toUTF8 },
   { path := "lib/lib.go", language := .go,
     content := "package lib\nfunc Run() { load() }\n".toUTF8 },
   { path := "lib/extra.go", language := .go,
     content := "package lib\nimport \"example.com/app/dep\"\nfunc load() { dep.Do() }\n".toUTF8 },
   { path := "dep/dep.go", language := .go, content := "package dep\nfunc Do() {}\n".toUTF8 }]

/-- The manifest of the program. -/
def splitManifest : Manifest := { root := "", goModule := some "example.com/app" }

/-- The program leads to the package, and still one of its files is unreachable with what it
imports. -/
theorem not_reachedWhole_splitPackage :
    (analyzeProject splitPackage splitManifest {} : Metrics ℚ).unreachable
      = ["dep/dep.go", "lib/extra.go"] ∧
    ¬ (Project.ofFiles splitPackage).ReachedWhole (projectGraph splitPackage splitManifest) []
      "lib" := by
  have hunreachable : (projectGraph splitPackage splitManifest).unreachable []
      = ["dep/dep.go", "lib/extra.go"] := by
    decide +kernel
  have hpaths : (splitPackage.map (·.path)).Nodup := by decide
  have hlib : (Project.ofFiles splitPackage).IsGo splitPackage[1].path :=
    isGo_ofFiles hpaths (List.getElem_mem _) (by decide +kernel) rfl
  have hextra : (Project.ofFiles splitPackage).IsGo splitPackage[2].path :=
    isGo_ofFiles hpaths (List.getElem_mem _) (by decide +kernel) rfl
  have hreached : (projectGraph splitPackage splitManifest).Reached [] "lib/lib.go" := by
    have hid : "lib/lib.go" ∈ (projectGraph splitPackage splitManifest).ids := by
      rw [ids_projectGraph]
      exact hlib.mem_ids
    rw [← Graph.not_mem_unreachable_iff (closed_projectGraph _ _) hid, hunreachable]
    decide
  rw [unreachable_analyzeProject]
  refine ⟨hunreachable, fun hwhole => ?_⟩
  obtain ⟨hnot, -⟩ := hwhole ⟨_, hlib, by decide, hreached⟩ _ hextra (by decide)
  rw [hunreachable] at hnot
  exact hnot (by decide)

end ModuleAtlas
