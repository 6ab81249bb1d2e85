import ModuleAtlas.Grammar
import ModuleAtlas.Proofs.Analysis
import ModuleAtlas.Proofs.DeadExport
import ModuleAtlas.Proofs.Identifier
import ModuleAtlas.Proofs.Resolver.PackageDirectory

/-!
# Modules that import themselves

The names that a module exports occur in it. So a module uses all of its own exports as soon as one
of its imports shows the module itself, and none of them is reported (`used_of_shows`). An import
that leads back to its own module does so. An import that leads to the package directory of its own
Go module shows the files of the package that end in `.go`, and these only: a Go module with another
name, such as `lib/X.GO`, is not shown and all its exports are reported, unless they are exempt
(`deadExports_of_ownImport`).
-/

namespace ModuleAtlas

variable {files : List SourceFile} {manifest : Manifest} {id target : String} {x : DeadExport}

namespace Project

variable {p : Project} {g : Graph}

/-- An import of a module leads to a module. -/
def ImportLeadsTo (p : Project) (id target : String) : Prop :=
  ∃ facts, p.facts? id = some facts ∧ ∃ e ∈ facts.edges, e.target? = some target

/-- The names that a module exports occur in it. -/
def NamesOwnExports (p : Project) : Prop :=
  ∀ id facts, p.facts? id = some facts →
    ∀ e ∈ facts.extraction.exports, e.name ∈ facts.extraction.identifiers

/-- If an import of a module shows the module, then all of its exports are used. -/
theorem used_of_shows (hnames : p.NamesOwnExports) (hid : x.module ∈ g.ids) (hx : x ∈ p.exports)
    (hleads : p.ImportLeadsTo x.module target) (hshows : p.Shows target x.module) : p.Used g x := by
  obtain ⟨facts, hfacts, e, he, htarget⟩ := hleads
  obtain ⟨found, hfound, y, hy, hxy⟩ := mem_exports.mp hx
  obtain rfl : found = facts := Option.some.inj (hfound.symm.trans hfacts)
  have hname : y.name = x.name := congrArg DeadExport.name hxy
  have hoccurs : x.name ∈ found.extraction.identifiers := by
    rw [← hname]
    exact hnames _ _ hfound y hy
  exact ⟨x.module, hid, found, hfound, e, he, target, htarget, hshows, Or.inr (Or.inr hoccurs)⟩

/-- A Go module shows the listed modules of its directory. -/
theorem shows_of_parent_eq (hid : id ∈ p.ids) (hgo : p.IsGo id) (hlisted : ¬ p.Unlisted id)
    (htarget : p.IsGo target) (hparent : Path.parent target = Path.parent id) :
    p.Shows target id := by
  have hends : Text.endsWith ".go" id = true :=
    (Bool.not_eq_false _).mp fun hends => hlisted ⟨hgo, hends⟩
  exact Or.inr ⟨htarget, hid, hends, hparent.symm⟩

end Project

/-! ## Modules of some files -/

section Linked

variable [Syntax.Parser]

/-- In Go and Python, the names of exports are identifiers because the grammar says so. -/
def NamesConform (files : List SourceFile) : Prop :=
  ∀ file ∈ files, file.language = .go ∨ file.language = .python → file.Conforms

instance (files : List SourceFile) : Decidable (NamesConform files) :=
  inferInstanceAs (Decidable (∀ file ∈ files, _))

theorem namesOwnExports_linkedProject (hconforms : NamesConform files) (manifest : Manifest) :
    (linkedProject files manifest).NamesOwnExports := by
  intro id facts hfacts
  obtain ⟨file, hfile, -, hextract, -⟩ := exists_file_of_facts? hfacts
  exact SourceFile.name_mem_identifiers (hconforms file hfile) hextract

/-- The imports of a Go module lead to files that end in `.go`. -/
theorem endsWith_of_importLeadsTo (hgo : (linkedProject files manifest).IsGo id)
    (hleads : (linkedProject files manifest).ImportLeadsTo id target) :
    Text.endsWith ".go" target = true := by
  obtain ⟨facts, hfacts, e, he, htarget⟩ := hleads
  obtain ⟨-, -, -, -, hedges⟩ := exists_file_of_facts? hfacts
  rw [hedges] at he
  obtain ⟨i, -, rfl⟩ := List.mem_map.mp he
  rw [(Project.isGo_iff hfacts).mp hgo] at htarget
  obtain ⟨directory, -, hstands⟩ :=
    Resolver.resolve_go_iff.mp (Resolution.target?_eq_some_iff.mp htarget)
  exact hstands.mem.2.1

/-- The exports of a module that an import of it shows are used. -/
theorem used_of_shows_linkedProject (hconforms : NamesConform files)
    (hx : x ∈ (linkedProject files manifest).exports)
    (hleads : (linkedProject files manifest).ImportLeadsTo x.module target)
    (hshows : (linkedProject files manifest).Shows target x.module) :
    (linkedProject files manifest).Used (projectGraph files manifest) x := by
  have hid : x.module ∈ (projectGraph files manifest).ids := by
    obtain ⟨facts, hfacts, -⟩ := hleads
    rw [ids_projectGraph, ← ids_linkedProject files manifest]
    exact Project.mem_ids_iff.mpr ⟨facts, hfacts⟩
  exact Project.used_of_shows (namesOwnExports_linkedProject hconforms manifest) hid hx hleads hshows

/-- Exported names are identifiers of their text, in every language. So nothing is reported of a
module with an import that leads back to it. Of a Go module with an import that leads to its own
directory, an export that is not exempt is reported exactly if the module is unlisted, that is if its
name does not end in `.go`, or if the import leads to no Go module and nothing uses the export. -/
theorem deadExports_of_ownImport {α : Type} [Average α] {files : List SourceFile}
    (hconforms : NamesConform files) (manifest : Manifest) (settings : AnalysisSettings) :
    let p := linkedProject files manifest
    let g := projectGraph files manifest
    let dead := (analyzeProject files manifest settings : Metrics α).deadExports
    (∀ language path text extraction,
      (language = .go ∨ language = .python → Conforms language path text) →
      extractText language path text = .ok extraction →
        ∀ x ∈ extraction.exports, x.name ∈ extraction.identifiers) ∧
    (∀ id, p.ImportLeadsTo id id → ∀ x ∈ dead, x.module ≠ id) ∧
    ∀ id target, p.IsGo id → p.ImportLeadsTo id target → Path.parent target = Path.parent id →
      ∀ x, x.module = id → (x ∈ dead ↔ x ∈ p.exports ∧ ¬ p.Exempt g settings id ∧
        (p.Unlisted id ∨ ¬ p.IsGo target ∧ ¬ p.Used g x)) := by
  intro p g dead
  have hdead : ∀ x, x ∈ dead ↔ x ∈ p.exports ∧ ¬ p.Exempt g settings x.module ∧
      (p.Used g x → p.Unlisted x.module) := by
    intro x
    simp only [dead, deadExports_analyzeProject]
    exact Project.mem_deadExports (closed_projectGraph _ _)
  refine ⟨fun _ _ _ _ h => name_mem_identifiers h, ?_, ?_⟩
  · rintro id hleads x hx rfl
    obtain ⟨hexport, -, hlisted⟩ := (hdead x).mp hx
    -- the import leads to a file that ends in `.go`, if the module is written in Go
    obtain ⟨hgo, hends⟩ := hlisted (used_of_shows_linkedProject hconforms hexport hleads (Or.inl rfl))
    rw [endsWith_of_importLeadsTo hgo hleads] at hends
    cases hends
  · rintro id target hgo hleads hparent x rfl
    rw [hdead]
    refine and_congr_right fun hexport => and_congr_right fun _ => ?_
    have hused : p.IsGo target → ¬ p.Unlisted x.module → p.Used g x := by
      intro htarget hlisted
      have hshows := Project.shows_of_parent_eq hgo.mem_ids hgo hlisted htarget hparent
      exact used_of_shows_linkedProject hconforms hexport hleads hshows
    constructor
    · intro hlists
      by_cases hunlisted : p.Unlisted x.module
      · exact Or.inl hunlisted
      · have hunused : ¬ p.Used g x := fun h => hunlisted (hlists h)
        exact Or.inr ⟨fun htarget => hunused (hused htarget hunlisted), hunused⟩
    · rintro (hunlisted | ⟨-, hunused⟩) h
      · exact hunlisted
      · exact absurd h hunused

end Linked

/-- A program whose package `lib` has two files, one with an extension in capitals that imports the
package. -/
def capitalisedPackage : List SourceFile :=
  [{ path := "main.go", language := .go,
     content := "package main\nimport \"example.com/app/lib\"\nfunc main() { lib.A() }\n".toUTF8 },
   { path := "lib/a.go", language := .go, content := "package lib\nfunc A() {}\n".toUTF8 },
   { path := "lib/X.GO", language := .go,
     content := "package lib\nimport \"example.com/app/lib\"\nfunc X() {}\n".toUTF8 }]

/-- The manifest of the program. -/
def capitalisedManifest : Manifest := { root := "", goModule := some "example.com/app" }

/-- The second file of the package, as it is linked. -/
theorem facts?_capitalisedPackage :
    let p := linkedProject capitalisedPackage capitalisedManifest
    ∃ facts, p.facts? "lib/X.GO" = some facts ∧ facts.language = .go ∧
      facts.extraction.exports = [⟨"X", .function, 3⟩] ∧
      facts.edges.map (·.target?) = [some "lib/a.go"] := by
  intro p
  have hpaths : (capitalisedPackage.map (·.path)).Nodup := by decide
  have hread : capitalisedPackage[2].extract.toOption.map (fun e => (e.imports, e.exports))
      = some ([{ source := "example.com/app/lib", kind := .go, line := 2 }],
        [⟨"X", .function, 3⟩]) := by
    decide +kernel
  obtain ⟨e, hextract, heq⟩ := SourceFile.exists_extract_of_map hread
  obtain ⟨himports, hexports⟩ := Prod.mk.inj heq
  have hfacts := facts?_linkedProject hpaths (List.getElem_mem (by decide)) rfl hextract
    capitalisedManifest
  refine ⟨_, hfacts, rfl, hexports, ?_⟩
  dsimp only
  rw [himports]
  show [Resolution.target? _] = _
  decide +kernel

theorem importLeadsTo_capitalisedPackage :
    let p := linkedProject capitalisedPackage capitalisedManifest
    p.IsGo "lib/X.GO" ∧ p.ImportLeadsTo "lib/X.GO" "lib/a.go" ∧
      Path.parent "lib/a.go" = Path.parent "lib/X.GO" := by
  obtain ⟨facts, hfacts, hlanguage, -, hedges⟩ := facts?_capitalisedPackage
  obtain ⟨e, he, htarget⟩ := List.mem_map.mp (hedges ▸ List.mem_cons_self)
  exact ⟨⟨facts, hfacts, hlanguage⟩, ⟨facts, hfacts, e, he, htarget⟩, by decide⟩

theorem reported_capitalisedPackage :
    let p := linkedProject capitalisedPackage capitalisedManifest
    let g := projectGraph capitalisedPackage capitalisedManifest
    let dead := (analyzeProject capitalisedPackage capitalisedManifest {} : Metrics ℚ).deadExports
    NamesConform capitalisedPackage ∧
    (p.IsGo "lib/X.GO" ∧ p.ImportLeadsTo "lib/X.GO" "lib/a.go" ∧
      Path.parent "lib/a.go" = Path.parent "lib/X.GO") ∧
    ∀ x, x.module = "lib/X.GO" → (x ∈ dead ↔ x ∈ p.exports ∧ ¬ p.Exempt g {} "lib/X.GO" ∧
      (p.Unlisted "lib/X.GO" ∨ ¬ p.IsGo "lib/a.go" ∧ ¬ p.Used g x)) := by
  intro p g dead
  have hconforms : NamesConform capitalisedPackage := by decide +kernel
  obtain ⟨hgo, hleads, hparent⟩ := importLeadsTo_capitalisedPackage
  obtain ⟨-, -, hreported⟩ := deadExports_of_ownImport (α := ℚ) hconforms capitalisedManifest {}
  exact ⟨hconforms, ⟨hgo, hleads, hparent⟩, hreported _ _ hgo hleads hparent⟩

/-- The second file of the package imports the first, and its export is reported all the same. -/
theorem deadExports_capitalisedPackage :
    let p := linkedProject capitalisedPackage capitalisedManifest
    (p.IsGo "lib/X.GO" ∧ p.ImportLeadsTo "lib/X.GO" "lib/a.go" ∧
      Path.parent "lib/a.go" = Path.parent "lib/X.GO") ∧
    ⟨"lib/X.GO", "X", .function, 3⟩
      ∈ (analyzeProject capitalisedPackage capitalisedManifest {} : Metrics ℚ).deadExports := by
  intro p
  have hpaths : (capitalisedPackage.map (·.path)).Nodup := by decide
  obtain ⟨hgo, hleads, hparent⟩ := importLeadsTo_capitalisedPackage
  have hmain : p.IsGo "main.go" := by
    have hreadable : capitalisedPackage[0].isReadable = true := by decide +kernel
    obtain ⟨hsource, read, hextract⟩ := SourceFile.isReadable_iff.mp hreadable
    exact ⟨_, facts?_linkedProject hpaths (List.getElem_mem _) hsource hextract _, rfl⟩
  have hexport : ⟨"lib/X.GO", "X", .function, 3⟩ ∈ p.exports := by
    obtain ⟨facts, hfacts, -, hexports, -⟩ := facts?_capitalisedPackage
    exact Project.mem_exports.mpr ⟨facts, hfacts, _, hexports ▸ List.mem_cons_self, rfl⟩
  have hunlisted : p.Unlisted "lib/X.GO" := ⟨hgo, by decide⟩
  refine ⟨⟨hgo, hleads, hparent⟩, ?_⟩
  rw [deadExports_analyzeProject, Project.mem_deadExports (closed_projectGraph _ _)]
  refine ⟨hexport, ?_, fun _ => hunlisted⟩
  rintro (⟨hignored, -⟩ | ⟨-, hsingle⟩)
  · cases hignored
  · have hparent : Path.parent "main.go" ≠ Path.parent "lib/X.GO" := by decide
    exact hparent (hsingle _ _ hmain hgo)

end ModuleAtlas
