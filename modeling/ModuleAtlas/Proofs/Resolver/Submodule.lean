import ModuleAtlas.Grammar
import ModuleAtlas.Proofs.Analysis
import ModuleAtlas.Proofs.Path

/-!
# Submodules that a Python import names

A relative from-import of points alone, or of a directory that is no module itself, looks for the
imported names among the files of that directory. It leads to one file only, the first one it finds
(`Resolver.target?_of_looksIn`). So a submodule that is named is linked as long as no file of a name before
it exists, and otherwise only if another import leads to it (`mem_dependencies_submodule_iff`).
-/

namespace ModuleAtlas

open ModuleAtlas.Path (relativeDotted)
open Reference (pythonFiles packageFiles submoduleFiles)

/-- What is found first among some items is the one before which nothing can be found. -/
theorem find?_eq_some_iff_takeWhile {items : List String} {p : String → Bool} {item : String}
    (hitem : item ∈ items) (hp : p item = true) :
    items.find? p = some item ↔ ∀ earlier ∈ items.takeWhile (· ≠ item), p earlier = false := by
  induction items with
  | nil => cases hitem
  | cons first items ih =>
    by_cases hfirst : first = item
    · subst hfirst
      simp [hp]
    · have hrest : item ∈ items := (List.mem_cons.mp hitem).resolve_left (Ne.symm hfirst)
      rw [List.takeWhile_cons_of_pos (by simpa using hfirst), List.forall_mem_cons, ← ih hrest]
      cases hone : p first with
      | true => simp [hone, hfirst]
      | false => simp [hone]

/-- A relative import in a module that looks for its names in a directory of the project: it has so
many points that it climbs to a directory, and below that it has no further part, or the parts lead to
a directory that has no module file of its own. -/
def Import.LooksIn (i : Import) (paths : List String) (importer directory : String) : Prop :=
  ∃ hops above down, i.source = relativeDotted hops down ∧
    (∀ part ∈ down, part ≠ "" ∧ '.' ∉ part.toList) ∧
    Path.climb? (Path.parent importer) hops = some above ∧
    directory = Path.child above (Text.join "/" down) ∧
    (down = [] ∨ ∀ file ∈ pythonFiles directory, file ∉ paths)

/-- The points of a relative dotted name are those of its steps. -/
theorem Path.dots_relativeDotted (hops : ℕ) {down : List String}
    (hdown : ∀ part ∈ down, part ≠ "" ∧ '.' ∉ part.toList) :
    let source := relativeDotted hops down
    (source.toList.takeWhile (· == '.')).length = hops + 1 ∧
      String.ofList (source.toList.dropWhile (· == '.')) = Text.join "." down := by
  cases down with
  | nil =>
    have hsource : (relativeDotted hops []).toList = List.replicate (hops + 1) '.' ++ [] := by
      simp [relativeDotted, Text.join]
    have hhead : ([] : List Char).head? ≠ some '.' := by simp
    obtain ⟨htake, hdrop⟩ := takeWhile_replicate_append (hops + 1) hhead
    dsimp only
    rw [hsource, htake, hdrop]
    exact ⟨List.length_replicate, rfl⟩
  | cons first rest =>
    obtain ⟨hne, hpoint⟩ := hdown first List.mem_cons_self
    exact points_relativeDotted hops hne hpoint rest

theorem Path.child_empty (directory : String) : Path.child directory "" = directory := by
  unfold Path.child
  split
  · rename_i hroot
    exact hroot.symm
  · rfl

namespace Reference

variable {i : Import} {paths : List String} {importer directory : String} {manifest : Manifest}

/-- Without a dotted name the submodules of a directory come first. -/
theorem filesBelow_points (directory : String) (names : List String) :
    filesBelow directory "" names
      = submoduleFiles directory names ++ packageFiles directory := by
  have hempty : Path.ofDotted "" = "" := by decide
  rw [filesBelow, hempty, Path.child_empty]
  rfl

/-- Such an import means the submodules of its names before all other files of the project. -/
theorem ofDottedName_of_looksIn (h : i.LooksIn paths importer directory) (manifest : Manifest) :
    ∃ before after hops, (∀ file ∈ before, file ∉ paths) ∧
      ofDottedName manifest importer i
        = .file (before ++ (submoduleFiles directory i.names ++ after)) hops := by
  obtain ⟨hops, above, down, hsource, hdown, hclimb, rfl, hown⟩ := h
  obtain ⟨hdots, hrest⟩ := Path.dots_relativeDotted hops hdown
  rw [← hsource] at hdots hrest
  have hrelative : i.isRelative = true := by
    simp [Import.isRelative, hsource, relativeDotted, List.replicate_succ]
  have hreference : ofDottedName manifest importer i
      = .file (filesBelow above (Text.join "." down) i.names) hops := by
    rw [ofDottedName, if_pos hrelative]
    simp only [hdots, hrest, Nat.add_sub_cancel, hclimb]
  rw [hreference]
  cases down with
  | nil =>
    refine ⟨[], packageFiles above, hops, by simp, ?_⟩
    rw [Text.join, Text.join, filesBelow_points, Path.child_empty, List.nil_append]
  | cons first rest =>
    have hne : Text.join "." (first :: rest) ≠ "" :=
      Text.join_cons_ne_empty "." (hdown first List.mem_cons_self).1 rest
    refine ⟨_, [], hops, hown.resolve_left (by simp), ?_⟩
    rw [filesBelow, if_neg hne, Path.ofDotted_join (by simp) fun part hpart => (hdown part hpart).2,
      List.append_nil]

/-- The files that a name may mean as a submodule start with the one of the name itself. -/
theorem mem_submoduleFiles {names : List String} {name : String} (hname : name ∈ names)
    (hne : name ≠ "") : Path.child directory name ++ ".py" ∈ submoduleFiles directory names := by
  have hbase : Path.child directory name ≠ "" := by
    unfold Path.child
    split_ifs with hroot
    · exact hne
    · intro hempty
      have hlength := congrArg String.length hempty
      simp at hlength
  refine List.mem_flatMap.mpr ⟨name, hname, ?_⟩
  rw [pythonFiles, if_neg hbase]
  exact List.mem_append_left _ List.mem_cons_self

end Reference

/-- An import that looks for its names in a directory leads to the file of a submodule exactly if no
file that its names may mean before is in the project. -/
theorem Resolver.target?_of_looksIn {i : Import} {paths : List String}
    {importer directory file : String} (h : i.LooksIn paths importer directory)
    (manifest : Manifest) (hfile : file ∈ submoduleFiles directory i.names) (hmem : file ∈ paths) :
    ((ofFiles paths manifest).resolve i importer .python).target? = some file ↔
      ∀ earlier ∈ (submoduleFiles directory i.names).takeWhile (· ≠ file), earlier ∉ paths := by
  obtain ⟨before, after, hops, hbefore, hreference⟩ := Reference.ofDottedName_of_looksIn h manifest
  have hcontains : ∀ path, (ofFiles paths manifest).contains path = false ↔ path ∉ paths := by
    intro path
    rw [← Bool.not_eq_true, contains_ofFiles]
  have hnone : before.find? (ofFiles paths manifest).contains = none := by
    rw [List.find?_eq_none]
    intro path hpath
    rw [contains_ofFiles]
    exact hbefore path hpath
  have hsome : ((submoduleFiles directory i.names).find?
      (ofFiles paths manifest).contains).isSome = true :=
    List.find?_isSome.mpr ⟨file, hfile, contains_ofFiles.mpr hmem⟩
  have hchoice : (ofFiles paths manifest).choice? (reference manifest i importer .python)
      = (submoduleFiles directory i.names).find? (ofFiles paths manifest).contains := by
    rw [reference, hreference, choice?, List.find?_append, List.find?_append, hnone, Option.none_or,
      Option.or_of_isSome hsome]
  simp only [← hcontains]
  rw [← find?_eq_some_iff_takeWhile hfile (contains_ofFiles.mpr hmem), ← hchoice,
    Resolution.target?_eq_some_iff]
  simp only [resolve, locate_eq_internal_iff]
  constructor
  · rintro ⟨_, hfound, -⟩
    exact hfound
  · intro hfound
    exact ⟨_, hfound, rfl⟩

/-- A submodule that an import names is linked exactly if no file that the names may mean before is in
the project, or another import of the module leads to it. -/
theorem Project.mem_dependencies_submodule_iff {p : Project} {manifest : Manifest} {id : String}
    {facts : Facts} {i : Import} {directory name : String} (hfacts : p.facts? id = some facts)
    (hlanguage : facts.language = .python) (hi : i ∈ facts.extraction.imports)
    (hlooks : i.LooksIn p.ids id directory) (hname : name ∈ i.names) (hne : name ≠ "")
    (hmodule : Path.child directory name ++ ".py" ∈ p.ids) :
    let r := p.resolver manifest
    let module := Path.child directory name ++ ".py"
    module ∈ (p.link r).graph.dependencies id ↔
      (∀ file ∈ (submoduleFiles directory i.names).takeWhile (· ≠ module), file ∉ p.ids) ∨
      ∃ other ∈ facts.extraction.imports, other ≠ i ∧
        (r.resolve other id .python).target? = some module := by
  intro r module
  obtain ⟨-, -, -, hedge, -⟩ := counts_link manifest hfacts
  have hall : module ∈ (p.link r).graph.dependencies id ↔ ∃ other ∈ facts.extraction.imports,
      (r.resolve other id .python).target? = some module := by
    rw [hedge, hlanguage]
    simp only [List.mem_map, Resolution.target?_eq_some_iff]
    constructor
    · rintro ⟨hops, other, hother, hto⟩
      exact ⟨other, hother, hops, hto⟩
    · rintro ⟨other, hother, hops, hto⟩
      exact ⟨hops, other, hother, hto⟩
  have hown : (r.resolve i id .python).target? = some module ↔ _ :=
    Resolver.target?_of_looksIn hlooks manifest (Reference.mem_submoduleFiles hname hne) hmodule
  rw [hall, ← hown]
  constructor
  · rintro ⟨other, hother, hto⟩
    by_cases hsame : other = i
    · exact Or.inl (hsame ▸ hto)
    · exact Or.inr ⟨other, hother, hsame, hto⟩
  · rintro (hto | ⟨other, hother, -, hto⟩)
    · exact ⟨i, hi, hto⟩
    · exact ⟨other, hother, hto⟩

/-- A package that imports two of its modules by one statement, and a program that imports it. -/
def siblingFiles : List SourceFile :=
  [{ path := "main.py", language := .python, content := "import pkg\n".toUTF8 },
   { path := "pkg/__init__.py", language := .python,
     content := "from . import a, b\nb.run()\n".toUTF8 },
   { path := "pkg/a.py", language := .python, content := "".toUTF8 },
   { path := "pkg/b.py", language := .python, content := "def run():\n    pass\n".toUTF8 }]

/-- The statement in the package. -/
def siblingImport : Import :=
  { source := ".", names := ["a", "b"], kind := .pythonFrom, line := 1 }

theorem looksIn_siblingImport (paths : List String) :
    siblingImport.LooksIn paths "pkg/__init__.py" "pkg" :=
  ⟨0, "pkg", [], by decide, by simp, by decide, by decide, Or.inl rfl⟩

theorem ids_siblingFiles : (Project.ofFiles siblingFiles).ids
    = ["main.py", "pkg/__init__.py", "pkg/a.py", "pkg/b.py"] := by
  decide +kernel

theorem facts?_siblingFiles :
    ∃ facts, (Project.ofFiles siblingFiles).facts? "pkg/__init__.py" = some facts ∧
      facts.language = .python ∧ facts.extraction.imports = [siblingImport] := by
  have hpaths : (siblingFiles.map (·.path)).Nodup := by decide
  have himports : siblingFiles[1].extract.toOption.map (·.imports) = some [siblingImport] := by
    decide +kernel
  cases hextract : siblingFiles[1].extract with
  | error error =>
    rw [hextract] at himports
    cases himports
  | ok extraction =>
    rw [hextract] at himports
    refine ⟨_, Project.facts?_ofFiles hpaths (List.getElem_mem _) rfl hextract, rfl, ?_⟩
    exact Option.some.inj himports

theorem mem_dependencies_siblingFiles :
    let p := Project.ofFiles siblingFiles
    let r := p.resolver {}
    ("b" ∈ siblingImport.names ∧ "b" ≠ "" ∧ Path.child "pkg" "b" ++ ".py" ∈ p.ids) ∧
    ∃ facts, p.facts? "pkg/__init__.py" = some facts ∧ facts.language = .python ∧
      siblingImport ∈ facts.extraction.imports ∧
      siblingImport.LooksIn p.ids "pkg/__init__.py" "pkg" ∧
      ("pkg/b.py" ∈ (p.link r).graph.dependencies "pkg/__init__.py" ↔
        (∀ file ∈ (submoduleFiles "pkg" siblingImport.names).takeWhile (· ≠ "pkg/b.py"),
          file ∉ p.ids) ∨
        ∃ other ∈ facts.extraction.imports, other ≠ siblingImport ∧
          (r.resolve other "pkg/__init__.py" .python).target? = some "pkg/b.py") := by
  intro p r
  obtain ⟨facts, hfacts, hlanguage, himports⟩ := facts?_siblingFiles
  have hi : siblingImport ∈ facts.extraction.imports := by
    rw [himports]
    exact List.mem_cons_self
  have hlooks := looksIn_siblingImport p.ids
  have hname : "b" ∈ siblingImport.names := by decide
  have hne : "b" ≠ "" := by decide
  have hmodule : Path.child "pkg" "b" ++ ".py" ∈ p.ids := by
    rw [ids_siblingFiles]
    decide
  exact ⟨⟨hname, hne, hmodule⟩, facts, hfacts, hlanguage, hi, hlooks,
    Project.mem_dependencies_submodule_iff hfacts hlanguage hi hlooks hname hne hmodule⟩

/-- The statement names two submodules, and only the first of them is linked. The other one is
unreachable, then, although the program leads to the statement. -/
theorem not_mem_dependencies_siblingFiles :
    let p := Project.ofFiles siblingFiles
    (∃ facts, p.facts? "pkg/__init__.py" = some facts ∧ facts.language = .python ∧
      siblingImport ∈ facts.extraction.imports) ∧
    siblingImport.LooksIn p.ids "pkg/__init__.py" "pkg" ∧
    "b" ∈ siblingImport.names ∧ Path.child "pkg" "b" ++ ".py" ∈ p.ids ∧
    Path.child "pkg" "b" ++ ".py" ∉ (projectGraph siblingFiles {}).dependencies "pkg/__init__.py" ∧
    (analyzeProject siblingFiles {} {} : Metrics ℚ).unreachable = ["pkg/b.py"] := by
  intro p
  obtain ⟨facts, hfacts, hlanguage, himports⟩ := facts?_siblingFiles
  refine ⟨⟨facts, hfacts, hlanguage, ?_⟩, looksIn_siblingImport p.ids, by decide, ?_,
    by decide +kernel, ?_⟩
  · rw [himports]
    exact List.mem_cons_self
  · rw [ids_siblingFiles]
    decide
  · rw [unreachable_analyzeProject]
    decide +kernel

end ModuleAtlas
