import ModuleAtlas.Proofs.Path
import ModuleAtlas.Proofs.Resolver

/-!
# Relative imports reach every module

From any file there is a relative import to every module of the project, for each directory that
contains both: so many steps up from the file, and down the rest of the module's path. The module is
the first file that such an import can mean, so no other file of the project and no imported name
comes before it.

In a dotted name the last segment stands without the extension `.py`. If nothing else is left of the
path, the dotted name consists of points alone, which mean the package of the directory and not the
module.
-/

namespace ModuleAtlas

open ModuleAtlas.Path (IsName IsNormal stepsUp segmentsBelow relative relativeDotted)

variable {paths : List String} {manifest : Manifest} {importer module stem : String}
  {above : List String} {i : Import}

namespace Reference

/-! ## First candidates -/

/-- A path names its own file first. -/
theorem moduleFiles_eq_cons {base : String} (hbase : base ≠ "") :
    ∃ others, moduleFiles base = base :: others := by
  unfold moduleFiles
  rw [if_neg hbase]
  exact ⟨_, rfl⟩

/-- A dotted name that is not empty names a module of its own first. -/
theorem filesBelow_eq_cons (directory : String) {dotted : String} (names : List String)
    (hdotted : dotted ≠ "") (hbase : Path.child directory (Path.ofDotted dotted) ≠ "") :
    ∃ others, filesBelow directory dotted names
      = (Path.child directory (Path.ofDotted dotted) ++ ".py") :: others := by
  unfold filesBelow pythonFiles
  simp only [if_neg hdotted, if_neg hbase]
  exact ⟨_, rfl⟩

/-! ## Relative imports -/

/-- The first file that a relative path can mean is the one it leads to. -/
theorem ofModulePath_relative (manifest : Manifest) (himporter : IsNormal importer)
    (hmodule : IsNormal module) (hup : above <+: Path.directories importer)
    (hdown : above <+: Path.directories module)
    (hsource : i.source = relative (stepsUp above importer) (segmentsBelow above module)) :
    ∃ others, ofModulePath manifest importer i
      = .file (module :: others) (stepsUp above importer) := by
  obtain ⟨inner, hinner, hhops⟩ := Path.directories_eq_append hup
  have hbelow := Path.append_segmentsBelow hdown
  have hfrom : ∀ name ∈ above ++ inner, '/' ∉ name.toList ∧ IsName name := by
    intro name hname
    rw [← hinner] at hname
    exact himporter.directory hname
  have hto : ∀ name ∈ segmentsBelow above module, '/' ∉ name.toList ∧ IsName name := by
    intro name hname
    have hsegment := Path.mem_segments_of_mem_segmentsBelow hname
    exact ⟨Path.slash_not_mem hsegment, hmodule name hsegment⟩
  have hresolve : Path.resolve? (Path.parent importer) i.source
      = some ⟨module, stepsUp above importer⟩ := by
    have hway := Path.resolve?_relative (fun name h => (hfrom name h).1)
      (fun name h => (hfrom name h).2.1) (fun name h => (hto name h).1)
      (fun name h => (hto name h).2)
    rw [hbelow, Path.join_segments] at hway
    rw [hsource, hhops, Path.parent, hinner, hway]
  have hrelative : i.isRelative = true := by
    simp [Import.isRelative, hsource, Path.head?_relative]
  obtain ⟨others, hothers⟩ := moduleFiles_eq_cons hmodule.ne_empty
  refine ⟨others, ?_⟩
  rw [ofModulePath, if_pos hrelative, hresolve]
  exact congrArg (Reference.file · _) hothers

/-- Below a directory above it, a module without its extension has a first segment that is a name,
unless there is nothing but the extension. -/
theorem exists_segmentsBelow_eq_cons (hmodule : IsNormal (stem ++ ".py"))
    (hdown : above <+: Path.directories stem) (hnamed : segmentsBelow above stem ≠ [""]) :
    ∃ first rest, segmentsBelow above stem = first :: rest ∧ first ≠ "" := by
  obtain ⟨inner, hinner, -⟩ := Path.directories_eq_append hdown
  rw [Path.segmentsBelow_eq hinner] at hnamed ⊢
  cases inner with
  | nil =>
    refine ⟨Path.fileName stem, [], rfl, fun hempty => hnamed ?_⟩
    rw [hempty]
    rfl
  | cons first rest =>
    -- the first segment is a directory, and the extension does not change those
    have hslash : '/' ∉ ".py".toList := by decide
    have hfirst : first ∈ Path.directories (stem ++ ".py") := by
      rw [Path.directories_append stem hslash, hinner]
      simp
    obtain ⟨-, hname⟩ := hmodule.directory hfirst
    exact ⟨first, rest ++ [Path.fileName stem], rfl, hname.1⟩

/-- The first file that a relative dotted name can mean is the module that it leads to. -/
theorem ofDottedName_relative (manifest : Manifest) (himporter : IsNormal importer)
    (hmodule : IsNormal (stem ++ ".py"))
    (hup : above <+: Path.directories importer) (hdown : above <+: Path.directories stem)
    (hpoint : '.' ∉ stem.toList) (hnamed : segmentsBelow above stem ≠ [""])
    (hsource : i.source = relativeDotted (stepsUp above importer) (segmentsBelow above stem)) :
    ∃ others, ofDottedName manifest importer i
      = .file ((stem ++ ".py") :: others) (stepsUp above importer) := by
  obtain ⟨inner, hinner, hhops⟩ := Path.directories_eq_append hup
  have hbelow := Path.append_segmentsBelow hdown
  have hfrom : ∀ name ∈ above ++ inner, '/' ∉ name.toList ∧ name ≠ "" := by
    intro name hname
    rw [← hinner] at hname
    have hdirectory := himporter.directory hname
    exact ⟨hdirectory.1, hdirectory.2.1⟩
  have hpoints : ∀ name ∈ segmentsBelow above stem, '.' ∉ name.toList := by
    intro name hname hmem
    have hsegment := Path.mem_segments_of_mem_segmentsBelow hname
    exact hpoint (Text.mem_of_mem_split hsegment hmem).1
  obtain ⟨first, rest, hfirst, hne⟩ := exists_segmentsBelow_eq_cons hmodule hdown hnamed
  obtain ⟨hdots, hdotted⟩ := Path.points_relativeDotted (stepsUp above importer) hne
    (hpoints first (by simp [hfirst])) rest
  rw [← hfirst, ← hsource] at hdots hdotted
  have hclimb : Path.climb? (Path.parent importer) (stepsUp above importer)
      = some (Text.join "/" above) := by
    rw [hhops, Path.parent, hinner]
    exact Path.climb?_join (fun name h => (hfrom name h).1) fun name h => (hfrom name h).2
  -- the base of the candidates is the module without its extension
  have hbase : Path.child (Text.join "/" above)
      (Path.ofDotted (Text.join "." (segmentsBelow above stem))) = stem := by
    have hjoin : Text.join "/" (segmentsBelow above stem) ≠ "" := by
      rw [hfirst]
      exact Text.join_cons_ne_empty "/" hne rest
    have habove : ∀ name ∈ above, name ≠ "" :=
      fun name hname => (hfrom name (List.mem_append_left inner hname)).2
    rw [Path.ofDotted_join (by simp [hfirst]) hpoints, Path.child_join habove hjoin, hbelow,
      Path.join_segments]
  have hstem : stem ≠ "" := by
    rintro rfl
    have hroot : above = [] := List.prefix_nil.mp hdown
    rw [hroot] at hnamed
    exact hnamed rfl
  have hrelative : i.isRelative = true := by
    simp [Import.isRelative, hsource, relativeDotted, List.replicate_succ]
  have hnonempty : Text.join "." (segmentsBelow above stem) ≠ "" := by
    rw [hfirst]
    exact Text.join_cons_ne_empty "." hne rest
  obtain ⟨others, hothers⟩ := filesBelow_eq_cons (Text.join "/" above) i.names hnonempty
    (by rwa [hbase])
  refine ⟨others, ?_⟩
  rw [ofDottedName, if_pos hrelative]
  simp only [hdots, hdotted, Nat.add_sub_cancel, hclimb, hothers, hbase]

end Reference

namespace Resolver

/-! ## Resolving -/

/-- A file of the project that comes first is found. -/
theorem locate_file_cons (hmodule : module ∈ paths) (others : List String) (hops : ℕ) :
    (ofFiles paths manifest).locate (.file (module :: others) hops) = .internal module hops := by
  rw [locate, List.find?_cons_of_pos (contains_ofFiles.mpr hmodule)]

/-- Every module can be imported from every file by way of each directory that contains both, as a
relative path and, if its name leaves more than points, as a relative dotted name. -/
theorem resolve_relative (hmem : module ∈ paths) (himporter : IsNormal importer)
    (hmodule : IsNormal module) (hup : above <+: Path.directories importer)
    (hdown : above <+: Path.directories module) (manifest : Manifest) (i : Import) :
    let resolve := (ofFiles paths manifest).resolve i importer
    let hops := stepsUp above importer
    (i.source = relative hops (segmentsBelow above module) →
      ∀ language, language = .typeScript ∨ language = .javaScript →
        resolve language = .internal module hops) ∧
    (∀ stem, module = stem ++ ".py" → '.' ∉ stem.toList → segmentsBelow above stem ≠ [""] →
      i.source = relativeDotted hops (segmentsBelow above stem) →
        resolve .python = .internal module hops) := by
  intro resolve hops
  constructor
  · intro hsource language hlanguage
    obtain ⟨others, hreference⟩ := Reference.ofModulePath_relative manifest himporter hmodule hup
      hdown hsource
    have hlocate : resolve language
        = (ofFiles paths manifest).locate (Reference.ofModulePath manifest importer i) := by
      rcases hlanguage with rfl | rfl <;> rfl
    rw [hlocate, hreference]
    exact locate_file_cons hmem others hops
  · rintro stem rfl hpoint hnamed hsource
    have hslash : '/' ∉ ".py".toList := by decide
    rw [Path.directories_append stem hslash] at hdown
    obtain ⟨others, hreference⟩ := Reference.ofDottedName_relative manifest himporter hmodule hup
      hdown hpoint hnamed hsource
    have hlocate : resolve .python
        = (ofFiles paths manifest).locate (Reference.ofDottedName manifest importer i) := rfl
    rw [hlocate, hreference]
    exact locate_file_cons hmem others hops

/-- A module of a neighbouring directory, in both ways of writing. -/
theorem resolve_relative_neighbour :
    let paths := ["app/models/user.py", "app/views/home.py"]
    let resolve := (ofFiles paths {}).resolve
    let up := stepsUp ["app"] "app/views/home.py"
    "app/models/user.py" ∈ paths ∧ IsNormal "app/views/home.py" ∧ IsNormal "app/models/user.py" ∧
    ["app"] <+: Path.directories "app/views/home.py" ∧
    ["app"] <+: Path.directories "app/models/user.py" ∧
    "../models/user.py" = relative up (segmentsBelow ["app"] "app/models/user.py") ∧
    resolve { source := "../models/user.py" } "app/views/home.py" .javaScript
      = .internal "app/models/user.py" 1 ∧
    "app/models/user.py" = "app/models/user" ++ ".py" ∧ '.' ∉ "app/models/user".toList ∧
    segmentsBelow ["app"] "app/models/user" ≠ [""] ∧
    "..models.user" = relativeDotted up (segmentsBelow ["app"] "app/models/user") ∧
    resolve { source := "..models.user", names := ["User"] } "app/views/home.py" .python
      = .internal "app/models/user.py" 1 := by
  intro paths resolve up
  have hmem : "app/models/user.py" ∈ paths := by decide
  have himporter : IsNormal "app/views/home.py" := by decide
  have hmodule : IsNormal "app/models/user.py" := by decide
  have hup : ["app"] <+: Path.directories "app/views/home.py" := by decide
  have hdown : ["app"] <+: Path.directories "app/models/user.py" := by decide
  have hpath : "../models/user.py" = relative up (segmentsBelow ["app"] "app/models/user.py") := by
    decide
  have hpoint : '.' ∉ "app/models/user".toList := by decide
  have hnamed : segmentsBelow ["app"] "app/models/user" ≠ [""] := by decide
  have hdotted : "..models.user"
      = relativeDotted up (segmentsBelow ["app"] "app/models/user") := by decide
  obtain ⟨hscript, -⟩ := resolve_relative hmem himporter hmodule hup hdown {}
    { source := "../models/user.py" }
  obtain ⟨-, hpython⟩ := resolve_relative hmem himporter hmodule hup hdown {}
    { source := "..models.user", names := ["User"] }
  exact ⟨hmem, himporter, hmodule, hup, hdown, hpath, hscript hpath .javaScript (Or.inr rfl), rfl,
    hpoint, hnamed, hdotted, hpython "app/models/user" rfl hpoint hnamed hdotted⟩

/-- A module whose name is the extension alone: without it only the point of the import is left, and
that leads out of the project. -/
theorem resolve_relativeDotted_points :
    let paths := [".py", "main.py"]
    ".py" ∈ paths ∧ IsNormal "main.py" ∧ IsNormal ".py" ∧
    [] <+: Path.directories "main.py" ∧ [] <+: Path.directories ".py" ∧
    ".py" = "" ++ ".py" ∧ Path.fileName ".py" ≠ "__init__.py" ∧ '.' ∉ "".toList ∧
    "." = relativeDotted (stepsUp [] "main.py") (segmentsBelow [] "") ∧
    (ofFiles paths {}).resolve { source := ".", names := ["x"] } "main.py" .python = .external := by
  decide

end Resolver

end ModuleAtlas
