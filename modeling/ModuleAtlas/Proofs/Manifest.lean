import Mathlib.Data.List.Basic
import Mathlib.Data.List.Induction
import ModuleAtlas.Discovery

/-!
# Manifests after several files

The manifest of a project takes up its manifest files one after the other. Each kind of file settles a
part of the manifest of its own (`ManifestFile.part`): a file that can be read replaces that part and
no other, and one that cannot be read replaces none (`part_take`). So after any number of files a part
is what the last readable file of its kind declares (`part_run`), and the order of files of different
kinds does not matter (`run_laws`).

* `ManifestFile.reads?` : what the text of a file declares, where it can be read.
* `Manifest.take`, `Manifest.run` : one file, and several files.
-/

namespace ModuleAtlas

/-! ## Parts -/

namespace ManifestFile

/-- What the text of a file declares, where it can be read. A file that only marks a root declares
nothing, whatever its text. -/
def reads? (file : ManifestFile) (text : String) : Option (Option String) :=
  match file with
  | .goMod => some (Manifest.goModule? text)
  | .packageJson => Manifest.packageName? text
  | .pyproject =>
    (Manifest.projectName? text).map fun name =>
      (Manifest.declared name).map Manifest.packageOfProject
  | .setupPy | .setupCfg => some none

/-- The part of a manifest that files of a kind settle. -/
def part (file : ManifestFile) (manifest : Manifest) : Option String :=
  match file with
  | .goMod => manifest.goModule
  | .packageJson => manifest.packageName
  | .pyproject => manifest.pythonPackage
  | .setupPy | .setupCfg => none

end ManifestFile

namespace Manifest

variable {manifest other : Manifest} {file : ManifestFile} {text : String}
  {step next : ManifestFile × String} {steps others : List (ManifestFile × String)}

/-- A manifest consists of its root and its parts. -/
theorem ext_parts (hroot : manifest.root = other.root)
    (hparts : ∀ file : ManifestFile, file.part manifest = file.part other) : manifest = other := by
  obtain ⟨root, goModule, packageName, pythonPackage⟩ := manifest
  obtain ⟨root', goModule', packageName', pythonPackage'⟩ := other
  obtain rfl : root = root' := hroot
  obtain rfl : goModule = goModule' := hparts .goMod
  obtain rfl : packageName = packageName' := hparts .packageJson
  obtain rfl : pythonPackage = pythonPackage' := hparts .pyproject
  rfl

/-! ## One file -/

/-- A file is refused exactly if it cannot be read. -/
theorem apply_eq_error_iff :
    (∃ error, manifest.apply file text = .error error) ↔ file.reads? text = none := by
  cases file with
  | goMod | setupPy | setupCfg => simp [apply, ManifestFile.reads?]
  | packageJson =>
    simp only [apply, ManifestFile.reads?]
    cases packageName? text <;> simp
  | pyproject =>
    simp only [apply, ManifestFile.reads?]
    cases projectName? text <;> simp

/-- A file that is taken up replaces its own part by what it declares, and nothing else. -/
theorem parts_of_apply (h : manifest.apply file text = .ok other) :
    other.root = manifest.root ∧ file.reads? text = some (file.part other) ∧
      ∀ kind : ManifestFile, kind ≠ file → kind.part other = kind.part manifest := by
  cases file with
  | goMod | setupPy | setupCfg =>
    cases h
    exact ⟨rfl, rfl, fun kind hkind => by cases kind <;> first | rfl | exact absurd rfl hkind⟩
  | packageJson =>
    simp only [apply] at h
    cases hname : packageName? text with
    | none =>
      rw [hname] at h
      cases h
    | some name =>
      rw [hname] at h
      cases h
      exact ⟨rfl, hname, fun kind hkind => by cases kind <;> first | rfl | exact absurd rfl hkind⟩
  | pyproject =>
    simp only [apply] at h
    cases hname : projectName? text with
    | none =>
      rw [hname] at h
      cases h
    | some name =>
      rw [hname] at h
      cases h
      refine ⟨rfl, ?_, fun kind hkind => by cases kind <;> first | rfl | exact absurd rfl hkind⟩
      rw [ManifestFile.reads?, hname]
      rfl

/-- A manifest after one more file. A file that is refused changes nothing. -/
def take (manifest : Manifest) (step : ManifestFile × String) : Manifest :=
  match manifest.apply step.1 step.2 with
  | .ok changed => changed
  | .error _ => manifest

theorem root_take (manifest : Manifest) (step : ManifestFile × String) :
    (manifest.take step).root = manifest.root := by
  unfold take
  split
  · rename_i happly
    exact (parts_of_apply happly).1
  · rfl

/-- A file settles the part of its kind if it can be read. -/
theorem part_take (file : ManifestFile) (manifest : Manifest) (step : ManifestFile × String) :
    file.part (manifest.take step)
      = if step.1 = file then (file.reads? step.2).getD (file.part manifest)
        else file.part manifest := by
  unfold take
  split
  · rename_i changed happly
    obtain ⟨-, hown, hothers⟩ := parts_of_apply happly
    split
    · rename_i hfile
      rw [← hfile, hown, Option.getD_some]
    · rename_i hfile
      exact hothers file (Ne.symm hfile)
  · rename_i error happly
    have hnone : step.1.reads? step.2 = none := apply_eq_error_iff.mp ⟨error, happly⟩
    split
    · rename_i hfile
      rw [← hfile, hnone, Option.getD_none]
    · rfl

theorem take_of_apply_eq_error {error : ManifestError}
    (h : manifest.apply step.1 step.2 = .error error) : manifest.take step = manifest := by
  rw [take, h]

/-- Files of different kinds can be taken up in either order. -/
theorem take_comm (h : step.1 ≠ next.1) (manifest : Manifest) :
    (manifest.take step).take next = (manifest.take next).take step := by
  refine ext_parts ?_ fun file => ?_
  · simp only [root_take]
  · simp only [part_take]
    by_cases hstep : step.1 = file
    · have hnext : next.1 ≠ file := fun hnext => h (hstep.trans hnext.symm)
      simp only [hstep, hnext, if_true, if_false]
    · simp only [hstep, if_false]

/-! ## Several files -/

/-- A manifest after several files, one after the other. -/
def run (manifest : Manifest) (steps : List (ManifestFile × String)) : Manifest :=
  steps.foldl take manifest

/-- The texts of one kind of file, in their order. -/
def textsOf (file : ManifestFile) (steps : List (ManifestFile × String)) : List String :=
  (steps.filter (·.1 = file)).map (·.2)

theorem run_concat (manifest : Manifest) (steps : List (ManifestFile × String))
    (step : ManifestFile × String) :
    manifest.run (steps ++ [step]) = (manifest.run steps).take step := by
  rw [run, List.foldl_concat]
  rfl

theorem root_run (manifest : Manifest) (steps : List (ManifestFile × String)) :
    (manifest.run steps).root = manifest.root := by
  induction steps using List.reverseRecOn with
  | nil => rfl
  | append_singleton steps step ih => rw [run_concat, root_take, ih]

/-- Each part is what the last readable file of its kind declares, or what it was before. -/
theorem part_run (file : ManifestFile) (manifest : Manifest)
    (steps : List (ManifestFile × String)) : file.part (manifest.run steps)
      = (((textsOf file steps).filterMap file.reads?).getLast?).getD (file.part manifest) := by
  induction steps using List.reverseRecOn with
  | nil => rfl
  | append_singleton steps step ih =>
    rw [run_concat, part_take, ih]
    by_cases hfile : step.1 = file
    · cases hreads : file.reads? step.2 <;>
        simp [textsOf, List.filter_append, List.filterMap_append, hfile, hreads]
    · simp [textsOf, List.filter_append, hfile]

/-- What was missing stays missing until a readable file of its kind comes. -/
theorem part_run_of_part_eq_none (h : file.part manifest = none)
    (steps : List (ManifestFile × String)) : file.part (manifest.run steps)
      = ((textsOf file steps).filterMap file.reads?).getLast?.join := by
  rw [part_run, h]
  cases ((textsOf file steps).filterMap file.reads?).getLast? <;> rfl

/-- Only the texts of each kind of file and their order among themselves matter. -/
theorem run_eq_of_textsOf (h : ∀ file, textsOf file steps = textsOf file others)
    (manifest : Manifest) : manifest.run steps = manifest.run others := by
  refine ext_parts ?_ fun file => ?_
  · simp only [root_run]
  · rw [part_run, part_run, h]

/-- A file that is refused can be left out, wherever it stands. -/
theorem run_append_refused {error : ManifestError} {before after : List (ManifestFile × String)}
    (h : (manifest.run before).apply step.1 step.2 = .error error) :
    manifest.run (before ++ step :: after) = manifest.run (before ++ after) := by
  unfold run at h ⊢
  rw [List.foldl_append, List.foldl_cons, take_of_apply_eq_error h, List.foldl_append]

/-- After any files, valid or not, a new manifest has its root, the module path of the last `go.mod`,
and the names that the last readable files of the other kinds declare; what no file declares is
missing. A file that is refused changes nothing, wherever it stands. Files of different kinds commute,
so they may come in any order, and files of one kind, valid or not, make no difference to what the
others declare. -/
theorem run_laws (root : String) (steps : List (ManifestFile × String)) :
    let fresh : Manifest := { root := root }
    let settled := fresh.run steps
    settled.root = root ∧
    settled.goModule = (textsOf .goMod steps).getLast?.bind goModule? ∧
    settled.packageName = ((textsOf .packageJson steps).filterMap packageName?).getLast?.join ∧
    settled.pythonPackage = (((textsOf .pyproject steps).filterMap projectName?).getLast?.bind
      fun name => (declared name).map packageOfProject) ∧
    (∀ before step after error, steps = before ++ step :: after →
      (fresh.run before).apply step.1 step.2 = .error error →
        fresh.run (before ++ [step]) = fresh.run before ∧ fresh.run (before ++ after) = settled) ∧
    (∀ step next : ManifestFile × String, step.1 ≠ next.1 →
      (settled.take step).take next = (settled.take next).take step) ∧
    (∀ others, (∀ file, textsOf file others = textsOf file steps) → fresh.run others = settled) ∧
    ∀ file others, (∀ kind, kind ≠ file → textsOf kind others = textsOf kind steps) →
      ∀ kind, kind ≠ file → kind.part (fresh.run others) = kind.part settled := by
  intro fresh settled
  have hpart : ∀ (file : ManifestFile) others, file.part (fresh.run others)
      = ((textsOf file others).filterMap file.reads?).getLast?.join := by
    intro file others
    exact part_run_of_part_eq_none (by cases file <;> rfl) others
  refine ⟨root_run _ _, ?_, hpart .packageJson steps, ?_, ?_, ?_, ?_, ?_⟩
  · -- every text of this kind can be read
    refine (hpart .goMod steps).trans ?_
    rw [show ManifestFile.reads? .goMod = fun text => some (goModule? text) from rfl,
      List.filterMap_eq_map', List.getLast?_map]
    cases (textsOf .goMod steps).getLast? <;> rfl
  · refine (hpart .pyproject steps).trans ?_
    rw [show ManifestFile.reads? .pyproject = fun text => (projectName? text).map fun name =>
      (declared name).map packageOfProject from rfl, ← List.map_filterMap, List.getLast?_map]
    cases ((textsOf .pyproject steps).filterMap projectName?).getLast? <;> rfl
  · rintro before step after error hsteps hrefused
    refine ⟨?_, ?_⟩
    · rw [run_concat, take_of_apply_eq_error hrefused]
    · rw [← run_append_refused hrefused, ← hsteps]
  · exact fun step next h => take_comm h settled
  · exact fun others h => run_eq_of_textsOf h fresh
  · intro file others h kind hkind
    rw [hpart, hpart, h kind hkind]

/-! ## Discovered manifests -/

/-- The manifest file at a path, if it is one and holds a text. -/
def step? (path : String) (content : ByteArray) : Option (ManifestFile × String) :=
  (ManifestFile.ofPath? path).bind fun file => (String.fromUTF8? content).map (file, ·)

/-- The manifest files of a directory that hold texts, in the order of the scan. -/
def stepsAt (files : List (String × ByteArray)) (root : String) : List (ManifestFile × String) :=
  (files.filter fun file => Path.parent file.1 = root).filterMap fun file => step? file.1 file.2

theorem applyFile_eq (manifest : Manifest) (path : String) (content : ByteArray) :
    manifest.applyFile path content = (step? path content).elim manifest manifest.take := by
  unfold applyFile step?
  cases ManifestFile.ofPath? path with
  | none => rfl
  | some file => cases String.fromUTF8? content <;> rfl

/-- The manifest of a project root is what its manifest files make of a new one. -/
theorem manifestAt_eq_run (files : List (String × ByteArray)) (root : String) :
    manifestAt files root = run { root := root } (stepsAt files root) := by
  unfold manifestAt stepsAt run
  generalize files.filter (fun file => Path.parent file.1 = root) = found
  generalize ({ root := root } : Manifest) = manifest
  induction found generalizing manifest with
  | nil => rfl
  | cons file found ih =>
    obtain ⟨path, content⟩ := file
    rw [List.foldl_cons, ih, List.filterMap_cons]
    dsimp only
    rw [applyFile_eq]
    cases step? path content <;> rfl

end Manifest

end ModuleAtlas
