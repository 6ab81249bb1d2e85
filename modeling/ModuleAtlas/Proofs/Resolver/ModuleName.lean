import ModuleAtlas.Grammar
import ModuleAtlas.Proofs.ModuleName
import ModuleAtlas.Proofs.Resolver
import ModuleAtlas.Proofs.Resolver.PackageDirectory
import ModuleAtlas.Proofs.Text.Join

/-!
# Module names with blank space in them

The points of a module name become the separators of a path, with the blank space beside them. So in a
project without such paths (`IsPlain`) a name with blank space between its tokens leads nowhere
(`resolve_of_breaks`), though the same name without it may lead to a file (`resolve_moduleName_laws`).
This holds of any syntax tree whose module names are names of modules (`NamesModules`), as those of the
program's own parser are (`namesModules_parse`).
-/

namespace ModuleAtlas

open Python (Breaks IsTight Piece isSpace modules packed)

variable {sep x : Char} {front rest chars : List Char} {path base directory dotted name : String}
  {names : List String} {manifest : Manifest} {importer : String} {i i' : Import}
  {m m' : List Piece}

/-! ## Paths -/

/-- A path without line ends, in which no blank stands beside a separator or in front. -/
def Path.IsPlain (path : String) : Prop := ¬ Breaks '/' ('/' :: path.toList)

/-- Characters that are no blank space may be taken off in front of a separator. -/
theorem Python.breaks_of_front (hsep : isSpace sep = false ∧ sep ≠ '\n')
    (hfront : ∀ x ∈ front, isSpace x = false ∧ x ≠ '\n') (h : Breaks sep (front ++ sep :: rest)) :
    Breaks sep (sep :: rest) := by
  have hnot : ∀ x, isSpace x = true → x ∉ front := by
    intro x hx hmem
    rw [(hfront x hmem).1] at hx
    cases hx
  rcases h with hline | ⟨x, hx, hpair⟩
  · exact .inl ((List.mem_append.mp hline).resolve_left fun hmem => (hfront _ hmem).2 rfl)
  · have hne : x ≠ sep := by
      rintro rfl
      rw [hsep.1] at hx
      cases hx
    exact .inr ⟨x, hx, hpair.imp (Text.infix_of_second_not_mem_front · (hnot x hx) hne)
      (Text.infix_of_not_mem_front · (hnot x hx))⟩

theorem Python.not_breaks (h : ∀ x ∈ chars, isSpace x = false ∧ x ≠ '\n') : ¬ Breaks sep chars := by
  rintro (hline | ⟨x, hx, hpair⟩)
  · exact (h _ hline).2 rfl
  · have hmem : x ∈ chars := hpair.elim (·.subset (by simp)) (·.subset (by simp))
    rw [(h x hmem).1] at hx
    cases hx

/-- Points become separators. -/
def pathChar (c : Char) : Char := if c = '.' then '/' else c

theorem toList_join_pathChar {pieces : List String} (h : ∀ piece ∈ pieces, '.' ∉ piece.toList) :
    (Text.join "/" pieces).toList = (Text.join "." pieces).toList.map pathChar := by
  have hpiece : ∀ piece : String, '.' ∉ piece.toList → piece.toList.map pathChar = piece.toList := by
    intro piece hpoint
    refine (List.map_congr_left fun c hc => if_neg ?_).trans (List.map_id _)
    rintro rfl
    exact hpoint hc
  induction pieces with
  | nil => rfl
  | cons first more ih =>
    obtain ⟨hfirst, hmore⟩ := List.forall_mem_cons.mp h
    cases more with
    | nil => exact (hpiece first hfirst).symm
    | cons next more =>
      rw [Text.join_cons _ _ (List.cons_ne_nil next more),
        Text.join_cons _ _ (List.cons_ne_nil next more)]
      simp only [String.toList_append, List.map_append, ih hmore, hpiece first hfirst]
      rfl

theorem toList_ofDotted (name : String) : (Path.ofDotted name).toList = name.toList.map pathChar := by
  have hjoin : Text.join "." (Text.split '.' name) = name := Text.join_split '.' name
  rw [Path.ofDotted, toList_join_pathChar fun _ => Text.not_mem_of_mem_split, hjoin]

/-- The path of a dotted name has blanks beside the separators where the name has them beside points. -/
theorem breaks_ofDotted (h : Breaks '.' ('.' :: dotted.toList)) :
    Breaks '/' ('/' :: (Path.ofDotted dotted).toList) := by
  have hchars : '/' :: (Path.ofDotted dotted).toList = ('.' :: dotted.toList).map pathChar := by
    rw [toList_ofDotted]
    rfl
  have hkeeps : ∀ x, isSpace x = true → pathChar x = x := by
    rintro x hx
    refine if_neg ?_
    rintro rfl
    cases hx
  rw [hchars]
  rcases h with hline | ⟨x, hx, hpair⟩
  · exact .inl (List.mem_map.mpr ⟨'\n', hline, rfl⟩)
  · refine .inr ⟨x, hx, hpair.imp (fun h => ?_) fun h => ?_⟩
    · have hmap := h.map pathChar
      rwa [List.map_cons, List.map_singleton, hkeeps x hx] at hmap
    · have hmap := h.map pathChar
      rwa [List.map_cons, List.map_singleton, hkeeps x hx] at hmap

/-! ## Candidates -/

namespace Reference

theorem prefix_child (hbase : base ≠ "") (name : String) :
    base.toList <+: (Path.child base name).toList := by
  rw [Path.child, if_neg hbase]
  split
  · exact List.prefix_rfl
  · rw [String.toList_append, String.toList_append, List.append_assoc]
    exact List.prefix_append _ _

theorem prefix_of_mem_pythonFiles (hbase : base ≠ "") (h : path ∈ pythonFiles base) :
    base.toList <+: path.toList := by
  rw [pythonFiles, if_neg hbase, List.mem_append] at h
  rcases h with hmodule | hpackage
  · rcases List.mem_pair.mp hmodule with rfl | rfl
    · rw [String.toList_append]
      exact List.prefix_append _ _
    · rw [String.toList_append]
      exact List.prefix_append _ _
  · rw [List.mem_singleton.mp hpackage]
    exact prefix_child hbase _

theorem prefix_of_mem_submoduleFiles (hbase : base ≠ "") (h : path ∈ submoduleFiles base names) :
    base.toList <+: path.toList := by
  obtain ⟨name, -, hpath⟩ := List.mem_flatMap.mp h
  have hprefix := prefix_child hbase name
  refine hprefix.trans (prefix_of_mem_pythonFiles ?_ hpath)
  intro hempty
  rw [hempty] at hprefix
  exact hbase (String.toList_eq_nil_iff.mp (List.prefix_nil.mp hprefix))

/-- There is something after the separator. -/
theorem ne_empty_of_breaks (hsep : sep ≠ '\n') (h : Breaks sep (sep :: name.toList)) : name ≠ "" := by
  rintro rfl
  have hshort : ∀ pair : List Char, pair.length = 2 → ¬ pair <:+: sep :: "".toList := by
    intro pair hlength hinfix
    have hle := hinfix.length_le
    simp [hlength] at hle
  rcases h with hline | ⟨x, -, hpair⟩
  · exact hsep (List.mem_singleton.mp hline).symm
  · exact hpair.elim (hshort _ rfl) (hshort _ rfl)

/-- No file that such a name may mean has a plain path. -/
theorem not_isPlain_of_mem_filesBelow (hdotted : Breaks '.' ('.' :: dotted.toList))
    (h : path ∈ filesBelow directory dotted names) : ¬ Path.IsPlain path := by
  have hbreaks := breaks_ofDotted hdotted
  have hrest : Path.ofDotted dotted ≠ "" := ne_empty_of_breaks (by decide) hbreaks
  have hsuffix : '/' :: (Path.ofDotted dotted).toList
      <:+ '/' :: (Path.child directory (Path.ofDotted dotted)).toList := by
    unfold Path.child
    split
    · exact List.suffix_refl _
    · rw [String.toList_append, String.toList_append, List.append_assoc]
      exact (List.suffix_append _ _).trans (List.suffix_cons _ _)
  have hbase : Path.child directory (Path.ofDotted dotted) ≠ "" :=
    ne_empty_of_breaks (by decide) (hbreaks.mono hsuffix.isInfix)
  have hprefix : (Path.child directory (Path.ofDotted dotted)).toList <+: path.toList := by
    rw [filesBelow, if_neg (ne_empty_of_breaks (by decide) hdotted), List.mem_append] at h
    exact h.elim (prefix_of_mem_pythonFiles hbase) (prefix_of_mem_submoduleFiles hbase)
  have hinfix := hsuffix.isInfix.trans (List.cons_prefix_cons.mpr ⟨rfl, hprefix⟩).isInfix
  exact not_not_intro (hbreaks.mono hinfix)

/-- The points in front of a relative name may be taken off. -/
theorem breaks_of_points {source : String} (hrelative : source.toList.head? = some '.')
    (h : Breaks '.' source.toList) :
    Breaks '.' ('.' :: source.toList.dropWhile (· == '.')) := by
  have hpoints : ∀ x ∈ source.toList.takeWhile (· == '.'), x = '.' :=
    fun x hx => beq_iff_eq.mp (List.mem_takeWhile_imp (p := fun y => y == '.') hx)
  have hsplit : source.toList.takeWhile (· == '.') ++ source.toList.dropWhile (· == '.')
      = source.toList := List.takeWhile_append_dropWhile
  have hne : source.toList.takeWhile (· == '.') ≠ [] := by
    obtain ⟨rest, hsource⟩ := List.head?_eq_some_iff.mp hrelative
    rw [hsource, List.takeWhile_cons]
    exact List.cons_ne_nil _ _
  obtain ⟨front, last, hlast⟩ := (List.eq_nil_or_concat' _).resolve_left hne
  rw [hlast] at hpoints hsplit
  obtain rfl : last = '.' := hpoints last (by simp)
  rw [← hsplit, List.append_assoc] at h
  refine Python.breaks_of_front (by decide) (fun x hx => ?_) h
  rw [hpoints x (List.mem_append_left _ hx)]
  decide

/-- A package name without blank space. -/
def IsPlainPackage (manifest : Manifest) : Prop :=
  ∀ name ∈ manifest.pythonPackage, ∀ x ∈ name.toList, isSpace x = false ∧ x ≠ '\n'

/-- No file that an import with such a source may mean has a plain path. -/
theorem ofDottedName_of_breaks (hsource : Breaks '.' i.source.toList)
    (hpackage : IsPlainPackage manifest) (importer : String) :
    (∃ candidates hops, ofDottedName manifest importer i = .file candidates hops ∧
      ∀ path ∈ candidates, ¬ Path.IsPlain path) ∨
    ofDottedName manifest importer i = .outside := by
  unfold ofDottedName
  dsimp only
  split
  · rename_i hrelative
    have hbreaks : Breaks '.' ('.' ::
        (String.ofList (i.source.toList.dropWhile (· == '.'))).toList) := by
      rw [String.toList_ofList]
      exact breaks_of_points (beq_iff_eq.mp hrelative) hsource
    split
    · exact .inl ⟨_, _, rfl, fun path hpath => not_isPlain_of_mem_filesBelow hbreaks hpath⟩
    · exact .inr rfl
  · have hbreaks : Breaks '.' ('.' :: i.source.toList) := hsource.mono (List.suffix_cons _ _).isInfix
    refine .inl ⟨_, _, rfl, fun path hpath => ?_⟩
    rw [List.mem_append, List.mem_append] at hpath
    rcases hpath with (hroot | hsrc) | hown
    · exact not_isPlain_of_mem_filesBelow hbreaks hroot
    · exact not_isPlain_of_mem_filesBelow hbreaks hsrc
    · -- below the declared package
      cases hrest : manifest.pythonPackage.bind fun name => below? '.' name i.source with
      | none =>
        rw [hrest] at hown
        cases hown
      | some rest =>
        rw [hrest] at hown
        obtain ⟨name, hname, hbelow⟩ := Option.bind_eq_some_iff.mp hrest
        refine not_isPlain_of_mem_filesBelow ?_ hown
        rcases below?_eq_some_iff.mp hbelow with ⟨heq, -⟩ | heq
        · rw [heq] at hsource
          exact absurd hsource (Python.not_breaks (hpackage name hname))
        · rw [heq] at hsource
          refine Python.breaks_of_front (by decide) (hpackage name hname) ?_
          simpa using hsource

end Reference

namespace Resolver

variable {paths : List String}

/-- Among plain paths, a name with blank space between its tokens leads nowhere. -/
theorem resolve_of_breaks (hsource : Breaks '.' i.source.toList)
    (hpaths : ∀ path ∈ paths, Path.IsPlain path) (hpackage : Reference.IsPlainPackage manifest)
    (importer : String) : (ofFiles paths manifest).resolve i importer .python = .external := by
  have hresolve : (ofFiles paths manifest).resolve i importer .python
      = (ofFiles paths manifest).locate (Reference.ofDottedName manifest importer i) := rfl
  rw [hresolve]
  rcases Reference.ofDottedName_of_breaks hsource hpackage importer with
    ⟨candidates, hops, hreference, hplain⟩ | hreference
  · have hnone : candidates.find? (ofFiles paths manifest).contains = none := by
      refine List.find?_eq_none.mpr fun path hpath hcontains => hplain path hpath ?_
      exact hpaths path (contains_ofFiles.mp hcontains)
    rw [hreference, locate, hnone]
  · rw [hreference, locate]

/-- Where an import leads depends on its source and its names. -/
theorem resolve_python_congr (hsource : i.source = i'.source) (hnames : i.names = i'.names)
    (r : Resolver) (importer : String) :
    r.resolve i importer .python = r.resolve i' importer .python := by
  obtain ⟨source, names, _, _, _⟩ := i
  obtain ⟨source', names', _, _, _⟩ := i'
  obtain rfl : source = source' := hsource
  obtain rfl : names = names' := hnames
  rfl

end Resolver

namespace Python

/-- An import of a file whose source is the text of a module name with these tokens. -/
structure Spells (text : String) (root : Syntax.Node) (i : Import) (m : List Piece) : Prop where
  mem_imports : i ∈ (extraction root text).imports
  exists_module : ∃ node ∈ modules root, node.text? text = some i.source ∧ namePieces text node = m

/-- What stands for module names in a tree are names of modules in the text. -/
def NamesModules (text : String) (root : Syntax.Node) : Prop :=
  ∀ node ∈ modules root, IsModuleName text node

instance (text : String) (root : Syntax.Node) : Decidable (NamesModules text root) :=
  inferInstanceAs (Decidable (∀ node ∈ modules root, _))

variable {text text' : String} {root root' : Syntax.Node}

/-- The source of an import is the packed name, or there is blank space beside a point in it. -/
theorem Spells.source (hmodules : NamesModules text root) (h : Spells text root i m) :
    (IsTight m → i.source = packed m) ∧ (¬ IsTight m → Breaks '.' i.source.toList) := by
  obtain ⟨node, hnode, htext, rfl⟩ := h.exists_module
  have hname := hmodules node hnode
  obtain hspell : i.source = spell (namePieces text node) :=
    Option.some.inj (htext.symm.trans hname.text_eq)
  rw [hspell]
  exact ⟨spell_of_isTight, breaks_spell hname.links⟩

/-- Among plain paths, an import leads where its packed name leads, or nowhere. -/
theorem Spells.resolve (hmodules : NamesModules text root) (h : Spells text root i m)
    {paths : List String} (hpaths : ∀ path ∈ paths, Path.IsPlain path)
    (hpackage : Reference.IsPlainPackage manifest) (importer : String) :
    let leads := fun j : Import => (Resolver.ofFiles paths manifest).resolve j importer .python
    let packedImport : Import := { i with source := packed m }
    (IsTight m → leads i = leads packedImport) ∧ (¬ IsTight m → leads i = .external) := by
  intro leads packedImport
  obtain ⟨htight, hloose⟩ := h.source hmodules
  refine ⟨fun hm => ?_, fun hm => ?_⟩
  · have hsource : i.source = packedImport.source := htight hm
    exact Resolver.resolve_python_congr hsource rfl _ importer
  · exact Resolver.resolve_of_breaks (hloose hm) hpaths hpackage importer

/-- The source of every import in a file is the text of a module name, and two imports with the same
tokens and the same names lead to the same file after the same steps up, in any project, with nothing
between the tokens of the one and of the other. In a project without blanks beside the separators of
its paths, an import leads where its name leads without blank space, if there is none; otherwise it
leads nowhere. So two imports with the same tokens lead to the same place exactly if both have blank
space or none has, or if the name leads nowhere anyway. -/
theorem resolve_moduleName_laws (hmodules : NamesModules text root)
    (hmodules' : NamesModules text' root') (hi : Spells text root i m) (hi' : Spells text' root' i' m')
    (htokens : m.map (·.text) = m'.map (·.text)) (hnames : i.names = i'.names) :
    (∀ j ∈ (extraction root text).imports, ∃ tokens, Spells text root j tokens) ∧
    (IsTight m → IsTight m' → ∀ paths manifest importer,
      (Resolver.ofFiles paths manifest).resolve i importer .python
        = (Resolver.ofFiles paths manifest).resolve i' importer .python) ∧
    ∀ paths manifest importer, (∀ path ∈ paths, Path.IsPlain path) →
      Reference.IsPlainPackage manifest →
        let leads := fun j : Import => (Resolver.ofFiles paths manifest).resolve j importer .python
        let packedImport : Import := { i with source := packed m }
        (IsTight m → leads i = leads packedImport) ∧ (¬ IsTight m → leads i = .external) ∧
        (leads i = leads i' ↔ (IsTight m ↔ IsTight m') ∨ leads packedImport = .external) := by
  have hpacked : packed m' = packed m := by
    rw [packed, packed, htokens]
  refine ⟨fun j hj => ?_, fun hm hm' paths manifest importer => ?_,
    fun paths manifest importer hpaths hpackage => ?_⟩
  · obtain ⟨node, hnode, htext⟩ := exists_module_of_mem_imports hj
    exact ⟨_, hj, node, hnode, htext, rfl⟩
  · refine Resolver.resolve_python_congr ?_ hnames _ importer
    rw [(hi.source hmodules).1 hm, (hi'.source hmodules').1 hm', hpacked]
  · intro leads packedImport
    let packedImport' : Import := { i' with source := packed m' }
    obtain ⟨hleads, hexternal⟩ : (IsTight m → leads i = leads packedImport) ∧
      (¬ IsTight m → leads i = .external) := hi.resolve hmodules hpaths hpackage importer
    obtain ⟨hleads', hexternal'⟩ : (IsTight m' → leads i' = leads packedImport') ∧
      (¬ IsTight m' → leads i' = .external) := hi'.resolve hmodules' hpaths hpackage importer
    have hsource : packedImport'.source = packedImport.source := hpacked
    have hsame : leads packedImport' = leads packedImport :=
      Resolver.resolve_python_congr hsource hnames.symm _ importer
    rw [hsame] at hleads'
    refine ⟨hleads, hexternal, ?_⟩
    by_cases hm : IsTight m <;> by_cases hm' : IsTight m'
    · simp [hleads hm, hleads' hm', hm, hm']
    · simp [hleads hm, hexternal' hm', hm, hm']
    · simp [hexternal hm, hleads' hm', hm, hm', eq_comm]
    · simp [hexternal hm, hexternal' hm', hm, hm']

/-- An import with a blank in its module name. -/
def blankImport : Import := { source := ". a", names := ["b"], kind := .pythonFrom, line := 1 }

/-- The same import without the blank. -/
def joinedImport : Import := { source := ".a", names := ["b"], kind := .pythonFrom, line := 1 }

/-- The tokens of the name, with a blank after the point or not. -/
def pointName (after : String) : List Piece := [⟨".", after⟩, ⟨"a", ""⟩]

/-- The text of a file with one import. -/
def importText (source : String) : String := "from " ++ source ++ " import b\n"

theorem spells_of_eq {source : String}
    (h : let root := (parse (importText source)).root
      (extraction root (importText source)).imports = [i] ∧
        (modules root).map (fun node =>
          (node.text? (importText source), namePieces (importText source) node))
          = [(some i.source, m)]) :
    Spells (importText source) (parse (importText source)).root i m := by
  obtain ⟨himports, hmodules⟩ := h
  obtain ⟨node, hnode, heq⟩ := List.mem_map.mp (hmodules ▸ List.mem_singleton_self _)
  obtain ⟨htext, hpieces⟩ := Prod.mk.inj heq
  exact ⟨himports ▸ List.mem_singleton_self _, node, hnode, htext, hpieces⟩

theorem spells_blankImport :
    Spells (importText ". a") (parse (importText ". a")).root blankImport (pointName " ") :=
  spells_of_eq (by decide +kernel)

theorem spells_joinedImport :
    Spells (importText ".a") (parse (importText ".a")).root joinedImport (pointName "") :=
  spells_of_eq (by decide +kernel)

theorem isPlain_moduleFiles : ∀ path ∈ ["a.py", "main.py"], Path.IsPlain path := by
  have hchars : (["a.py", "main.py"].all fun path =>
      ('/' :: path.toList).all fun x => !isSpace x && x != '\n') = true := by decide +kernel
  simp only [List.all_eq_true, Bool.and_eq_true, Bool.not_eq_true', bne_iff_ne] at hchars
  exact fun path hpath => not_breaks (hchars path hpath)

theorem not_isTight_pointName : ¬ IsTight (pointName " ") := by
  intro htight
  obtain ⟨hafter, -⟩ := List.isChain_cons_cons.mp htight
  exact absurd hafter (by decide)

theorem resolve_blankImport :
    NamesModules (importText ". a") (parse (importText ". a")).root ∧
    NamesModules (importText ".a") (parse (importText ".a")).root ∧
    Spells (importText ". a") (parse (importText ". a")).root blankImport (pointName " ") ∧
    Spells (importText ".a") (parse (importText ".a")).root joinedImport (pointName "") ∧
    (pointName " ").map (·.text) = (pointName "").map (·.text) ∧
    blankImport.names = joinedImport.names ∧ (∀ path ∈ ["a.py", "main.py"], Path.IsPlain path) ∧
    Reference.IsPlainPackage {} ∧
    (Resolver.ofFiles ["a.py", "main.py"] {}).resolve blankImport "main.py" .python = .external := by
  have hmodules : NamesModules (importText ". a") (parse (importText ". a")).root := by decide +kernel
  have hmodules' : NamesModules (importText ".a") (parse (importText ".a")).root := by decide +kernel
  have hpackage : Reference.IsPlainPackage {} := fun _ h => absurd h (by simp)
  obtain ⟨-, -, hlaws⟩ :=
    resolve_moduleName_laws hmodules hmodules' spells_blankImport spells_joinedImport rfl rfl
  obtain ⟨-, hexternal, -⟩ := hlaws _ {} "main.py" isPlain_moduleFiles hpackage
  exact ⟨hmodules, hmodules', spells_blankImport, spells_joinedImport, rfl, rfl, isPlain_moduleFiles,
    hpackage, hexternal not_isTight_pointName⟩

/-- The blank makes the import external, though the file is there. -/
theorem not_resolve_blankImport :
    Spells (importText ". a") (parse (importText ". a")).root blankImport (pointName " ") ∧
    Spells (importText ".a") (parse (importText ".a")).root joinedImport (pointName "") ∧
    (pointName " ").map (·.text) = (pointName "").map (·.text) ∧
    (Resolver.ofFiles ["a.py", "main.py"] {}).resolve blankImport "main.py" .python = .external ∧
    (Resolver.ofFiles ["a.py", "main.py"] {}).resolve joinedImport "main.py" .python
      = .internal "a.py" 0 :=
  ⟨spells_blankImport, spells_joinedImport, rfl, by decide +kernel, by decide +kernel⟩

end Python

end ModuleAtlas
