import ModuleAtlas.Proofs.Resolver.PackageDirectory
import ModuleAtlas.Proofs.Text.Split
import ModuleAtlas.Proofs.Text.Trim

/-!
# Module lines

A `go.mod` declares its module path on a line `module path`, with blanks and quotes around the path
and perhaps a comment after it (`Manifest.Declares`). The path is read off the line as it stands. So
what is read is what the line declares exactly if the line has no comment (`goModule?_laws`): a
comment becomes part of the path, and then no import is below it.

* `Manifest.uncommented` : a line without its comment.
* `Manifest.declaredModule?` : the module path that a text declares.
* `Manifest.moduleLine?` : the line that the module path is read from.
-/

namespace ModuleAtlas

namespace Manifest

open Text (isBlank IsCore)

/-! ## Comments -/

/-- A line with a comment. -/
def HasComment (line : String) : Prop := ['/', '/'] <:+: line.toList

/-- The characters before a comment. -/
def beforeComment : List Char → List Char
  | [] => []
  | c :: rest => if c = '/' ∧ rest.head? = some '/' then [] else c :: beforeComment rest

/-- A line without its comment. -/
def uncommented (line : String) : String := String.ofList (beforeComment line.toList)

variable {chars front rest : List Char} {line path text other : String}

theorem head?_beforeComment {c : Char} (h : (beforeComment chars).head? = some c) :
    chars.head? = some c := by
  cases chars with
  | nil => exact h
  | cons d rest =>
    rw [beforeComment] at h
    split at h
    · cases h
    · exact h

/-- What is cut off is empty or starts with the slashes of the comment. -/
theorem exists_comment (chars : List Char) : ∃ comment, chars = beforeComment chars ++ comment ∧
    (comment = [] ∨ ['/', '/'] <+: comment) := by
  induction chars with
  | nil => exact ⟨[], rfl, .inl rfl⟩
  | cons c rest ih =>
    rw [beforeComment]
    split
    · rename_i hslashes
      obtain ⟨rfl, hhead⟩ := hslashes
      obtain ⟨rest, rfl⟩ := List.head?_eq_some_iff.mp hhead
      exact ⟨_, rfl, .inr ⟨rest, rfl⟩⟩
    · obtain ⟨comment, hrest, hcomment⟩ := ih
      exact ⟨comment, by rw [List.cons_append, ← hrest], hcomment⟩

theorem not_infix_beforeComment (chars : List Char) : ¬ ['/', '/'] <:+: beforeComment chars := by
  induction chars with
  | nil => simp [beforeComment]
  | cons c rest ih =>
    rw [beforeComment]
    split
    · simp
    · rename_i hslashes
      rw [List.infix_cons_iff, not_or]
      refine ⟨?_, ih⟩
      intro hprefix
      obtain ⟨rfl, tail, htail⟩ := List.cons_prefix_cons.mp hprefix
      exact hslashes ⟨rfl, head?_beforeComment (by rw [← htail]; rfl)⟩

theorem beforeComment_append (hfront : '/' ∉ front) (rest : List Char) :
    beforeComment (front ++ rest) = front ++ beforeComment rest := by
  induction front with
  | nil => rfl
  | cons c front ih =>
    rw [List.mem_cons, not_or] at hfront
    rw [List.cons_append, beforeComment, if_neg fun h => hfront.1 h.1.symm, ih hfront.2]
    rfl

theorem not_hasComment_uncommented (line : String) : ¬ HasComment (uncommented line) := by
  rw [HasComment, uncommented, String.toList_ofList]
  exact not_infix_beforeComment _

theorem uncommented_of_not_hasComment (h : ¬ HasComment line) : uncommented line = line := by
  obtain ⟨comment, hline, hcomment⟩ := exists_comment line.toList
  rcases hcomment with rfl | hslashes
  · rw [uncommented, ← String.toList_inj, String.toList_ofList, ← List.append_nil (beforeComment _)]
    exact hline.symm
  · refine absurd ?_ h
    rw [HasComment, hline]
    exact hslashes.isInfix.trans (List.suffix_append _ _).isInfix

/-! ## Reading a module line -/

/-- A line `module` with some text after it. -/
def Writes (line : String) (written : List Char) : Prop :=
  ∃ indent gap tail, line.toList = indent ++ "module".toList ++ gap ++ written ++ tail ∧
    (∀ c ∈ indent, isBlank c = true) ∧ (∀ c ∈ gap, isBlank c = true) ∧
    (∀ c ∈ tail, isBlank c = true) ∧ gap ≠ [] ∧ written ≠ [] ∧ IsCore isBlank written

/-- The path in the text after `module`. -/
def pathIn (written : List Char) : String := Text.trimWhile (· == '"') (String.ofList written)

theorem slash_not_mem_of_isBlank (h : ∀ c ∈ chars, isBlank c = true) : '/' ∉ chars :=
  fun hslash => absurd (h _ hslash) (by decide)

theorem isCore_module {gap written : List Char} (hwritten : IsCore isBlank written)
    (hne : written ≠ []) : IsCore isBlank ("module".toList ++ gap ++ written) := by
  refine ⟨?_, ?_⟩
  · rintro c hc
    obtain rfl : 'm' = c := Option.some.inj hc
    decide
  · rw [List.getLast?_append_of_ne_nil _ hne]
    exact hwritten.last

theorem modulePath?_of_writes {written : List Char} (h : Writes line written) :
    modulePath? line = declared (some (pathIn written)) := by
  obtain ⟨indent, gap, tail, hline, hindent, hgap, htail, hgapne, hne, hcore⟩ := h
  have htrim : Text.trim line = "module" ++ String.ofList (gap ++ written) := by
    have hchars : line.toList = indent ++ ("module".toList ++ gap ++ written) ++ tail := by
      rw [hline]
      simp only [List.append_assoc]
    rw [Text.trim, Text.trimWhile_surrounded hchars hindent htail (isCore_module hcore hne),
      List.append_assoc, String.ofList_append, String.ofList_toList]
  have hstrip : Text.stripFront? "module" (Text.trim line) = some (String.ofList (gap ++ written)) :=
    Text.stripFront?_eq_some_iff.mpr htrim
  have hrest : Text.trim (String.ofList (gap ++ written)) = String.ofList written :=
    Text.trimWhile_surrounded (by rw [String.toList_ofList, List.append_nil]) hgap (by simp) hcore
  have hblank : (((String.ofList (gap ++ written)).toList.head?.map isBlank).getD false) = true := by
    obtain ⟨c, gap, rfl⟩ := List.exists_cons_of_ne_nil hgapne
    rw [String.toList_ofList]
    exact hgap c List.mem_cons_self
  unfold modulePath?
  rw [hstrip]
  dsimp only
  rw [if_pos hblank, hrest]
  rfl

/-- A path is read off a line only if the line is `module` with some text after it. -/
theorem exists_writes_of_modulePath? (h : modulePath? line = some path) :
    ∃ written, Writes line written := by
  unfold modulePath? at h
  split at h
  · cases h
  rename_i rest hstrip
  split at h
  · rename_i hblank
    have htrim := Text.stripFront?_eq_some_iff.mp hstrip
    obtain ⟨indent, core, back, hline, hindent, hback, hcore⟩ := Text.exists_core isBlank line.toList
    obtain ⟨gap, written, tail, hrest, hgap, htail, hwritten⟩ := Text.exists_core isBlank rest.toList
    rw [Text.trim, Text.trimWhile_surrounded hline hindent hback hcore, ← String.toList_inj,
      String.toList_ofList, String.toList_append, hrest] at htrim
    rw [Text.trim, Text.trimWhile_surrounded hrest hgap htail hwritten] at h
    have hne : written ≠ [] := by
      rintro rfl
      cases h
    have hgapne : gap ≠ [] := by
      rintro rfl
      obtain ⟨c, written, rfl⟩ := List.exists_cons_of_ne_nil hne
      rw [hrest] at hblank
      have hc : isBlank c = false := hwritten.head c rfl
      have hc' : isBlank c = true := hblank
      rw [hc] at hc'
      cases hc'
    refine ⟨written, indent, gap, tail ++ back, ?_, hindent, hgap, ?_, hgapne, hne, hwritten⟩
    · rw [hline, htrim]
      simp only [List.append_assoc]
    · exact List.forall_mem_append.mpr ⟨htail, hback⟩
  · cases h

/-- Blank space around a line does not matter. -/
theorem modulePath?_trim (line : String) : modulePath? (Text.trim line) = modulePath? line := by
  unfold modulePath?
  rw [Text.trim_trim]

/-! ## Lines with a comment -/

/-- What a line writes before its comment goes on with the comment. -/
theorem Writes.of_uncommented {written : List Char} (h : Writes (uncommented line) written) :
    ∃ longer, Writes line longer := by
  obtain ⟨indent, gap, tail, hline, hindent, hgap, -, hgapne, hne, hcore⟩ := h
  obtain ⟨comment, hcomment, -⟩ := exists_comment line.toList
  rw [uncommented, String.toList_ofList] at hline
  obtain ⟨c, written, rfl⟩ := List.exists_cons_of_ne_nil hne
  have hc : isBlank c = false := hcore.head c rfl
  have hrest : line.toList
      = indent ++ "module".toList ++ gap ++ (c :: (written ++ tail ++ comment)) := by
    rw [hcomment, hline]
    simp only [List.append_assoc, List.cons_append]
  -- it starts with the same character, so nothing is trimmed off in front
  obtain ⟨longer, back, hsplit, hback, hlongerne, hlonger⟩ :=
    Text.exists_core_cons hc (written ++ tail ++ comment)
  refine ⟨longer, indent, gap, back, ?_, hindent, hgap, hback, hgapne, hlongerne, hlonger⟩
  rw [hrest, hsplit, ← List.append_assoc]

/-- A comment is read as a part of the path. -/
theorem Writes.slashes {written : List Char} (h : Writes line written) (hcomment : HasComment line) :
    ['/', '/'] <:+: (pathIn written).toList := by
  obtain ⟨indent, gap, tail, hline, hindent, hgap, htail, -, -, -⟩ := h
  refine Text.infix_trimWhile ?_ (by decide) (by decide)
  rw [String.toList_ofList]
  rw [HasComment, hline, List.append_assoc _ written tail] at hcomment
  refine Text.infix_of_not_mem_back (Text.infix_of_not_mem_front hcomment ?_)
    (slash_not_mem_of_isBlank htail)
  simp only [List.mem_append, not_or]
  exact ⟨⟨slash_not_mem_of_isBlank hindent, by decide⟩, slash_not_mem_of_isBlank hgap⟩

theorem slashes_of_modulePath? (h : modulePath? line = some path) (hcomment : HasComment line) :
    ['/', '/'] <:+: path.toList := by
  obtain ⟨written, hwritten⟩ := exists_writes_of_modulePath? h
  rw [modulePath?_of_writes hwritten] at h
  obtain ⟨hpath, -⟩ := Option.filter_eq_some_iff.mp h
  rw [← Option.some.inj hpath]
  exact hwritten.slashes hcomment

/-- A declared path is a part of the line before the comment. -/
theorem not_slashes_of_uncommented (h : modulePath? (uncommented line) = some path) :
    ¬ ['/', '/'] <:+: path.toList := by
  intro hslashes
  obtain ⟨written, hwritten⟩ := exists_writes_of_modulePath? h
  rw [modulePath?_of_writes hwritten] at h
  obtain ⟨hpath, -⟩ := Option.filter_eq_some_iff.mp h
  obtain ⟨indent, gap, tail, hline, -⟩ := hwritten
  have hpart : (pathIn written).toList <:+: (String.ofList written).toList :=
    Text.trimWhile_infix _ _
  rw [String.toList_ofList] at hpart
  rw [← Option.some.inj hpath] at hslashes
  refine not_hasComment_uncommented line ((hslashes.trans hpart).trans ?_)
  rw [hline]
  exact ⟨indent ++ "module".toList ++ gap, tail, rfl⟩

/-- Where a line declares a path, one is read off it. -/
theorem exists_modulePath? (h : modulePath? (uncommented line) = some path) :
    ∃ other, modulePath? line = some other := by
  by_cases hcomment : HasComment line
  · obtain ⟨written, hwritten⟩ := exists_writes_of_modulePath? h
    obtain ⟨longer, hlonger⟩ := hwritten.of_uncommented
    refine ⟨pathIn longer, ?_⟩
    rw [modulePath?_of_writes hlonger]
    refine Option.filter_eq_some_iff.mpr ⟨rfl, decide_eq_true ?_⟩
    intro hempty
    have hslashes := hlonger.slashes hcomment
    rw [hempty] at hslashes
    cases List.infix_nil.mp hslashes
  · rw [uncommented_of_not_hasComment hcomment] at h
    exact ⟨path, h⟩

theorem modulePath?_uncommented (h : modulePath? line = none) :
    modulePath? (uncommented line) = none := by
  cases hdeclared : modulePath? (uncommented line) with
  | none => rfl
  | some path =>
    obtain ⟨other, hother⟩ := exists_modulePath? hdeclared
    rw [h] at hother
    cases hother

/-! ## What a text declares -/

/-- The module path that a text declares. -/
def declaredModule? (text : String) : Option String :=
  (Text.lines text).findSome? fun line => modulePath? (uncommented line)

/-- The line that the module path is read from. -/
def moduleLine? (text : String) : Option String :=
  (Text.lines text).find? fun line => (modulePath? line).isSome

/-- A line whose first word is `module`. -/
def IsDirective (line : String) : Prop :=
  ∃ indent rest, (uncommented line).toList = indent ++ "module".toList ++ rest ∧
    (∀ c ∈ indent, isBlank c = true) ∧ ∀ c ∈ rest.head?, isBlank c = true

/-- A path without blanks and quotes. -/
structure IsModulePath (path : String) : Prop where
  ne_empty : path ≠ ""
  not_blank : ∀ c ∈ path.toList, isBlank c = false
  not_quote : ∀ c ∈ path.toList, (c == '"') = false

/-- A line `module path`, indented or not, with quotes around the path or not, and with a comment or
not. -/
def Declares (line path : String) : Prop :=
  Writes (uncommented line) path.toList ∨
    Writes (uncommented line) (['"'] ++ path.toList ++ ['"'])

/-- The lines of a text without their comments, and without the blank space at their ends. Lines of
which nothing is left are dropped. -/
def codeLines (text : String) : List String :=
  ((Text.lines text).map fun line => Text.trim (uncommented line)).filter (· ≠ "")

theorem isDirective_of_modulePath? (h : modulePath? line = some path) : IsDirective line := by
  obtain ⟨written, indent, gap, tail, hline, hindent, hgap, -, hgapne, -, -⟩ :=
    exists_writes_of_modulePath? h
  refine ⟨indent, gap ++ beforeComment (written ++ tail), ?_, hindent, ?_⟩
  · have hfront : '/' ∉ indent ++ "module".toList ++ gap := by
      simp only [List.mem_append, not_or]
      exact ⟨⟨slash_not_mem_of_isBlank hindent, by decide⟩, slash_not_mem_of_isBlank hgap⟩
    rw [uncommented, String.toList_ofList, hline, List.append_assoc _ written tail,
      beforeComment_append hfront, List.append_assoc _ gap]
  · obtain ⟨c, gap, rfl⟩ := List.exists_cons_of_ne_nil hgapne
    rintro d hd
    obtain rfl : c = d := Option.some.inj hd
    exact hgap c List.mem_cons_self

theorem modulePath?_eq_none (h : ¬ IsDirective line) : modulePath? line = none := by
  cases hpath : modulePath? line with
  | none => rfl
  | some path => exact absurd (isDirective_of_modulePath? hpath) h

theorem modulePath?_of_declares (h : Declares line path) (hpath : IsModulePath path) :
    modulePath? (uncommented line) = some path := by
  have hcore : IsCore (· == '"') path.toList := .of_forall hpath.not_quote
  have hread : declared (some path) = some path :=
    Option.filter_eq_some_iff.mpr ⟨rfl, decide_eq_true hpath.ne_empty⟩
  rcases h with hplain | hquoted
  · rw [modulePath?_of_writes hplain, pathIn, String.ofList_toList,
      Text.trimWhile_of_isCore hcore, hread]
  · have hin : pathIn (['"'] ++ path.toList ++ ['"']) = String.ofList path.toList :=
      Text.trimWhile_surrounded String.toList_ofList (by simp) (by simp) hcore
    rw [modulePath?_of_writes hquoted, hin, String.ofList_toList, hread]

/-- The path is read from the module line. -/
theorem goModule?_eq_bind (text : String) : goModule? text = (moduleLine? text).bind modulePath? := by
  unfold goModule? moduleLine?
  induction Text.lines text with
  | nil => rfl
  | cons line rest ih =>
    rw [List.findSome?_cons, List.find?_cons]
    cases hread : modulePath? line with
    | none => simpa only [Option.isSome_none] using ih
    | some path => simp only [Option.isSome_some, Option.bind_some, hread]

/-- What is read is what is declared, unless the line that it is read from has a comment. -/
theorem goModule?_eq_declaredModule?_iff (text : String) :
    goModule? text = declaredModule? text ↔ ∀ line ∈ moduleLine? text, ¬ HasComment line := by
  unfold goModule? declaredModule? moduleLine?
  induction Text.lines text with
  | nil => simp
  | cons line rest ih =>
    rw [List.findSome?_cons, List.findSome?_cons, List.find?_cons]
    cases hread : modulePath? line with
    | none =>
      rw [modulePath?_uncommented hread]
      simpa only [Option.isSome_none] using ih
    | some path =>
      simp only [Option.isSome_some, Option.mem_some_iff, forall_eq']
      constructor
      · intro heq hcomment
        have hslashes := slashes_of_modulePath? hread hcomment
        split at heq
        · rename_i other hother
          obtain rfl : path = other := Option.some.inj heq
          exact not_slashes_of_uncommented hother hslashes
        · obtain ⟨other, -, hother⟩ := List.exists_of_findSome?_eq_some heq.symm
          exact not_slashes_of_uncommented hother hslashes
      · intro hcomment
        rw [uncommented_of_not_hasComment hcomment, hread]

/-- Only the code on the lines matters for what a text declares. -/
theorem declaredModule?_eq_findSome?_codeLines (text : String) :
    declaredModule? text = (codeLines text).findSome? modulePath? := by
  unfold declaredModule? codeLines
  induction Text.lines text with
  | nil => simp only [List.map_nil, List.filter_nil, List.findSome?_nil]
  | cons line rest ih =>
    rw [List.findSome?_cons, ih, List.map_cons, List.filter_cons, ← modulePath?_trim]
    by_cases hempty : Text.trim (uncommented line) = ""
    · have hnone : modulePath? "" = none := by decide
      rw [hempty, hnone, if_neg (by simp)]
    · rw [if_pos (decide_eq_true hempty), List.findSome?_cons]

/-! ## Imports below the module path -/

/-- No import is below a module path with a comment in it. -/
theorem resolve_go_of_slashes {manifest : Manifest} {i : Import}
    (hpath : ∀ path ∈ manifest.goModule, ['/', '/'] <:+: path.toList)
    (hrelative : i.isRelative = false) (hsource : ¬ ['/', '/'] <:+: i.source.toList)
    (files : List String) (importer : String) :
    (Resolver.ofFiles files manifest).resolve i importer .go = .external := by
  have houtside : Reference.ofPackagePath manifest importer i = .outside := by
    rw [Reference.ofPackagePath, hrelative, if_neg Bool.false_ne_true]
    cases hbelow : manifest.goModule.bind fun path => Reference.below? '/' path i.source with
    | none => rfl
    | some directory =>
      obtain ⟨path, hmodule, hbelow⟩ := Option.bind_eq_some_iff.mp hbelow
      refine absurd ((hpath path hmodule).trans ?_) hsource
      rcases Reference.below?_eq_some_iff.mp hbelow with ⟨hname, -⟩ | hname
      · rw [hname]
      · rw [hname, String.toList_append, String.toList_append]
        exact ((List.prefix_append _ _).trans (List.prefix_append _ _)).isInfix
  exact congrArg (Resolver.ofFiles files manifest).locate houtside

/-- The module path that is read is the one that the text declares exactly if the line that it is read
from has no comment. So if the first line of a text that starts with the word `module` declares a path,
then this path is read, whatever blanks and quotes there are and whatever the other lines are, unless
the line has a comment; with a comment every import of the module is external. Where no line starts
with the word, no path is read. Comments on other lines make no difference. -/
theorem goModule?_laws (text : String) :
    (goModule? text = declaredModule? text ↔ ∀ line ∈ moduleLine? text, ¬ HasComment line) ∧
    (∀ before line after path, Text.lines text = before ++ line :: after →
      (∀ earlier ∈ before, ¬ IsDirective earlier) → IsModulePath path → Declares line path →
        declaredModule? text = some path ∧
        (goModule? text = some path ↔ ¬ HasComment line) ∧
        (HasComment line → ∀ (manifest : Manifest) files importer, ∀ i : Import,
          i.isRelative = false → ¬ ['/', '/'] <:+: i.source.toList →
            (Resolver.ofFiles files { manifest with goModule := goModule? text }).resolve i importer
              .go = .external)) ∧
    ((∀ line ∈ Text.lines text, ¬ IsDirective line) → goModule? text = none) ∧
    ∀ other, codeLines other = codeLines text → (∀ line ∈ moduleLine? text, ¬ HasComment line) →
      (∀ line ∈ moduleLine? other, ¬ HasComment line) →
        ∀ (manifest : Manifest) files i importer,
          (Resolver.ofFiles files { manifest with goModule := goModule? other }).resolve i importer .go
            = (Resolver.ofFiles files { manifest with goModule := goModule? text }).resolve i importer
              .go := by
  refine ⟨goModule?_eq_declaredModule?_iff text, ?_, ?_, ?_⟩
  · intro before line after path hlines hbefore hpath hdeclares
    have hdeclared := modulePath?_of_declares hdeclares hpath
    obtain ⟨found, hfound⟩ := exists_modulePath? hdeclared
    have hskip : ∀ earlier ∈ before, modulePath? earlier = none :=
      fun earlier hearlier => modulePath?_eq_none (hbefore earlier hearlier)
    have hline : moduleLine? text = some line := by
      have hnone : before.find? (fun earlier => (modulePath? earlier).isSome) = none :=
        List.find?_eq_none.mpr fun earlier hearlier => by simp [hskip earlier hearlier]
      rw [moduleLine?, hlines, List.find?_append, hnone, List.find?_cons, hfound]
      rfl
    have htext : declaredModule? text = some path := by
      have hnone : before.findSome? (fun earlier => modulePath? (uncommented earlier)) = none :=
        List.findSome?_eq_none_iff.mpr fun earlier hearlier =>
          modulePath?_uncommented (hskip earlier hearlier)
      rw [declaredModule?, hlines, List.findSome?_append, hnone, List.findSome?_cons, hdeclared]
      rfl
    refine ⟨htext, ?_, fun hcomment manifest files importer i hrelative hsource => ?_⟩
    · rw [← htext, goModule?_eq_declaredModule?_iff, hline]
      simp
    · refine resolve_go_of_slashes (fun other hother => ?_) hrelative hsource files importer
      have hread : (moduleLine? text).bind modulePath? = some other :=
        (goModule?_eq_bind text).symm.trans hother
      rw [hline, Option.bind_some] at hread
      exact slashes_of_modulePath? hread hcomment
  · intro hnone
    exact List.findSome?_eq_none_iff.mpr fun line hline => modulePath?_eq_none (hnone line hline)
  · intro other hcode htext hother manifest files i importer
    rw [(goModule?_eq_declaredModule?_iff text).mpr htext,
      (goModule?_eq_declaredModule?_iff other).mpr hother,
      declaredModule?_eq_findSome?_codeLines, declaredModule?_eq_findSome?_codeLines, hcode]

/-- A module line with a comment. -/
def commentedModule : String := "module example.com/app // the main module\n"

/-- An import below the path of that line. -/
def libraryImport : Import := { source := "example.com/app/lib", kind := .go, line := 3 }

/-- The line declares a path, and another one is read, with the comment in it. So an import below the
declared path is external, although the package is there. -/
theorem goModule?_commentedModule :
    let line := "module example.com/app // the main module"
    let files := ["lib/lib.go", "main.go"]
    Text.lines commentedModule = [line] ∧ IsModulePath "example.com/app" ∧
    Declares line "example.com/app" ∧
    goModule? commentedModule = some "example.com/app // the main module" ∧
    (Resolver.ofFiles files { goModule := some "example.com/app" }).resolve libraryImport "main.go" .go
      = .internal "lib/lib.go" 0 ∧
    (Resolver.ofFiles files { goModule := goModule? commentedModule }).resolve libraryImport "main.go"
      .go = .external := by
  have hchars : ("example.com/app".toList.all fun c => !isBlank c && c != '"') = true := by
    decide +kernel
  simp only [List.all_eq_true, Bool.and_eq_true, Bool.not_eq_true'] at hchars
  have hpath : IsModulePath "example.com/app" :=
    ⟨by decide, fun c hc => (hchars c hc).1, fun c hc => by simpa using (hchars c hc).2⟩
  have hblank : ∀ c ∈ [' '], isBlank c = true := by simp [isBlank]
  refine ⟨by decide +kernel, hpath, .inl ?_, by decide +kernel, by decide +kernel,
    by decide +kernel⟩
  exact ⟨[], [' '], [' '], by decide +kernel, by simp, hblank, hblank, by simp, by decide,
    .of_forall hpath.not_blank⟩

end Manifest

end ModuleAtlas
