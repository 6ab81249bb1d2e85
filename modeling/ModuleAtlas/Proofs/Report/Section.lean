import ModuleAtlas.Proofs.Text.Split

/-!
# Sections of a document

A document in Markdown is cut into sections by its headings and by the rule above its last line.
`sections` finds them among the lines of a document and passes over empty lines. What is found of
lines that start with a section does not depend on what stands after them, if that is another section
(`Reads`), so a document is read part by part (`Reads.append`). Sections that are left out when they
have no items are told apart by their headings (`shown_append_inj`).
-/

namespace ModuleAtlas.Markdown

variable {heading heading' line : String} {body lines lines' opening items items' : List String}
  {found found' more more' : List (String × List String)} {c : Char}

/-- A heading of any level, or a rule. -/
def opensSection (line : String) : Bool := Text.startsWith "#" line || line == "---"

/-- The sections in the lines of a document: the line that opens a section, with the lines up to the
next section, without the empty ones. -/
def sections : List String → List (String × List String)
  | [] => []
  | line :: rest =>
    if opensSection line then
      (line, (rest.takeWhile fun line => !opensSection line).filter (· ≠ "")) :: sections rest
    else sections rest

/-! ## Lines -/

/-- A line with something on it that belongs to the section it stands in. -/
structure IsContent (line : String) : Prop where
  ne_empty : line ≠ ""
  opensSection : opensSection line = false

theorem opensSection_append (h : Text.startsWith "#" heading = true) (rest : String) :
    opensSection (heading ++ rest) = true := by
  rw [Text.startsWith_iff] at h
  have hstart : Text.startsWith "#" (heading ++ rest) = true := by
    rw [Text.startsWith_iff, String.toList_append]
    exact h.trans (List.prefix_append _ _)
  simp [opensSection, hstart]

theorem opensSection_eq_false (hhead : line.toList.head? ≠ some '#') (hrule : line ≠ "---") :
    opensSection line = false := by
  have hstart : Text.startsWith "#" line = false := by
    rw [Bool.eq_false_iff, Ne, Text.startsWith_iff]
    rintro ⟨rest, hrest⟩
    rw [← hrest] at hhead
    exact hhead rfl
  simp [opensSection, hstart, hrule]

theorem isContent_of_head? (h : line.toList.head? = some c) (hc : c ≠ '#') (hrule : c ≠ '-') :
    IsContent line where
  ne_empty := by
    rintro rfl
    cases h
  opensSection := by
    refine opensSection_eq_false (by simpa [h] using hc) ?_
    rintro rfl
    exact hrule (Option.some.inj h).symm

/-- An item of a list is no rule, as a blank follows its dash. -/
theorem isContent_item (text : String) : IsContent ("- " ++ text) where
  ne_empty := by simp
  opensSection := by
    refine opensSection_eq_false (by simp) fun h => ?_
    have hchars := congrArg String.toList h
    simp at hchars

theorem filter_content (h : ∀ line ∈ lines, IsContent line) : lines.filter (· ≠ "") = lines :=
  List.filter_eq_self.mpr fun line hline => by simpa using (h line hline).ne_empty

/-! ## Sections -/

theorem sections_append (hbody : ∀ line ∈ body, opensSection line = false) (rest : List String) :
    sections (body ++ rest) = sections rest := by
  induction body with
  | nil => rfl
  | cons line body ih =>
    obtain ⟨hline, hbody⟩ := List.forall_mem_cons.mp hbody
    rw [List.cons_append, sections, if_neg (by simp [hline]), ih hbody]

/-- The next line, if there is one, opens a section. -/
def Breaks (lines : List String) : Prop := ∀ line ∈ lines.head?, opensSection line = true

/-- What is found of lines, whatever sections come after them. -/
def Reads (lines : List String) (found : List (String × List String)) : Prop :=
  ∀ ⦃rest⦄, Breaks rest →
    Breaks (lines ++ rest) ∧ sections (lines ++ rest) = found ++ sections rest

theorem Reads.sections_eq (h : Reads lines found) : sections lines = found := by
  have hend : Breaks [] := by
    rintro line hline
    cases hline
  have hfound := (h hend).2
  rwa [List.append_nil, sections, List.append_nil] at hfound

theorem reads_nil : Reads [] [] := fun _ hrest => ⟨hrest, rfl⟩

theorem Reads.append (h : Reads lines found) (h' : Reads lines' found') :
    Reads (lines ++ lines') (found ++ found') := by
  intro rest hrest
  obtain ⟨hbreaks', hfound'⟩ := h' hrest
  obtain ⟨hbreaks, hfound⟩ := h hbreaks'
  rw [List.append_assoc, List.append_assoc, ← hfound']
  exact ⟨hbreaks, hfound⟩

/-- A section is read up to the first line that opens another one. -/
theorem reads_section (hheading : opensSection heading = true)
    (hbody : ∀ line ∈ body, opensSection line = false) :
    Reads (heading :: body) [(heading, body.filter (· ≠ ""))] := by
  intro rest hrest
  have hinside : ∀ line ∈ body, (!opensSection line) = true := fun line hline => by
    simp [hbody line hline]
  have houtside : ∀ line ∈ rest.head?, (!opensSection line) = false := fun line hline => by
    simp [hrest line hline]
  refine ⟨?_, ?_⟩
  · rintro line hline
    obtain rfl : heading = line := Option.some.inj hline
    exact hheading
  · rw [List.cons_append, sections, if_pos hheading, (Text.takeWhile_run hinside houtside).1,
      sections_append hbody]
    rfl

/-! ## Sections on lists -/

/-- A section on a list, which is left out if it has no items. -/
def listed (heading : String) (opening items : List String) : List String :=
  if items.isEmpty then [] else [heading, ""] ++ opening ++ items ++ [""]

/-- What is found of a section on a list. -/
def shown (heading : String) (opening items : List String) : List (String × List String) :=
  if items = [] then [] else [(heading, opening ++ items)]

/-- A section on a list is found with its opening lines and its items. -/
theorem reads_listed (hheading : opensSection heading = true)
    (hopening : ∀ line ∈ opening, IsContent line) (hitems : ∀ line ∈ items, IsContent line) :
    Reads (listed heading opening items) (shown heading opening items) := by
  by_cases hempty : items = []
  · rw [listed, shown, hempty, List.isEmpty_nil, if_pos rfl, if_pos rfl]
    exact reads_nil
  · have hcontent : ∀ line ∈ opening ++ items, IsContent line :=
      List.forall_mem_append.mpr ⟨hopening, hitems⟩
    have hblank : opensSection "" = false := by decide
    have hbody : ∀ line ∈ "" :: (opening ++ items) ++ [""], opensSection line = false := by
      simp only [List.forall_mem_append, List.forall_mem_cons]
      exact ⟨⟨hblank, fun line hline => (hopening line hline).opensSection,
        fun line hline => (hitems line hline).opensSection⟩, hblank, List.forall_mem_nil _⟩
    have hfilter : ("" :: (opening ++ items) ++ [""]).filter (· ≠ "") = opening ++ items := by
      rw [List.filter_append, List.filter_cons_of_neg (by simp), filter_content hcontent]
      simp
    have hlisted : listed heading opening items = heading :: ("" :: (opening ++ items) ++ [""]) := by
      simp [listed, hempty]
    have hreads := reads_section hheading hbody
    rw [hfilter] at hreads
    rwa [hlisted, shown, if_neg hempty]

theorem ne_of_mem_shown (h : heading ≠ heading') :
    ∀ s ∈ shown heading opening items, s.1 ≠ heading' := by
  unfold shown
  split
  · exact List.forall_mem_nil _
  · exact List.forall_mem_singleton.mpr h

/-- A section that may be left out is told from the sections after it by its heading. -/
theorem shown_append_inj
    (h : shown heading opening items ++ more = shown heading' opening items' ++ more')
    (hmore : ∀ s ∈ more, s.1 ≠ heading') (hmore' : ∀ s ∈ more', s.1 ≠ heading) :
    items = items' ∧ more = more' := by
  unfold shown at h
  by_cases hempty : items = [] <;> by_cases hempty' : items' = []
  · rw [if_pos hempty, if_pos hempty'] at h
    exact ⟨hempty.trans hempty'.symm, h⟩
  · rw [if_pos hempty, if_neg hempty', List.nil_append] at h
    have hmem : (heading', opening ++ items') ∈ more := by simp [h]
    exact absurd rfl (hmore _ hmem)
  · rw [if_neg hempty, if_pos hempty', List.nil_append] at h
    have hmem : (heading, opening ++ items) ∈ more' := by simp [← h]
    exact absurd rfl (hmore' _ hmem)
  · rw [if_neg hempty, if_neg hempty'] at h
    obtain ⟨hhead, htail⟩ := List.cons.inj h
    exact ⟨List.append_cancel_left (Prod.mk.inj hhead).2, htail⟩

theorem shown_inj (h : shown heading opening items = shown heading opening items') :
    items = items' := by
  have happend : shown heading opening items ++ [] = shown heading opening items' ++ [] := by rw [h]
  exact (shown_append_inj happend (List.forall_mem_nil _) (List.forall_mem_nil _)).1

end ModuleAtlas.Markdown
