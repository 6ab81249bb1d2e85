import ModuleAtlas.Proofs.Text.Join
import ModuleAtlas.Text.Blank

/-!
# The lines of a text

A text is cut at its line feeds into one piece more than there are line feeds (`length_split`), and
the last piece counts as a line only if it is not empty. A place with something after it lies on one
of the lines (`count_lt_length_lines`), and a word with no line feed in it lies within that line
(`exists_line`). Lines that are each ended by a line feed are read back (`lines_flatMap`).
-/

namespace ModuleAtlas.Text

variable {sep : Char} {chars passed word rest : List Char} {text : String}

/-- There is one piece more than there are separators. -/
theorem length_splitChars (sep : Char) (chars : List Char) :
    (splitChars sep chars).length = chars.count sep + 1 := by
  induction chars with
  | nil => rfl
  | cons c chars ih =>
    rw [splitChars_cons, List.count_cons]
    cases hpieces : splitChars sep chars with
    | nil => exact absurd hpieces (splitChars_ne_nil sep chars)
    | cons first more =>
      rw [hpieces] at ih
      unfold splitStep
      split <;> simp only [List.length_cons] at ih ⊢ <;> omega

/-- Without a separator after it, the last piece holds what the text ends with. -/
theorem getLast?_splitChars (passed : List Char) (hrest : sep ∉ rest) :
    ∃ before, (splitChars sep (passed ++ rest)).getLast? = some (before ++ rest) := by
  induction passed with
  | nil => exact ⟨[], by rw [List.nil_append, splitChars_of_not_mem hrest]; rfl⟩
  | cons c passed ih =>
    obtain ⟨before, hlast⟩ := ih
    rw [List.cons_append, splitChars_cons]
    cases hpieces : splitChars sep (passed ++ rest) with
    | nil => exact absurd hpieces (splitChars_ne_nil sep _)
    | cons first more =>
      rw [hpieces] at hlast
      unfold splitStep
      split
      · exact ⟨before, by rwa [List.getLast?_cons_cons]⟩
      · cases more with
        | nil =>
          obtain rfl : first = before ++ rest := Option.some.inj hlast
          exact ⟨c :: before, rfl⟩
        | cons next more => exact ⟨before, by rwa [List.getLast?_cons_cons] at hlast ⊢⟩

theorem splitChars_append_of_not_mem (hword : sep ∉ word) (rest : List Char) :
    ∃ first more, splitChars sep (word ++ rest) = (word ++ first) :: more := by
  induction word with
  | nil =>
    cases hpieces : splitChars sep rest with
    | nil => exact absurd hpieces (splitChars_ne_nil sep rest)
    | cons first more => exact ⟨first, more, hpieces⟩
  | cons c word ih =>
    obtain ⟨hc, hword⟩ := not_or.mp (List.mem_cons.not.mp hword)
    obtain ⟨first, more, hpieces⟩ := ih hword
    refine ⟨first, more, ?_⟩
    rw [List.cons_append, splitChars_cons, hpieces, splitStep.eq_def,
      if_neg (by simpa using Ne.symm hc)]
    rfl

/-- A word without separators lies within one piece. As many pieces stand before it as there are
separators in front of the word. -/
theorem exists_piece (hword : sep ∉ word) (passed rest : List Char) :
    ∃ piece, (splitChars sep (passed ++ (word ++ rest)))[passed.count sep]? = some piece ∧
      word <:+: piece := by
  induction passed with
  | nil =>
    obtain ⟨first, more, hpieces⟩ := splitChars_append_of_not_mem hword rest
    refine ⟨word ++ first, ?_, (List.prefix_append _ _).isInfix⟩
    rw [List.nil_append, hpieces]
    rfl
  | cons c passed ih =>
    obtain ⟨piece, hpiece, hinfix⟩ := ih
    rw [List.cons_append, splitChars_cons]
    by_cases hc : c = sep
    · rw [hc, List.count_cons_self, splitStep.eq_def, if_pos (beq_self_eq_true sep)]
      exact ⟨piece, by rw [List.getElem?_cons_succ, hpiece], hinfix⟩
    · rw [List.count_cons_of_ne hc]
      cases hpieces : splitChars sep (passed ++ (word ++ rest)) with
      | nil => exact absurd hpieces (splitChars_ne_nil sep _)
      | cons first more =>
        rw [hpieces] at hpiece
        rw [splitStep.eq_def, if_neg (by simpa using hc)]
        cases hcount : passed.count sep with
        | zero =>
          rw [hcount] at hpiece
          obtain rfl : first = piece := Option.some.inj hpiece
          exact ⟨c :: first, rfl, hinfix.trans (List.suffix_cons c first).isInfix⟩
        | succ n =>
          rw [hcount] at hpiece
          exact ⟨piece, hpiece, hinfix⟩

theorem length_split (sep : Char) (text : String) :
    (split sep text).length = text.toList.count sep + 1 := by
  rw [split, List.length_map, length_splitChars]

/-- The line on which a place stands is one of the lines, if anything stands after the place. -/
theorem count_lt_length_lines (htext : text.toList = passed ++ rest) (hrest : rest ≠ []) :
    passed.count '\n' < (lines text).length := by
  have hlength := length_split '\n' text
  rw [htext, List.count_append] at hlength
  unfold lines
  dsimp only
  split
  · rename_i hlast
    rw [List.length_dropLast, hlength]
    by_cases hfeed : '\n' ∈ rest
    · have hpos : 0 < rest.count '\n' := List.count_pos_iff.mpr hfeed
      omega
    · -- the last piece is not empty
      obtain ⟨before, hbefore⟩ := getLast?_splitChars passed hfeed
      rw [split, List.getLast?_map, htext, hbefore, Option.map_some, Option.some.injEq] at hlast
      have hempty : before ++ rest = [] := by
        have h := congrArg String.toList hlast
        rwa [String.toList_ofList] at h
      exact absurd (List.append_eq_nil_iff.mp hempty).2 hrest
  · omega

/-- A word without line feeds lies within a line. -/
theorem exists_line (htext : text.toList = passed ++ (word ++ rest)) (hword : '\n' ∉ word)
    (hne : word ≠ []) :
    ∃ line, (lines text)[passed.count '\n']? = some line ∧ word <:+: line.toList := by
  obtain ⟨piece, hpiece, hinfix⟩ := exists_piece hword passed rest
  have hsplit : (split '\n' text)[passed.count '\n']? = some (String.ofList piece) := by
    rw [split, htext, List.getElem?_map, hpiece, Option.map_some]
  have hlt := count_lt_length_lines htext (List.append_ne_nil_of_left_ne_nil hne rest)
  have hprefix : lines text <+: split '\n' text := by
    unfold lines
    dsimp only
    split
    · exact List.dropLast_prefix _
    · exact List.prefix_rfl
  refine ⟨String.ofList piece, ?_, by rwa [String.toList_ofList]⟩
  rw [← hsplit, List.prefix_iff_getElem?.mp hprefix _ hlt, List.getElem?_eq_getElem hlt]

/-! ## Lines that are written -/

/-- Pieces that each have a separator after them are followed by an empty piece. -/
theorem splitChars_flatMap {pieces : List (List Char)} (h : ∀ piece ∈ pieces, sep ∉ piece) :
    splitChars sep (pieces.flatMap fun piece => piece ++ [sep]) = pieces ++ [[]] := by
  induction pieces with
  | nil => rfl
  | cons piece pieces ih =>
    obtain ⟨hpiece, hpieces⟩ := List.forall_mem_cons.mp h
    rw [List.flatMap_cons, List.append_assoc, List.singleton_append, splitChars_append,
      splitChars_of_not_mem hpiece, ih hpieces]
    rfl

/-- Lines without line feeds inside, each ended by one, are the lines of the text that they make. -/
theorem lines_flatMap {written : List String} (h : ∀ line ∈ written, '\n' ∉ line.toList) :
    lines (String.ofList (written.flatMap fun line => line.toList ++ ['\n'])) = written := by
  have hsplit : split '\n' (String.ofList (written.flatMap fun line => line.toList ++ ['\n']))
      = written ++ [""] := by
    have hpieces : ∀ piece ∈ written.map String.toList, '\n' ∉ piece := by
      rintro _ hpiece
      obtain ⟨line, hline, rfl⟩ := List.mem_map.mp hpiece
      exact h line hline
    have hchars := splitChars_flatMap hpieces
    rw [List.flatMap_map] at hchars
    rw [split, String.toList_ofList, hchars, List.map_append, List.map_map]
    simp
  rw [lines, hsplit, List.getLast?_concat, if_pos rfl, List.dropLast_concat]

end ModuleAtlas.Text
