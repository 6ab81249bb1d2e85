import Mathlib.Data.List.DropRight
import Mathlib.Data.List.Infix
import Mathlib.Data.String.Basic
import ModuleAtlas.Text.Blank

/-!
# Trimming

Characters of a class surround a core that neither starts nor ends with one of them (`exists_core`),
and trimming leaves the core (`trimWhile_surrounded`). So a trimmed text is a stretch of the text, and
a pair of characters outside the class stays where it is trimmed off (`infix_trimWhile`).
-/

namespace ModuleAtlas.Text

variable {p : Char → Bool} {front core back chars rest : List Char} {x y : Char} {text : String}

/-- Characters that neither start nor end in a class. -/
structure IsCore (p : Char → Bool) (core : List Char) : Prop where
  head : ∀ c ∈ core.head?, p c = false
  last : ∀ c ∈ core.getLast?, p c = false

theorem IsCore.of_forall (h : ∀ c ∈ core, p c = false) : IsCore p core :=
  ⟨fun c hc => h c (List.mem_of_mem_head? hc), fun c hc => h c (List.mem_of_mem_getLast? hc)⟩

theorem dropBackWhile_append (hback : ∀ c ∈ back, p c = true)
    (hlast : ∀ c ∈ core.getLast?, p c = false) : dropBackWhile p (core ++ back) = core := by
  have hhead : ∀ c ∈ core.reverse.head?, p c = false := by
    rwa [List.head?_reverse]
  rw [dropBackWhile, List.reverse_append,
    List.dropWhile_append_of_pos fun c hc => hback c (List.mem_reverse.mp hc)]
  cases hcore : core.reverse with
  | nil => rw [List.dropWhile_nil, ← hcore, List.reverse_reverse]
  | cons c rest =>
    rw [hcore] at hhead
    rw [List.dropWhile_cons_of_neg (by simp [hhead c rfl]), ← hcore, List.reverse_reverse]

theorem dropWhile_append (hfront : ∀ c ∈ front, p c = true)
    (hhead : ∀ c ∈ core.head?, p c = false) : (front ++ core).dropWhile p = core := by
  rw [List.dropWhile_append_of_pos hfront]
  cases core with
  | nil => rfl
  | cons c rest => rw [List.dropWhile_cons_of_neg (by simp [hhead c rfl])]

/-- Trimming leaves what characters of the class surround. -/
theorem trimWhile_surrounded (htext : text.toList = front ++ core ++ back)
    (hfront : ∀ c ∈ front, p c = true) (hback : ∀ c ∈ back, p c = true) (hcore : IsCore p core) :
    trimWhile p text = String.ofList core := by
  rw [trimWhile, htext, List.append_assoc]
  congr 1
  cases core with
  | nil =>
    rw [List.nil_append, List.dropWhile_append_of_pos hfront, List.dropWhile_eq_nil_iff.mpr hback]
    rfl
  | cons c rest =>
    have hhead : ∀ d ∈ (c :: rest ++ back).head?, p d = false := hcore.head
    rw [dropWhile_append hfront hhead, dropBackWhile_append hback hcore.last]

/-- Every text has a core. -/
theorem exists_core (p : Char → Bool) (chars : List Char) : ∃ front core back,
    chars = front ++ core ++ back ∧ (∀ c ∈ front, p c = true) ∧ (∀ c ∈ back, p c = true) ∧
      IsCore p core := by
  have hfront : chars.takeWhile p ++ chars.dropWhile p = chars := List.takeWhile_append_dropWhile
  have hback : (chars.dropWhile p).rdropWhile p ++ (chars.dropWhile p).rtakeWhile p
      = chars.dropWhile p := List.rdropWhile_append_rtakeWhile
  refine ⟨chars.takeWhile p, (chars.dropWhile p).rdropWhile p, (chars.dropWhile p).rtakeWhile p,
    ?_, fun c => List.mem_takeWhile_imp, fun c => List.mem_rtakeWhile_imp, ⟨?_, ?_⟩⟩
  · rw [List.append_assoc, hback, hfront]
  · intro c hc
    -- what is left at the end starts like the whole
    obtain ⟨rest, hrest⟩ := List.rdropWhile_prefix p (chars.dropWhile p)
    have hhead : (chars.dropWhile p).head? = some c := by
      rw [← hrest, List.head?_append_of_ne_nil _ (by rintro h; simp [h] at hc)]
      exact hc
    have hnot := List.head?_dropWhile_not p chars
    rw [hhead] at hnot
    exact hnot
  · intro c hc
    have hne : (chars.dropWhile p).rdropWhile p ≠ [] := by
      rintro h
      simp [h] at hc
    have hnot := List.rdropWhile_last_not p (chars.dropWhile p) hne
    rw [List.getLast?_eq_getLast_of_ne_nil hne, Option.mem_some_iff] at hc
    rwa [hc, Bool.not_eq_true] at hnot

/-- Characters that start outside the class start with their core. -/
theorem exists_core_cons {c : Char} (hc : p c = false) (rest : List Char) : ∃ core back,
    c :: rest = core ++ back ∧ (∀ x ∈ back, p x = true) ∧ core ≠ [] ∧ IsCore p core := by
  obtain ⟨front, core, back, hsplit, hfront, hback, hcore⟩ := exists_core p (c :: rest)
  have hmem : ∀ chars more : List Char, (∀ x ∈ chars, p x = true) → c :: rest = chars ++ more →
      chars = [] := by
    rintro (_ | ⟨x, chars⟩) more hchars hsplit
    · rfl
    · obtain ⟨rfl, -⟩ := List.cons.inj hsplit
      rw [hchars c List.mem_cons_self] at hc
      cases hc
  obtain rfl := hmem front (core ++ back) hfront (by rw [hsplit, List.append_assoc])
  rw [List.nil_append] at hsplit
  refine ⟨core, back, hsplit, hback, ?_, hcore⟩
  rintro rfl
  obtain rfl := hmem back [] hback (by rw [hsplit, List.nil_append, List.append_nil])
  cases hsplit

theorem trimWhile_of_isCore (h : IsCore p text.toList) : trimWhile p text = text := by
  have htext : text.toList = [] ++ text.toList ++ [] := by simp
  rw [trimWhile_surrounded htext (by simp) (by simp) h, String.ofList_toList]

theorem trim_trim (text : String) : trim (trim text) = trim text := by
  obtain ⟨front, core, back, htext, hfront, hback, hcore⟩ := exists_core isBlank text.toList
  rw [trim, trim, trimWhile_surrounded htext hfront hback hcore]
  exact trimWhile_of_isCore (by rwa [String.toList_ofList])

/-! ## Pairs of characters -/

/-- A pair of neighbours stands behind characters that are not the first of them. -/
theorem infix_of_not_mem_front (h : [x, y] <:+: front ++ rest) (hx : x ∉ front) :
    [x, y] <:+: rest := by
  induction front with
  | nil => exact h
  | cons c front ih =>
    rw [List.mem_cons, not_or] at hx
    rw [List.cons_append, List.infix_cons_iff] at h
    rcases h with hprefix | hinfix
    · exact absurd (List.cons_prefix_cons.mp hprefix).1 hx.1
    · exact ih hinfix hx.2

/-- It also stands behind them if they do not hold the second one, which does not follow them. -/
theorem infix_of_second_not_mem_front {c : Char} (h : [x, y] <:+: front ++ c :: rest)
    (hy : y ∉ front) (hc : y ≠ c) : [x, y] <:+: c :: rest := by
  induction front with
  | nil => exact h
  | cons d front ih =>
    rw [List.mem_cons, not_or] at hy
    rw [List.cons_append, List.infix_cons_iff] at h
    rcases h with hprefix | hinfix
    · -- the second one would follow the first of these characters
      obtain ⟨tail, htail⟩ := (List.cons_prefix_cons.mp hprefix).2
      cases front with
      | nil => exact absurd (List.cons.inj htail).1 hc
      | cons e front => exact absurd ((List.cons.inj htail).1 ▸ List.mem_cons_self) hy.2
    · exact ih hinfix hy.2

/-- It stands in front of characters that are not the second of them. -/
theorem infix_of_not_mem_back (h : [x, y] <:+: rest ++ back) (hy : y ∉ back) :
    [x, y] <:+: rest := by
  rw [← List.reverse_infix, List.reverse_append] at h
  rw [← List.reverse_infix]
  exact infix_of_not_mem_front h (fun hmem => hy (List.mem_reverse.mp hmem))

/-- A trimmed text is a stretch of the text. -/
theorem trimWhile_infix (p : Char → Bool) (text : String) :
    (trimWhile p text).toList <:+: text.toList := by
  obtain ⟨front, core, back, htext, hfront, hback, hcore⟩ := exists_core p text.toList
  rw [trimWhile_surrounded htext hfront hback hcore, String.toList_ofList, htext]
  exact ⟨front, back, rfl⟩

/-- Trimming takes away no pair of characters outside the class. -/
theorem infix_trimWhile (h : [x, y] <:+: text.toList) (hx : p x = false) (hy : p y = false) :
    [x, y] <:+: (trimWhile p text).toList := by
  obtain ⟨front, core, back, htext, hfront, hback, hcore⟩ := exists_core p text.toList
  rw [trimWhile_surrounded htext hfront hback hcore, String.toList_ofList]
  rw [htext] at h
  have hxfront : x ∉ front := fun hmem => by simp [hfront x hmem] at hx
  have hyback : y ∉ back := fun hmem => by simp [hback y hmem] at hy
  exact infix_of_not_mem_front (infix_of_not_mem_back h hyback) hxfront

end ModuleAtlas.Text
