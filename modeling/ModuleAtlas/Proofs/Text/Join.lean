import Mathlib.Data.String.Basic
import ModuleAtlas.Text.Split

/-!
# Splitting and joining are inverse

A text is the join of its pieces (`join_split`), and the pieces of a join are the pieces that were
joined, if none of them has a separator inside (`split_join`). At a separator a text falls into two
texts with pieces of their own (`split_append`).
-/

namespace ModuleAtlas.Text

variable {sep c : Char} {chars piece : List Char} {text : String} {pieces more : List String}

/-! ## Pieces of characters -/

theorem splitChars_cons (sep c : Char) (chars : List Char) :
    splitChars sep (c :: chars) = splitStep sep c (splitChars sep chars) := rfl

theorem splitChars_ne_nil (sep : Char) (chars : List Char) : splitChars sep chars ≠ [] := by
  cases chars with
  | nil => simp [splitChars]
  | cons c chars =>
    rw [splitChars_cons]
    unfold splitStep
    split
    · simp
    · split <;> simp

theorem splitChars_of_not_mem (h : sep ∉ chars) : splitChars sep chars = [chars] := by
  induction chars with
  | nil => rfl
  | cons c chars ih =>
    obtain ⟨hc, hchars⟩ := not_or.mp (List.mem_cons.not.mp h)
    rw [splitChars_cons, ih hchars]
    simp [splitStep, Ne.symm hc]

theorem splitChars_append (sep : Char) (front rest : List Char) :
    splitChars sep (front ++ sep :: rest) = splitChars sep front ++ splitChars sep rest := by
  induction front with
  | nil => simp [splitChars, splitStep]
  | cons c front ih =>
    rw [List.cons_append, splitChars_cons, ih, splitChars_cons]
    cases hfront : splitChars sep front with
    | nil => exact absurd hfront (splitChars_ne_nil sep front)
    | cons first others =>
      unfold splitStep
      split <;> rfl

/-- The pieces are made of the characters of the text, less the separators. -/
theorem mem_of_mem_splitChars (hpiece : piece ∈ splitChars sep chars) (hc : c ∈ piece) :
    c ∈ chars ∧ c ≠ sep := by
  induction chars generalizing piece with
  | nil =>
    rw [splitChars, List.foldr_nil, List.mem_singleton] at hpiece
    rw [hpiece] at hc
    cases hc
  | cons d chars ih =>
    have hrest : ∀ piece ∈ splitChars sep chars, c ∈ piece → c ∈ d :: chars ∧ c ≠ sep := by
      intro piece hpiece hc
      obtain ⟨hmem, hne⟩ := ih hpiece hc
      exact ⟨List.mem_cons_of_mem d hmem, hne⟩
    rw [splitChars_cons] at hpiece
    unfold splitStep at hpiece
    cases hpieces : splitChars sep chars with
    | nil => exact absurd hpieces (splitChars_ne_nil sep chars)
    | cons first others =>
      rw [hpieces] at hrest
      by_cases hd : d = sep
      · simp only [hpieces, hd, beq_self_eq_true, if_true] at hpiece
        rcases List.mem_cons.mp hpiece with rfl | hpiece
        · cases hc
        · exact hrest piece hpiece hc
      · simp only [hpieces, beq_iff_eq, hd, if_false] at hpiece
        rcases List.mem_cons.mp hpiece with rfl | hpiece
        · rcases List.mem_cons.mp hc with rfl | hc
          · exact ⟨List.mem_cons_self, hd⟩
          · exact hrest first List.mem_cons_self hc
        · exact hrest piece (List.mem_cons_of_mem first hpiece) hc

/-! ## Pieces of a text -/

theorem split_ne_nil (sep : Char) (text : String) : split sep text ≠ [] := by
  simp [split, splitChars_ne_nil]

theorem split_of_not_mem (h : sep ∉ text.toList) : split sep text = [text] := by
  simp [split, splitChars_of_not_mem h]

theorem split_append (sep : Char) (front rest : String) :
    split sep (front ++ String.singleton sep ++ rest) = split sep front ++ split sep rest := by
  have hchars : (front ++ String.singleton sep ++ rest).toList
      = front.toList ++ sep :: rest.toList := by
    simp
  rw [split, hchars, splitChars_append, List.map_append]
  rfl

theorem mem_of_mem_split {piece : String} (hpiece : piece ∈ split sep text)
    (hc : c ∈ piece.toList) : c ∈ text.toList ∧ c ≠ sep := by
  obtain ⟨chars, hchars, rfl⟩ := List.mem_map.mp hpiece
  rw [String.toList_ofList] at hc
  exact mem_of_mem_splitChars hchars hc

/-- No piece has a separator inside. -/
theorem not_mem_of_mem_split {piece : String} (hpiece : piece ∈ split sep text) :
    sep ∉ piece.toList :=
  fun hc => (mem_of_mem_split hpiece hc).2 rfl

/-! ## Joins -/

theorem join_cons (sep first : String) (hmore : more ≠ []) :
    join sep (first :: more) = first ++ sep ++ join sep more := by
  cases more with
  | nil => exact absurd rfl hmore
  | cons next rest => rfl

theorem join_append (sep : String) (hpieces : pieces ≠ []) (hmore : more ≠ []) :
    join sep (pieces ++ more) = join sep pieces ++ sep ++ join sep more := by
  induction pieces with
  | nil => exact absurd rfl hpieces
  | cons first pieces ih =>
    cases pieces with
    | nil => exact join_cons sep first hmore
    | cons next rest =>
      rw [List.cons_append, join_cons sep first (by simp), ih (by simp),
        join_cons sep first (by simp)]
      simp only [String.append_assoc]

theorem join_concat_append (sep : String) (pieces : List String) (last rest : String) :
    join sep (pieces ++ [last ++ rest]) = join sep (pieces ++ [last]) ++ rest := by
  cases pieces with
  | nil => rfl
  | cons first pieces =>
    rw [join_append sep (by simp) (by simp), join_append sep (by simp) (by simp)]
    exact String.append_assoc.symm

/-- A join starts like its first piece, unless that is empty. -/
theorem head?_join (sep : String) {first : String} (hfirst : first ≠ "") (more : List String) :
    (join sep (first :: more)).toList.head? = first.toList.head? := by
  have hchars : first.toList ≠ [] := by simpa using hfirst
  cases more with
  | nil => rfl
  | cons next rest =>
    simp only [join, String.toList_append, List.append_assoc]
    rw [List.head?_append_of_ne_nil _ hchars]

theorem join_cons_ne_empty (sep : String) {first : String} (hfirst : first ≠ "")
    (more : List String) : join sep (first :: more) ≠ "" := by
  intro hempty
  have hhead := head?_join sep hfirst more
  rw [hempty, String.toList_empty, List.head?_nil] at hhead
  exact hfirst (String.toList_eq_nil_iff.mp (List.head?_eq_none_iff.mp hhead.symm))

theorem length_join_le_of_prefix (sep : String) {front pieces : List String}
    (h : front <+: pieces) : (join sep front).length ≤ (join sep pieces).length := by
  obtain ⟨rest, rfl⟩ := h
  by_cases hfront : front = []
  · rw [hfront]
    exact Nat.zero_le _
  by_cases hrest : rest = []
  · rw [hrest, List.append_nil]
  · rw [join_append sep hfront hrest, String.length_append, String.length_append]
    omega

theorem join_split (sep : Char) (text : String) :
    join (String.singleton sep) (split sep text) = text := by
  have hchars : ∀ chars : List Char,
      (join (String.singleton sep) ((splitChars sep chars).map String.ofList)).toList = chars := by
    intro chars
    induction chars with
    | nil => simp [splitChars, join]
    | cons c chars ih =>
      rw [splitChars_cons]
      unfold splitStep
      cases hpieces : splitChars sep chars with
      | nil => exact absurd hpieces (splitChars_ne_nil sep chars)
      | cons first others =>
        rw [hpieces] at ih
        by_cases hc : c = sep
        · -- the separator stands in front of what the other pieces make
          simp only [hc, beq_self_eq_true, if_true, List.map_cons]
          rw [join_cons _ _ (by simp), ← List.map_cons, String.toList_append, ih]
          simp
        · simp only [beq_iff_eq, hc, if_false]
          cases others with
          | nil => simpa [join] using ih
          | cons next rest => simpa [join] using ih
  exact String.toList_inj.mp (hchars text.toList)

theorem split_join (hpieces : pieces ≠ []) (hsep : ∀ piece ∈ pieces, sep ∉ piece.toList) :
    split sep (join (String.singleton sep) pieces) = pieces := by
  induction pieces with
  | nil => exact absurd rfl hpieces
  | cons first pieces ih =>
    have hfirst := split_of_not_mem (hsep first List.mem_cons_self)
    cases pieces with
    | nil => exact hfirst
    | cons next rest =>
      have hrest := ih (by simp) fun piece hpiece => hsep piece (List.mem_cons_of_mem _ hpiece)
      rw [join_cons _ _ (by simp), split_append, hfirst, hrest]
      rfl

end ModuleAtlas.Text
