import ModuleAtlas.Lexicon.Lexeme
import Mathlib.Data.List.TakeWhile

/-!
# What lexemes look like

A word starts with no digit and holds none of the characters that begin other texts, such as quotes
and brackets (`IsWordLike`). Words of every language look like this, and numbers, quoted texts and
marks do not, so the text of a token tells a word from them.
-/

namespace ModuleAtlas.Lexicon

variable {start part : Char → Bool} {chars rest : List Char} {n : Nat} {c : Char}

/-! ## Texts of words -/

/-- Some characters that no word holds: the point, the comma, the number sign, quotes and the opening
square bracket. -/
def noWordMarks : List Char := ['.', ',', '#', '[', '"', '\'', '\x60']

/-- Is the character one that no word holds? -/
def marksNoWord (c : Char) : Bool := noWordMarks.contains c

/-- The characters of a word, as far as they tell it from other lexemes. -/
structure IsWordLike (chars : List Char) : Prop where
  head : ∃ c, chars.head? = some c ∧ c.isDigit = false
  all : ∀ c ∈ chars, marksNoWord c = false

instance (chars : List Char) : Decidable (IsWordLike chars) :=
  decidable_of_iff (chars.head?.any (!·.isDigit) = true ∧ chars.all (!marksNoWord ·) = true)
    ⟨fun ⟨hhead, hall⟩ => ⟨by simpa [Option.any_eq_true] using hhead, by simpa using hall⟩,
      fun ⟨hhead, hall⟩ => ⟨by simpa [Option.any_eq_true] using hhead, by simpa using hall⟩⟩

theorem IsWordLike.ne_nil (h : IsWordLike chars) : chars ≠ [] := by
  rintro rfl
  obtain ⟨c, hc, -⟩ := h.head
  cases hc

/-- What holds such a character is no word. -/
theorem not_isWordLike_of_mem (hc : c ∈ chars) (hmark : marksNoWord c = true) :
    ¬ IsWordLike chars := by
  intro h
  rw [h.all c hc] at hmark
  cases hmark

/-- A character class without the characters that no word holds. -/
theorem marksNoWord_eq_false {p : Char → Bool}
    (hp : noWordMarks.any p = false) (hc : p c = true) : marksNoWord c = false := by
  rw [marksNoWord, ← Bool.not_eq_true, List.contains_iff_mem]
  intro hmem
  cases hp.symm.trans (List.any_eq_true.mpr ⟨c, hmem, hc⟩)

/-! ## Words -/

/-- As many characters as a class goes on for are those of the class in front. -/
theorem take_countWhile (p : Char → Bool) (chars : List Char) :
    chars.take (countWhile p chars) = chars.takeWhile p :=
  (List.prefix_iff_eq_take.mp (List.takeWhile_prefix p)).symm

/-- A word is one character to start with and others to go on with. -/
theorem word?_eq_some (h : word? start part chars = some n) :
    ∃ c rest, chars.take n = c :: rest ∧ start c = true ∧ ∀ d ∈ rest, part d = true := by
  cases chars with
  | nil => cases h
  | cons c chars =>
    rw [word?, Option.ite_none_right_eq_some] at h
    obtain ⟨hstart, h⟩ := h
    cases h
    refine ⟨c, chars.takeWhile part, ?_, hstart, fun d => List.mem_takeWhile_imp⟩
    rw [List.take_succ_cons, take_countWhile]

/-- Words of characters that words may hold look like words. -/
theorem isWordLike_of_word? (hstart : ∀ c, start c = true → c.isDigit = false ∧ marksNoWord c = false)
    (hpart : ∀ c, part c = true → marksNoWord c = false) (h : word? start part chars = some n) :
    IsWordLike (chars.take n) := by
  obtain ⟨c, rest, htake, hc, hrest⟩ := word?_eq_some h
  rw [htake]
  refine ⟨⟨c, rfl, (hstart c hc).1⟩, fun d hd => ?_⟩
  rcases List.mem_cons.mp hd with rfl | hd
  · exact (hstart d hc).2
  · exact hpart d (hrest d hd)

theorem take_of_startsWith {text : List Char} (h : startsWith text chars = true) :
    chars.take text.length = text :=
  (List.prefix_iff_eq_take.mp (List.isPrefixOf_iff_prefix.mp h)).symm

/-- A keyword is measured where it stands. -/
theorem take_of_keyword? {text : String} (h : keyword? part text chars = some n) :
    chars.take n = text.toList := by
  rw [keyword?, Option.ite_none_right_eq_some, Bool.and_eq_true] at h
  obtain ⟨⟨hstarts, -⟩, h⟩ := h
  cases h
  exact take_of_startsWith hstarts

/-- A punctuation mark is measured where it stands. -/
theorem take_of_mark? {marks : List String} {text : String} (h : mark? marks text chars = some n) :
    chars.take n = text.toList := by
  rw [mark?, Option.ite_none_right_eq_some, Bool.and_eq_true] at h
  obtain ⟨⟨hstarts, -⟩, h⟩ := h
  cases h
  exact take_of_startsWith hstarts

/-! ## Numbers -/

/-- Only a point begins a number that does not begin with a digit. -/
theorem head?_of_pointed (h : number?.pointed chars ≠ 0) : chars.head? = some '.' := by
  unfold number?.pointed at h
  split at h
  · rfl
  · exact absurd rfl h

/-- A number starts with a digit or with its point. -/
theorem head?_of_number? {suffixes : List Char} (h : number? suffixes chars = some n) :
    ∃ c ∈ (chars.take n).head?, c.isDigit = true ∨ c = '.' := by
  unfold number? at h
  extract_lets size at h
  have hhead : size ≠ 0 → ∃ c ∈ chars.head?, c.isDigit = true ∨ c = '.' := by
    intro hsize
    unfold size at hsize
    split at hsize
    · exact ⟨'0', rfl, .inl rfl⟩
    · rename_i c rest _
      by_cases hdigit : c.isDigit = true
      · exact ⟨c, rfl, .inl hdigit⟩
      · rw [if_neg hdigit] at hsize
        exact ⟨'.', head?_of_pointed hsize, .inr rfl⟩
    · exact absurd rfl hsize
  clear_value size
  by_cases hsize : size = 0
  · rw [if_pos (beq_iff_eq.mpr hsize)] at h
    cases h
  rw [if_neg (mt beq_iff_eq.mp hsize)] at h
  have hn : n ≠ 0 := by
    split at h <;> cases h
    · split <;> omega
    · exact hsize
  rw [List.head?_take, if_neg hn]
  exact hhead hsize

/-! ## Quoted texts -/

theorem le_of_untilQuote {quote : Char} {stops : Char → Bool} {escape : List Char → Option Nat}
    {passed count : Nat} (h : untilQuote quote stops escape passed chars count = some n) :
    count ≤ n := by
  fun_induction untilQuote quote stops escape passed chars count with
  | case1 => cases h
  | case2 _ _ _ _ ih => exact (Nat.le_succ _).trans (ih h)
  | case3 => cases h; omega
  | case4 => cases h
  | case5 c rest count hquote hstops ih =>
    obtain ⟨size, -, hrest⟩ := Option.bind_eq_some_iff.mp h
    exact (Nat.le_succ _).trans (ih size hrest)

/-- A quoted text starts with its quote. -/
theorem head?_of_quoted? {quote : Char} {stops : Char → Bool} {escape : List Char → Option Nat}
    (h : quoted? stops escape quote chars = some n) : (chars.take n).head? = some quote := by
  unfold quoted? at h
  split at h
  · rename_i c rest
    rw [Option.ite_none_right_eq_some, beq_iff_eq] at h
    obtain ⟨rfl, h⟩ := h
    have hn : 1 ≤ n := le_of_untilQuote h
    obtain ⟨m, rfl⟩ := Nat.exists_eq_add_of_le' hn
    rfl
  · cases h

end ModuleAtlas.Lexicon
