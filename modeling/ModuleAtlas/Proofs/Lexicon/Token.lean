import ModuleAtlas.Lexicon.EcmaScript
import ModuleAtlas.Lexicon.Go
import ModuleAtlas.Lexicon.Python
import ModuleAtlas.Proofs.Syntax.Position

/-!
# The tokens of the languages

What a terminal of one of the languages reads, it reads where the cursor stands, and the cursor moves on
from there. Each terminal has a shape, which tells the kind of its token and what the text of the token
looks like: an identifier is like a word, and a string literal begins with its quote. Each language has
one lemma about all its terminals (`gives_read`).
-/

namespace ModuleAtlas.Syntax

open Lexicon

variable {c d e : Cursor} {tokens : List Node} {chars : List Char} {n : Nat}

/-! ## Shapes -/

namespace Shape

/-- The shape of a keyword. -/
def ofWord (text : String) : Shape := { lexeme := .word text }

/-- The shape of a punctuation mark. -/
def ofMark (text : String) : Shape := { lexeme := .mark text, openers := some (text.toList.take 1) }

/-- The shape of an identifier. -/
def ofName (kind : String) : Shape := { lexeme := .named kind, isWord := true }

/-- The shape of a token of a kind that tells nothing about its text. -/
def ofKind (kind : String) : Shape := { lexeme := .named kind }

/-- The shape of a token that begins with one of some characters. -/
def ofOpeners (kind : String) (openers : List Char) : Shape :=
  { lexeme := .named kind, openers := some openers }

theorem fits_ofWord {text : String} (h : chars = text.toList) : (ofWord text).Fits chars :=
  ⟨fun hword => (nomatch hword), fun _ hopeners => (nomatch hopeners), fun _ => h⟩

theorem fits_ofMark {text : String} (h : chars = text.toList) (hne : chars ≠ []) :
    (ofMark text).Fits chars := by
  refine ⟨fun hword => (nomatch hword), fun openers hopeners => ?_, fun _ => h⟩
  cases hopeners
  obtain ⟨x, rest, hcons⟩ := List.exists_cons_of_ne_nil hne
  rw [← h, hcons]
  exact ⟨x, rfl, List.mem_cons_self⟩

theorem fits_ofName {kind : String} (h : IsWordLike chars) : (ofName kind).Fits chars :=
  ⟨fun _ => h, fun _ hopeners => (nomatch hopeners), fun hnamed => (nomatch hnamed)⟩

theorem fits_ofKind (kind : String) (chars : List Char) : (ofKind kind).Fits chars :=
  ⟨fun hword => (nomatch hword), fun _ hopeners => (nomatch hopeners), fun hnamed => (nomatch hnamed)⟩

theorem fits_ofOpeners {kind : String} {openers : List Char} (h : ∃ c ∈ chars.head?, c ∈ openers) :
    (ofOpeners kind openers).Fits chars := by
  refine ⟨fun hword => (nomatch hword), fun _ hopeners => ?_, fun hnamed => (nomatch hnamed)⟩
  cases hopeners
  exact h

end Shape

/-! ## Reading a token -/

namespace Cursor

variable {shape : Option Shape} {s : Shape}

/-- A measure that finds nothing where nothing is left. -/
def StopsAtEnd (measure : List Char → Option Nat) : Prop := ∀ n ∈ measure [], n = 0

/-- A token is read where the cursor stands if its text is as its shape says. -/
theorem gives_take? (measure : List Char → Option Nat) {blank : Cursor → Nat}
    (hend : StopsAtEnd measure)
    (hfits : ∀ n, measure c.rest = some n → c.rest.take n ≠ [] → s.Fits (c.rest.take n))
    (h : c.take? s.lexeme blank (measure c.rest) = some (tokens, d)) : c.Gives (some s) tokens d := by
  obtain ⟨n, hn, htake⟩ := Option.map_eq_some_iff.mp h
  obtain ⟨hsize, hpos⟩ := Option.filter_eq_some_iff.mp hn
  -- a token is not empty, as nothing is measured where nothing is left
  have hne : c.rest.take n ≠ [] := by
    rw [ne_eq, List.take_eq_nil_iff, not_or]
    refine ⟨(of_decide_eq_true hpos).ne', fun hrest => ?_⟩
    rw [hrest] at hsize
    exact absurd (hend n hsize) (of_decide_eq_true hpos).ne'
  cases htake
  refine .token rfl hne (hfits n hsize hne) (Reaches.trans ?_ (reaches_skip _ _))
  exact reaches_of_eq rfl rfl rfl

theorem Gives.reaches_on (h : c.Gives shape tokens d) (h' : d.Reaches e) : c.Gives shape tokens e := by
  cases h with
  | nothing hshape h => exact .nothing hshape (h.trans h')
  | token hshape hne hfits h => exact .token hshape hne hfits (h.trans h')

/-- Nothing is read where a check holds. -/
theorem gives_check {holds : Bool} (hshape : ∀ s ∈ shape, s.isOptional = true)
    (h : c.check holds = some (tokens, d)) : c.Gives shape tokens d := by
  unfold check at h
  split at h
  · cases h
    exact .nothing hshape (.refl c)
  · cases h

/-! ## Tokens of every language -/

variable {blank : Cursor → Nat} {text kind : String}

theorem stopsAtEnd_of_eq_none {measure : List Char → Option Nat} (h : measure [] = none) :
    StopsAtEnd measure := by
  intro n hn
  rw [h] at hn
  cases hn

/-- At the end of a text stand no characters but none. -/
theorem stopsAtEnd_of_startsWith {chars : List Char} {allowed : List Char → Bool} :
    StopsAtEnd fun rest =>
      if startsWith chars rest && allowed rest then some chars.length else none := by
  intro n hn
  obtain ⟨hstarts, hn⟩ := Option.ite_none_right_eq_some.mp hn
  rw [← Option.some.inj hn, List.length_eq_zero_iff]
  exact List.prefix_nil.mp (List.isPrefixOf_iff_prefix.mp (Bool.and_eq_true_iff.mp hstarts).1)

theorem stopsAtEnd_keyword? (part : Char → Bool) (text : String) : StopsAtEnd (keyword? part text) :=
  stopsAtEnd_of_startsWith

theorem stopsAtEnd_mark? (marks : List String) (text : String) : StopsAtEnd (mark? marks text) :=
  stopsAtEnd_of_startsWith

theorem gives_keyword? {part : Char → Bool}
    (h : c.take? (.word text) blank (keyword? part text c.rest) = some (tokens, d)) :
    c.Gives (some (.ofWord text)) tokens d :=
  gives_take? (keyword? part text) (stopsAtEnd_keyword? part text)
    (fun _ hsize _ => Shape.fits_ofWord (take_of_keyword? hsize)) h

theorem gives_mark? {marks : List String}
    (h : c.take? (.mark text) blank (mark? marks text c.rest) = some (tokens, d)) :
    c.Gives (some (.ofMark text)) tokens d :=
  gives_take? (mark? marks text) (stopsAtEnd_mark? marks text)
    (fun _ hsize hne => Shape.fits_ofMark (take_of_mark? hsize) hne) h

theorem gives_kind (measure : List Char → Option Nat) (hend : StopsAtEnd measure)
    (h : c.take? (.named kind) blank (measure c.rest) = some (tokens, d)) :
    c.Gives (some (.ofKind kind)) tokens d :=
  gives_take? measure hend (fun _ _ _ => Shape.fits_ofKind kind _) h

/-- A token that may be missing, where a check holds. -/
theorem gives_or_check {r : Option (List Node × Cursor)} {holds : Bool}
    (hr : ∀ tokens d, r = some (tokens, d) → c.Gives (some s) tokens d)
    (h : r.or (c.check holds) = some (tokens, d)) :
    c.Gives (some { s with isOptional := true }) tokens d := by
  rcases Option.or_eq_some_iff.mp h with h | ⟨-, h⟩
  · cases hr tokens d h with
    | nothing _ h => exact .nothing (fun s' hs' => by cases hs'; rfl) h
    | token hshape hne hfits hreaches =>
      cases hshape
      exact .token (s := { s with isOptional := true }) rfl hne
        ⟨hfits.isWordLike, hfits.opens, hfits.spells⟩ hreaches
  · exact gives_check (fun s' hs' => by cases hs'; rfl) h

end Cursor

end ModuleAtlas.Syntax

namespace ModuleAtlas

open Syntax Lexicon
open Syntax.Cursor

/-! ## Letters -/

theorem toNat_of_isDigit {c : Char} (h : c.isDigit = true) : 48 ≤ c.toNat ∧ c.toNat ≤ 57 := by
  simpa [Char.isDigit, UInt32.le_iff_toNat_le] using h

theorem isAlpha_of_isDigit {c : Char} (h : c.isDigit = true) : c.isAlpha = false := by
  have hcode := toNat_of_isDigit h
  unfold Char.isAlpha Char.isUpper Char.isLower
  simp [UInt32.le_iff_toNat_le]
  omega

/-- No digit starts an identifier of Python or Go. -/
theorem Text.isDigit_of_isIdStart {c : Char} (h : Text.isIdStart c = true) : c.isDigit = false := by
  by_contra hdigit
  rw [Bool.not_eq_false] at hdigit
  have hcode := toNat_of_isDigit hdigit
  have hlow : c ≠ '_' := by
    rintro rfl
    cases hdigit
  have hascii : ¬ 128 ≤ c.toNat := by omega
  simp [Text.isIdStart, isAlpha_of_isDigit hdigit, hlow, hascii] at h

/-- An identifier of Python or Go looks like a word. -/
theorem isWordLike_of_idChars {taken : List String} {chars : List Char} {n : Nat}
    (h : ((word? Text.isIdStart Text.isIdContinue chars).filter fun size =>
      !taken.contains (String.ofList (chars.take size))) = some n) :
    IsWordLike (chars.take n) := by
  refine isWordLike_of_word? (fun c hc => ⟨Text.isDigit_of_isIdStart hc, ?_⟩) (fun c hc => ?_)
    (Option.filter_eq_some_iff.mp h).1
  · exact marksNoWord_eq_false (by decide) hc
  · exact marksNoWord_eq_false (by decide) hc

/-! ## Go -/

namespace Go

/-- The shapes of tokens of Go. -/
def Terminal.shape : Terminal → Option Shape
  | .word text => some (.ofWord text)
  | .mark text => some (.ofMark text)
  | .name kind _ => some (.ofName kind)
  | .blankName => some (.ofKind "blank_identifier")
  | .dot => some (.ofKind "dot")
  | .constant text => some (.ofKind text)
  | .number => some (.ofKind "int_literal")
  | .rune => some (.ofKind "rune_literal")
  | .string => some (.ofKind "interpreted_string_literal")
  | .rawString => some (.ofKind "raw_string_literal")
  | .terminator => some { Shape.ofMark ";" with isOptional := true }
  | .joined | .continued | .finish => none

theorem gives_read (t : Terminal) (c : Cursor) (tokens : List Syntax.Node) (d : Cursor)
    (h : read t c = some (tokens, d)) : c.Gives t.shape tokens d := by
  cases t with
  | word text => exact gives_keyword? h
  | mark text => exact gives_mark? h
  | name kind taken =>
    exact gives_take? (identifier? taken) (stopsAtEnd_of_eq_none rfl)
      (fun _ hsize _ => Shape.fits_ofName (isWordLike_of_idChars hsize)) h
  | blankName => exact gives_kind (keyword? Text.isIdContinue "_") (stopsAtEnd_keyword? _ _) h
  | dot => exact gives_kind (mark? marks ".") (stopsAtEnd_mark? _ _) h
  | constant text => exact gives_kind (keyword? Text.isIdContinue text) (stopsAtEnd_keyword? _ _) h
  | number => exact gives_kind (number? ['i']) (stopsAtEnd_of_eq_none rfl) h
  | rune => exact gives_kind rune? (stopsAtEnd_of_eq_none rfl) h
  | string => exact gives_kind string? (stopsAtEnd_of_eq_none rfl) h
  | rawString => exact gives_kind (rawQuoted? '`') (stopsAtEnd_of_eq_none rfl) h
  | terminator => exact gives_or_check (fun _ _ hmark => gives_mark? hmark) h
  | joined | continued | finish => exact gives_check (fun _ hshape => (nomatch hshape)) h

end Go

/-! ## Python -/

namespace Python

/-- The shapes of tokens of Python. -/
def Terminal.shape : Terminal → Option Shape
  | .word text => some (.ofWord text)
  | .mark text => some (.ofMark text)
  | .bareMark text => some (.ofMark text)
  | .point => some (.ofMark ".")
  | .name _ => some (.ofName "identifier")
  | .wildcard => some (.ofKind "wildcard_import")
  | .number => some (.ofKind "integer")
  | .string => some (.ofKind "string")
  | .formatOpen _ => some (.ofKind "string_start")
  | .formatText _ => some (.ofKind "string_content")
  | .formatSpec _ => some (.ofKind "format_specifier")
  | .formatClose _ => some (.ofKind "string_end")
  | .conversion => some (.ofKind "type_conversion")
  | .newline | .indent | .level | .dedent | .finish => none

theorem reaches_newline? {c d : Cursor} {tokens : List Syntax.Node}
    (h : newline? c = some (tokens, d)) :
    tokens = [] ∧ c.Reaches d := by
  unfold newline? at h
  generalize layout false (c.rest.drop 1) 1 0 = measured at h
  obtain ⟨size, column⟩ := measured
  dsimp only at h
  split at h
  · cases h
    exact ⟨rfl, reaches_of_eq rfl rfl rfl⟩
  · cases h
    exact ⟨rfl, (c.reaches_skip size).trans (reaches_of_eq rfl rfl rfl)⟩
  · cases h

theorem gives_read (t : Terminal) (c : Cursor) (tokens : List Syntax.Node) (d : Cursor)
    (h : read t c = some (tokens, d)) : c.Gives t.shape tokens d := by
  cases t with
  | word text => exact gives_keyword? h
  | mark text | point => exact gives_mark? h
  | bareMark text =>
    rw [read] at h
    exact gives_mark? h
  | name taken =>
    exact gives_take? (identifier? taken) (stopsAtEnd_of_eq_none rfl)
      (fun _ hsize _ => Shape.fits_ofName (isWordLike_of_idChars hsize)) h
  | wildcard => exact gives_kind (mark? marks "*") (stopsAtEnd_mark? _ _) h
  | number => exact gives_kind (number? ['j', 'J', 'l', 'L']) (stopsAtEnd_of_eq_none rfl) h
  | string => exact gives_kind string? (stopsAtEnd_of_eq_none (by decide)) h
  | formatOpen q =>
    rw [read] at h
    exact gives_kind (formatOpen? q) (stopsAtEnd_of_eq_none rfl) h
  | formatText q =>
    rw [read] at h
    refine gives_kind (fun chars => some (formatText q false chars 0)) ?_ h
    intro n hn
    cases hn
    rfl
  | formatSpec q =>
    rw [read] at h
    refine gives_kind (fun chars => some (formatSpec q chars 0)) ?_ h
    intro n hn
    cases hn
    rfl
  | formatClose q =>
    refine gives_kind (fun chars => if startsWith q.closing chars then
      some q.closing.length else none) (stopsAtEnd_of_eq_none ?_) h
    obtain ⟨quote, triple⟩ := q
    cases triple <;> rfl
  | conversion =>
    rw [read] at h
    exact gives_kind conversion? (stopsAtEnd_of_eq_none rfl) h
  | newline =>
    obtain ⟨rfl, hreaches⟩ := reaches_newline? h
    exact .nothing (fun _ hshape => (nomatch hshape)) hreaches
  | indent | dedent =>
    obtain ⟨-, h⟩ := Option.ite_none_right_eq_some.mp h
    cases h
    exact .nothing (fun _ hshape => (nomatch hshape)) (reaches_of_eq rfl rfl rfl)
  | level | finish => exact gives_check (fun _ hshape => (nomatch hshape)) h

end Python

/-! ## ECMAScript -/

namespace EcmaScript

variable {chars : List Char} {n : Nat}

theorem marksNoWord_of_isNamePart {c : Char} (h : isNamePart c = true) : marksNoWord c = false :=
  marksNoWord_eq_false (by decide) h

theorem marksNoWord_of_isDigitOf {c : Char} (h : isDigitOf 16 c = true) : marksNoWord c = false :=
  marksNoWord_eq_false (by decide) h

theorem isDigit_of_isNameStart {c : Char} (h : isNameStart c = true) : c.isDigit = false := by
  by_contra hdigit
  rw [Bool.not_eq_false] at hdigit
  have hcode := toNat_of_isDigit hdigit
  have hsigns : c ≠ '_' ∧ c ≠ '$' := by
    constructor <;> rintro rfl <;> cases hdigit
  have hascii : c.toNat < 128 ∧ c.toNat ≠ 127 := by omega
  simp [isNameStart, isAlpha_of_isDigit hdigit, hsigns, hascii] at h

/-- The characters that are measured as part of an identifier are characters of words. The flag asks
for a first character, without which nothing is measured. -/
theorem nameSize_spec (first : Bool) (chars : List Char) (count : Nat) :
    ∃ n, (∀ c ∈ chars.take n, marksNoWord c = false) ∧
      (nameSize first chars count = count + n ∨ first = true ∧ nameSize first chars count = 0) := by
  have hnone : ∀ chars : List Char, ∀ c ∈ chars.take 0, marksNoWord c = false :=
    fun chars c hc => absurd hc List.not_mem_nil
  fun_induction nameSize first chars count with
  | case1 first rest count size hfind after hdigits =>
    -- an escape between braces, and what follows it
    refine ⟨size + 1 + countWhile isNamePart after + 3, fun c hc => ?_, .inl (by omega)⟩
    obtain ⟨hsize, hclose, -⟩ := List.findIdx?_eq_some_iff_getElem.mp hfind
    have htake : rest.take (size + 1) = rest.take size ++ ['\x7d'] := by
      rw [List.take_succ_eq_append_getElem hsize, beq_iff_eq.mp hclose]
    have hafter : (rest.drop (size + 1)).take (countWhile isNamePart after)
        = after.takeWhile isNamePart := take_countWhile isNamePart after
    simp only [List.take_succ_cons, List.take_add (i := size + 1), htake, hafter, List.mem_cons,
      List.mem_append, List.not_mem_nil, or_false] at hc
    rcases hc with rfl | rfl | rfl | (hc | rfl) | hc
    · rfl
    · rfl
    · rfl
    · exact marksNoWord_of_isDigitOf (List.all_eq_true.mp hdigits c hc)
    · rfl
    · exact marksNoWord_of_isNamePart (List.mem_takeWhile_imp hc)
  | case2 | case4 | case7 => exact ⟨0, hnone _, .inr ⟨rfl, rfl⟩⟩
  | case3 | case5 | case8 | case10 | case11 => exact ⟨0, hnone _, .inl rfl⟩
  | case6 first a b c d rest count _ hdigits ih =>
    -- an escape of four digits
    obtain ⟨n, hn, hsize | ⟨hfalse, -⟩⟩ := ih
    · refine ⟨n + 6, fun x hx => ?_, .inl (by omega)⟩
      simp only [List.take_succ_cons, List.mem_cons] at hx
      have hdigit : x ∈ [a, b, c, d] → marksNoWord x = false :=
        fun hmem => marksNoWord_of_isDigitOf (List.all_eq_true.mp hdigits x hmem)
      rcases hx with rfl | rfl | rfl | rfl | rfl | rfl | hx
      · rfl
      · rfl
      iterate 4 exact hdigit (by simp)
      exact hn x hx
    · cases hfalse
  | case9 first c rest count _ _ hc ih =>
    obtain ⟨n, hn, hsize | ⟨hfalse, -⟩⟩ := ih
    · refine ⟨n + 1, fun x hx => ?_, .inl (by omega)⟩
      rcases List.mem_cons.mp hx with rfl | hx
      · rw [Bool.or_eq_true, Bool.and_eq_true] at hc
        refine marksNoWord_of_isNamePart ?_
        rw [isNamePart, Bool.or_eq_true]
        exact hc.imp_right And.right
      · exact hn x hx
    · cases hfalse

/-- An identifier starts with a letter or with an escape. -/
theorem head?_of_nameSize (h : nameSize true chars 0 ≠ 0) :
    ∃ c, chars.head? = some c ∧ c.isDigit = false := by
  cases chars with
  | nil => exact absurd rfl h
  | cons c rest =>
    refine ⟨c, rfl, ?_⟩
    by_cases hescape : c = '\\'
    · rw [hescape]
      rfl
    · refine isDigit_of_isNameStart ?_
      by_contra hstart
      refine h ?_
      unfold nameSize
      split
      · exact absurd (by assumption) (by simp_all)
      · simp_all
      · simp_all
      · simp_all

theorem isWordLike_of_name? (h : name? chars = some n) : IsWordLike (chars.take n) := by
  unfold name? at h
  extract_lets size at h
  rw [Option.ite_none_left_eq_some, beq_iff_eq] at h
  obtain ⟨hsize, h⟩ := h
  obtain rfl : size = n := Option.some.inj h
  obtain ⟨m, hm, heq⟩ := nameSize_spec true chars 0
  have hsizem : size = m := by
    rcases heq with heq | ⟨-, hzero⟩
    · exact heq.trans (Nat.zero_add m)
    · exact absurd hzero hsize
  obtain ⟨c, hhead, hdigit⟩ := head?_of_nameSize hsize
  -- `size` is not zero, so the first character is one of those that are taken
  refine ⟨⟨c, ?_, hdigit⟩, by rwa [hsizem]⟩
  rw [List.head?_take, if_neg hsize, hhead]

/-- The name of an element or an attribute looks like a word, too. -/
theorem isWordLike_of_markupName? (h : markupName? chars = some n) :
    IsWordLike (chars.take n) := by
  obtain ⟨size, hname, rfl⟩ := Option.map_eq_some_iff.mp h
  have hword := isWordLike_of_name? hname
  rw [List.take_add, take_countWhile]
  refine ⟨?_, fun c hc => ?_⟩
  · rw [List.head?_append_of_ne_nil _ hword.ne_nil]
    exact hword.head
  · rcases List.mem_append.mp hc with hc | hc
    · exact hword.all c hc
    · have hpart : (isNamePart c || c == '-') = true :=
        List.mem_takeWhile_imp (p := fun c => isNamePart c || c == '-') hc
      rcases Bool.or_eq_true _ _ ▸ hpart with hpart | hhyphen
      · exact marksNoWord_of_isNamePart hpart
      · rw [beq_iff_eq.mp hhyphen]
        rfl

/-- A mark is measured where it stands. -/
theorem take_of_sign? {text : String} (h : sign? text chars = some n) : chars.take n = text.toList := by
  unfold sign? at h
  split at h
  · split_ifs at h with hdigit hmark
    · cases h
      rw [beq_iff_eq.mp hmark]
      rfl
    · exact take_of_mark? h
  · exact take_of_mark? h

theorem stopsAtEnd_sign? (text : String) : StopsAtEnd (sign? text) := stopsAtEnd_mark? marks text

theorem head?_of_string? (h : string? chars = some n) :
    ∃ quote ∈ (chars.take n).head?, quote ∈ ['"', '\''] := by
  rcases Option.or_eq_some_iff.mp h with h | ⟨-, h⟩
  · exact ⟨'"', head?_of_quoted? h, by decide⟩
  · exact ⟨'\'', head?_of_quoted? h, by decide⟩

theorem head?_of_markupValue? (h : markupValue? chars = some n) :
    ∃ quote ∈ (chars.take n).head?, quote ∈ ['"', '\''] := by
  rcases Option.or_eq_some_iff.mp (Option.filter_eq_some_iff.mp h).1 with h | ⟨-, h⟩
  · exact ⟨'"', head?_of_quoted? h, by decide⟩
  · exact ⟨'\'', head?_of_quoted? h, by decide⟩

theorem head?_of_privateName? (h : privateName? chars = some n) : (chars.take n).head? = some '#' := by
  unfold privateName? at h
  split at h
  · obtain ⟨size, -, rfl⟩ := Option.map_eq_some_iff.mp h
    rfl
  · cases h

/-- The characters that a number begins with. -/
def numberOpeners : List Char := ['0', '1', '2', '3', '4', '5', '6', '7', '8', '9', '.']

theorem mem_numberOpeners_of_isDigit {c : Char} (h : c.isDigit = true) : c ∈ numberOpeners := by
  obtain ⟨hlow, hhigh⟩ := toNat_of_isDigit h
  have hcodes : ∀ code ≤ 57, 48 ≤ code → Char.ofNat code ∈ numberOpeners := by decide
  rw [← Char.ofNat_toNat c]
  exact hcodes _ hhigh hlow

theorem exists_numberOpener {suffixes : List Char} (h : number? suffixes chars = some n) :
    ∃ c ∈ (chars.take n).head?, c ∈ numberOpeners := by
  obtain ⟨c, hc, hdigit | rfl⟩ := head?_of_number? h
  · exact ⟨c, hc, mem_numberOpeners_of_isDigit hdigit⟩
  · exact ⟨'.', hc, by decide⟩

/-- The shapes of tokens of ECMAScript. -/
def Terminal.shape : Terminal → Option Shape
  | .word text => some (.ofWord text)
  | .mark text => some (.ofMark text)
  | .shortMark text => some (.ofMark text)
  | .bareMark text => some (.ofMark text)
  | .name kind _ => some (.ofName kind)
  | .privateName => some (.ofOpeners "private_property_identifier" ['#'])
  | .number => some (.ofOpeners "number" numberOpeners)
  | .quoted => some (.ofOpeners "string" ['"', '\''])
  | .pattern => some (.ofKind "regex")
  | .templateOpen => some (.ofMark "\x60")
  | .templateText => some (.ofKind "string_fragment")
  | .templateClose => some (.ofMark "\x60")
  | .markupName kind => some (.ofName kind)
  | .markupBegin => some (.ofMark ">")
  | .markupEnd => some (.ofMark "</")
  | .markupText => some (.ofKind "jsx_text")
  | .reference => some (.ofKind "html_character_reference")
  | .markupValue => some (.ofOpeners "string" ['"', '\''])
  | .interpreter => some (.ofKind "hash_bang_line")
  | .oldComment => some (.ofKind "html_comment")
  | .semicolon => some { Shape.ofMark ";" with isOptional := true }
  | .sameLine | .finish => none

theorem gives_read (t : Terminal) (c : Cursor) (tokens : List Syntax.Node) (d : Cursor)
    (h : read t c = some (tokens, d)) : c.Gives t.shape tokens d := by
  cases t with
  | word text => exact gives_keyword? h
  | mark text =>
    exact gives_take? (sign? text) (stopsAtEnd_sign? text)
      (fun _ hsize hne => Shape.fits_ofMark (take_of_sign? hsize) hne) h
  | shortMark text | templateClose => exact gives_mark? h
  | bareMark text | templateOpen =>
    rw [read] at h
    exact gives_mark? h
  | name kind taken =>
    exact gives_take? (identifier? taken) (stopsAtEnd_of_eq_none rfl) (fun _ hsize _ =>
      Shape.fits_ofName (isWordLike_of_name? (Option.filter_eq_some_iff.mp hsize).1)) h
  | privateName =>
    exact gives_take? privateName? (stopsAtEnd_of_eq_none rfl) (fun _ hsize _ =>
      Shape.fits_ofOpeners ⟨'#', head?_of_privateName? hsize, List.mem_cons_self⟩) h
  | number =>
    exact gives_take? (number? ['n']) (stopsAtEnd_of_eq_none rfl) (fun _ hsize _ =>
      Shape.fits_ofOpeners (exists_numberOpener hsize)) h
  | quoted =>
    exact gives_take? string? (stopsAtEnd_of_eq_none rfl) (fun _ hsize _ =>
      Shape.fits_ofOpeners (head?_of_string? hsize)) h
  | pattern => exact gives_kind pattern? (stopsAtEnd_of_eq_none rfl) h
  | templateText =>
    rw [read] at h
    refine gives_kind (fun chars => some (templateText chars 0)) ?_ h
    intro n hn
    cases hn
    rfl
  | markupName kind =>
    exact gives_take? markupName? (stopsAtEnd_of_eq_none rfl) (fun _ hsize _ =>
      Shape.fits_ofName (isWordLike_of_markupName? hsize)) h
  | markupBegin =>
    obtain ⟨⟨found, next⟩, htake, heq⟩ := Option.map_eq_some_iff.mp h
    cases heq
    exact (gives_mark? htake).reaches_on (reaches_of_eq rfl rfl rfl)
  | markupEnd =>
    obtain ⟨⟨found, next⟩, htake, heq⟩ := Option.map_eq_some_iff.mp h
    cases heq
    exact (gives_mark? htake).reaches_on (reaches_of_eq rfl rfl rfl)
  | markupText =>
    rw [read] at h
    refine gives_kind (fun chars =>
      some (countWhile (fun x => !(['{', '}', '<', '>', '&'].contains x)) chars)) ?_ h
    intro n hn
    cases hn
    rfl
  | reference =>
    rw [read] at h
    exact gives_kind reference? (stopsAtEnd_of_eq_none rfl) h
  | markupValue =>
    exact gives_take? markupValue? (stopsAtEnd_of_eq_none rfl) (fun _ hsize _ =>
      Shape.fits_ofOpeners (head?_of_markupValue? hsize)) h
  | interpreter => exact gives_kind interpreter? (stopsAtEnd_of_eq_none rfl) h
  | oldComment => exact gives_kind oldComment? (stopsAtEnd_of_eq_none (by decide)) h
  | semicolon => exact gives_or_check (fun _ _ hmark => gives_mark? hmark) h
  | sameLine | finish => exact gives_check (fun _ hshape => (nomatch hshape)) h

end EcmaScript

end ModuleAtlas
