import ModuleAtlas.Discovery
import ModuleAtlas.Grammar
import ModuleAtlas.Proofs.Syntax.Standing
import ModuleAtlas.Proofs.Text.Split

/-!
# Marks of generated code

A Go file counts as generated if a mark stands above its package clause. The scan for marks knows no
comments: it stops at the first line that starts like a package clause, wherever that is. So it goes
by the clause exactly if the first mark does not stand between the line where the scan stops and the
line of the clause (`classify_generated_laws`). Both are the same line where only line comments and
empty lines stand above the clause, and the clause starts its line.

* `Go.clause?` : the keyword of the package clause in a syntax tree.
* `Go.IsClause` : a keyword that stands where it is in the text. In the trees of the program's own parser
  every clause does (`Go.isClause_of_clause?`).
* `firstMark`, `scanEnd` : the lines of the first mark and of the end of the scan.
-/

namespace ModuleAtlas

variable {lines : List String} {line text path : String} {content : ByteArray} {clause : Syntax.Node}

/-! ## Package clauses -/

namespace Go

/-- The keyword of the package clause of a file. -/
def clause? (root : Syntax.Node) : Option Syntax.Node :=
  root.children.findSome? fun child =>
    if child.kind == "package_clause" then child.children.find? (·.kind == "package") else none

/-- The keyword of a package clause stands in the text where the node says. -/
structure IsClause (text : String) (clause : Syntax.Node) : Prop where
  stands : clause.StandsIn text
  text_eq : clause.text? text = some "package"

instance (text : String) (clause : Syntax.Node) : Decidable (IsClause text clause) :=
  decidable_of_iff (clause.StandsIn text ∧ clause.text? text = some "package")
    ⟨fun ⟨h, h'⟩ => ⟨h, h'⟩, fun ⟨h, h'⟩ => ⟨h, h'⟩⟩

/-- The package clause stands on its line of the text. -/
theorem IsClause.exists_line (h : IsClause text clause) :
    ∃ line, (Text.lines text)[clause.row]? = some line ∧ "package".toList <:+: line.toList := by
  obtain ⟨front, piece, rest, htext, hpiece, -, -, hrow⟩ := h.stands.exists_front
  obtain rfl : piece = "package" := Option.some.inj (hpiece.symm.trans h.text_eq)
  rw [← hrow]
  exact Text.exists_line htext (by decide) (by decide)

end Go

/-! ## Lines -/

/-- The mark of generated code. -/
def isMark (line : String) : Bool :=
  Text.startsWith "// Code generated" (Text.trim line) && Text.contains "DO NOT EDIT" (Text.trim line)

/-- A line that starts like a package clause. -/
def opensPackage (line : String) : Bool := Text.startsWith "package " (Text.trim line)

/-- An empty line, or one that is a line comment. -/
def isLineComment (line : String) : Bool :=
  Text.trim line == "" || Text.startsWith "//" (Text.trim line)

/-- The first line with a mark, counted from 0; the number of lines where there is none. -/
def firstMark (text : String) : Nat := (Text.lines text).findIdx isMark

/-- The first line that starts like a package clause, counted from 0; the number of lines where there
is none. -/
def scanEnd (text : String) : Nat := (Text.lines text).findIdx opensPackage

/-- A package clause starts with no slash. -/
theorem opensPackage_eq_false (h : isLineComment line = true) : opensPackage line = false := by
  rw [← Bool.not_eq_true, opensPackage, Text.startsWith_iff]
  rintro ⟨rest, hrest⟩
  rw [isLineComment, Bool.or_eq_true, beq_iff_eq, Text.startsWith_iff] at h
  rcases h with hempty | ⟨comment, hcomment⟩
  · rw [hempty] at hrest
    cases hrest
  · rw [← hrest] at hcomment
    cases hcomment

theorem exists_mem_take_iff {p : String → Bool} {count : Nat} (hcount : count ≤ lines.length) :
    (∃ line ∈ lines.take count, p line = true) ↔ lines.findIdx p < count := by
  rw [← List.findIdx_lt_length, List.findIdx_take, List.length_take]
  omega

/-! ## Classes -/

/-- The scan finds a mark exactly if the first one stands in front of the line where it stops. -/
theorem isGeneratedGo_iff (htext : String.fromUTF8? content = some text) :
    isGeneratedGo content = true ↔ firstMark text < scanEnd text := by
  have hbytes : Text.ofBytes content = text := by
    rw [Text.ofBytes, htext, Option.getD_some]
  have hscan : (Text.lines text).takeWhile (fun line => !opensPackage line)
      = (Text.lines text).take (scanEnd text) := by
    rw [List.takeWhile_eq_take_findIdx_not, scanEnd]
    simp only [Bool.not_not]
  have hmarks : isGeneratedGo content
      = ((Text.lines text).takeWhile fun line => !opensPackage line).any isMark := by
    unfold isGeneratedGo
    dsimp only
    rw [hbytes, List.takeWhile_map, List.any_map]
    simp only [Function.comp_def, opensPackage]
    rfl
  rw [hmarks, hscan, List.any_eq_true]
  exact exists_mem_take_iff List.findIdx_le_length

/-- A Go file that is kept, and is no test, is generated exactly if the scan finds a mark. -/
theorem classify_go_eq_generated_iff (hexcluded : classify path .go content ≠ .excluded)
    (htest : classify path .go content ≠ .test) :
    classify path .go content = .generated ↔ isGeneratedGo content = true := by
  unfold classify at hexcluded htest ⊢
  dsimp only at hexcluded htest ⊢
  split_ifs at hexcluded htest ⊢ <;> simp_all

/-- A Go file with a package clause that stands in its text, which is kept and is no test, is generated
exactly if its first mark stands in front of the first line that starts like a package clause. So it is
generated exactly if a mark stands above the package clause, unless the first mark stands between the
two lines, where one of them comes before it and the other does not. There is nothing between them
where the clause starts its line, and only line comments and empty lines stand above. -/
theorem classify_generated_laws (htext : String.fromUTF8? content = some text)
    (hclause : Go.IsClause text clause) (hexcluded : classify path .go content ≠ .excluded)
    (htest : classify path .go content ≠ .test) :
    let clauseLine := clause.line - 1
    let MarkAbove := ∃ line ∈ (Text.lines text).take clauseLine, isMark line = true
    (∃ line, (Text.lines text)[clauseLine]? = some line ∧ "package".toList <:+: line.toList) ∧
    (classify path .go content = .generated ↔ firstMark text < scanEnd text) ∧
    ((classify path .go content = .generated ↔ MarkAbove) ↔
      ¬ (clauseLine ≤ firstMark text ∧ firstMark text < scanEnd text) ∧
      ¬ (scanEnd text ≤ firstMark text ∧ firstMark text < clauseLine)) ∧
    (∀ line, (Text.lines text)[clauseLine]? = some line → opensPackage line = true →
      (∀ above ∈ (Text.lines text).take clauseLine, isLineComment above = true) →
        (classify path .go content = .generated ↔ MarkAbove)) := by
  intro clauseLine MarkAbove
  have hline : ∃ line, (Text.lines text)[clauseLine]? = some line ∧
      "package".toList <:+: line.toList := hclause.exists_line
  have hgenerated : classify path .go content = .generated ↔ firstMark text < scanEnd text :=
    (classify_go_eq_generated_iff hexcluded htest).trans (isGeneratedGo_iff htext)
  have habove : MarkAbove ↔ firstMark text < clauseLine := by
    obtain ⟨line, hline, -⟩ := hline
    exact exists_mem_take_iff (List.getElem?_eq_some_iff.mp hline).1.le
  refine ⟨hline, hgenerated, ?_, fun line hline hopens hcomments => ?_⟩
  · rw [hgenerated, habove]
    omega
  · rw [hgenerated, habove, scanEnd]
    obtain ⟨hlt, hget⟩ := List.getElem?_eq_some_iff.mp hline
    have hend : (Text.lines text).findIdx opensPackage = clauseLine := by
      refine (List.findIdx_eq hlt).mpr ⟨by rw [hget]; exact hopens, fun above habove => ?_⟩
      refine opensPackage_eq_false (hcomments _ ?_)
      exact List.mem_take_iff_getElem.mpr ⟨above, by omega, rfl⟩
    rw [hend]

/-- A generated file with its mark above the package clause. -/
def generatedText : String := "// Code generated by protoc-gen-go. DO NOT EDIT.\n\npackage db\n"

theorem classify_generatedText :
    let content := generatedText.toUTF8
    ∃ clause, String.fromUTF8? content = some generatedText ∧
      Go.clause? (Syntax.parse .go generatedText).root = some clause ∧
      Go.IsClause generatedText clause ∧ clause.line = 3 ∧
      classify "pkg/db.pb.go" .go content ≠ .excluded ∧ classify "pkg/db.pb.go" .go content ≠ .test ∧
      (classify "pkg/db.pb.go" .go content = .generated ↔
        ∃ line ∈ (Text.lines generatedText).take 2, isMark line = true) := by
  intro content
  have htext : String.fromUTF8? content = some generatedText := by decide +kernel
  have hread : ∃ clause ∈ Go.clause? (Syntax.parse .go generatedText).root,
      Go.IsClause generatedText clause ∧ clause.line = 3 := by
    decide +kernel
  obtain ⟨clause, hclause, hstands, hthird⟩ := hread
  have hexcluded : classify "pkg/db.pb.go" .go content ≠ .excluded := by decide +kernel
  have htest : classify "pkg/db.pb.go" .go content ≠ .test := by decide +kernel
  obtain ⟨-, -, -, hcomments⟩ := classify_generated_laws htext hstands hexcluded htest
  rw [hthird] at hcomments
  exact ⟨clause, htext, hclause, hstands, hthird, hexcluded, htest,
    hcomments "package db" (by decide +kernel) (by decide +kernel) (by decide +kernel)⟩

/-- A file with a comment in front of its package clause, and a mark below it. -/
def commentedText : String :=
  "/* Tables of the lexer. */ package lexer\n\n// Code generated by hand. DO NOT EDIT.\n" ++
    "var Table = 1\n"

/-- A file whose comment has a line that starts like a package clause, with a mark between this line
and the clause. -/
def describedText : String :=
  "/*\npackage lexer has tables.\n*/\n\n// Code generated by stringer. DO NOT EDIT.\n\n" ++
    "package lexer\n"

/-- The first file is generated with no mark above its package clause, and the second one is not with a
mark above it. -/
theorem classify_commentedText :
    (∃ clause ∈ Go.clause? (Syntax.parse .go commentedText).root,
      (Syntax.parse .go commentedText).hasError = false ∧ Go.IsClause commentedText clause ∧
      (∀ line ∈ (Text.lines commentedText).take (clause.line - 1), isMark line = false) ∧
      classify "lexer/table.go" .go commentedText.toUTF8 = .generated) ∧
    ∃ clause ∈ Go.clause? (Syntax.parse .go describedText).root,
      (Syntax.parse .go describedText).hasError = false ∧ Go.IsClause describedText clause ∧
      (∃ line ∈ (Text.lines describedText).take (clause.line - 1), isMark line = true) ∧
      classify "lexer/table.go" .go describedText.toUTF8 = .source := by
  decide +kernel

end ModuleAtlas
