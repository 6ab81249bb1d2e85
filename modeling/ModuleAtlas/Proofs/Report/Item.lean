import ModuleAtlas.Proofs.Graph.CyclePath
import ModuleAtlas.Proofs.Report
import ModuleAtlas.Proofs.Report.Section
import ModuleAtlas.Report.Markdown

/-!
# Items of the lists in a report

In Markdown each item of a list in a report has a line of its own: a numbered path, the row of a table
or an item with a dash. The line is something other than a heading or a rule, whatever the texts in it
(`isContent_deadExportLine` and the like). It tells the item if these texts have none of the marks
that lines are laid out with (`eq_of_deadExportLine_eq` and the like).
-/

namespace ModuleAtlas.Report

open Markdown (IsContent)

variable {text : String} {cells others : List String} {a b : DeadExport} {v w : Warning}

/-- A text without the marks that a report in Markdown is laid out with. -/
structure IsUnmarked (text : String) : Prop where
  line_feed : '\n' ∉ text.toList
  bar : '|' ∉ text.toList
  backtick : '\x60' ∉ text.toList
  arrow : ¬ Text.HasArrow text

instance (text : String) : Decidable (IsUnmarked text) :=
  decidable_of_iff
    (('\n' ∉ text.toList ∧ '|' ∉ text.toList) ∧ '\x60' ∉ text.toList ∧ ¬ Text.HasArrow text)
    ⟨fun h => ⟨h.1.1, h.1.2, h.2.1, h.2.2⟩, fun h => ⟨⟨h.1, h.2⟩, h.3, h.4⟩⟩

/-! ## Numbers -/

theorem eq_of_toString_eq {m n : ℕ} (h : toString m = toString n) : m = n := by
  have hread := Json.Value.count?_count m
  rw [Json.Value.count, h] at hread
  exact Option.some.inj (hread.symm.trans (Json.Value.count?_count n))

/-- A text that starts with a number starts with a digit. -/
theorem head?_toString_append (n : ℕ) (text : String) :
    ∃ c, (toString n ++ text).toList.head? = some c ∧ c.isDigit = true := by
  obtain ⟨hne, hdigits⟩ := Json.areDigits_toString n
  refine ⟨(toString n).toList.head hne, ?_, hdigits _ (List.head_mem hne)⟩
  rw [String.toList_append, List.head?_append_of_ne_nil _ hne, List.head?_eq_some_head hne]

/-! ## Rows of a table -/

/-- A row is a bar before each cell and one at the end, and the cells have blanks around them. -/
theorem row_eq_join (hcells : cells ≠ []) :
    row cells = Text.join "|" ("" :: cells.map (fun cell => " " ++ cell ++ " ") ++ [""]) := by
  have hpadded : " " ++ Text.join " | " cells ++ " "
      = Text.join "|" (cells.map fun cell => " " ++ cell ++ " ") := by
    induction cells with
    | nil => exact absurd rfl hcells
    | cons cell cells ih =>
      by_cases hmore : cells = []
      · rw [hmore]
        rfl
      · have hbar : " | " = " " ++ "|" ++ " " := by decide
        rw [List.map_cons, Text.join_cons _ _ hmore, Text.join_cons _ _ (by simpa using hmore),
          ← ih hmore, hbar]
        simp only [String.append_assoc]
  have hstart : "| " = "" ++ "|" ++ " " := by decide
  have hend : " |" = " " ++ ("|" ++ "") := by decide
  rw [List.cons_append, Text.join_cons _ _ (by simp), Text.join_append _ (by simpa using hcells)
    (by simp), ← hpadded, row, hstart, hend]
  simp only [Text.join, String.append_assoc]

/-- The bars of a row cut it into its cells, if these have no bar inside. -/
theorem split_row (hcells : ∀ cell ∈ cells, '|' ∉ cell.toList) (hne : cells ≠ []) :
    Text.split '|' (row cells) = "" :: cells.map (fun cell => " " ++ cell ++ " ") ++ [""] := by
  rw [row_eq_join hne]
  refine Text.split_join (by simp) ?_
  simp only [List.forall_mem_append, List.forall_mem_cons, List.forall_mem_map]
  refine ⟨⟨by simp, fun cell hcell => ?_⟩, by simp⟩
  simpa using hcells cell hcell

theorem eq_of_row_eq (hcells : ∀ cell ∈ cells, '|' ∉ cell.toList)
    (hothers : ∀ cell ∈ others, '|' ∉ cell.toList) (hne : cells ≠ []) (hne' : others ≠ [])
    (h : row cells = row others) : cells = others := by
  have hsplit := congrArg (Text.split '|') h
  rw [split_row hcells hne, split_row hothers hne'] at hsplit
  have hpadded := List.append_cancel_right (List.cons.inj hsplit).2
  refine (List.map_inj_right fun first second heq => ?_).mp hpadded
  exact (String.append_right_inj _).mp ((String.append_left_inj _).mp heq)

theorem eq_of_code_eq {name other : String} (h : code name = code other) : name = other :=
  (String.append_right_inj _).mp ((String.append_left_inj _).mp h)

theorem bar_not_mem_code (h : '|' ∉ text.toList) : '|' ∉ (code text).toList := by
  simpa [code] using h

/-- The row of an unused export tells the export. -/
theorem eq_of_deadExportLine_eq (ha : IsUnmarked a.module ∧ IsUnmarked a.name)
    (hb : IsUnmarked b.module ∧ IsUnmarked b.name) (h : deadExportLine a = deadExportLine b) :
    a = b := by
  have hbars : ∀ e : DeadExport, IsUnmarked e.module ∧ IsUnmarked e.name →
      ∀ cell ∈ [e.module, code e.name, e.kind.name, toString e.line], '|' ∉ cell.toList := by
    rintro e ⟨hmodule, hname⟩
    have hkind : '|' ∉ e.kind.name.toList := by cases e.kind <;> decide
    simp only [List.forall_mem_cons]
    exact ⟨hmodule.bar, bar_not_mem_code hname.bar, hkind, Json.not_mem_toString (by decide) _,
      List.forall_mem_nil _⟩
  have hcells := eq_of_row_eq (hbars a ha) (hbars b hb) (by simp) (by simp) h
  simp only [List.cons.injEq] at hcells
  obtain ⟨hmodule, hname, hkind, hline, -⟩ := hcells
  have hkinds := SymbolKind.ofName?_name a.kind
  rw [hkind, SymbolKind.ofName?_name] at hkinds
  obtain ⟨module, name, kind, line⟩ := a
  obtain ⟨module', name', kind', line'⟩ := b
  congr 1
  · exact eq_of_code_eq hname
  · exact (Option.some.inj hkinds).symm
  · exact eq_of_toString_eq hline

theorem isContent_deadExportLine (e : DeadExport) : IsContent (deadExportLine e) :=
  Markdown.isContent_of_head? (c := '|') (by simp [deadExportLine, row]) (by decide) (by decide)

/-! ## Warnings -/

/-- The line of a warning is cut by its backticks into a dash, the path and the message. -/
theorem split_warningLine (hw : IsUnmarked w.path ∧ IsUnmarked w.message) :
    Text.split '\x60' (warningLine w) = ["- ", w.path, ": " ++ w.message] := by
  obtain ⟨hpath, hmessage⟩ := hw
  have hline : warningLine w
      = Text.join (String.singleton '\x60') ["- ", w.path, ": " ++ w.message] := by
    simp only [warningLine, code, Text.join, String.append_assoc]
    rfl
  rw [hline]
  refine Text.split_join (by simp) ?_
  simp only [List.forall_mem_cons]
  exact ⟨by decide, hpath.backtick, by simpa using hmessage.backtick, List.forall_mem_nil _⟩

/-- The line of a warning tells the warning. -/
theorem eq_of_warningLine_eq (hv : IsUnmarked v.path ∧ IsUnmarked v.message)
    (hw : IsUnmarked w.path ∧ IsUnmarked w.message) (h : warningLine v = warningLine w) : v = w := by
  have hsplit := congrArg (Text.split '\x60') h
  rw [split_warningLine hv, split_warningLine hw] at hsplit
  simp only [List.cons.injEq] at hsplit
  obtain ⟨-, hpath, hmessage, -⟩ := hsplit
  obtain ⟨path, message⟩ := v
  obtain ⟨path', message'⟩ := w
  congr 1
  exact (String.append_right_inj _).mp hmessage

theorem isContent_warningLine (w : Warning) : IsContent (warningLine w) := by
  rw [warningLine, String.append_assoc, String.append_assoc]
  exact Markdown.isContent_item _

/-! ## Cycles -/

/-- The line of a cycle tells the cycle. -/
theorem eq_of_cycleLine_eq {c d : Cycle} (n : ℕ) (hc : ∀ module ∈ c.modules, IsUnmarked module)
    (hd : ∀ module ∈ d.modules, IsUnmarked module) (h : cycleLine n c = cycleLine n d) : c = d :=
  Cycle.eq_of_path_eq (fun module hmodule => (hc module hmodule).arrow)
    (fun module hmodule => (hd module hmodule).arrow)
    (eq_of_code_eq ((String.append_right_inj _).mp h))

theorem isContent_cycleLine (n : ℕ) (c : Cycle) : IsContent (cycleLine n c) := by
  obtain ⟨d, hhead, hdigit⟩ := head?_toString_append n (". " ++ code c.path)
  rw [← String.append_assoc] at hhead
  refine Markdown.isContent_of_head? hhead ?_ ?_ <;>
    · rintro rfl
      exact absurd hdigit (by decide)

end ModuleAtlas.Report
