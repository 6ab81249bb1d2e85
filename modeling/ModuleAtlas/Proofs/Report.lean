import ModuleAtlas.Proofs.Json.Document
import ModuleAtlas.Report.Json

/-!
# JSON reports are lossless

A report can be read back from its JSON text. The reader below takes a value apart by the keys of its
objects and knows nothing of how they were written; all that it is told is how to read the literal
of a floating-point number. It gets back just the report that was written
(`jsonText_isLossless`), so different reports have different texts.
-/

namespace ModuleAtlas

open Json (Value IsFinite)

variable {α : Type} {value : Value} {key : String} {fields : List (String × Value)}

/-! ## Reading values -/

namespace Json.Value

/-- What stands under a key, taken apart in some way. -/
def get? (value : Value) (key : String) (read : Value → Option α) : Option α :=
  match value with
  | .object fields => (fields.lookup (some key)).bind read
  | _ => none

/-- A text. -/
def text? : Value → Option String
  | .string text => text
  | _ => none

/-- A text, or null. -/
def textOrNull? : Value → Option (Option String)
  | .null => some none
  | .string (some text) => some (some text)
  | _ => none

/-- A natural number in decimal digits. -/
def count? : Value → Option ℕ
  | .number literal =>
    if literal.toList.all Char.isDigit then some (Nat.ofDigitChars 10 literal.toList 0) else none
  | _ => none

/-- A number, given how a literal is read. -/
def number? (read : String → Option α) : Value → Option α
  | .number literal => read literal
  | _ => none

/-- An array of things of one kind. -/
def list? (read : Value → Option α) : Value → Option (List α)
  | .array items => items.mapM read
  | _ => none

theorem get?_record (fields : List (String × Value)) (key : String) (read : Value → Option α) :
    (record fields).get? key read = (fields.lookup key).bind read := by
  have hlookup : (fields.map fun field => (some field.1, field.2)).lookup (some key)
      = fields.lookup key := by
    induction fields with
    | nil => rfl
    | cons field fields ih =>
      obtain ⟨other, value⟩ := field
      simp [List.lookup_cons, ih]
  simp only [record, get?, hlookup]

@[simp] theorem text?_text (text : String) : (Value.text text).text? = some text := rfl

@[simp] theorem textOrNull?_textOrNull (text : Option String) :
    (textOrNull text).textOrNull? = some text := by
  cases text <;> rfl

@[simp] theorem count?_count (n : ℕ) : (count n).count? = some n := by
  have hdigits : (toString n).toList.all Char.isDigit = true :=
    List.all_eq_true.mpr (areDigits_toString n).2
  rw [count, count?, if_pos hdigits, Nat.toString_eq_ofList_toDigits, String.toList_ofList,
    Nat.ofDigitChars_ten_toDigits]

/-- An array is read item by item. -/
theorem list?_map {β : Type} {write : β → Value} {read : Value → Option α} {f : β → α}
    (h : ∀ b, read (write b) = some (f b)) (items : List β) :
    (array (items.map write)).list? read = some (items.map f) := by
  rw [list?]
  induction items with
  | nil => rfl
  | cons b items ih => simp [List.mapM_cons, h, ih]

/-- Items that are read back make an array that is read back. -/
theorem list?_map_self {write : α → Value} {read : Value → Option α}
    (h : ∀ a, read (write a) = some a) (items : List α) :
    (array (items.map write)).list? read = some items := by
  rw [list?_map (f := id) h, List.map_id]

@[simp] theorem list?_texts (items : List String) : (texts items).list? text? = some items :=
  list?_map_self text?_text items

end Json.Value

open Json.Value

/-! ## Reading reports -/

/-- The kind of a symbol, by its word. -/
def SymbolKind.ofName? (name : String) : Option SymbolKind :=
  [SymbolKind.function, .type, .variable, .constant].find? fun kind => kind.name = name

theorem SymbolKind.ofName?_name (kind : SymbolKind) : SymbolKind.ofName? kind.name = some kind := by
  cases kind <;> decide

namespace Report

section Reading

variable (read : String → Option Float) (value : Value)

/-- The depth of the modules. -/
def depth? : Option (DepthSummary Float) := do
  let average ← value.get? "average" (number? read)
  let max ← value.get? "max" count?
  return { average, max }

/-- The fanout of the modules. -/
def fanout? : Option (FanoutSummary Float) := do
  let average ← value.get? "average" (number? read)
  let max ← value.get? "max" count?
  let maxModule ← value.get? "max_module" textOrNull?
  return { average, max, maxModule }

/-- The steps up in relative imports. -/
def complexity? : Option (ComplexitySummary Float) := do
  let average ← value.get? "average" (number? read)
  let max ← value.get? "max" count?
  let maxImport ← value.get? "max_import" textOrNull?
  let maxModule ← value.get? "max_module" textOrNull?
  let relativeImports ← value.get? "relative_imports" count?
  return { average, max, maxImport, maxModule, relativeImports }

/-- The coupling of the modules. -/
def coupling? : Option (CouplingSummary Float) := do
  let averageEfferent ← value.get? "average_efferent" (number? read)
  let maxAfferent ← value.get? "max_afferent" count?
  let maxAfferentModule ← value.get? "max_afferent_module" textOrNull?
  return { averageEfferent, maxAfferent, maxAfferentModule }

/-- A cycle, without the text of its path. -/
def cycle? : Option Cycle := do
  let modules ← value.get? "modules" (list? text?)
  return ⟨modules⟩

/-- An unused export. -/
def deadExport? : Option DeadExport := do
  let module ← value.get? "module" text?
  let name ← value.get? "name" text?
  let kind ← value.get? "kind" fun kind => kind.text?.bind SymbolKind.ofName?
  let line ← value.get? "line" count?
  return { module, name, kind, line }

/-- A warning. -/
def warning? : Option Warning := do
  let path ← value.get? "path" text?
  let message ← value.get? "message" text?
  return { path, message }

/-- A report. One without a list of warnings has none. -/
def ofJson? : Option Report := do
  let project ← value.get? "project" text?
  let summary ← value.get? "summary" some
  let filesScanned ← summary.get? "files_scanned" count?
  let moduleCount ← summary.get? "module_count" count?
  let edgeCount ← summary.get? "edge_count" count?
  let externalCount ← summary.get? "external_import_count" count?
  let depth ← value.get? "depth" (depth? read)
  let fanout ← value.get? "fanout" (fanout? read)
  let complexity ← value.get? "import_complexity" (complexity? read)
  let coupling ← value.get? "coupling" (coupling? read)
  let cycles ← value.get? "cycles" (list? cycle?)
  let deadExports ← value.get? "dead_exports" (list? deadExport?)
  let unreachable ← value.get? "unreachable_modules" (list? text?)
  let warnings ← (value.get? "warnings" some).elim (some []) (list? warning?)
  let metrics := {
    moduleCount, edgeCount, externalCount, depth, fanout, cycles, complexity, coupling, deadExports,
    unreachable, warnings }
  return { project, filesScanned, metrics }

end Reading

variable {read : String → Option Float} {r other : Report}

/-! ## What is written is read -/

/-- A floating-point number is read back exactly from its literal. -/
def ReadsBack (read : String → Option Float) (x : Float) : Prop :=
  (Value.float x).number? read = some x

theorem depth?_depthValue {d : DepthSummary Float} (h : ReadsBack read d.average) :
    depth? read (depthValue d) = some d := by
  unfold ReadsBack at h
  simp [depth?, depthValue, get?_record, List.lookup_cons, h]

theorem fanout?_fanoutValue {f : FanoutSummary Float} (h : ReadsBack read f.average) :
    fanout? read (fanoutValue f) = some f := by
  unfold ReadsBack at h
  simp [fanout?, fanoutValue, get?_record, List.lookup_cons, h]

theorem complexity?_complexityValue {c : ComplexitySummary Float} (h : ReadsBack read c.average) :
    complexity? read (complexityValue c) = some c := by
  unfold ReadsBack at h
  simp [complexity?, complexityValue, get?_record, List.lookup_cons, h]

theorem coupling?_couplingValue {c : CouplingSummary Float} (h : ReadsBack read c.averageEfferent) :
    coupling? read (couplingValue c) = some c := by
  unfold ReadsBack at h
  simp [coupling?, couplingValue, get?_record, List.lookup_cons, h]

theorem cycle?_cycleValue (c : Cycle) : cycle? (cycleValue c) = some c := by
  simp [cycle?, cycleValue, get?_record]

theorem deadExport?_deadExportValue (e : DeadExport) : deadExport? (deadExportValue e) = some e := by
  simp [deadExport?, deadExportValue, get?_record, List.lookup_cons, SymbolKind.ofName?_name]

theorem warning?_warningValue (w : Warning) : warning? (warningValue w) = some w := by
  simp [warning?, warningValue, get?_record, List.lookup_cons]

/-- The averages in a report. -/
def averages (r : Report) : List Float :=
  [r.metrics.depth.average, r.metrics.fanout.average, r.metrics.complexity.average,
    r.metrics.coupling.averageEfferent]

/-- The averages of a report are finite, and `read` reads them back exactly. -/
structure IsReadable (read : String → Option Float) (r : Report) : Prop where
  finite : ∀ x ∈ r.averages, IsFinite x
  reads_back : ∀ x ∈ r.averages, ReadsBack read x

/-- The warnings stand in the last field, if there are any. -/
theorem get?_warnings (r : Report) : r.toJson.get? "warnings" some
    = if r.metrics.warnings = [] then none
      else some (.array (r.metrics.warnings.map warningValue)) := by
  unfold toJson
  by_cases h : r.metrics.warnings = [] <;> simp [get?_record, List.lookup_cons, h]

/-- A report is got back from its value. -/
theorem ofJson?_toJson (h : r.IsReadable read) : ofJson? read r.toJson = some r := by
  have hback := h.reads_back
  simp only [averages, List.forall_mem_cons] at hback
  obtain ⟨hdepth, hfanout, hcomplexity, hcoupling, -⟩ := hback
  have hwarnings : (r.toJson.get? "warnings" some).elim (some []) (list? warning?)
      = some r.metrics.warnings := by
    rw [get?_warnings]
    split
    · rename_i hnone
      rw [hnone]
      rfl
    · exact list?_map_self warning?_warningValue _
  unfold ofJson?
  rw [hwarnings]
  simp [toJson, get?_record, List.lookup_cons, summaryValue, depth?_depthValue hdepth,
    fanout?_fanoutValue hfanout, complexity?_complexityValue hcomplexity,
    coupling?_couplingValue hcoupling, list?_map_self cycle?_cycleValue,
    list?_map_self deadExport?_deadExportValue]

/-! ## Numbers of a report -/

theorem wellFormed_record (h : ∀ field ∈ fields, field.2.WellFormed) :
    (record fields).WellFormed := by
  refine .object fun field hfield => ?_
  obtain ⟨field, hmem, rfl⟩ := List.mem_map.mp hfield
  exact h field hmem

theorem wellFormed_list {write : α → Value} (h : ∀ a, (write a).WellFormed) (items : List α) :
    (Value.array (items.map write)).WellFormed := by
  refine .array fun item hitem => ?_
  obtain ⟨a, -, rfl⟩ := List.mem_map.mp hitem
  exact h a

theorem wellFormed_text (text : String) : (Value.text text).WellFormed := .string (some text)

theorem wellFormed_textOrNull (text : Option String) : (textOrNull text).WellFormed := by
  cases text with
  | none => exact .null
  | some text => exact .string (some text)

theorem wellFormed_count (n : ℕ) : (count n).WellFormed := .number (Json.isNumber_toString n)

theorem wellFormed_float {x : Float} (hx : IsFinite x) : (Value.float x).WellFormed := by
  obtain ⟨literal, hliteral, hnumber⟩ := Json.exists_number_of_isFinite hx
  rw [hliteral]
  exact .number hnumber

/-- The value of a report with finite averages has no false numbers. -/
theorem wellFormed_toJson (h : ∀ x ∈ r.averages, IsFinite x) : r.toJson.WellFormed := by
  simp only [averages, List.forall_mem_cons] at h
  obtain ⟨hdepth, hfanout, hcomplexity, hcoupling, -⟩ := h
  have hcycle : ∀ c, (cycleValue c).WellFormed := fun c => wellFormed_record <| by
    simp [wellFormed_text, texts, wellFormed_list]
  have hexport : ∀ e, (deadExportValue e).WellFormed := fun e => wellFormed_record <| by
    simp [wellFormed_text, wellFormed_count]
  have hwarning : ∀ w, (warningValue w).WellFormed := fun w => wellFormed_record <| by
    simp [wellFormed_text]
  have hsummary : (summaryValue r).WellFormed := wellFormed_record <| by simp [wellFormed_count]
  have hdepth : (depthValue r.metrics.depth).WellFormed := wellFormed_record <| by
    simp [wellFormed_count, wellFormed_float hdepth]
  have hfanout : (fanoutValue r.metrics.fanout).WellFormed := wellFormed_record <| by
    simp [wellFormed_count, wellFormed_textOrNull, wellFormed_float hfanout]
  have hcomplexity : (complexityValue r.metrics.complexity).WellFormed := wellFormed_record <| by
    simp [wellFormed_count, wellFormed_textOrNull, wellFormed_float hcomplexity]
  have hcoupling : (couplingValue r.metrics.coupling).WellFormed := wellFormed_record <| by
    simp [wellFormed_count, wellFormed_textOrNull, wellFormed_float hcoupling]
  refine wellFormed_record (List.forall_mem_append.mpr ⟨?_, ?_⟩)
  · simp [wellFormed_text, wellFormed_list wellFormed_text, hsummary, hdepth, hfanout, hcomplexity,
      hcoupling, wellFormed_list hcycle, wellFormed_list hexport, texts]
  · split
    · simp
    · simpa using wellFormed_list hwarning r.metrics.warnings

/-! ## The text of a report -/

/-- The names in a report that may be absent, each with the two keys that lead to it. -/
def names (r : Report) : List (String × String × Option String) :=
  [("fanout", "max_module", r.metrics.fanout.maxModule),
    ("import_complexity", "max_import", r.metrics.complexity.maxImport),
    ("import_complexity", "max_module", r.metrics.complexity.maxModule),
    ("coupling", "max_afferent_module", r.metrics.coupling.maxAfferentModule)]

/-- What a value says about a report: all that is in it, and some things twice. -/
structure IsSaidBy (read : String → Option Float) (r : Report) (value : Value) : Prop where
  report : ofJson? read value = some r
  /-- a name that is absent is null -/
  names : ∀ group key name, (group, key, name) ∈ r.names →
    value.get? group (·.get? key some) = some (name.elim .null .text)
  warnings : value.get? "warnings" some = none ↔ r.metrics.warnings = []
  cycle_count : value.get? "summary" (·.get? "circular_dependencies" count?)
    = some r.metrics.cycles.length
  export_count : value.get? "summary" (·.get? "dead_exports" count?)
    = some r.metrics.deadExports.length
  /-- the path of a cycle is its modules, with the first one repeated at the end -/
  paths : value.get? "cycles" (list? (·.get? "path" text?)) = some (r.metrics.cycles.map fun cycle =>
    Text.join " -> " (cycle.modules ++ cycle.modules.take 1))

theorem isSaidBy_toJson (h : r.IsReadable read) : r.IsSaidBy read r.toJson where
  report := ofJson?_toJson h
  names := by
    simp only [Report.names, List.mem_cons, List.not_mem_nil, or_false, Prod.mk.injEq]
    rintro group key name (⟨rfl, rfl, rfl⟩ | ⟨rfl, rfl, rfl⟩ | ⟨rfl, rfl, rfl⟩ | ⟨rfl, rfl, rfl⟩) <;>
      simp [toJson, get?_record, List.lookup_cons, fanoutValue, complexityValue, couplingValue,
        textOrNull]
  warnings := by
    rw [get?_warnings]
    split <;> simp_all
  cycle_count := by simp [toJson, get?_record, List.lookup_cons, summaryValue]
  export_count := by simp [toJson, get?_record, List.lookup_cons, summaryValue]
  paths := by
    have hpath : ∀ c : Cycle, (cycleValue c).get? "path" text?
        = some (Text.join " -> " (c.modules ++ c.modules.take 1)) := by
      rintro ⟨modules⟩
      cases modules <;> simp [cycleValue, get?_record, List.lookup_cons, Cycle.path, Cycle.closed]
    simp only [toJson, get?_record]
    exact list?_map hpath _

/-- The text of a report is one document and a line break. The document says what is in the report,
and no other report has the same text. -/
theorem jsonText_isLossless (h : r.IsReadable read) :
    (∃ text value, r.jsonText = text ++ "\n" ∧ Json.parse text = some value ∧
      Json.parse r.jsonText = some value ∧ r.IsSaidBy read value) ∧
      ∀ other : Report, other.IsReadable read → other ≠ r → other.jsonText ≠ r.jsonText := by
  have hparse : ∀ {report : Report}, report.IsReadable read →
      Json.parse report.jsonText = some report.toJson := fun hreport =>
    Json.parse_document_append (wellFormed_toJson hreport.finite) (Json.isBlankSpace_newLine 0)
  have hdocument : Json.parse (Json.document r.toJson) = some r.toJson := by
    rw [← String.append_empty (s := Json.document r.toJson)]
    exact Json.parse_document_append (wellFormed_toJson h.finite) (List.forall_mem_nil _)
  refine ⟨⟨_, _, rfl, hdocument, hparse h, isSaidBy_toJson h⟩, fun other hother hne htext => ?_⟩
  have hvalue : other.toJson = r.toJson := by
    have hread := hparse hother
    rw [htext, hparse h] at hread
    exact (Option.some.inj hread).symm
  have hreport := ofJson?_toJson hother
  rw [hvalue, ofJson?_toJson h] at hreport
  exact hne (Option.some.inj hreport).symm

/-- A report whose strings need every kind of escape, with an absent name and without warnings. -/
def quotedReport : Report where
  project := "caf\u00e9 \"src\\new\"\x01\n"
  filesScanned := 3
  metrics := {
    moduleCount := 2
    edgeCount := 2
    depth := ⟨.ofBits 0x3FF8000000000000, 2⟩
    fanout := { average := .ofBits 0x3FF8000000000000, max := 1, maxModule := some "a\tb.ts" }
    cycles := [⟨["a\tb.ts", "c.ts"]⟩]
    complexity := { average := .ofBits 0 }
    coupling := { averageEfferent := .ofBits 0 } }

/-- The numbers of the literals in that report. -/
def quotedLiterals (literal : String) : Option Float :=
  if literal = "1.5" then some (.ofBits 0x3FF8000000000000)
  else if literal = "0.0" then some (.ofBits 0)
  else none

theorem jsonText_isLossless_quotedReport : quotedReport.IsReadable quotedLiterals ∧
    ∃ value, Json.parse quotedReport.jsonText = some value ∧
      quotedReport.IsSaidBy quotedLiterals value := by
  have hzero : Decimal.Binary.ofFloat (.ofBits 0) = .finite false 0 (-1074) := by decide +kernel
  have hhalf : Decimal.Binary.ofFloat (.ofBits 0x3FF8000000000000)
      = .finite false 0x18000000000000 (-52) := by decide +kernel
  have hdigits : Decimal.shortest 0x18000000000000 (-52) = ⟨15, -1⟩ := by decide +kernel
  have hliteral : Json.scientificLiteral ⟨15, -1⟩ = "1.5" := by decide
  have hreadable : quotedReport.IsReadable quotedLiterals := by
    refine ⟨?_, ?_⟩
    · simp only [averages, quotedReport, List.forall_mem_cons]
      exact ⟨⟨_, _, _, hhalf⟩, ⟨_, _, _, hhalf⟩, ⟨_, _, _, hzero⟩, ⟨_, _, _, hzero⟩, by simp⟩
    · have hreadHalf : ReadsBack quotedLiterals (.ofBits 0x3FF8000000000000) := by
        simp only [ReadsBack, Value.float, hhalf, hdigits, hliteral]
        rfl
      have hreadZero : ReadsBack quotedLiterals (.ofBits 0) := by
        simp only [ReadsBack, Value.float, hzero]
        rfl
      simp only [averages, quotedReport, List.forall_mem_cons]
      exact ⟨hreadHalf, hreadHalf, hreadZero, hreadZero, by simp⟩
  obtain ⟨⟨text, value, -, -, hparse, hsaid⟩, -⟩ := jsonText_isLossless hreadable
  exact ⟨hreadable, value, hparse, hsaid⟩

end Report

end ModuleAtlas
