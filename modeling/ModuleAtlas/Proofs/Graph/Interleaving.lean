import ModuleAtlas.Proofs.Graph.Queries

/-!
# The order of calls does not matter

What a graph is, depends on the calls that built it only through the language with which each module
was first added and through the accepted statements, in any order (`GraphBuilder.build_eq`). If every
statement comes after the additions of the modules that it names, all are accepted. So calls that add
the same modules and make the same statements build the same graph, however additions and statements
are interleaved (`Graph.ofCalls_eq_of_declared`).
-/

namespace ModuleAtlas

open Std (TreeMap)

namespace NodeDraft

variable {node other : NodeDraft} {leads leads' : List (Option String)}

/-- The targets of a module do not depend on the order of its statements. -/
theorem Counts.toList_targets_eq (h : node.Counts leads) (h' : other.Counts leads')
    (hperm : leads.Perm leads') : node.targets.toList = other.targets.toList := by
  apply toList_eq_of_getElem?_eq
  intro t
  rw [h.targets, h'.targets, hperm.count_eq]
  simp only [hperm.mem_iff]

/-- Nor do its counters. -/
theorem Counts.module_eq (h : node.Counts leads) (h' : other.Counts leads')
    (hperm : leads.Perm leads')
    (hlabel : (node.module.id, node.module.language) = (other.module.id, other.module.language)) :
    node.module = other.module := by
  have hstatements : node.module.statements = other.module.statements := by
    rw [h.statements, h'.statements, hperm.length_eq]
  have hexternals : node.module.externals = other.module.externals := by
    rw [h.externals, h'.externals, hperm.count_eq]
  rw [Prod.mk.injEq] at hlabel
  cases hmodule : node.module
  cases hother : other.module
  simp_all

end NodeDraft

namespace GraphBuilder

variable {b b' : GraphBuilder} {calls calls' : List Call} {call : Call}

/-! ## What the graph depends on -/

/-- The languages of the modules and the statements, in any order, make up the graph. -/
theorem build_eq {languages languages' : List (String × Language)}
    {statements statements' : List Statement} (hlabelled : b.Labelled languages)
    (hlabelled' : b'.Labelled languages') (hcounts : b.Counts statements)
    (hcounts' : b'.Counts statements')
    (hlanguages : ∀ id, languages.lookup id = languages'.lookup id)
    (hperm : statements.Perm statements') : b.build = b'.build := by
  apply congrArg Graph.mk
  apply Keyed.ext_find?
  intro id
  show b.build.nodes.find? id = b'.build.nodes.find? id
  have hlabels := (hlabelled id).trans
    ((congrArg (Option.map fun language => (id, language)) (hlanguages id)).trans
      (hlabelled' id).symm)
  have hleads : (Statement.leads statements id).Perm (Statement.leads statements' id) :=
    (hperm.filter _).map _
  rw [find?_build, find?_build]
  cases hnode : b.nodes[id]? with
  | none =>
    cases hnode' : b'.nodes[id]? with
    | none => rfl
    | some node' =>
      rw [hnode, hnode'] at hlabels
      cases hlabels
  | some node =>
    cases hnode' : b'.nodes[id]? with
    | none =>
      rw [hnode, hnode'] at hlabels
      cases hlabels
    | some node' =>
      rw [hnode, hnode', Option.map_some, Option.map_some, Option.some.injEq] at hlabels
      have hnodes := hcounts.counts id node hnode
      have hnodes' := hcounts'.counts id node' hnode'
      rw [Option.map_some, Option.map_some, hnodes.module_eq hnodes' hleads hlabels,
        hnodes.toList_targets_eq hnodes' hleads]

/-! ## Statements after additions -/

/-- Every statement comes after the additions of the modules that it names. -/
def Declared (calls : List Call) : Prop :=
  ∀ k (h : k < calls.length), ∀ id ∈ calls[k].names, id ∈ added (calls.take k)

instance (calls : List Call) : Decidable (Declared calls) :=
  inferInstanceAs
    (Decidable (∀ k (h : k < calls.length), ∀ id ∈ calls[k].names, id ∈ added (calls.take k)))

theorem declared_concat_iff :
    Declared (calls ++ [call]) ↔ Declared calls ∧ ∀ id ∈ call.names, id ∈ added calls := by
  constructor
  · intro h
    refine ⟨fun k hk id hid => ?_, fun id hid => ?_⟩
    · have hearlier := h k (by simp; omega) id
      rw [List.getElem_append_left hk, List.take_append_of_le_length hk.le] at hearlier
      exact hearlier hid
    · simpa using h calls.length (by simp) id (by simpa using hid)
  · rintro ⟨hcalls, hcall⟩ k hk id hid
    by_cases hlt : k < calls.length
    · rw [List.getElem_append_left hlt] at hid
      rw [List.take_append_of_le_length hlt.le]
      exact hcalls k hlt id hid
    · -- the last call comes after all others
      obtain rfl : k = calls.length := by
        rw [List.length_append, List.length_singleton] at hk
        omega
      simpa using hcall id (by simpa using hid)

/-- Then every statement is accepted. -/
theorem Declared.accepted_eq (h : Declared calls) :
    accepted {} calls = calls.filterMap Call.statement? := by
  induction calls using List.reverseRecOn with
  | nil => rfl
  | append_singleton calls call ih =>
    obtain ⟨hcalls, hnames⟩ := declared_concat_iff.mp h
    have hsupports : (run calls).Supports call :=
      supports_iff.mpr fun id hid => mem_nodes_run.mpr (hnames id hid)
    rw [accepted_append, ih hcalls, List.filterMap_append]
    apply congrArg
    apply accepted_eq_filterMap
    intro other hother
    rw [List.mem_singleton.mp hother]
    exact hsupports

end GraphBuilder

namespace Graph

open GraphBuilder (Call additions Declared)

variable {calls calls' : List Call}

/-- Calls that add the same modules, each in one language, and make the same statements, each after
the additions of the modules it names, build the same graph, in whatever order they come. So every
query has the same answer. -/
theorem ofCalls_eq_of_declared (hadditions : ∀ x, x ∈ additions calls ↔ x ∈ additions calls')
    (hlanguage : ∀ x ∈ additions calls, ∀ y ∈ additions calls, x.1 = y.1 → x = y)
    (hstatements : (calls.filterMap Call.statement?).Perm (calls'.filterMap Call.statement?))
    (hdeclared : Declared calls) (hdeclared' : Declared calls') :
    ofCalls calls = ofCalls calls' := by
  have hlanguage' : ∀ x ∈ additions calls', ∀ y ∈ additions calls', x.1 = y.1 → x = y :=
    fun x hx y hy => hlanguage x ((hadditions x).mpr hx) y ((hadditions y).mpr hy)
  have hlookup : ∀ id, (additions calls).lookup id = (additions calls').lookup id := by
    intro id
    ext language
    rw [lookup_eq_some_iff_mem hlanguage, lookup_eq_some_iff_mem hlanguage', hadditions]
  rw [← hdeclared.accepted_eq, ← hdeclared'.accepted_eq] at hstatements
  exact GraphBuilder.build_eq (GraphBuilder.labelled_run calls) (GraphBuilder.labelled_run calls')
    (GraphBuilder.counts_run calls) (GraphBuilder.counts_run calls') hlookup hstatements

/-- Modules are added when they are needed. -/
def eagerCalls : List Call :=
  [.addModule "a.py" .python, .addImport "a.py" "a.py", .addModule "b.ts" .typeScript,
    .addImport "a.py" "b.ts", .addExternal "b.ts", .addImport "b.ts" "a.py",
    .addImport "a.py" "b.ts"]

/-- Modules are added in the other order, one of them twice, and so are the statements. -/
def lateCalls : List Call :=
  [.addModule "b.ts" .typeScript, .addModule "a.py" .python, .addImport "a.py" "b.ts",
    .addImport "b.ts" "a.py", .addModule "b.ts" .typeScript, .addExternal "b.ts",
    .addImport "a.py" "b.ts", .addImport "a.py" "a.py"]

/-- Both ways the graph is the same. -/
theorem ofCalls_eagerCalls_eq :
    (∀ x, x ∈ additions eagerCalls ↔ x ∈ additions lateCalls) ∧
    (∀ x ∈ additions eagerCalls, ∀ y ∈ additions eagerCalls, x.1 = y.1 → x = y) ∧
    (eagerCalls.filterMap Call.statement?).Perm (lateCalls.filterMap Call.statement?) ∧
    Declared eagerCalls ∧ Declared lateCalls ∧ ofCalls eagerCalls = ofCalls lateCalls := by
  have hadded : ∀ x ∈ additions eagerCalls, x ∈ additions lateCalls := by decide
  have hadded' : ∀ x ∈ additions lateCalls, x ∈ additions eagerCalls := by decide
  have hlanguage : ∀ x ∈ additions eagerCalls, ∀ y ∈ additions eagerCalls, x.1 = y.1 → x = y := by
    decide
  have hstatements : (eagerCalls.filterMap Call.statement?).Perm
      (lateCalls.filterMap Call.statement?) := by
    decide
  have hdeclared : Declared eagerCalls := by decide
  have hdeclared' : Declared lateCalls := by decide
  exact ⟨fun x => ⟨hadded x, hadded' x⟩, hlanguage, hstatements, hdeclared, hdeclared',
    ofCalls_eq_of_declared (fun x => ⟨hadded x, hadded' x⟩) hlanguage hstatements hdeclared
      hdeclared'⟩

end Graph

end ModuleAtlas
