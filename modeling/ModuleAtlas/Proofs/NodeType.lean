import ModuleAtlas.Proofs.Lexicon.Lexeme
import ModuleAtlas.Proofs.Syntax.Standing
import ModuleAtlas.Source

/-!
# What the grammars say about nodes

A grammar fixes what kinds of nodes fill a field and what the texts of some kinds look like. As far as
the extraction depends on it, this is written down here in one table for each language
(`Language.nodeTypes`). A parser keeps to the table in a text if the tree it builds is placed in the
text and its nodes are as the table says (`NodeTypes.Describe`).
-/

namespace ModuleAtlas

open Lexicon (IsWordLike marksNoWord not_isWordLike_of_mem)
open Syntax (IsPlaced)

/-- The type of a node: its kind, which alone does not tell names in the grammar from keywords. -/
structure NodeType where
  kind : String
  isNamed : Bool := true
  deriving DecidableEq, Repr

/-- The type of a node. -/
def Syntax.Node.type (node : Syntax.Node) : NodeType := ⟨node.kind, node.label.isNamed⟩

/-- The types of nodes that may fill a field of nodes of some kinds. -/
structure FieldType where
  parents : List String
  field : String
  types : List NodeType

/-- What a grammar says about its nodes. -/
structure NodeTypes where
  /-- the kinds of nodes whose texts look like words -/
  words : List String
  fields : List FieldType
  /-- the characters that the texts of a type begin with -/
  openers : List (NodeType × List Char) := []
  /-- the kinds of names that are made of words with points between them -/
  dotted : List String := []

/-! ## The tables -/

/-- What the grammar of Go says. The commas between the names of a spec count as its names. -/
def Go.nodeTypes : NodeTypes where
  words := Go.identifierKinds
  fields :=
    [⟨["function_declaration"], "name", [{ kind := "identifier" }]⟩,
     ⟨["type_spec", "type_alias"], "name", [{ kind := "type_identifier" }]⟩,
     ⟨["const_spec", "var_spec"], "name", [{ kind := "identifier" }, ⟨",", false⟩]⟩]
  openers := [(⟨",", false⟩, [','])]

/-- What the grammar of Python says. -/
def Python.nodeTypes : NodeTypes where
  words := Python.identifierKinds
  fields :=
    [⟨["function_definition", "class_definition"], "name", [{ kind := "identifier" }]⟩,
     ⟨["import_from_statement"], "name", [{ kind := "dotted_name" }, { kind := "aliased_import" }]⟩,
     ⟨["aliased_import"], "name", [{ kind := "dotted_name" }]⟩]
  dotted := ["dotted_name"]

/-- What the grammars of TypeScript and JavaScript say. -/
def EcmaScript.nodeTypes : NodeTypes where
  words := EcmaScript.identifierKinds
  fields :=
    [⟨["import_specifier", "export_specifier"], "name",
       [{ kind := "identifier" }, { kind := "string" }]⟩,
     ⟨["pair_pattern"], "key",
       [{ kind := "property_identifier" }, { kind := "private_property_identifier" },
        { kind := "string" }, { kind := "number" }, { kind := "computed_property_name" }]⟩]
  openers :=
    [({ kind := "string" }, ['"', '\'']),
     ({ kind := "number" }, ['0', '1', '2', '3', '4', '5', '6', '7', '8', '9', '.']),
     ({ kind := "computed_property_name" }, ['[']),
     ({ kind := "private_property_identifier" }, ['#'])]

/-- The table of a language. -/
def Language.nodeTypes : Language → NodeTypes
  | .go => Go.nodeTypes
  | .python => Python.nodeTypes
  | .typeScript | .javaScript => EcmaScript.nodeTypes

/-! ## Trees that keep to a table -/

/-- A dotted name is a single word, or a point is among its parts. -/
def IsDotted (words : List String) (text : String) (name : Syntax.Node) : Prop :=
  ∃ part ∈ name.children, part.kind ∈ words ∧ part.start = name.start ∧ part.stop = name.stop ∨
    part.text? text = some "."

/-- The tree is placed in the text, and its nodes are as the table says. -/
structure NodeTypes.Describe (types : NodeTypes) (text : String) (root : Syntax.Node) : Prop where
  placed : IsPlaced text root
  words : ∀ node ∈ root.preorder, node.kind ∈ types.words →
    ∀ word ∈ node.text? text, IsWordLike word.toList
  fields : ∀ type ∈ types.fields, ∀ node ∈ root.preorder, node.kind ∈ type.parents →
    ∀ child ∈ node.childrenAs type.field, child.type ∈ type.types
  openers : ∀ opener ∈ types.openers, ∀ node ∈ root.preorder, node.type = opener.1 →
    ∀ spelt ∈ node.text? text, ∃ c ∈ spelt.toList.head?, c ∈ opener.2
  dotted : ∀ node ∈ root.preorder, node.kind ∈ types.dotted → IsDotted types.words text node

instance (words : List String) (text : String) (name : Syntax.Node) :
    Decidable (IsDotted words text name) :=
  inferInstanceAs (Decidable (∃ part ∈ name.children, _))

set_option synthInstance.maxSize 256 in
instance (types : NodeTypes) (text : String) (root : Syntax.Node) :
    Decidable (types.Describe text root) :=
  decidable_of_iff
    (IsPlaced text root ∧
      (∀ node ∈ root.preorder, node.kind ∈ types.words →
        ∀ word ∈ node.text? text, IsWordLike word.toList) ∧
      (∀ type ∈ types.fields, ∀ node ∈ root.preorder, node.kind ∈ type.parents →
        ∀ child ∈ node.childrenAs type.field, child.type ∈ type.types) ∧
      (∀ opener ∈ types.openers, ∀ node ∈ root.preorder, node.type = opener.1 →
        ∀ spelt ∈ node.text? text, spelt.toList.head?.any (opener.2.contains ·) = true) ∧
      ∀ node ∈ root.preorder, node.kind ∈ types.dotted → IsDotted types.words text node)
    ⟨fun ⟨h₁, h₂, h₃, h₄, h₅⟩ => ⟨h₁, h₂, h₃, by simpa [Option.any_eq_true] using h₄, h₅⟩,
      fun ⟨h₁, h₂, h₃, h₄, h₅⟩ => ⟨h₁, h₂, h₃, by simpa [Option.any_eq_true] using h₄, h₅⟩⟩

namespace NodeTypes.Describe

variable {types : NodeTypes} {text spelt : String} {root node child : Syntax.Node}

/-- The text of a node that looks like a word is not empty. -/
theorem start_lt_stop (h : types.Describe text root) (hnode : node ∈ root.preorder)
    (hkind : node.kind ∈ types.words) : node.start < node.stop := by
  obtain ⟨word, hword⟩ := Option.isSome_iff_exists.mp (h.placed.stands node hnode).1
  refine (h.placed.stands node hnode).start_lt_stop hword ?_
  rintro rfl
  exact (h.words node hnode hkind _ hword).ne_nil rfl

/-- What fills a field of a node has one of the types that the table gives for it. -/
theorem type_mem (h : types.Describe text root) (hnode : node ∈ root.preorder) {parents : List String}
    (hparent : node.kind ∈ parents) {field : String} (hchild : child ∈ node.childrenAs field)
    (allowed : List NodeType) (htable : ∀ parent ∈ parents, ∃ type ∈ types.fields,
      parent ∈ type.parents ∧ type.field = field ∧ type.types ⊆ allowed) : child.type ∈ allowed := by
  obtain ⟨type, htype, hmem, rfl, hallowed⟩ := htable _ hparent
  exact hallowed (h.fields type htype node hnode hmem child hchild)

/-- A type of nodes whose texts begin like no word. -/
def IsWordless (types : NodeTypes) (type : NodeType) : Prop :=
  ∃ opener ∈ types.openers, opener.1 = type ∧ ∀ c ∈ opener.2, c.isDigit = true ∨ marksNoWord c = true

instance (types : NodeTypes) (type : NodeType) : Decidable (IsWordless types type) :=
  decidable_of_iff
    (types.openers.any fun opener =>
      opener.1 == type && opener.2.all fun c => c.isDigit || marksNoWord c)
    (by simp [IsWordless])

theorem not_isWordLike (h : types.Describe text root) (hnode : node ∈ root.preorder)
    (htype : IsWordless types node.type) (hspelt : node.text? text = some spelt) :
    ¬ IsWordLike spelt.toList := by
  obtain ⟨opener, hopener, heq, hall⟩ := htype
  obtain ⟨c, hc, hmem⟩ := h.openers opener hopener node hnode heq.symm spelt hspelt
  rcases hall c hmem with hdigit | hmark
  · intro hword
    obtain ⟨d, hd, hno⟩ := hword.head
    obtain rfl : c = d := Option.some.inj (Eq.trans (Eq.symm hc) hd)
    rw [hdigit] at hno
    cases hno
  · exact not_isWordLike_of_mem (List.mem_of_mem_head? hc) hmark

/-- A dotted name that looks like a word is a word. -/
theorem exists_word_of_dotted (h : types.Describe text root) (hnode : node ∈ root.preorder)
    (hkind : node.kind ∈ types.dotted) (hspelt : node.text? text = some spelt)
    (hword : IsWordLike spelt.toList) :
    ∃ word ∈ root.preorder, word.kind ∈ types.words ∧ word.text? text = some spelt := by
  obtain ⟨part, hpart, ⟨hpartKind, hstart, hstop⟩ | hpoint⟩ := h.dotted node hnode hkind
  · refine ⟨part, Syntax.Node.child_mem_preorder hnode hpart, hpartKind, ?_⟩
    rwa [Syntax.Node.text?, hstart, hstop]
  · have hinside := (h.placed.of_mem hnode).isInfix
      (Syntax.Node.mem_preorder_of_mem_children hpart) hspelt hpoint
    exact absurd hword (not_isWordLike_of_mem (hinside.subset List.mem_cons_self) (by decide))

end NodeTypes.Describe

/-! ## Texts and files -/

section Parser

variable [Syntax.Parser]

/-- The tree of a text, if the text follows its grammar, keeps to the table of its language. -/
def Conforms (language : Language) (path text : String) : Prop :=
  (Syntax.parse (dialectOf language path) text).hasError = false →
    language.nodeTypes.Describe text (Syntax.parse (dialectOf language path) text).root

instance (language : Language) (path text : String) : Decidable (Conforms language path text) :=
  inferInstanceAs (Decidable (_ → _))

/-- The tree of a file keeps to the table of its language. -/
def SourceFile.Conforms (file : SourceFile) : Prop :=
  ∀ text ∈ String.fromUTF8? file.content, ModuleAtlas.Conforms file.language file.path text

instance (file : SourceFile) : Decidable file.Conforms :=
  inferInstanceAs (Decidable (∀ text ∈ String.fromUTF8? file.content, _))

end Parser

end ModuleAtlas
