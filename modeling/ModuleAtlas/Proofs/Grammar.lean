import ModuleAtlas.Grammar
import ModuleAtlas.Proofs.GeneratedCode
import ModuleAtlas.Proofs.Grammar.Table
import ModuleAtlas.Proofs.Lexicon.Token

/-!
# The trees of the program's own parser

The grammars that the program runs build trees as the analysis expects them. In every text that follows
its grammar, the nodes are in order (`inOrder_parseText`) and as the table of the language says
(`conforms`), and the package clause of a Go file stands where the tree says (`Go.isClause_of_clause?`).
-/

namespace ModuleAtlas

open Syntax (Cursor Dialect Grammar InOrder IsPlaced)
open Syntax.Grammar (Made Shaped)

variable {text : String} {node clause : Syntax.Node}

/-! ## Keywords and punctuation -/

section Keywords

variable {τ ρ : Type} {g : Grammar τ ρ} {shape : τ → Option Syntax.Shape}

/-- A node that the grammar has no name for spells its kind. -/
theorem text?_of_made (hg : g.Shaped shape) (h : Made g text node)
    (hnamed : node.label.isNamed = false) : node.text? text = some node.kind := by
  induction h with
  | @token t c d tokens node hmaker hc h hnode =>
    cases hg t c tokens d h with
    | nothing => cases hnode
    | token _ _ hfits =>
      obtain rfl := List.mem_singleton.mp hnode
      rw [Cursor.text?_token hc, hfits.spells hnamed, String.ofList_toList]
      rfl
  | node _ _ _ hnode | extended _ _ _ hnode =>
    cases hnamed.symm.trans (congrArg NodeType.isNamed (type_of_mem_over hnode))
  | inField _ ih => exact ih hnamed

/-- The type of a node is that of its maker. -/
theorem exists_maker_of_made (hg : g.Shaped shape) (h : Made g text node) :
    ∃ maker, g.HasMaker maker ∧ maker.type? shape = some node.type := by
  induction h with
  | @token t c d tokens node hmaker hc h hnode =>
    refine ⟨_, hmaker, ?_⟩
    cases hg t c tokens d h with
    | nothing => cases hnode
    | token hshape =>
      rw [List.mem_singleton.mp hnode, Syntax.Maker.type?, hshape]
      rfl
  | node hmaker _ _ hnode | extended hmaker _ _ hnode =>
    exact ⟨_, hmaker, congrArg some (type_of_mem_over hnode).symm⟩
  | inField _ ih => exact ih

end Keywords

/-! ## Go -/

namespace Go

theorem shaped : grammar.Shaped Terminal.shape := gives_read

/-- All rules, so that a check of them all is one computation. -/
def rules : List Rule :=
  [.file, .topLevel, .statements, .statement, .block, .element, .literalValue, .typeLiteral, .type,
   .typeParameters, .parameters, .constSpec, .varSpec, .typeSpec] ++
    [true, false].flatMap fun composite =>
      [.simple composite, .expression composite, .unary composite, .operand composite, .suffix composite]

/-- What can be computed of the makers in all rules. -/
theorem all_makers {p : Syntax.Maker Terminal Rule → Bool}
    (h : (rules.all fun rule => (grammar.phrase rule).makers.all p) = true) (rule : Rule) :
    (grammar.phrase rule).makers.all p = true := by
  refine List.all_eq_true.mp h rule ?_
  cases rule with
  | simple composite | expression composite | unary composite | operand composite | suffix composite =>
    cases composite <;> decide
  | _ => decide

theorem admits : nodeTypes.Admits grammar Terminal.shape := all_makers (by decide +kernel)

theorem standsIn_start (text : String) : (Cursor.ofText text.toList blank).StandsIn text :=
  Cursor.standsIn_ofText text blank

theorem describe (h : (parse text).hasError = false) : nodeTypes.Describe text (parse text).root :=
  describe_parse shaped (standsIn_start text) admits (by decide) h

/-- The word of the package clause is a keyword. -/
theorem isNamed_of_kind (h : Made grammar text node) (hkind : node.kind = "package") :
    node.label.isNamed = false := by
  obtain ⟨maker, hmaker, htype⟩ := exists_maker_of_made shaped h
  have hkeyword := hmaker.holds
    (p := fun maker =>
      (maker.type? Terminal.shape).all fun type => type.kind != "package" || !type.isNamed)
    (all_makers (by decide +kernel))
  -- of the types of this kind, the grammar makes the unnamed one only
  rw [htype, Option.all_some] at hkeyword
  simpa [Syntax.Node.type, hkind] using hkeyword

/-- The package clause of a file stands in its text. -/
theorem isClause_of_clause? (h : (parse text).hasError = false)
    (hclause : clause? (parse text).root = some clause) : IsClause text clause := by
  obtain ⟨child, hchild, hfound⟩ := List.exists_of_findSome?_eq_some hclause
  split_ifs at hfound
  have hmem := List.mem_of_find?_eq_some hfound
  have hkind := List.find?_some hfound
  have hbelow : clause ∈ (parse text).root.children.flatMap Syntax.Node.preorder :=
    List.mem_flatMap.mpr ⟨child, hchild, Syntax.Node.mem_preorder_of_mem_children hmem⟩
  have hmade := Grammar.made_of_parse shaped (standsIn_start text) h clause hbelow
  have hplaced := (describe h).placed
  refine ⟨hplaced.stands clause ?_, ?_⟩
  · rw [Syntax.Node.preorder_eq]
    exact List.mem_cons_of_mem _ hbelow
  · rw [text?_of_made shaped hmade (isNamed_of_kind hmade (beq_iff_eq.mp hkind)), beq_iff_eq.mp hkind]

end Go

/-! ## Python -/

namespace Python

theorem shaped : grammar.Shaped Terminal.shape := gives_read

/-- All rules but those for what stands in quotes. -/
def rules : List Rule :=
  [.file, .statement, .simpleLine, .simple, .suite, .definition, .assigned, .target, .expression,
   .condition, .term, .operand, .head, .primary, .element, .parameters true, .parameters false,
   .parameter true, .parameter false, .unpacked, .pattern, .closedPattern]

/-- What can be computed of the makers in all rules, with any quotes. -/
theorem all_makers {p : Syntax.Maker Terminal Rule → Bool}
    (h : (rules.all fun rule => (grammar.phrase rule).makers.all p) = true)
    (hquoted : ∀ quoting, (grammar.phrase (.formatted quoting)).makers.all p = true ∧
      (grammar.phrase (.field quoting)).makers.all p = true) (rule : Rule) :
    (grammar.phrase rule).makers.all p = true := by
  cases rule with
  | formatted quoting => exact (hquoted quoting).1
  | field quoting => exact (hquoted quoting).2
  | parameters annotated | parameter annotated =>
    cases annotated <;> exact List.all_eq_true.mp h _ (by decide)
  | _ => exact List.all_eq_true.mp h _ (by decide)

theorem admits : nodeTypes.Admits grammar Terminal.shape :=
  all_makers (by decide +kernel) fun _ => ⟨rfl, rfl⟩

theorem standsIn_start (text : String) : (start text.toList).StandsIn text := by
  have hstart := Cursor.standsIn_ofText text fun _ => 0
  unfold start
  dsimp only
  exact hstart.trans ((Cursor.reaches_skip _ _).trans (Cursor.reaches_of_eq rfl rfl rfl))

theorem describe (h : (parse text).hasError = false) : nodeTypes.Describe text (parse text).root :=
  describe_parse shaped (standsIn_start text) admits (by decide) h

end Python

/-! ## ECMAScript -/

namespace EcmaScript

variable (v : Variant)

theorem shaped : v.grammar.Shaped Terminal.shape := gives_read

/-- All rules, so that a check of them all is one computation. -/
def rules : List Rule :=
  [.file, .statement, .block, .declaration, .variables, .sequence, .assignment, .conditional, .unary,
   .chain, .suffixes, .calls, .primary, .constructed, .classBody, .member, .property, .key, .binding,
   .destructuring, .parameters, .arguments, .template, .markup true, .markup false, .typeTemplate,
   .type, .plainType, .extendedType, .simpleType true, .simpleType false, .typeArguments,
   .typeParameters, .typeMember]

/-- What can be computed of the makers in all rules. -/
theorem all_makers {p : Syntax.Maker Terminal Rule → Bool}
    (h : (rules.all fun rule => (v.grammar.phrase rule).makers.all p) = true) (rule : Rule) :
    (v.grammar.phrase rule).makers.all p = true := by
  refine List.all_eq_true.mp h rule ?_
  cases rule with
  | markup inner => cases inner <;> decide
  | simpleType bounded => cases bounded <;> decide
  | _ => decide

theorem admits : nodeTypes.Admits v.grammar Terminal.shape := by
  have hall : ∀ types markup : Bool, let v : Variant := ⟨types, markup⟩
      (rules.all fun rule =>
        (v.grammar.phrase rule).makers.all (nodeTypes.allows v.grammar Terminal.shape)) = true := by
    decide +kernel
  exact all_makers v (hall v.types v.markup)

theorem standsIn_start (text : String) : (Cursor.ofText text.toList blank).StandsIn text :=
  Cursor.standsIn_ofText text blank

theorem describe (h : (v.parse text).hasError = false) : nodeTypes.Describe text (v.parse text).root :=
  describe_parse (shaped v) (standsIn_start text) (admits v) (by decide) h

end EcmaScript

/-! ## Every language -/

theorem parse_eq (dialect : Dialect) (text : String) :
    Syntax.parse dialect text = parseText dialect text :=
  rfl

/-- In every text that follows its grammar, the nodes are in order. -/
theorem inOrder_parseText (dialect : Dialect) (h : (parseText dialect text).hasError = false) :
    InOrder text (parseText dialect text).root := by
  cases dialect with
  | go => exact Grammar.inOrder_parse Go.shaped (Go.standsIn_start text) h
  | python => exact Grammar.inOrder_parse Python.shaped (Python.standsIn_start text) h
  | typeScript | typeScriptMarkup | javaScript =>
    exact Grammar.inOrder_parse (EcmaScript.shaped _) (EcmaScript.standsIn_start text) h

/-- The program's parser keeps to the table of every language in every text. -/
theorem conforms (language : Language) (path text : String) : Conforms language path text := by
  unfold Conforms
  rw [parse_eq]
  intro h
  cases language with
  | go =>
    simp only [dialectOf, parseText] at h ⊢
    exact Go.describe h
  | python =>
    simp only [dialectOf, parseText] at h ⊢
    exact Python.describe h
  | javaScript =>
    simp only [dialectOf, parseText] at h ⊢
    exact EcmaScript.describe _ h
  | typeScript =>
    simp only [dialectOf] at h ⊢
    split_ifs at h ⊢
    · simp only [parseText] at h ⊢
      exact EcmaScript.describe _ h
    · simp only [parseText] at h ⊢
      exact EcmaScript.describe _ h

theorem SourceFile.conforms (file : SourceFile) : file.Conforms :=
  fun text _ => ModuleAtlas.conforms file.language file.path text

end ModuleAtlas
