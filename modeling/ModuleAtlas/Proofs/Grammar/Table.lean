import ModuleAtlas.Proofs.NodeType
import ModuleAtlas.Proofs.Syntax.Maker

/-!
# Grammars that keep to a table

Whether the trees of a grammar keep to a table of node types can be told from the grammar alone: for
each maker it is checked what its body gives to the fields in the table, what its text begins with, and
so on (`NodeTypes.allows`). If every maker is allowed, the tree of every text that follows the grammar is
as the table says (`describe_parse`).
-/

namespace ModuleAtlas

open Lexicon (IsWordLike)
open Syntax (Cursor Grammar Lexeme Maker Phrase Shape IsPlaced)
open Syntax.Grammar (Made Reads Shaped)

variable {τ ρ : Type} {g : Grammar τ ρ} {shape : τ → Option Shape} {phrase body : Phrase τ ρ}
  {c d : Cursor} {text field kind : String} {trees inner out : List Syntax.Node}
  {node child : Syntax.Node} {types : NodeTypes} {allowed : List NodeType}

/-- The type of a token of a shape. -/
def Syntax.Shape.type (s : Shape) : NodeType := ⟨s.lexeme.kind, s.lexeme.isNamed⟩

/-! ## What a phrase gives -/

namespace Syntax.Phrase

/-- All trees that the phrase reads have allowed types, if those of some known rules have. -/
def gives (shape : τ → Option Shape) (known : ρ → Bool) (allowed : List NodeType) :
    Phrase τ ρ → Bool
  | .terminal t => (shape t).all fun s => allowed.contains s.type
  | .rule name => known name
  | .nothing => true
  | .seq first second => gives shape known allowed first && gives shape known allowed second
  | .choice first second => gives shape known allowed first && gives shape known allowed second
  | .many body => gives shape known allowed body
  | .node kind _ => allowed.contains { kind := kind }
  | .gather kind body => allowed.contains { kind := kind } && gives shape known allowed body
  | .extend kind _ _ => allowed.contains { kind := kind }
  | .field _ body => gives shape known allowed body
  | .ahead _ => true
  | .notAhead _ => true

/-- All trees that the phrase reads for a field are such as some test of phrases tells. Rules may not
stand where they could fill the field. -/
def fills (field : String) (test : Phrase τ ρ → Bool) : Phrase τ ρ → Bool
  | .terminal _ => true
  | .rule _ => false
  | .nothing => true
  | .seq first second => fills field test first && fills field test second
  | .choice first second => fills field test first && fills field test second
  | .many body => fills field test body
  | .node _ _ => true
  | .gather _ body => fills field test body
  | .extend _ _ _ => true
  | .field name body => name != field || test body
  | .ahead _ => true
  | .notAhead _ => true

/-- The phrase keeps all trees before it. -/
def isPlain : Phrase τ ρ → Bool
  | .terminal _ => true
  | .rule _ => false
  | .nothing => true
  | .seq first second => first.isPlain && second.isPlain
  | .choice first second => first.isPlain && second.isPlain
  | .many body => body.isPlain
  | .node _ _ => true
  | .gather _ _ => true
  | .extend _ _ _ => false
  | .field _ _ => true
  | .ahead _ => true
  | .notAhead _ => true

/-- The phrase is for a word, and for more of something, each after a point. -/
def isDotted (words : List String) (shape : τ → Option Shape) : Phrase τ ρ → Bool
  | .seq (.terminal word) (.many (.seq (.terminal point) more)) =>
    ((shape word).any fun s => !s.isOptional && words.contains s.lexeme.kind) &&
      ((shape point).any fun s => !s.isOptional && s.type == ⟨".", false⟩) && more.isPlain
  | _ => false

end Syntax.Phrase

/-- All trees that the phrase reads have allowed types. A rule may stand in it if its own phrase shows
the same. -/
def Syntax.Grammar.givesOnly (g : Grammar τ ρ) (shape : τ → Option Shape) (allowed : List NodeType)
    (phrase : Phrase τ ρ) : Bool :=
  phrase.gives shape (fun name => (g.phrase name).gives shape (fun _ => false) allowed) allowed

/-- A node over trees has its kind for a type. -/
theorem type_of_mem_over (h : node ∈ Syntax.Node.over kind inner) : node.type = { kind := kind } := by
  obtain ⟨first, last, -, -, rfl⟩ := Syntax.Node.mem_over h
  rfl

theorem kind_of_mem_over (h : node ∈ Syntax.Node.over kind inner) : node.kind = kind :=
  congrArg NodeType.kind (type_of_mem_over h)

theorem children_of_mem_over (h : node ∈ Syntax.Node.over kind inner) :
    node.children = inner.reverse := by
  obtain ⟨first, last, -, -, rfl⟩ := Syntax.Node.mem_over h
  rfl

theorem field_of_mem_over (h : node ∈ Syntax.Node.over kind inner) : node.label.field = none := by
  obtain ⟨first, last, -, -, rfl⟩ := Syntax.Node.mem_over h
  rfl

/-- What a phrase gives is read. -/
theorem type_mem_of_gives (hg : g.Shaped shape) {known : ρ → Bool}
    (hknown : ∀ name, known name = true → ∀ {trees c out d}, Reads g (g.phrase name) trees c out d →
      (∀ tree ∈ trees, tree.type ∈ allowed) → ∀ tree ∈ out, tree.type ∈ allowed)
    (h : Reads g phrase trees c out d) (hgives : phrase.gives shape known allowed = true)
    (htrees : ∀ tree ∈ trees, tree.type ∈ allowed) : ∀ tree ∈ out, tree.type ∈ allowed := by
  induction h with
  | @terminal t trees tokens c d h =>
    refine List.forall_mem_append.mpr ⟨fun tree htree => ?_, htrees⟩
    cases hg t c tokens d h with
    | nothing => cases htree
    | token hshape =>
      rw [Phrase.gives, hshape, Option.all_some, List.contains_iff_mem] at hgives
      rw [List.mem_singleton.mp htree]
      exact hgives
  -- the phrases of rules are no part of the phrase, so the induction says nothing of them
  | rule h _ => exact hknown _ hgives h htrees
  | nothing | stop | ahead | notAhead => exact htrees
  | seq _ _ ihfirst ihsecond =>
    obtain ⟨hfirst, hsecond⟩ := Bool.and_eq_true_iff.mp hgives
    exact ihsecond hsecond (ihfirst hfirst htrees)
  | first _ ih => exact ih (Bool.and_eq_true_iff.mp hgives).1 htrees
  | second _ ih => exact ih (Bool.and_eq_true_iff.mp hgives).2 htrees
  | again _ _ ihbody ihmore => exact ihmore hgives (ihbody hgives htrees)
  | node =>
    refine List.forall_mem_append.mpr ⟨fun tree htree => ?_, htrees⟩
    rw [type_of_mem_over htree]
    exact List.contains_iff_mem.mp hgives
  | single _ ih =>
    refine List.forall_mem_cons.mpr ⟨?_, htrees⟩
    exact ih (Bool.and_eq_true_iff.mp hgives).2 (by simp) _ List.mem_cons_self
  | gather =>
    refine List.forall_mem_append.mpr ⟨fun tree htree => ?_, htrees⟩
    rw [type_of_mem_over htree]
    exact List.contains_iff_mem.mp (Bool.and_eq_true_iff.mp hgives).1
  | extend =>
    refine List.forall_mem_append.mpr ⟨fun tree htree => ?_, (List.forall_mem_cons.mp htrees).2⟩
    rw [type_of_mem_over htree]
    exact List.contains_iff_mem.mp hgives
  | field _ ih =>
    exact List.forall_mem_append.mpr ⟨List.forall_mem_map.mpr (ih hgives (by simp)), htrees⟩

theorem type_mem_of_givesOnly (hg : g.Shaped shape) (hgives : g.givesOnly shape allowed body = true)
    (h : Reads g body [] c inner d) : ∀ tree ∈ inner, tree.type ∈ allowed := by
  -- once for the phrase, and once more for the rules in it, in which no other rule is trusted
  refine type_mem_of_gives hg (fun name hname trees c out d hreads htrees => ?_) h hgives (by simp)
  exact type_mem_of_gives hg (fun _ hfalse => absurd hfalse Bool.false_ne_true) hreads hname htrees

/-- The trees that are in a field were read for it. -/
theorem type_mem_of_fills (hg : g.Shaped shape) (h : Reads g phrase trees c out d)
    (hfills : phrase.fills field (g.givesOnly shape allowed) = true)
    (htrees : ∀ tree ∈ trees, tree.label.field = some field → tree.type ∈ allowed) :
    ∀ tree ∈ out, tree.label.field = some field → tree.type ∈ allowed := by
  -- a node that has just been made is in no field
  have hover : ∀ {kind inner}, ∀ tree ∈ Syntax.Node.over kind inner,
      tree.label.field = some field → tree.type ∈ allowed := by
    intro kind inner tree htree hfield
    rw [field_of_mem_over htree] at hfield
    cases hfield
  induction h with
  | @terminal t trees tokens c d h =>
    refine List.forall_mem_append.mpr ⟨fun tree htree hfield => ?_, htrees⟩
    cases hg t c tokens d h with
    | nothing => cases htree
    | token =>
      rw [List.mem_singleton.mp htree] at hfield
      cases hfield
  | rule => cases hfills
  | nothing | stop | ahead | notAhead => exact htrees
  | seq _ _ ihfirst ihsecond =>
    obtain ⟨hfirst, hsecond⟩ := Bool.and_eq_true_iff.mp hfills
    exact ihsecond hsecond (ihfirst hfirst htrees)
  | first _ ih => exact ih (Bool.and_eq_true_iff.mp hfills).1 htrees
  | second _ ih => exact ih (Bool.and_eq_true_iff.mp hfills).2 htrees
  | again _ _ ihbody ihmore => exact ihmore hfills (ihbody hfills htrees)
  | node | gather => exact List.forall_mem_append.mpr ⟨hover, htrees⟩
  | single _ ih =>
    exact List.forall_mem_cons.mpr ⟨ih hfills (by simp) _ List.mem_cons_self, htrees⟩
  | extend => exact List.forall_mem_append.mpr ⟨hover, (List.forall_mem_cons.mp htrees).2⟩
  | @field name body _ _ _ _ h =>
    refine List.forall_mem_append.mpr ⟨List.forall_mem_map.mpr fun tree htree hfield => ?_, htrees⟩
    rcases Bool.or_eq_true_iff.mp hfills with hother | hbody
    · exact absurd (Option.some.inj hfield) (bne_iff_ne.mp hother)
    · exact type_mem_of_givesOnly hg hbody h tree htree

/-- A plain phrase keeps the trees before it. -/
theorem exists_append_of_isPlain (h : Reads g phrase trees c out d) (hplain : phrase.isPlain = true) :
    ∃ more, out = more ++ trees := by
  induction h with
  | terminal | node | gather | field => exact ⟨_, rfl⟩
  | @single _ _ trees tree => exact ⟨[tree], rfl⟩
  | rule | extend => cases hplain
  | nothing | stop | ahead | notAhead => exact ⟨[], rfl⟩
  | first _ ih => exact ih (Bool.and_eq_true_iff.mp hplain).1
  | second _ ih => exact ih (Bool.and_eq_true_iff.mp hplain).2
  | seq _ _ ihfirst ihsecond =>
    obtain ⟨hfirst, hsecond⟩ := Bool.and_eq_true_iff.mp hplain
    obtain ⟨more, rfl⟩ := ihfirst hfirst
    obtain ⟨most, rfl⟩ := ihsecond hsecond
    exact ⟨most ++ more, (List.append_assoc _ _ _).symm⟩
  | again _ _ ihbody ihmore =>
    obtain ⟨more, rfl⟩ := ihbody hplain
    obtain ⟨most, rfl⟩ := ihmore hplain
    exact ⟨most ++ more, (List.append_assoc _ _ _).symm⟩

/-! ## The checks -/

/-- The type of the nodes that a maker makes. -/
def Syntax.Maker.type? (shape : τ → Option Shape) : Maker τ ρ → Option NodeType
  | .token t => (shape t).map Shape.type
  | .node kind _ => some { kind := kind }
  | .extended kind _ _ => some { kind := kind }

/-- The terminal that the text of a node begins with, where that is plain to see. -/
def Syntax.Maker.first? : Maker τ ρ → Option τ
  | .token t => some t
  | .node _ body => body.first?
  | .extended _ _ _ => none

namespace NodeTypes

/-- Only tokens that look like words have the kinds of words. -/
def allowsWords (types : NodeTypes) (shape : τ → Option Shape) : Maker τ ρ → Bool
  | .token t => (shape t).all fun s => !types.words.contains s.lexeme.kind || s.isWord
  | .node kind _ => !types.words.contains kind
  | .extended kind _ _ => !types.words.contains kind

/-- A field in the table is filled as the table says. -/
def allowsFields (types : NodeTypes) (g : Grammar τ ρ) (shape : τ → Option Shape) : Maker τ ρ → Bool
  | .token _ => true
  | .node kind body => types.fields.all fun type =>
    !type.parents.contains kind || body.fills type.field (g.givesOnly shape type.types)
  | .extended kind slot body => types.fields.all fun type =>
    !type.parents.contains kind ||
      (slot != type.field && body.fills type.field (g.givesOnly shape type.types))

/-- A type with openers in the table begins with a terminal that has no others. -/
def allowsOpeners (types : NodeTypes) (shape : τ → Option Shape) (maker : Maker τ ρ) : Bool :=
  types.openers.all fun opener =>
    maker.type? shape != some opener.1 || (maker.first?.bind shape).any fun s =>
      !s.isOptional && s.openers.any fun openers => openers.all (opener.2.contains ·)

/-- A dotted name is a word and more after points. -/
def allowsDotted (types : NodeTypes) (shape : τ → Option Shape) : Maker τ ρ → Bool
  | .token t => (shape t).all fun s => !types.dotted.contains s.lexeme.kind
  | .node kind body => !types.dotted.contains kind || body.isDotted types.words shape
  | .extended kind _ _ => !types.dotted.contains kind

/-- What a maker makes is as the table says. -/
def allows (types : NodeTypes) (g : Grammar τ ρ) (shape : τ → Option Shape) (maker : Maker τ ρ) :
    Bool :=
  types.allowsWords shape maker && types.allowsFields g shape maker &&
    types.allowsOpeners shape maker && types.allowsDotted shape maker

/-- The table says nothing about the kind. -/
def isSilentOn (types : NodeTypes) (kind : String) : Bool :=
  !types.words.contains kind && (types.fields.all fun type => !type.parents.contains kind) &&
    (types.openers.all fun opener => opener.1 != { kind := kind }) && !types.dotted.contains kind

/-- All makers of a grammar are allowed. -/
def Admits (types : NodeTypes) (g : Grammar τ ρ) (shape : τ → Option Shape) : Prop :=
  ∀ name, (g.phrase name).makers.all (types.allows g shape) = true

end NodeTypes

/-! ## What the checks tell -/

section Made

variable {spelt : String}

/-- A node that is a word by its kind looks like one. -/
theorem isWordLike_of_made (hg : g.Shaped shape)
    (hmakers : ∀ maker, g.HasMaker maker → types.allowsWords shape maker = true) (h : Made g text node)
    (hkind : node.kind ∈ types.words) (hspelt : node.text? text = some spelt) :
    IsWordLike spelt.toList := by
  induction h with
  | @token t c d tokens node hmaker hc h hnode =>
    have hallowed := hmakers _ hmaker
    cases hg t c tokens d h with
    | nothing => cases hnode
    | @token s size _ hshape _ hfits =>
      obtain rfl := List.mem_singleton.mp hnode
      have hkind : s.lexeme.kind ∈ types.words := hkind
      simp only [NodeTypes.allowsWords, hshape, Option.all_some, List.contains_iff_mem.mpr hkind,
        Bool.not_true, Bool.false_or] at hallowed
      rw [Cursor.text?_token hc] at hspelt
      rw [← Option.some.inj hspelt, String.toList_ofList]
      exact hfits.isWordLike hallowed
  | node hmaker _ _ hnode | extended hmaker _ _ hnode =>
    have hallowed := hmakers _ hmaker
    rw [kind_of_mem_over hnode] at hkind
    simp [NodeTypes.allowsWords, hkind] at hallowed
  | inField _ ih => exact ih hkind hspelt

/-- What stands in a field of the table has one of the types there. -/
theorem type_mem_of_made (hg : g.Shaped shape)
    (hmakers : ∀ maker, g.HasMaker maker → types.allowsFields g shape maker = true)
    (h : Made g text node) {type : FieldType} (htype : type ∈ types.fields)
    (hkind : node.kind ∈ type.parents)
    (hchild : child ∈ node.childrenAs type.field) : child.type ∈ type.types := by
  obtain ⟨hmem, hfield⟩ := Syntax.Node.mem_childrenAs.mp hchild
  clear hchild
  induction h with
  | token _ _ h hnode =>
    rw [Syntax.Grammar.children_of_read hg h hnode] at hmem
    cases hmem
  | node hmaker _ h hnode =>
    have hfills := List.all_eq_true.mp (hmakers _ hmaker) type htype
    rw [kind_of_mem_over hnode] at hkind
    rw [List.contains_iff_mem.mpr hkind, Bool.not_true, Bool.false_or] at hfills
    rw [children_of_mem_over hnode, List.mem_reverse] at hmem
    exact type_mem_of_fills hg h hfills (by simp) child hmem hfield
  | extended hmaker _ h hnode =>
    have hfills := List.all_eq_true.mp (hmakers _ hmaker) type htype
    rw [kind_of_mem_over hnode] at hkind
    rw [List.contains_iff_mem.mpr hkind, Bool.not_true, Bool.false_or, Bool.and_eq_true] at hfills
    rw [children_of_mem_over hnode, List.mem_reverse, List.mem_append, List.mem_singleton] at hmem
    rcases hmem with hmem | rfl
    · exact type_mem_of_fills hg h hfills.2 (by simp) child hmem hfield
    · exact absurd (Option.some.inj hfield) (bne_iff_ne.mp hfills.1)
  | inField _ ih => exact ih hkind hmem

/-- What starts where a cursor stands spells what comes after the cursor. -/
theorem text_prefix_rest (hc : c.StandsIn text) (hstart : node.start = c.offset)
    (hspelt : node.text? text = some spelt) : spelt.toList <+: c.rest := by
  obtain ⟨front, htext, hfront, -⟩ := hc.exists_front
  obtain ⟨front', rest, htext', hfront', -⟩ := Text.slice?_eq_some_iff.mp hspelt
  obtain ⟨-, hrest⟩ := Text.append_inj_of_byteCount_eq (htext.symm.trans htext')
    (hfront.trans (hstart.symm.trans hfront'.symm))
  rw [hrest]
  exact List.prefix_append _ _

/-- A type with openers is made by what begins with a terminal whose openers are among them. -/
theorem exists_shape_of_allowsOpeners {maker : Maker τ ρ}
    (hallowed : types.allowsOpeners shape maker = true) {opener : NodeType × List Char}
    (hopener : opener ∈ types.openers) (htype : maker.type? shape = some opener.1) :
    ∃ t s, maker.first? = some t ∧ shape t = some s ∧ s.isOptional = false ∧
      ∃ openers ∈ s.openers, openers ⊆ opener.2 := by
  have hopens := List.all_eq_true.mp hallowed opener hopener
  rw [htype, bne_self_eq_false, Bool.false_or, Option.any_eq_true] at hopens
  obtain ⟨s, hs, hopens⟩ := hopens
  obtain ⟨t, ht, hshape⟩ := Option.bind_eq_some_iff.mp hs
  rw [Bool.and_eq_true, Bool.not_eq_true', Option.any_eq_true] at hopens
  obtain ⟨hneeded, openers, hopeners, hall⟩ := hopens
  refine ⟨t, s, ht, hshape, hneeded, openers, hopeners, fun c hc => ?_⟩
  exact List.contains_iff_mem.mp (List.all_eq_true.mp hall c hc)

/-- A node of a type with openers in the table begins with one of them. -/
theorem exists_opener_of_made (hg : g.Shaped shape)
    (hmakers : ∀ maker, g.HasMaker maker → types.allowsOpeners shape maker = true)
    (h : Made g text node) {opener : NodeType × List Char} (hopener : opener ∈ types.openers)
    (htype : node.type = opener.1)
    (hspelt : node.text? text = some spelt) (hne : spelt ≠ "") :
    ∃ c ∈ spelt.toList.head?, c ∈ opener.2 := by
  induction h with
  | @token t c d tokens node hmaker hc h hnode =>
    cases hg t c tokens d h with
    | nothing => cases hnode
    | @token s size _ hshape _ hfits =>
      obtain rfl := List.mem_singleton.mp hnode
      have hmade : (Maker.token (ρ := ρ) t).type? shape = some opener.1 := by
        rw [Maker.type?, hshape, ← htype]
        rfl
      obtain ⟨t', s', ht, hs, -, openers, hopeners, hsubset⟩ :=
        exists_shape_of_allowsOpeners (hmakers _ hmaker) hopener hmade
      cases ht
      cases hshape.symm.trans hs
      obtain ⟨x, hx, hmem⟩ := hfits.opens openers hopeners
      rw [Cursor.text?_token hc] at hspelt
      rw [← Option.some.inj hspelt, String.toList_ofList]
      exact ⟨x, hx, hsubset hmem⟩
  | @node kind body c d inner node hmaker hc h hnode =>
    have hmade : (Maker.node kind body).type? shape = some opener.1 := by
      rw [Maker.type?, ← htype, type_of_mem_over hnode]
    obtain ⟨t, s, hfirst, hshape, hneeded, openers, hopeners, hsubset⟩ :=
      exists_shape_of_allowsOpeners (hmakers _ hmaker) hopener hmade
    obtain ⟨size, low, hlow, hstart, htake, hfits⟩ := h.exists_first hg hfirst hshape hneeded
    obtain ⟨first, last, hgetLast, -, hover⟩ := Syntax.Node.mem_over hnode
    cases hlow.symm.trans hgetLast
    have hbegins : node.start = c.offset := by
      rw [hover]
      exact hstart
    -- the text of the node and the first token both begin where the body does
    obtain ⟨rest, hrest⟩ := text_prefix_rest hc hbegins hspelt
    obtain ⟨x, hx, hmem⟩ := hfits.opens openers hopeners
    refine ⟨x, ?_, hsubset hmem⟩
    rw [List.head?_take, if_neg (fun hzero => htake (by rw [hzero, List.take_zero])), ← hrest,
      List.head?_append_of_ne_nil _ (mt String.toList_eq_nil_iff.mp hne)] at hx
    exact hx
  | @extended kind slot body c d front inner node hmaker hc h hnode =>
    have hmade : (Maker.extended kind slot body).type? shape = some opener.1 := by
      rw [Maker.type?, ← htype, type_of_mem_over hnode]
    obtain ⟨t, s, hfirst, -⟩ := exists_shape_of_allowsOpeners (hmakers _ hmaker) hopener hmade
    cases hfirst
  | inField _ ih => exact ih htype hspelt

/-- A token of a shape that is needed. -/
theorem exists_token (hg : g.Shaped shape) {t : τ} {test : Shape → Bool}
    (htest : (shape t).any (fun s => !s.isOptional && test s) = true)
    (h : Reads g (.terminal t) trees c out d) :
    ∃ s size, out = c.token s.lexeme size :: trees ∧ s.Fits (c.rest.take size) ∧ test s = true := by
  obtain ⟨s, hs, htest⟩ := (Option.any_eq_true ..).mp htest
  rw [Bool.and_eq_true, Bool.not_eq_true'] at htest
  cases h with
  | @terminal _ _ tokens _ _ h =>
    cases hg t c tokens d h with
    | nothing hoptional => exact absurd (hoptional s hs) (by simp [htest.1])
    | @token s' size _ hshape _ hfits =>
      cases hs.symm.trans hshape
      exact ⟨s, size, rfl, hfits, htest.2⟩

/-- A dotted name is a single word, or a point is among its parts. -/
theorem isDotted_of_made (hg : g.Shaped shape)
    (hmakers : ∀ maker, g.HasMaker maker → types.allowsDotted shape maker = true) (h : Made g text node)
    (hkind : node.kind ∈ types.dotted) : IsDotted types.words text node := by
  induction h with
  | @token t c d tokens node hmaker hc h hnode =>
    have hallowed := hmakers _ hmaker
    cases hg t c tokens d h with
    | nothing => cases hnode
    | @token s size _ hshape _ hfits =>
      obtain rfl := List.mem_singleton.mp hnode
      have hkind : s.lexeme.kind ∈ types.dotted := hkind
      simp [NodeTypes.allowsDotted, hshape, hkind] at hallowed
  | @node kind body c d inner node hmaker hc h hnode =>
    have hdotted := hmakers _ hmaker
    rw [kind_of_mem_over hnode] at hkind
    rw [NodeTypes.allowsDotted, List.contains_iff_mem.mpr hkind, Bool.not_true, Bool.false_or]
      at hdotted
    unfold Phrase.isDotted at hdotted
    split at hdotted
    · rename_i word point more
      rw [Bool.and_eq_true, Bool.and_eq_true] at hdotted
      obtain ⟨⟨hword, hpoint⟩, hplain⟩ := hdotted
      cases h with
      | @seq _ _ _ _ _ _ c' _ hfirst hmany =>
      obtain ⟨s, size, rfl, -, hs⟩ := exists_token hg hword hfirst
      cases hmany with
      | stop =>
        -- the word alone
        obtain ⟨first, last, hgetLast, hhead, rfl⟩ := Syntax.Node.mem_over hnode
        cases hgetLast
        cases hhead
        exact ⟨_, List.mem_cons_self, .inl ⟨List.contains_iff_mem.mp hs, rfl, rfl⟩⟩
      | again hbody hmore =>
        -- the first point is among the children, as nothing takes it into a node again
        cases hbody with
        | seq hpointed hrest =>
        have hc' := hfirst.standsIn hg hc
        obtain ⟨s', size', rfl, hfits, hs'⟩ := exists_token hg hpoint hpointed
        obtain ⟨next, rfl⟩ := exists_append_of_isPlain hrest hplain
        obtain ⟨others, rfl⟩ := exists_append_of_isPlain hmore (by exact hplain)
        obtain ⟨hkinds, hnamed⟩ := NodeType.mk.inj (beq_iff_eq.mp hs')
        refine ⟨c'.token s'.lexeme size', ?_, .inr ((Cursor.text?_token hc').trans ?_)⟩
        · rw [children_of_mem_over hnode, List.mem_reverse]
          exact List.mem_append_right _ (List.mem_append_right _ List.mem_cons_self)
        · rw [hfits.spells hnamed, hkinds]
          rfl
    · cases hdotted
  | extended hmaker _ _ hnode =>
    have hallowed := hmakers _ hmaker
    rw [kind_of_mem_over hnode] at hkind
    simp [NodeTypes.allowsDotted, hkind] at hallowed
  | inField _ ih => exact ih hkind

end Made

/-! ## Texts -/

variable {start : ρ}

/-- Where a grammar keeps to a table, so does the tree of every text that follows the grammar. -/
theorem describe_parse (hg : g.Shaped shape) (hc : c.StandsIn text) (htypes : types.Admits g shape)
    (hsilent : types.isSilentOn kind = true) (h : (g.parse kind start c).hasError = false) :
    types.Describe text (g.parse kind start c).root := by
  obtain ⟨hplaced, hfull⟩ := Syntax.Grammar.isPlaced_parse hg hc h
  have hmade := Syntax.Grammar.made_of_parse hg hc h
  have hroot : (g.parse kind start c).root.type = { kind := kind } := by
    obtain ⟨trees, d, -, heq⟩ := Syntax.Grammar.reads_of_parse h
    rw [heq]
    rfl
  generalize (g.parse kind start c).root = root at *
  obtain rfl : root.kind = kind := congrArg NodeType.kind hroot
  have hallows : ∀ maker, g.HasMaker maker → types.allows g shape maker = true :=
    fun maker hmaker => hmaker.holds htypes
  simp only [NodeTypes.allows, Bool.and_eq_true] at hallows
  -- the table is silent on the root, and every other node was made
  have hbelow : ∀ {node}, node ∈ root.preorder → node = root ∨
      g.Made text node ∧ node.start < node.stop := by
    intro node hnode
    rw [Syntax.Node.preorder_eq, List.mem_cons] at hnode
    exact hnode.imp_right fun hnode => ⟨hmade node hnode, hfull node hnode⟩
  simp only [NodeTypes.isSilentOn, Bool.and_eq_true, Bool.not_eq_true', List.all_eq_true, bne_iff_ne,
    ← Bool.not_eq_true, List.contains_iff_mem, ← hroot] at hsilent
  obtain ⟨⟨⟨hwords, hfields⟩, hopeners⟩, hdotted⟩ := hsilent
  refine ⟨hplaced, fun node hnode hkind spelt hspelt => ?_,
    fun type htype node hnode hkind child hchild => ?_,
    fun opener hopener node hnode htype spelt hspelt => ?_, fun node hnode hkind => ?_⟩
  all_goals rcases hbelow hnode with rfl | ⟨hnode, hlt⟩
  · exact absurd hkind hwords
  · exact isWordLike_of_made hg (fun maker hmaker => (hallows maker hmaker).1.1.1) hnode hkind hspelt
  · exact absurd hkind (hfields type htype)
  · exact type_mem_of_made hg (fun maker hmaker => (hallows maker hmaker).1.1.2) hnode htype hkind
      hchild
  · exact absurd htype.symm (hopeners opener hopener)
  · have hbytes := Text.add_byteCount_of_slice? hspelt
    refine exists_opener_of_made hg (fun maker hmaker => (hallows maker hmaker).1.2) hnode hopener htype
      hspelt ?_
    rintro rfl
    exact absurd hbytes (by simp only [String.toList_empty, Text.byteCount_nil]; omega)
  · exact absurd hkind hdotted
  · exact isDotted_of_made hg (fun maker hmaker => (hallows maker hmaker).2) hnode hkind

end ModuleAtlas
