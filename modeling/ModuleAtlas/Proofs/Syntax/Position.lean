import ModuleAtlas.Proofs.Lexicon.Lexeme
import ModuleAtlas.Proofs.Syntax.Reading
import ModuleAtlas.Proofs.Syntax.Standing

/-!
# Where a grammar puts nodes

Reading moves a cursor on in the text and counts the bytes and lines that it passes
(`Cursor.Reaches`). A terminal reads at most one token, where the cursor stands, and what is known of
it is its shape (`Cursor.Gives`). If all terminals of a grammar are like this (`Grammar.Shaped`), then
the trees that have been read stand one after the other in the text (`Reads.stacked`), and so the tree of
every text that follows the grammar is placed in the text and in order (`isPlaced_parse`,
`inOrder_parse`).
-/

namespace ModuleAtlas.Syntax

open Lexicon (IsWordLike)

variable {τ ρ : Type} {c d e : Cursor} {text : String} {passed more chars : List Char}
  {tokens trees inner out : List Node} {node first last : Node} {low mid high : Nat}

/-! ## Cursors -/

/-- The cursor that comes after some characters in the same text. Their bytes and line ends have been
counted. -/
structure Cursor.Passes (c : Cursor) (passed : List Char) (d : Cursor) : Prop where
  rest_eq : c.rest = passed ++ d.rest
  offset_eq : d.offset = c.offset + Text.byteCount passed
  row_eq : d.row = c.row + passed.count '\n'

/-- A cursor further on in the same text. -/
def Cursor.Reaches (c d : Cursor) : Prop := ∃ passed, c.Passes passed d

/-- A cursor in a text, with all bytes and line ends in front of it counted. -/
def Cursor.StandsIn (text : String) (c : Cursor) : Prop := Cursor.Reaches { rest := text.toList } c

namespace Cursor

theorem Passes.trans (h : c.Passes passed d) (h' : d.Passes more e) : c.Passes (passed ++ more) e where
  rest_eq := by rw [h.rest_eq, h'.rest_eq, List.append_assoc]
  offset_eq := by rw [h'.offset_eq, h.offset_eq, Text.byteCount_append, Nat.add_assoc]
  row_eq := by rw [h'.row_eq, h.row_eq, List.count_append, Nat.add_assoc]

theorem passes_skip (c : Cursor) (count : Nat) : c.Passes (c.rest.take count) (c.skip count) :=
  ⟨(List.take_append_drop count c.rest).symm, rfl, rfl⟩

/-- Only the text after a cursor and its place matter. -/
theorem reaches_of_eq (hrest : d.rest = c.rest) (hoffset : d.offset = c.offset) (hrow : d.row = c.row) :
    c.Reaches d :=
  ⟨[], hrest.symm, hoffset, hrow⟩

theorem Reaches.refl (c : Cursor) : c.Reaches c := reaches_of_eq rfl rfl rfl

theorem Reaches.trans (h : c.Reaches d) (h' : d.Reaches e) : c.Reaches e := by
  obtain ⟨passed, hpassed⟩ := h
  obtain ⟨more, hmore⟩ := h'
  exact ⟨passed ++ more, hpassed.trans hmore⟩

theorem reaches_skip (c : Cursor) (count : Nat) : c.Reaches (c.skip count) := ⟨_, c.passes_skip count⟩

theorem Reaches.offset_le (h : c.Reaches d) : c.offset ≤ d.offset := by
  obtain ⟨passed, hpassed⟩ := h
  rw [hpassed.offset_eq]
  exact Nat.le_add_right _ _

/-- A cursor in a text stands behind a front of it. -/
theorem StandsIn.exists_front (h : c.StandsIn text) :
    ∃ front, text.toList = front ++ c.rest ∧ Text.byteCount front = c.offset ∧
      front.count '\n' = c.row := by
  obtain ⟨front, hrest, hoffset, hrow⟩ := h
  exact ⟨front, hrest, (hoffset.trans (Nat.zero_add _)).symm, (hrow.trans (Nat.zero_add _)).symm⟩

/-- The first token of a text does not stand in front of it, be there a byte order mark or not. -/
theorem standsIn_ofText (text : String) (blank : Cursor → Nat) :
    (Cursor.ofText text.toList blank).StandsIn text := by
  have hmark : ∀ start : Cursor, Cursor.Reaches { rest := text.toList } start →
      Cursor.Reaches { rest := text.toList } { start.skip (blank start) with fresh := true } :=
    fun start h => h.trans ((start.reaches_skip _).trans (reaches_of_eq rfl rfl rfl))
  unfold StandsIn ofText
  dsimp only
  split
  · exact hmark _ (reaches_skip _ 1)
  · exact hmark _ (.refl _)

/-! ## Tokens -/

/-- The token of so many characters where the cursor stands. -/
def token (c : Cursor) (lexeme : Lexeme) (size : Nat) : Node :=
  .mk { kind := lexeme.kind, isNamed := lexeme.isNamed, start := c.offset, stop := (c.skip size).offset,
        row := c.row } []

variable {lexeme : Lexeme} {size : Nat}

/-- What lies between two cursors in a text is what has been passed. -/
theorem slice?_of_passes (hc : c.StandsIn text) (h : c.Passes passed d) :
    Text.slice? text c.offset d.offset = some (String.ofList passed) := by
  obtain ⟨front, htext, hstart, -⟩ := hc.exists_front
  refine Text.slice?_eq_some_iff.mpr ⟨front, d.rest, ?_, hstart, ?_⟩
  · rw [htext, String.toList_ofList, h.rest_eq]
  · rw [String.toList_ofList, h.offset_eq]

/-- A token spells the characters that have been passed. -/
theorem text?_token (h : c.StandsIn text) :
    (c.token lexeme size).text? text = some (String.ofList (c.rest.take size)) :=
  slice?_of_passes h (c.passes_skip size)

theorem standsIn_token (h : c.StandsIn text) : (c.token lexeme size).StandsIn text := by
  obtain ⟨front, htext, hstart, hrow⟩ := h.exists_front
  have hwhole : text.toList
      = front ++ ((String.ofList (c.rest.take size)).toList ++ c.rest.drop size) := by
    rw [htext, String.toList_ofList, List.take_append_drop]
  refine Node.standsIn_of_eq hwhole hstart ?_ hrow
  rw [String.toList_ofList]
  rfl

end Cursor

/-- What is known of the token that a terminal reads. -/
structure Shape where
  lexeme : Lexeme
  /-- its text looks like a word -/
  isWord : Bool := false
  /-- the characters that its text may begin with, where they are known -/
  openers : Option (List Char) := none
  /-- the terminal may read nothing instead -/
  isOptional : Bool := false

/-- The text of a token is as its shape says. Keywords and punctuation spell their kind. -/
structure Shape.Fits (shape : Shape) (chars : List Char) : Prop where
  isWordLike : shape.isWord = true → IsWordLike chars
  opens : ∀ openers ∈ shape.openers, ∃ c ∈ chars.head?, c ∈ openers
  spells : shape.lexeme.isNamed = false → chars = shape.lexeme.kind.toList

/-- What a terminal reads where a cursor stands: a token, or nothing if it may. Either way the cursor
moves on. -/
inductive Cursor.Gives (c : Cursor) (shape : Option Shape) : List Node → Cursor → Prop where
  | nothing {d : Cursor} (hshape : ∀ s ∈ shape, s.isOptional = true) (h : c.Reaches d) :
    Gives c shape [] d
  | token {s : Shape} {size : Nat} {d : Cursor} (hshape : shape = some s)
    (hne : c.rest.take size ≠ []) (hfits : s.Fits (c.rest.take size)) (h : (c.skip size).Reaches d) :
    Gives c shape [c.token s.lexeme size] d

theorem Cursor.Gives.reaches {shape : Option Shape} (h : c.Gives shape tokens d) : c.Reaches d := by
  cases h with
  | nothing _ h => exact h
  | token _ _ _ h => exact (c.reaches_skip _).trans h

/-! ## Nodes -/

namespace Node

/-- Putting trees into a field changes nothing below them. -/
theorem mem_preorder_inField {field : String}
    (h : node ∈ (trees.map (·.inField field)).flatMap preorder) :
    (∃ tree ∈ trees, node = tree.inField field) ∨ node ∈ trees.flatMap preorder := by
  rw [List.flatMap_map] at h
  obtain ⟨tree, htree, h⟩ := List.mem_flatMap.mp h
  rw [preorder_eq, List.mem_cons] at h
  rcases h with rfl | h
  · exact .inl ⟨tree, htree, rfl⟩
  · refine .inr (List.mem_flatMap.mpr ⟨tree, htree, ?_⟩)
    rw [preorder_eq]
    exact List.mem_cons_of_mem _ h

/-- Below a node over trees stand the trees. -/
theorem mem_preorder_over {kind : String} (h : node ∈ (Node.over kind trees).flatMap preorder) :
    node ∈ Node.over kind trees ∨ node ∈ trees.flatMap preorder := by
  obtain ⟨top, htop, h⟩ := List.mem_flatMap.mp h
  obtain ⟨first, last, -, -, rfl⟩ := mem_over htop
  rw [preorder_eq, List.mem_cons] at h
  rcases h with rfl | h
  · exact .inl htop
  · obtain ⟨tree, htree, h⟩ := List.mem_flatMap.mp h
    exact .inr (List.mem_flatMap.mpr ⟨tree, List.mem_reverse.mp htree, h⟩)

end Node

/-- A node is placed if it stands in the text, and its children are placed inside it, one after the
other. -/
theorem isPlaced_of_children (hstands : node.StandsIn text)
    (hchildren : ∀ child ∈ node.children, IsPlaced text child)
    (hinside : ∀ child ∈ node.children, node.start ≤ child.start ∧ child.stop ≤ node.stop)
    (hapart : node.children.Pairwise fun a b => a.stop ≤ b.start) : IsPlaced text node := by
  -- a node of the tree is the root of it, or stands in one of the children
  have hcases : ∀ {other}, other ∈ node.preorder →
      other = node ∨ ∃ child, IsPlaced text child ∧ other ∈ child.preorder := by
    intro other hother
    rw [Node.preorder_eq, List.mem_cons, List.mem_flatMap] at hother
    exact hother.imp_right fun ⟨child, hchild, hother⟩ => ⟨child, hchildren child hchild, hother⟩
  refine ⟨fun other hother => ?_, fun other hother => ?_, fun other hother => ?_⟩
  all_goals rcases hcases hother with rfl | ⟨child, hchild, hother⟩
  · exact hstands
  · exact hchild.stands other hother
  · exact hinside
  · exact hchild.inside other hother
  · exact hapart
  · exact hchild.apart other hother

theorem IsPlaced.inField (h : IsPlaced text node) (field : String) :
    IsPlaced text (node.inField field) :=
  isPlaced_of_children h.standsIn (fun _ hchild => h.of_mem_children hchild)
    (h.inside node node.mem_preorder_self) (h.apart node node.mem_preorder_self)

/-! ## Trees one after the other -/

/-- Trees, last first, that stand one after the other between two places of a text. None of their nodes
is empty. -/
structure Stacked (text : String) (trees : List Node) (low high : Nat) : Prop where
  placed : ∀ tree ∈ trees, IsPlaced text tree
  full : ∀ node ∈ trees.flatMap Node.preorder, node.start < node.stop
  apart : trees.Pairwise fun a b => b.stop ≤ a.start
  low_le : ∀ tree ∈ trees, low ≤ tree.start
  le_high : ∀ tree ∈ trees, tree.stop ≤ high

namespace Stacked

theorem nil : Stacked text [] low high :=
  ⟨by simp, by simp, .nil, by simp, by simp⟩

theorem mono {low' high' : Nat} (h : Stacked text trees low high) (hlow : low' ≤ low)
    (hhigh : high ≤ high') : Stacked text trees low' high' :=
  ⟨h.placed, h.full, h.apart, fun tree htree => hlow.trans (h.low_le tree htree),
    fun tree htree => (h.le_high tree htree).trans hhigh⟩

/-- More trees on top of others. -/
theorem append (h : Stacked text trees low mid) (hmore : Stacked text out mid high) (hlow : low ≤ mid)
    (hhigh : mid ≤ high) : Stacked text (out ++ trees) low high where
  placed tree htree := (List.mem_append.mp htree).elim (hmore.placed tree) (h.placed tree)
  full node hnode := by
    rw [List.flatMap_append, List.mem_append] at hnode
    exact hnode.elim (hmore.full node) (h.full node)
  apart := by
    refine List.pairwise_append.mpr ⟨hmore.apart, h.apart, fun a ha b hb => ?_⟩
    exact (h.le_high b hb).trans (hmore.low_le a ha)
  low_le tree htree := (List.mem_append.mp htree).elim
    (fun htree => hlow.trans (hmore.low_le tree htree)) (h.low_le tree)
  le_high tree htree := (List.mem_append.mp htree).elim (hmore.le_high tree)
    (fun htree => (h.le_high tree htree).trans hhigh)

/-- The trees under the top end where it starts. -/
theorem of_cons (h : Stacked text (first :: trees) low high) :
    Stacked text trees low first.start ∧ Stacked text [first] first.start high := by
  obtain ⟨hplaced, hmore⟩ := List.forall_mem_cons.mp h.placed
  obtain ⟨hbefore, hapart⟩ := List.pairwise_cons.mp h.apart
  obtain ⟨-, hlow⟩ := List.forall_mem_cons.mp h.low_le
  obtain ⟨hhigh, -⟩ := List.forall_mem_cons.mp h.le_high
  refine ⟨⟨hmore, fun node hnode => h.full node ?_, hapart, hlow, hbefore⟩,
    ⟨by simpa using hplaced, fun node hnode => h.full node ?_, List.pairwise_singleton _ _, by simp,
      by simpa using hhigh⟩⟩
  · rw [List.flatMap_cons]
    exact List.mem_append_right _ hnode
  · rw [List.flatMap_singleton] at hnode
    rw [List.flatMap_cons]
    exact List.mem_append_left _ hnode

theorem map_inField (h : Stacked text trees low high) (field : String) :
    Stacked text (trees.map (·.inField field)) low high := by
  refine ⟨?_, ?_, List.pairwise_map.mpr h.apart, ?_, ?_⟩
  · exact List.forall_mem_map.mpr fun tree htree => (h.placed tree htree).inField field
  · intro node hnode
    rcases Node.mem_preorder_inField hnode with ⟨tree, htree, rfl⟩ | hnode
    · exact h.full tree (List.mem_flatMap.mpr ⟨tree, htree, tree.mem_preorder_self⟩)
    · exact h.full node hnode
  · exact List.forall_mem_map.mpr h.low_le
  · exact List.forall_mem_map.mpr h.le_high

theorem start_lt_stop (h : Stacked text trees low high) (hnode : node ∈ trees) :
    node.start < node.stop :=
  h.full node (List.mem_flatMap.mpr ⟨node, hnode, node.mem_preorder_self⟩)

/-- All trees stand between the start of the first and the end of the last. -/
theorem within (h : Stacked text trees low high) (hfirst : trees.getLast? = some first)
    (hlast : trees.head? = some last) (hnode : node ∈ trees) :
    first.start ≤ node.start ∧ node.stop ≤ last.stop := by
  constructor
  · -- every other tree comes after the first one
    obtain ⟨before, rfl⟩ := List.getLast?_eq_some_iff.mp hfirst
    rcases List.mem_append.mp hnode with hnode | hnode
    · have hbelow := (List.pairwise_append.mp h.apart).2.2 node hnode first (List.mem_singleton_self _)
      exact (h.start_lt_stop (by simp)).le.trans hbelow
    · rw [List.mem_singleton.mp hnode]
  · -- and the last one after every other
    obtain ⟨before, rfl⟩ := List.head?_eq_some_iff.mp hlast
    rcases List.mem_cons.mp hnode with rfl | hnode
    · exact le_rfl
    · have hbelow := (List.pairwise_cons.mp h.apart).1 node hnode
      exact hbelow.trans (h.start_lt_stop List.mem_cons_self).le

/-- The first tree starts in front of the end of the last one. -/
theorem start_lt_stop_of_ends (h : Stacked text trees low high) (hfirst : trees.getLast? = some first)
    (hlast : trees.head? = some last) : first.start < last.stop := by
  have hmem := List.mem_of_mem_getLast? hfirst
  exact (h.start_lt_stop hmem).trans_le (h.within hfirst hlast hmem).2

/-- A node over trees is one tree in their place. -/
theorem overNode (h : Stacked text inner low high) (kind : String) :
    Stacked text (Node.over kind inner) low high := by
  rcases eq_or_ne inner [] with rfl | hne
  · exact nil
  obtain ⟨first, last, hfirst, hlast, hover⟩ := Node.exists_over_eq kind hne
  have hmem := List.mem_of_mem_getLast? hfirst
  have hlt := h.start_lt_stop_of_ends hfirst hlast
  have hfull : ∀ node ∈ (Node.over kind inner).flatMap Node.preorder, node.start < node.stop := by
    intro node hnode
    rcases Node.mem_preorder_over hnode with hnode | hnode
    · rw [hover, List.mem_singleton] at hnode
      rw [hnode]
      exact hlt
    · exact h.full node hnode
  rw [hover] at hfull ⊢
  refine ⟨List.forall_mem_singleton.mpr ?_, hfull, List.pairwise_singleton _ _,
    List.forall_mem_singleton.mpr (h.low_le first hmem),
    List.forall_mem_singleton.mpr (h.le_high last (List.mem_of_mem_head? hlast))⟩
  -- it stands between the front before the first tree and the end of the last
  obtain ⟨front, piece, rest, htext, -, hstart, -, hrow⟩ := (h.placed first hmem).standsIn.exists_front
  obtain ⟨back, hback, hstop⟩ := (h.placed last (List.mem_of_mem_head? hlast)).standsIn.exists_back
  have hwithin : ∀ child ∈ inner.reverse, first.start ≤ child.start ∧ child.stop ≤ last.stop :=
    fun child hchild => h.within hfirst hlast (List.mem_reverse.mp hchild)
  refine isPlaced_of_children ?_ ?_ hwithin ?_
  · exact Node.standsIn_of_fronts ⟨_, htext.symm⟩ hback hstart hstop hrow hlt.le
  · exact fun child hchild => h.placed child (List.mem_reverse.mp hchild)
  · exact List.pairwise_reverse.mpr h.apart

end Stacked

/-! ## Texts -/

namespace Grammar

variable {g : Grammar τ ρ} {shape : τ → Option Shape} {phrase : Phrase τ ρ}

/-- Every terminal reads a token of its shape, where it is tried. -/
def Shaped (g : Grammar τ ρ) (shape : τ → Option Shape) : Prop :=
  ∀ t c tokens d, g.read t c = some (tokens, d) → c.Gives (shape t) tokens d

/-- Reading moves on. -/
theorem Reads.reaches (hg : g.Shaped shape) (h : Reads g phrase trees c out d) : c.Reaches d := by
  induction h with
  | terminal h => exact (hg _ _ _ _ h).reaches
  | rule _ ih | first _ ih | second _ ih | node _ ih | single _ ih | gather _ ih | extend _ ih
  | field _ ih => exact ih
  | seq _ _ ihfirst ihsecond => exact ihfirst.trans ihsecond
  | again _ _ ihbody ihmore => exact ihbody.trans ihmore
  | nothing | stop | ahead | notAhead => exact .refl _

theorem Reads.standsIn (hg : g.Shaped shape) (h : Reads g phrase trees c out d)
    (hc : c.StandsIn text) : d.StandsIn text :=
  hc.trans (h.reaches hg)

/-- A token stands where its cursor does. -/
theorem stacked_token {s : Shape} {size : Nat} (hc : c.StandsIn text) (hne : c.rest.take size ≠ []) :
    Stacked text [c.token s.lexeme size] c.offset (c.skip size).offset := by
  have hlt : c.offset < (c.skip size).offset := by
    have hbytes := Text.byteCount_eq_zero_iff.not.mpr hne
    show c.offset < c.offset + Text.byteCount (c.rest.take size)
    omega
  refine ⟨List.forall_mem_singleton.mpr ?_, ?_, List.pairwise_singleton _ _,
    List.forall_mem_singleton.mpr le_rfl, List.forall_mem_singleton.mpr le_rfl⟩
  · exact isPlaced_of_children (Cursor.standsIn_token hc) (by simp [Cursor.token, Node.children])
      (by simp [Cursor.token, Node.children]) .nil
  · intro node hnode
    obtain rfl : node = c.token s.lexeme size := by
      simpa [Node.preorder_eq, Cursor.token, Node.children] using hnode
    exact hlt

/-- What is read stands on top of the trees before it. -/
theorem Reads.stacked (hg : g.Shaped shape) (h : Reads g phrase trees c out d) (hc : c.StandsIn text)
    (htrees : Stacked text trees low c.offset) (hlow : low ≤ c.offset) :
    Stacked text out low d.offset := by
  -- what is inside a node starts where the cursor stands, so the lower end varies
  induction h generalizing low with
  | @terminal t before tokens c d h =>
    cases hg t c tokens d h with
    | nothing _ h => exact htrees.mono le_rfl h.offset_le
    | @token s size _ _ hne _ h =>
      have hskip := (c.reaches_skip size).offset_le
      exact (htrees.append (stacked_token hc hne) hlow hskip).mono le_rfl h.offset_le
  | rule _ ih | first _ ih | second _ ih => exact ih hc htrees hlow
  | nothing | stop | ahead | notAhead => exact htrees
  | seq hfirst _ ihfirst ihsecond =>
    have hoffset := (hfirst.reaches hg).offset_le
    exact ihsecond (hfirst.standsIn hg hc) (ihfirst hc htrees hlow) (hlow.trans hoffset)
  | again hbody _ ihbody ihmore =>
    have hoffset := (hbody.reaches hg).offset_le
    exact ihmore (hbody.standsIn hg hc) (ihbody hc htrees hlow) (hlow.trans hoffset)
  | node h ih | gather h ih =>
    exact htrees.append ((ih hc .nil le_rfl).overNode _) hlow (h.reaches hg).offset_le
  | single h ih => exact htrees.append (ih hc .nil le_rfl) hlow (h.reaches hg).offset_le
  | field h ih =>
    exact htrees.append ((ih hc .nil le_rfl).map_inField _) hlow (h.reaches hg).offset_le
  | @extend kind field body front before inner c d h ih =>
    -- the node starts with the tree in front, so the trees below are those before it
    obtain ⟨hbefore, hfront⟩ := htrees.of_cons
    have hstart := hfront.start_lt_stop List.mem_cons_self
    have hstop := hfront.le_high front List.mem_cons_self
    have hoffset := (h.reaches hg).offset_le
    have hinner := (hfront.map_inField field).append (ih hc .nil le_rfl) (by omega) hoffset
    exact hbefore.append (hinner.overNode kind) (htrees.low_le front List.mem_cons_self) (by omega)

variable {kind : String} {start : ρ}

/-- The tree of a text that follows a grammar is placed in the text, and no node below the root is
empty. -/
theorem isPlaced_parse (hg : g.Shaped shape) (hc : c.StandsIn text)
    (h : (g.parse kind start c).hasError = false) :
    IsPlaced text (g.parse kind start c).root ∧
      ∀ node ∈ (g.parse kind start c).root.children.flatMap Node.preorder, node.start < node.stop := by
  obtain ⟨trees, d, hreads, hroot⟩ := reads_of_parse h
  have hstacked := hreads.stacked hg hc .nil le_rfl
  obtain ⟨front, hfront, hstart, hrow⟩ := hc.exists_front
  obtain ⟨back, hback, hstop, -⟩ := (hreads.standsIn hg hc).exists_front
  rw [hroot]
  constructor
  · refine isPlaced_of_children ?_ ?_ ?_ ?_
    · exact Node.standsIn_of_fronts ⟨_, hfront.symm⟩ ⟨_, hback.symm⟩ hstart hstop hrow
        (hreads.reaches hg).offset_le
    · exact fun child hchild => hstacked.placed child (List.mem_reverse.mp hchild)
    · exact fun child hchild => ⟨hstacked.low_le child (List.mem_reverse.mp hchild),
        hstacked.le_high child (List.mem_reverse.mp hchild)⟩
    · exact List.pairwise_reverse.mpr hstacked.apart
  · intro node hnode
    obtain ⟨tree, htree, hnode⟩ := List.mem_flatMap.mp hnode
    exact hstacked.full node (List.mem_flatMap.mpr ⟨tree, List.mem_reverse.mp htree, hnode⟩)

/-- The nodes of a text that follows a grammar are in order. -/
theorem inOrder_parse (hg : g.Shaped shape) (hc : c.StandsIn text)
    (h : (g.parse kind start c).hasError = false) : InOrder text (g.parse kind start c).root :=
  (isPlaced_parse hg hc h).1.inOrder (isPlaced_parse hg hc h).2

end Grammar

end ModuleAtlas.Syntax
