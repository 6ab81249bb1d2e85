import Mathlib.Data.List.Chain
import ModuleAtlas.Extract.Python
import ModuleAtlas.Lexicon.Python
import ModuleAtlas.Proofs.Syntax.Node
import ModuleAtlas.Proofs.Text.Slice
import ModuleAtlas.Proofs.Text.Trim

/-!
# Module names in Python imports

The module name of an import consists of points and names, of which no two names are neighbours, and
blank space may stand between them (`IsModuleName`). An import keeps the name with this blank space. So
its source is the name itself if nothing is blank between the tokens (`spell_of_isTight`); otherwise
there is a line end in it or a blank beside a point (`breaks_spell`).

* `modules` : the module names in a file.
* `pieces` : the tokens of a name, and what stands between them.
* `IsTight` : nothing stands between the tokens of a name.
* `Breaks` : a line end somewhere, or a blank beside a separator.
-/

namespace ModuleAtlas.Python

variable {text : String} {root node : Syntax.Node} {leaves : List Syntax.Node} {i : Import}

/-! ## Tokens of a name -/

/-- A token of a name with what stands between it and the next one. -/
structure Piece where
  text : String
  after : String := ""
  deriving DecidableEq, Repr

/-- Tokens with what stands between them in a text. -/
def pieces (text : String) : List Syntax.Node → List Piece
  | [] => []
  | [leaf] => [{ text := (leaf.text? text).getD "" }]
  | leaf :: next :: more =>
    ⟨(leaf.text? text).getD "", (Text.slice? text leaf.stop next.start).getD ""⟩ ::
      pieces text (next :: more)

/-- The text of tokens one after the other. -/
def spell : List Piece → String
  | [] => ""
  | [piece] => piece.text
  | piece :: next :: more => piece.text ++ piece.after ++ spell (next :: more)

/-- Blank space in front of a token: blanks, unless a line ends in it. -/
def IsGap (gap : List Char) : Prop := '\n' ∈ gap ∨ ∀ x ∈ gap, isSpace x = true

/-- Neighbours in a module name: one of them is a point, and blank space may stand between them. -/
def Links (a b : Piece) : Prop := (a.text = "." ∨ b.text = ".") ∧ IsGap a.after.toList

/-- The tokens of a name, without comments and the like. -/
def nameTokens (node : Syntax.Node) : List Syntax.Node :=
  node.leaves.filter fun leaf => leaf.kind == "identifier" || leaf.kind == "."

/-- The pieces of a name in a text. -/
def namePieces (text : String) (node : Syntax.Node) : List Piece := pieces text (nameTokens node)

/-- A node that is the name of a module in a text: it consists of points and identifiers, of which no
two identifiers are neighbours, with blank space between them at most. -/
structure IsModuleName (text : String) (node : Syntax.Node) : Prop where
  start_eq : (nameTokens node).head?.map (·.start) = some node.start
  stop_eq : (nameTokens node).getLast?.map (·.stop) = some node.stop
  isToken : ∀ leaf ∈ nameTokens node, leaf.kind = "identifier" ∧ (leaf.text? text).isSome ∨
    leaf.kind = "." ∧ leaf.text? text = some "."
  joined : (nameTokens node).IsChain fun a b => (a.kind = "." ∨ b.kind = ".") ∧
    ∃ gap, Text.slice? text a.stop b.start = some gap ∧ IsGap gap.toList

instance (gap : List Char) : Decidable (IsGap gap) :=
  decidable_of_iff ('\n' ∈ gap ∨ gap.all isSpace = true) (or_congr_right List.all_eq_true)

instance (text : String) (a b : Syntax.Node) :
    Decidable (∃ gap, Text.slice? text a.stop b.start = some gap ∧ IsGap gap.toList) :=
  decidable_of_iff (∃ gap ∈ Text.slice? text a.stop b.start, IsGap gap.toList) Iff.rfl

instance (text : String) (node : Syntax.Node) : Decidable (IsModuleName text node) :=
  decidable_of_iff
    ((nameTokens node).head?.map (·.start) = some node.start ∧
      (nameTokens node).getLast?.map (·.stop) = some node.stop ∧
      (∀ leaf ∈ nameTokens node, leaf.kind = "identifier" ∧ (leaf.text? text).isSome ∨
        leaf.kind = "." ∧ leaf.text? text = some ".") ∧
      (nameTokens node).IsChain fun a b => (a.kind = "." ∨ b.kind = ".") ∧
        ∃ gap, Text.slice? text a.stop b.start = some gap ∧ IsGap gap.toList)
    ⟨fun ⟨h₁, h₂, h₃, h₄⟩ => ⟨h₁, h₂, h₃, h₄⟩, fun ⟨h₁, h₂, h₃, h₄⟩ => ⟨h₁, h₂, h₃, h₄⟩⟩

/-- Tokens that stand one after the other are spelt by the text from the first to the last. -/
theorem slice?_leaves (htokens : ∀ leaf ∈ leaves, (leaf.text? text).isSome)
    (hjoined : leaves.IsChain fun a b => ∃ gap, Text.slice? text a.stop b.start = some gap)
    {first last : Syntax.Node} (hfirst : leaves.head? = some first)
    (hlast : leaves.getLast? = some last) :
    Text.slice? text first.start last.stop = some (spell (pieces text leaves)) := by
  fun_induction pieces text leaves generalizing first with
  | case1 => cases hfirst
  | case2 leaf =>
    obtain ⟨piece, hpiece⟩ := Option.isSome_iff_exists.mp (htokens leaf List.mem_cons_self)
    cases hfirst
    cases hlast
    rw [spell, hpiece]
    exact hpiece
  | case3 leaf next more ih =>
    cases hfirst
    obtain ⟨piece, hpiece⟩ := Option.isSome_iff_exists.mp (htokens leaf List.mem_cons_self)
    obtain ⟨⟨gap, hgap⟩, hmore⟩ := List.isChain_cons_cons.mp hjoined
    have hrest := ih (fun other hother => htokens other (List.mem_cons_of_mem _ hother)) hmore rfl
      (by rwa [List.getLast?_cons_cons] at hlast)
    have hspell : spell (⟨(leaf.text? text).getD "",
        (Text.slice? text leaf.stop next.start).getD ""⟩ :: pieces text (next :: more))
        = piece ++ gap ++ spell (pieces text (next :: more)) := by
      rw [hpiece, hgap]
      cases more <;> rfl
    rw [hspell]
    exact Text.slice?_append (Text.slice?_append hpiece hgap) hrest

namespace IsModuleName

theorem isSome_of_mem (h : IsModuleName text node) {leaf : Syntax.Node}
    (hleaf : leaf ∈ nameTokens node) : (leaf.text? text).isSome := by
  rcases h.isToken leaf hleaf with ⟨-, htext⟩ | ⟨-, htext⟩
  · exact htext
  · rw [htext]
    rfl

/-- The text of a name is that of its tokens. -/
theorem text_eq (h : IsModuleName text node) :
    node.text? text = some (spell (namePieces text node)) := by
  obtain ⟨first, hfirst, hstart⟩ := Option.map_eq_some_iff.mp h.start_eq
  obtain ⟨last, hlast, hstop⟩ := Option.map_eq_some_iff.mp h.stop_eq
  have hslice := slice?_leaves (fun _ => h.isSome_of_mem)
    (h.joined.imp fun _ _ hjoined => ⟨_, hjoined.2.choose_spec.1⟩) hfirst hlast
  rwa [hstart, hstop] at hslice

/-- Neighbours in a name are linked. -/
theorem links (h : IsModuleName text node) : (namePieces text node).IsChain Links := by
  have hpoint : ∀ leaf ∈ nameTokens node, leaf.kind = "." → (leaf.text? text).getD "" = "." := by
    intro leaf hleaf hkind
    rcases h.isToken leaf hleaf with ⟨hname, -⟩ | ⟨-, htext⟩
    · exact absurd (hname.symm.trans hkind) (by decide)
    · rw [htext]
      rfl
  have hjoined := h.joined
  unfold namePieces
  generalize nameTokens node = leaves at hpoint hjoined
  fun_induction pieces text leaves with
  | case1 => exact .nil
  | case2 => exact .singleton _
  | case3 leaf next more ih =>
    obtain ⟨⟨hkinds, gap, hgap, hblank⟩, hmore⟩ := List.isChain_cons_cons.mp hjoined
    have hrest := ih (fun other hother => hpoint other (List.mem_cons_of_mem _ hother)) hmore
    have hlinks : ∀ piece : Piece, piece.text = (next.text? text).getD "" →
        Links ⟨(leaf.text? text).getD "", (Text.slice? text leaf.stop next.start).getD ""⟩ piece := by
      intro piece hpiece
      refine ⟨hkinds.imp (hpoint leaf List.mem_cons_self) fun hkind => ?_, ?_⟩
      · rw [hpiece]
        exact hpoint next (List.mem_cons_of_mem _ List.mem_cons_self) hkind
      · rw [hgap]
        exact hblank
    cases more with
    | nil => exact .cons_cons (hlinks _ rfl) hrest
    | cons => exact .cons_cons (hlinks _ rfl) hrest

end IsModuleName

/-! ## Module names of a file -/

/-- The module names in one statement. -/
def modulesOf (statement : Syntax.Node) : List Syntax.Node :=
  match statement.kind with
  | "import_statement" => (statement.childrenAs "name").filterMap thing?
  | "import_from_statement" => (statement.child? "module_name").toList
  | _ => []

/-- The module names in a file. -/
def modules (root : Syntax.Node) : List Syntax.Node := root.preorder.flatMap modulesOf

/-- Each import has the text of a module name for its source. -/
theorem exists_module_of_mem_imports (hi : i ∈ (extraction root text).imports) :
    ∃ node ∈ modules root, node.text? text = some i.source := by
  obtain ⟨statement, hstatement, hi⟩ := List.mem_flatMap.mp hi
  have hmem : ∀ node ∈ modulesOf statement, node ∈ modules root :=
    fun node hnode => List.mem_flatMap.mpr ⟨statement, hstatement, hnode⟩
  unfold modulesOf at hmem
  unfold importsOf at hi
  split at hi
  · rename_i hkind
    rw [hkind] at hmem
    obtain ⟨source, hsource, rfl⟩ := List.mem_map.mp hi
    obtain ⟨name, hname, hsource⟩ := List.mem_filterMap.mp hsource
    obtain ⟨thing, hthing, htext⟩ := Option.bind_eq_some_iff.mp hsource
    exact ⟨thing, hmem thing (List.mem_filterMap.mpr ⟨name, hname, hthing⟩), htext⟩
  · rename_i hkind
    rw [hkind] at hmem
    obtain ⟨source, hsource, rfl⟩ := Option.map_eq_some_iff.mp (Option.mem_toList.mp hi)
    obtain ⟨module, hmodule, htext⟩ := Option.bind_eq_some_iff.mp hsource
    exact ⟨module, hmem module (Option.mem_toList.mpr hmodule), htext⟩
  · cases hi

/-! ## Names with blank space in them -/

section Pieces

variable {m : List Piece}

/-- Nothing stands between the tokens. -/
def IsTight (m : List Piece) : Prop := m.IsChain fun a _ => a.after = ""

/-- The text of tokens without anything between them. -/
def packed (m : List Piece) : String := Text.join "" (m.map (·.text))

/-- There is a line end, or a blank beside a separator. -/
def Breaks (sep : Char) (chars : List Char) : Prop :=
  '\n' ∈ chars ∨ ∃ x, isSpace x = true ∧ ([sep, x] <:+: chars ∨ [x, sep] <:+: chars)

theorem Breaks.mono {sep : Char} {part chars : List Char} (h : Breaks sep part)
    (hpart : part <:+: chars) : Breaks sep chars := by
  refine h.imp (fun hline => hpart.subset hline) ?_
  rintro ⟨x, hx, hpair⟩
  exact ⟨x, hx, hpair.imp (·.trans hpart) (·.trans hpart)⟩

theorem spell_cons_cons (a b : Piece) (rest : List Piece) :
    spell (a :: b :: rest) = a.text ++ a.after ++ spell (b :: rest) := rfl

theorem text_prefix_spell (b : Piece) (rest : List Piece) :
    b.text.toList <+: (spell (b :: rest)).toList := by
  cases rest with
  | nil => exact List.prefix_rfl
  | cons next rest =>
    rw [spell_cons_cons, String.toList_append, String.toList_append, List.append_assoc]
    exact List.prefix_append _ _

theorem spell_of_isTight (h : IsTight m) : spell m = packed m := by
  induction m with
  | nil => rfl
  | cons a rest ih =>
    cases rest with
    | nil => rfl
    | cons b rest =>
      obtain ⟨hafter, hrest⟩ := List.isChain_cons_cons.mp h
      rw [spell_cons_cons, ih hrest, hafter]
      rfl

/-- Where something stands between the tokens, there is a line end or a blank beside a point. -/
theorem breaks_spell (hlinks : m.IsChain Links) (hloose : ¬ IsTight m) :
    Breaks '.' (spell m).toList := by
  induction m with
  | nil => exact absurd .nil hloose
  | cons a rest ih =>
    cases rest with
    | nil => exact absurd (.singleton a) hloose
    | cons b rest =>
      obtain ⟨⟨hpoint, hgap⟩, hrest⟩ := List.isChain_cons_cons.mp hlinks
      have hspell : (spell (a :: b :: rest)).toList
          = a.text.toList ++ a.after.toList ++ (spell (b :: rest)).toList := by
        rw [spell_cons_cons, String.toList_append, String.toList_append]
      rw [hspell]
      by_cases hafter : a.after = ""
      · have hmore : ¬ IsTight (b :: rest) := fun h =>
          hloose (List.isChain_cons_cons.mpr ⟨hafter, h⟩)
        exact (ih hrest hmore).mono (List.suffix_append _ _).isInfix
      · have hne : a.after.toList ≠ [] := mt String.toList_eq_nil_iff.mp hafter
        rcases hgap with hline | hspaces
        · exact .inl (List.mem_append_left _ (List.mem_append_right _ hline))
        rcases hpoint with hpoint | hpoint
        · obtain ⟨x, gap, hgap⟩ := List.exists_cons_of_ne_nil hne
          rw [hgap] at hspaces ⊢
          refine .inr ⟨x, hspaces x List.mem_cons_self, .inl ?_⟩
          rw [hpoint]
          exact ⟨[], gap ++ (spell (b :: rest)).toList, by simp⟩
        · obtain ⟨gap, x, hgap⟩ := (List.eq_nil_or_concat' _).resolve_left hne
          obtain ⟨more, hmore⟩ := text_prefix_spell b rest
          rw [hgap] at hspaces ⊢
          refine .inr ⟨x, hspaces x (by simp), .inr ?_⟩
          rw [← hmore, hpoint]
          exact ⟨a.text.toList ++ gap, more, by simp⟩

end Pieces

end ModuleAtlas.Python
