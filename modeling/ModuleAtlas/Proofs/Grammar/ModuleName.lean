import ModuleAtlas.Proofs.Grammar
import ModuleAtlas.Proofs.Resolver.ModuleName

/-!
# Module names in the trees of Python files

What the grammar of Python reads as a module name consists of points and identifiers with blank space
between them at most (`NameRun`). So in every text that follows the grammar, what the tree has for the
module names of imports are module names (`namesModules_parse`).
-/

namespace ModuleAtlas.Python

open Syntax (Cursor)
open Syntax.Grammar (Made Reads)

variable {c d e : Cursor} {text kind : String} {tokens trees inner out : List Syntax.Node}
  {node token other : Syntax.Node}

/-! ## Blank space -/

/-- What is measured as blank is a gap, unless the text or the line ends after it, where it may be a
comment. The rest of a comment is followed by a line end. -/
theorem blanks_spec (lineEnds inside : Bool) (chars : List Char) (count : Nat) :
    ∃ gap rest, chars = gap ++ rest ∧ blanks lineEnds inside chars count = count + gap.length ∧
      ∀ x ∈ rest.head?, x ≠ '\n' → '\n' ∈ gap ∨ inside = false ∧ ∀ y ∈ gap, isSpace y = true := by
  fun_induction blanks lineEnds inside chars count with
  | case1 => exact ⟨[], [], rfl, rfl, fun x hx => absurd hx (by simp)⟩
  | case2 c rest count hc _ ih =>
    obtain ⟨gap, after, rfl, hsize, -⟩ := ih
    refine ⟨c :: gap, after, rfl, by rw [hsize, List.length_cons]; omega, fun _ _ _ => .inl ?_⟩
    rw [beq_iff_eq.mp hc]
    exact List.mem_cons_self
  | case3 c rest count hc _ =>
    refine ⟨[], c :: rest, rfl, rfl, fun x hx hne => absurd ?_ hne⟩
    rw [← Option.some.inj hx, beq_iff_eq.mp hc]
  | case4 c rest count _ ih | case7 c rest count _ _ _ ih =>
    -- a comment goes on
    obtain ⟨gap, after, rfl, hsize, hgap⟩ := ih
    refine ⟨c :: gap, after, rfl, by rw [hsize, List.length_cons]; omega, fun x hx hne => .inl ?_⟩
    rcases hgap x hx hne with hline | ⟨hfalse, -⟩
    · exact List.mem_cons_of_mem c hline
    · cases hfalse
  | case5 rest count ih =>
    obtain ⟨gap, after, rfl, hsize, -⟩ := ih
    exact ⟨'\\' :: '\n' :: gap, after, rfl, by simp only [hsize, List.length_cons]; omega,
      fun _ _ _ => .inl (by simp)⟩
  | case6 rest count ih =>
    obtain ⟨gap, after, rfl, hsize, -⟩ := ih
    exact ⟨'\\' :: '\r' :: '\n' :: gap, after, rfl, by simp only [hsize, List.length_cons]; omega,
      fun _ _ _ => .inl (by simp)⟩
  | case8 c rest count _ _ _ hspace ih =>
    obtain ⟨gap, after, rfl, hsize, hgap⟩ := ih
    refine ⟨c :: gap, after, rfl, by rw [hsize, List.length_cons]; omega, fun x hx hne => ?_⟩
    rcases hgap x hx hne with hline | ⟨-, hspaces⟩
    · exact .inl (List.mem_cons_of_mem c hline)
    · rw [Bool.or_eq_true, Bool.and_eq_true, beq_iff_eq] at hspace
      rcases hspace with hc | ⟨-, rfl⟩
      · exact .inr ⟨rfl, List.forall_mem_cons.mpr ⟨hc, hspaces⟩⟩
      · exact .inl List.mem_cons_self
  | case9 c rest count =>
    exact ⟨[], c :: rest, rfl, rfl, fun _ _ _ => .inr ⟨rfl, fun _ h => absurd h List.not_mem_nil⟩⟩

/-! ## Points and names one after the other -/

/-- A token of a module name, with the cursor where it is read and the cursor after it. -/
structure NameToken (text : String) (c : Cursor) (token : Syntax.Node) (d : Cursor) : Prop where
  children_eq : token.children = []
  start_eq : token.start = c.offset
  isToken : token.kind = "identifier" ∧ (token.text? text).isSome ∨
    token.kind = "." ∧ token.text? text = some "."
  /-- it does not start with a line end -/
  opens : ∃ x ∈ c.rest.head?, x ≠ '\n'
  /-- a gap follows, unless the text or the line ends after the blank space -/
  ends : ∃ gap, Text.slice? text token.stop d.offset = some gap ∧
    ∀ x ∈ d.rest.head?, x ≠ '\n' → IsGap gap.toList

/-- After a token, a gap is passed. -/
theorem exists_gap (past : Cursor) (hpast : past.StandsIn text) :
    ∃ gap, Text.slice? text past.offset (past.skip (blank past)).offset = some gap ∧
      ∀ x ∈ (past.skip (blank past)).rest.head?, x ≠ '\n' → IsGap gap.toList := by
  obtain ⟨gap, rest, hrest, hsize, hgap⟩ := blanks_spec (!past.opened.isEmpty) false past.rest 0
  have hblank : blank past = gap.length := hsize.trans (Nat.zero_add _)
  have hpasses := past.passes_skip (blank past)
  have hleft : (past.skip (blank past)).rest = past.rest.drop (blank past) := rfl
  rw [hblank] at hpasses hleft ⊢
  rw [hrest, List.take_left] at hpasses
  rw [hrest, List.drop_left] at hleft
  refine ⟨_, Cursor.slice?_of_passes hpast hpasses, fun x hx hne => ?_⟩
  rw [String.toList_ofList]
  rw [hleft] at hx
  exact (hgap x hx hne).imp_right And.right

theorem nameToken_of_take? {lexeme : Syntax.Lexeme} {size : Option Nat} (hc : c.StandsIn text)
    (h : c.take? lexeme blank size = some (tokens, d))
    (hspec : ∀ n, size = some n → (lexeme.kind = "identifier" ∨
      lexeme.kind = "." ∧ c.rest.take n = ['.']) ∧ ∃ x ∈ c.rest.head?, x ≠ '\n') :
    ∃ token, tokens = [token] ∧ token.kind = lexeme.kind ∧ NameToken text c token d := by
  obtain ⟨n, hn, htake⟩ := Option.map_eq_some_iff.mp h
  obtain ⟨hkinds, hopens⟩ := hspec n (Option.filter_eq_some_iff.mp hn).1
  have htext : (c.token lexeme n).text? text = some (String.ofList (c.rest.take n)) :=
    Cursor.text?_token hc
  cases htake
  refine ⟨c.token lexeme n, rfl, rfl, rfl, rfl, ?_, hopens, ?_⟩
  · rcases hkinds with hname | ⟨hpoint, hspelt⟩
    · exact .inl ⟨hname, Option.isSome_of_eq_some htext⟩
    · exact .inr ⟨hpoint, htext.trans (congrArg (fun chars => some (String.ofList chars)) hspelt)⟩
  · exact exists_gap
      { c.skip n with opened := Cursor.track c.row lexeme c.opened, ended := (c.skip n).row }
      ((hc.trans (c.reaches_skip n)).trans (Cursor.reaches_of_eq rfl rfl rfl))

theorem nameToken_of_point (hc : c.StandsIn text)
    (h : Reads grammar (.terminal .point) trees c out d) :
    ∃ token, out = token :: trees ∧ token.kind = "." ∧ NameToken text c token d := by
  cases h with
  | terminal h =>
    obtain ⟨token, rfl, hkind, htoken⟩ := nameToken_of_take? hc h fun n hsize => by
      have htake : c.rest.take n = ['.'] := Lexicon.take_of_mark? hsize
      refine ⟨.inr ⟨rfl, htake⟩, '.', ?_, by decide⟩
      rw [← List.take_append_drop n c.rest, htake]
      rfl
    exact ⟨token, rfl, hkind, htoken⟩

theorem nameToken_of_name {taken : List String} (hc : c.StandsIn text)
    (h : Reads grammar (.terminal (.name taken)) trees c out d) :
    ∃ token, out = token :: trees ∧ token.kind = "identifier" ∧ NameToken text c token d := by
  cases h with
  | terminal h =>
    obtain ⟨token, rfl, hkind, htoken⟩ := nameToken_of_take? hc h fun n hsize => by
      obtain ⟨x, more, htake, hstart, -⟩ :=
        Lexicon.word?_eq_some (Option.filter_eq_some_iff.mp hsize).1
      refine ⟨.inl rfl, x, ?_, ?_⟩
      · rw [← List.take_append_drop n c.rest, htake]
        rfl
      · rintro rfl
        cases hstart
    exact ⟨token, rfl, hkind, htoken⟩

/-- Tokens of a module name, last first, that are read one after the other. No two identifiers are
neighbours. -/
inductive NameRun (text : String) (c : Cursor) : List Syntax.Node → Cursor → Prop where
  | nil : NameRun text c [] c
  | cons {tokens : List Syntax.Node} {token : Syntax.Node} {d e : Cursor} (h : NameRun text c tokens d)
    (hlink : ∀ last ∈ tokens.head?, last.kind = "." ∨ token.kind = ".")
    (htoken : NameToken text d token e) : NameRun text c (token :: tokens) e

namespace NameRun

theorem append (h : NameRun text c tokens d) (hmore : NameRun text d inner e)
    (hlink : ∀ last ∈ tokens.head?, ∀ first ∈ inner.getLast?, last.kind = "." ∨ first.kind = ".") :
    NameRun text c (inner ++ tokens) e := by
  induction hmore with
  | nil => exact h
  | @cons more token d e _ hbefore htoken ih =>
    -- only the first of the later tokens meets one of the earlier ones
    rcases eq_or_ne more [] with rfl | hne
    · refine .cons (ih (by simp)) (fun last hlast => hlink last hlast token rfl) htoken
    · rw [List.getLast?_cons_of_ne_nil hne] at hlink
      obtain ⟨top, below, rfl⟩ := List.exists_cons_of_ne_nil hne
      exact .cons (ih hlink) hbefore htoken

theorem forall_isToken (h : NameRun text c tokens d) : ∀ token ∈ tokens, token.children = [] ∧
    (token.kind = "identifier" ∧ (token.text? text).isSome ∨
      token.kind = "." ∧ token.text? text = some ".") := by
  induction h with
  | nil => simp
  | cons _ _ htoken ih => exact List.forall_mem_cons.mpr ⟨⟨htoken.children_eq, htoken.isToken⟩, ih⟩

/-- Neighbours have blank space between them. -/
theorem isChain (h : NameRun text c tokens d) : tokens.IsChain fun b a =>
    (a.kind = "." ∨ b.kind = ".") ∧
      ∃ gap, Text.slice? text a.stop b.start = some gap ∧ IsGap gap.toList := by
  induction h with
  | nil => exact .nil
  | @cons tokens token d e h hlink htoken ih =>
    cases h with
    | nil => exact .singleton _
    | @cons before last d' _ _ _ hlast =>
      refine .cons_cons ⟨hlink last rfl, ?_⟩ ih
      obtain ⟨gap, hgap, hblank⟩ := hlast.ends
      obtain ⟨x, hx, hne⟩ := htoken.opens
      rw [← htoken.start_eq] at hgap
      exact ⟨gap, hgap, hblank x hx hne⟩

end NameRun

/-! ## Nodes over module names -/

/-- A node over tokens, which are given last first. -/
structure Spans (node : Syntax.Node) (tokens : List Syntax.Node) : Prop where
  leaves_eq : node.leaves = tokens.reverse
  children_ne : node.children ≠ []
  start_eq : tokens.getLast?.map (·.start) = some node.start
  stop_eq : tokens.head?.map (·.stop) = some node.stop

namespace Spans

theorem of_mem_over (hne : tokens ≠ []) (htokens : ∀ token ∈ tokens, token.children = [])
    (hnode : node ∈ Syntax.Node.over kind tokens) : Spans node tokens := by
  obtain ⟨first, last, hfirst, hlast, rfl⟩ := Syntax.Node.mem_over hnode
  refine ⟨?_, List.reverse_ne_nil_iff.mpr hne, ?_, ?_⟩
  · exact Syntax.Node.leaves_eq_children (List.reverse_ne_nil_iff.mpr hne)
      fun child hchild => htokens child (List.mem_reverse.mp hchild)
  · rw [hfirst]
    rfl
  · rw [hlast]
    rfl

/-- A node over one node has its tokens. -/
theorem of_mem_over_singleton (h : Spans token tokens) (hnode : node ∈ Syntax.Node.over kind [token]) :
    Spans node tokens := by
  have hchildren : node.children = [token] := children_of_mem_over hnode
  obtain ⟨first, last, hfirst, hlast, heq⟩ := Syntax.Node.mem_over hnode
  cases hfirst
  cases hlast
  have hne : node.children ≠ [] := hchildren ▸ List.cons_ne_nil _ _
  refine ⟨?_, hne, ?_, ?_⟩
  · rw [Syntax.Node.leaves_eq_flatMap hne, hchildren, List.flatMap_singleton, h.leaves_eq]
  · rw [h.start_eq, heq]
    rfl
  · rw [h.stop_eq, heq]
    rfl

/-- A node over two nodes has the tokens of both. -/
theorem of_mem_over_pair (h : Spans token tokens) (h' : Spans other inner)
    (hnode : node ∈ Syntax.Node.over kind [other, token]) : Spans node (inner ++ tokens) := by
  have hchildren : node.children = [token, other] := children_of_mem_over hnode
  obtain ⟨first, last, hfirst, hlast, heq⟩ := Syntax.Node.mem_over hnode
  cases hfirst
  cases hlast
  have hne : node.children ≠ [] := hchildren ▸ List.cons_ne_nil _ _
  obtain ⟨low, hlow, hstart⟩ := Option.map_eq_some_iff.mp h.start_eq
  obtain ⟨high, hhigh, hstop⟩ := Option.map_eq_some_iff.mp h'.stop_eq
  refine ⟨?_, hne, ?_, ?_⟩
  · rw [Syntax.Node.leaves_eq_flatMap hne, hchildren, List.reverse_append, ← h.leaves_eq,
      ← h'.leaves_eq, List.flatMap_cons, List.flatMap_singleton]
  · rw [List.mem_getLast?_append_of_mem_getLast? hlow, heq]
    exact congrArg some hstart
  · rw [List.mem_head?_append_of_mem_head? hhigh, heq]
    exact congrArg some hstop

/-- A node over a run of tokens is a module name. -/
theorem isModuleName (h : Spans node tokens) (hrun : NameRun text c tokens d) :
    IsModuleName text node := by
  have htokens : nameTokens node = tokens.reverse := by
    rw [nameTokens, h.leaves_eq, List.filter_eq_self]
    intro leaf hleaf
    obtain ⟨-, ⟨hkind, -⟩ | ⟨hkind, -⟩⟩ := hrun.forall_isToken leaf (List.mem_reverse.mp hleaf)
    · rw [hkind]
      rfl
    · rw [hkind]
      rfl
  refine ⟨?_, ?_, ?_, ?_⟩
  · rw [htokens, List.head?_reverse]
    exact h.start_eq
  · rw [htokens, List.getLast?_reverse]
    exact h.stop_eq
  · intro leaf hleaf
    rw [htokens] at hleaf
    exact (hrun.forall_isToken leaf (List.mem_reverse.mp hleaf)).2
  · rw [htokens]
    exact List.isChain_reverse.mpr hrun.isChain

end Spans

/-- A node over a run of tokens, of which there are some. -/
theorem NameRun.spans (h : NameRun text c tokens d) (hne : tokens ≠ [])
    (hnode : node ∈ Syntax.Node.over kind tokens) : Spans node tokens :=
  .of_mem_over hne (fun token htoken => (h.forall_isToken token htoken).1) hnode

/-- Some points in a row. -/
theorem run_of_points (h : Reads grammar (.some (.terminal .point)) [] c out d) (hc : c.StandsIn text) :
    NameRun text c out d ∧ ∃ last ∈ out.head?, last.kind = "." := by
  cases h with
  | seq hfirst hmany =>
  obtain ⟨token, rfl, hkind, htoken⟩ := nameToken_of_point hc hfirst
  have hrun : NameRun text c [token] _ := .cons .nil (by simp) htoken
  have hc' := hfirst.standsIn shaped hc
  refine (hmany.many (P := fun out d => d.StandsIn text ∧ NameRun text c out d ∧
    ∃ last ∈ out.head?, last.kind = ".") ?_ ⟨hc', hrun, token, rfl, hkind⟩).2
  rintro trees c' out d' hpoint ⟨hc', hrun, -⟩
  obtain ⟨token, rfl, hkind, htoken⟩ := nameToken_of_point hc' hpoint
  exact ⟨hpoint.standsIn shaped hc', .cons hrun (fun _ _ => .inr hkind) htoken, token, rfl, hkind⟩

/-- The phrase is for identifiers with points between them. -/
def isDottedBody : PythonPhrase → Bool
  | .seq (.terminal (.name _)) (.many (.seq (.terminal .point) (.terminal (.name _)))) => true
  | _ => false

theorem run_of_isDottedBody {body : PythonPhrase} (hbody : isDottedBody body = true)
    (h : Reads grammar body [] c out d) (hc : c.StandsIn text) : NameRun text c out d ∧ out ≠ [] := by
  unfold isDottedBody at hbody
  split at hbody
  · cases h with
    | seq hfirst hmany =>
    obtain ⟨token, rfl, -, htoken⟩ := nameToken_of_name hc hfirst
    have hrun : NameRun text c [token] _ := .cons .nil (by simp) htoken
    have hc' := hfirst.standsIn shaped hc
    refine (hmany.many (P := fun out d => d.StandsIn text ∧ NameRun text c out d ∧ out ≠ []) ?_
      ⟨hc', hrun, List.cons_ne_nil _ _⟩).2
    rintro trees c' out d' hround ⟨hc', hrun, -⟩
    cases hround with
    | seq hpoint hname =>
    have hbetween := hpoint.standsIn shaped hc'
    obtain ⟨point, rfl, hkind, hpointToken⟩ := nameToken_of_point hc' hpoint
    obtain ⟨name, rfl, -, hnameToken⟩ := nameToken_of_name hbetween hname
    refine ⟨hname.standsIn shaped hbetween, .cons (.cons hrun ?_ hpointToken) ?_ hnameToken,
      List.cons_ne_nil _ _⟩
    · exact fun _ _ => .inr hkind
    · intro last hlast
      obtain rfl : point = last := Option.some.inj hlast
      exact .inl hkind
  · cases hbody

/-- The phrase is for points and perhaps a dotted name after them. -/
def isRelativeBody : PythonPhrase → Bool
  | .seq (.node _ (.seq (.terminal .point) (.many (.terminal .point))))
      (.choice (.node _ name) .nothing) =>
    isDottedBody name
  | _ => false

theorem spans_of_isRelativeBody {body : PythonPhrase} (hbody : isRelativeBody body = true)
    (h : Reads grammar body [] c inner e) (hc : c.StandsIn text)
    (hnode : node ∈ Syntax.Node.over kind inner) :
    ∃ tokens, NameRun text c tokens e ∧ Spans node tokens := by
  unfold isRelativeBody at hbody
  split at hbody
  · rename_i front back name
    cases h with
    | @seq _ _ _ _ _ _ d _ hfirst hmore =>
    have hd := hfirst.standsIn shaped hc
    cases hfirst with
    | @node _ _ _ points _ _ hpoints =>
    -- the points in front, under a node of their own
    obtain ⟨hrun, last, hlast, hpoint⟩ := run_of_points hpoints hc
    have hne : points ≠ [] := by
      rintro rfl
      cases hlast
    obtain ⟨_, _, -, -, hover⟩ := Syntax.Node.exists_over_eq front hne
    rw [hover] at hmore
    have hspans := hrun.spans hne (hover ▸ List.mem_singleton_self _)
    cases hmore with
    | second hnothing =>
      cases hnothing
      exact ⟨points, hrun, hspans.of_mem_over_singleton hnode⟩
    | first hmore =>
    cases hmore with
    | @node _ _ _ names _ _ hnames =>
    -- the dotted name after them
    obtain ⟨hrun', hne'⟩ := run_of_isDottedBody hbody hnames hd
    obtain ⟨_, _, -, -, hover'⟩ := Syntax.Node.exists_over_eq back hne'
    rw [hover'] at hnode
    have hspans' := hrun'.spans hne' (hover' ▸ List.mem_singleton_self _)
    refine ⟨names ++ points, hrun.append hrun' fun other hother _ _ => .inl ?_,
      hspans.of_mem_over_pair hspans' hnode⟩
    rw [← Option.some.inj (hlast.symm.trans hother), hpoint]
  · cases hbody

/-! ## The names of a tree -/

/-- The kinds of nodes that are module names. -/
def moduleKinds : List String := ["dotted_name", "relative_import"]

/-- What the maker makes of these kinds are module names. -/
def makesModuleNames : Syntax.Maker Terminal Rule → Bool
  | .token t => t.shape.all fun s => !moduleKinds.contains s.lexeme.kind
  | .node kind body =>
    !moduleKinds.contains kind || isDottedBody body || isRelativeBody body
  | .extended kind _ _ => !moduleKinds.contains kind

theorem makers_makeModuleNames (rule : Rule) :
    (grammar.phrase rule).makers.all makesModuleNames = true :=
  all_makers (by decide +kernel) (fun _ => ⟨rfl, rfl⟩) rule

theorem exists_spans_of_made (h : Made grammar text node) (hkind : node.kind ∈ moduleKinds) :
    ∃ tokens c d, NameRun text c tokens d ∧ Spans node tokens := by
  induction h with
  | @token t c d tokens node hmaker hc h hnode =>
    have hallowed := hmaker.holds makers_makeModuleNames
    cases shaped t c tokens d h with
    | nothing => cases hnode
    | @token s size _ hshape =>
      obtain rfl := List.mem_singleton.mp hnode
      have hkind : s.lexeme.kind ∈ moduleKinds := hkind
      simp [makesModuleNames, hshape, hkind] at hallowed
  | @node kind body c d inner node hmaker hc h hnode =>
    have hallowed := hmaker.holds makers_makeModuleNames
    rw [kind_of_mem_over hnode] at hkind
    rw [makesModuleNames, List.contains_iff_mem.mpr hkind, Bool.not_true, Bool.false_or,
      Bool.or_eq_true] at hallowed
    rcases hallowed with hdotted | hrelative
    · obtain ⟨hrun, hne⟩ := run_of_isDottedBody hdotted h hc
      exact ⟨inner, c, d, hrun, hrun.spans hne hnode⟩
    · obtain ⟨tokens, hrun, hspans⟩ := spans_of_isRelativeBody hrelative h hc hnode
      exact ⟨tokens, c, d, hrun, hspans⟩
  | extended hmaker _ _ hnode =>
    have hallowed := hmaker.holds makers_makeModuleNames
    rw [kind_of_mem_over hnode] at hkind
    simp [makesModuleNames, hkind] at hallowed
  | @inField field node _ ih =>
    -- the leaves are the same, as they are below the node
    obtain ⟨tokens, c, d, hrun, hspans⟩ := ih hkind
    refine ⟨tokens, c, d, hrun, ?_, hspans.children_ne, hspans.start_eq, hspans.stop_eq⟩
    rw [← hspans.leaves_eq, Syntax.Node.leaves_eq_flatMap hspans.children_ne]
    exact Syntax.Node.leaves_eq_flatMap hspans.children_ne

/-- Where the names of modules stand in statements. -/
def moduleTypes : NodeTypes where
  words := []
  fields :=
    [⟨["import_statement"], "name", [{ kind := "dotted_name" }, { kind := "aliased_import" }]⟩,
     ⟨["aliased_import"], "name", [{ kind := "dotted_name" }]⟩,
     ⟨["import_from_statement"], "module_name",
       [{ kind := "dotted_name" }, { kind := "relative_import" }]⟩]

theorem moduleTypes_admits : moduleTypes.Admits grammar Terminal.shape :=
  all_makers (by decide +kernel) fun _ => ⟨rfl, rfl⟩

/-- In every text that follows the grammar, the nodes of these kinds are module names. -/
theorem isModuleName_of_mem (h : (parse text).hasError = false)
    (hnode : node ∈ (parse text).root.preorder) (hkind : node.kind ∈ moduleKinds) :
    IsModuleName text node := by
  rw [Syntax.Node.preorder_eq, List.mem_cons] at hnode
  rcases hnode with rfl | hnode
  · obtain ⟨trees, d, -, hroot⟩ := Syntax.Grammar.reads_of_parse h
    rw [show (parse text).root.kind = "module" from congrArg Syntax.Node.kind hroot] at hkind
    exact absurd hkind (by decide)
  · have hmade := Syntax.Grammar.made_of_parse shaped (standsIn_start text) h node hnode
    obtain ⟨tokens, c, d, hrun, hspans⟩ := exists_spans_of_made hmade hkind
    exact hspans.isModuleName hrun

/-- In every text that follows the grammar, what stands for module names are names of modules. -/
theorem namesModules_parse (h : (parse text).hasError = false) :
    NamesModules text (parse text).root := by
  have htypes : moduleTypes.Describe text (parse text).root :=
    describe_parse shaped (standsIn_start text) moduleTypes_admits (by decide) h
  -- a child in one of the fields of the table
  have hchild : ∀ type ∈ moduleTypes.fields, ∀ parent ∈ (parse text).root.preorder,
      parent.kind ∈ type.parents → ∀ child ∈ parent.childrenAs type.field,
      child ∈ (parse text).root.preorder ∧ child.type ∈ type.types :=
    fun type htype parent hparent hkind child hmem =>
      ⟨Syntax.Node.child_mem_preorder hparent (Syntax.Node.mem_childrenAs.mp hmem).1,
        htypes.fields type htype parent hparent hkind child hmem⟩
  have hname : ∀ {child kind}, child ∈ (parse text).root.preorder → child.type = { kind := kind } →
      kind ∈ moduleKinds → IsModuleName text child := by
    intro child kind hmem htype hkind
    obtain rfl : child.kind = kind := congrArg NodeType.kind htype
    exact isModuleName_of_mem h hmem hkind
  intro node hnode
  obtain ⟨statement, hstatement, hnode⟩ := List.mem_flatMap.mp hnode
  unfold modulesOf at hnode
  split at hnode
  · rename_i hkind
    obtain ⟨thing, hthing, hnode⟩ := List.mem_filterMap.mp hnode
    obtain ⟨hmem, htype⟩ :=
      hchild _ List.mem_cons_self statement hstatement (by simp [hkind]) thing hthing
    unfold thing? at hnode
    split_ifs at hnode with haliased
    · -- the name that is bound to another one
      obtain ⟨hinner, hfield⟩ := Syntax.Node.mem_children_of_child? hnode
      obtain ⟨hmem, htype⟩ := hchild _ (List.mem_cons_of_mem _ List.mem_cons_self) thing hmem
        (by simp [beq_iff_eq.mp haliased]) node (Syntax.Node.mem_childrenAs.mpr ⟨hinner, hfield⟩)
      exact hname hmem (List.mem_singleton.mp htype) (by decide)
    · obtain rfl := Option.some.inj hnode
      simp only [List.mem_cons, List.not_mem_nil, or_false] at htype
      rcases htype with htype | htype
      · exact hname hmem htype (by decide)
      · exact absurd (beq_iff_eq.mpr (congrArg NodeType.kind htype)) haliased
  · rename_i hkind
    obtain ⟨hinner, hfield⟩ := Syntax.Node.mem_children_of_child? (Option.mem_toList.mp hnode)
    obtain ⟨hmem, htype⟩ := hchild _
      (List.mem_cons_of_mem _ (List.mem_cons_of_mem _ List.mem_cons_self)) statement hstatement
      (by simp [hkind]) node (Syntax.Node.mem_childrenAs.mpr ⟨hinner, hfield⟩)
    simp only [List.mem_cons, List.not_mem_nil, or_false] at htype
    rcases htype with htype | htype
    · exact hname hmem htype (by decide)
    · exact hname hmem htype (by decide)
  · cases hnode

end ModuleAtlas.Python
