import ModuleAtlas.Proofs.Syntax.Position

/-!
# How nodes are made

A node in the tree of a text is a token that a terminal has read, or stands over what the body of a
phrase has read. The places in a grammar where this happens are its makers (`Phrase.makers`), and every
node of a text was made by one of them (`made_of_parse`). So what can be checked of all makers of a
grammar holds of all nodes.

* `Phrase.first?` : the terminal that a phrase begins with.
* `Reads.exists_first` : what is read starts with the token of that terminal.
-/

namespace ModuleAtlas.Syntax

variable {τ ρ : Type}

/-- A place in a grammar where nodes are made. -/
inductive Maker (τ ρ : Type) where
  | token (t : τ)
  /-- a node over what the body reads -/
  | node (kind : String) (body : Phrase τ ρ)
  /-- a node over the tree in front, which fills a field, and what the body reads -/
  | extended (kind field : String) (body : Phrase τ ρ)

/-- The makers in a phrase. What is looked at ahead makes nothing. -/
def Phrase.makers : Phrase τ ρ → List (Maker τ ρ)
  | .terminal t => [.token t]
  | .rule _ => []
  | .nothing => []
  | .seq first second => first.makers ++ second.makers
  | .choice first second => first.makers ++ second.makers
  | .many body => body.makers
  | .node kind body => .node kind body :: body.makers
  | .gather kind body => .node kind body :: body.makers
  | .extend kind slot body => .extended kind slot body :: body.makers
  | .field _ body => body.makers
  | .ahead _ => []
  | .notAhead _ => []

/-- The terminal that a phrase begins with, where that is plain to see. -/
def Phrase.first? : Phrase τ ρ → Option τ
  | .terminal t => Option.some t
  | .seq first _ => first.first?
  | _ => none

namespace Grammar

variable {g : Grammar τ ρ} {shape : τ → Option Shape} {phrase : Phrase τ ρ} {maker : Maker τ ρ}
  {c d : Cursor} {text : String} {trees out : List Node} {node : Node}

/-- A maker in one of the rules. -/
def HasMaker (g : Grammar τ ρ) (maker : Maker τ ρ) : Prop := ∃ name, maker ∈ (g.phrase name).makers

/-- What holds of the makers in every rule. -/
theorem HasMaker.holds {p : Maker τ ρ → Bool} (h : g.HasMaker maker)
    (hrules : ∀ name, (g.phrase name).makers.all p = true) : p maker = true := by
  obtain ⟨name, h⟩ := h
  exact List.all_eq_true.mp (hrules name) maker h

/-- The ways a node of a text is made. -/
inductive Made (g : Grammar τ ρ) (text : String) : Node → Prop where
  | token {t : τ} {c d : Cursor} {tokens : List Node} {node : Node} (hmaker : g.HasMaker (.token t))
    (hc : c.StandsIn text) (h : g.read t c = some (tokens, d)) (hnode : node ∈ tokens) :
    Made g text node
  | node {kind : String} {body : Phrase τ ρ} {c d : Cursor} {inner : List Node} {node : Node}
    (hmaker : g.HasMaker (.node kind body)) (hc : c.StandsIn text) (h : Reads g body [] c inner d)
    (hnode : node ∈ Node.over kind inner) : Made g text node
  | extended {kind field : String} {body : Phrase τ ρ} {c d : Cursor} {front : Node} {inner : List Node}
    {node : Node} (hmaker : g.HasMaker (.extended kind field body)) (hc : c.StandsIn text)
    (h : Reads g body [] c inner d) (hnode : node ∈ Node.over kind (inner ++ [front.inField field])) :
    Made g text node
  | inField {field : String} {node : Node} (h : Made g text node) : Made g text (node.inField field)

/-- All nodes in some trees are made by the grammar. -/
def AllMade (g : Grammar τ ρ) (text : String) (trees : List Node) : Prop :=
  ∀ node ∈ trees.flatMap Node.preorder, g.Made text node

namespace AllMade

theorem nil : g.AllMade text [] := fun _ hnode => absurd hnode List.not_mem_nil

theorem append (h : g.AllMade text trees) (hout : g.AllMade text out) :
    g.AllMade text (out ++ trees) := by
  intro node hnode
  rw [List.flatMap_append, List.mem_append] at hnode
  exact hnode.elim (hout node) (h node)

theorem of_cons (h : g.AllMade text (node :: trees)) :
    g.AllMade text [node] ∧ g.AllMade text trees := by
  refine ⟨fun other hother => h other ?_, fun other hother => h other ?_⟩
  · rw [List.flatMap_singleton] at hother
    rw [List.flatMap_cons]
    exact List.mem_append_left _ hother
  · rw [List.flatMap_cons]
    exact List.mem_append_right _ hother

theorem map_inField (h : g.AllMade text trees) (field : String) :
    g.AllMade text (trees.map (·.inField field)) := by
  intro node hnode
  rcases Node.mem_preorder_inField hnode with ⟨tree, htree, rfl⟩ | hnode
  · exact .inField (h tree (List.mem_flatMap.mpr ⟨tree, htree, tree.mem_preorder_self⟩))
  · exact h node hnode

/-- A node over trees is made if they are, and if it is. -/
theorem overNode {kind : String} (h : g.AllMade text trees)
    (hover : ∀ node ∈ Node.over kind trees, g.Made text node) :
    g.AllMade text (Node.over kind trees) :=
  fun node hnode => (Node.mem_preorder_over hnode).elim (hover node) (h node)

end AllMade

/-- Tokens are leaves. -/
theorem children_of_read {t : τ} (hg : g.Shaped shape) {tokens : List Node}
    (h : g.read t c = some (tokens, d)) (hnode : node ∈ tokens) : node.children = [] := by
  cases hg t c tokens d h with
  | nothing => cases hnode
  | token =>
    rw [List.mem_singleton.mp hnode]
    rfl

/-- What a phrase of the grammar reads is made by the grammar. -/
theorem Reads.allMade (hg : g.Shaped shape) (h : Reads g phrase trees c out d) (hc : c.StandsIn text)
    (hphrase : ∀ maker ∈ phrase.makers, g.HasMaker maker) (htrees : g.AllMade text trees) :
    g.AllMade text out := by
  induction h with
  | @terminal t trees tokens c d h =>
    -- a token is a leaf, so there is nothing below it
    refine htrees.append fun node hnode => ?_
    obtain ⟨token, htoken, hnode⟩ := List.mem_flatMap.mp hnode
    have htoken := List.mem_reverse.mp htoken
    rw [Node.preorder_eq, children_of_read hg h htoken] at hnode
    rw [List.mem_singleton.mp hnode]
    exact .token (hphrase _ (List.mem_singleton_self _)) hc h htoken
  | @rule name _ _ _ _ _ ih => exact ih hc (fun maker hmaker => ⟨name, hmaker⟩) htrees
  | nothing | stop | ahead | notAhead => exact htrees
  | seq hfirst _ ihfirst ihsecond =>
    obtain ⟨hleft, hright⟩ := List.forall_mem_append.mp hphrase
    exact ihsecond (hfirst.standsIn hg hc) hright (ihfirst hc hleft htrees)
  | first _ ih => exact ih hc (List.forall_mem_append.mp hphrase).1 htrees
  | second _ ih => exact ih hc (List.forall_mem_append.mp hphrase).2 htrees
  | again hbody _ ihbody ihmore =>
    exact ihmore (hbody.standsIn hg hc) hphrase (ihbody hc hphrase htrees)
  | node h ih | gather h ih =>
    obtain ⟨hmaker, hbody⟩ := List.forall_mem_cons.mp hphrase
    exact htrees.append ((ih hc hbody .nil).overNode fun node hnode => .node hmaker hc h hnode)
  | single h ih => exact htrees.append (ih hc (List.forall_mem_cons.mp hphrase).2 .nil)
  | field h ih => exact htrees.append ((ih hc hphrase .nil).map_inField _)
  | @extend kind field body front before inner c d h ih =>
    obtain ⟨hmaker, hbody⟩ := List.forall_mem_cons.mp hphrase
    -- the tree in front goes into the new node
    obtain ⟨hfront, hbefore⟩ := htrees.of_cons
    have hinner : g.AllMade text (inner ++ [front.inField field]) :=
      AllMade.append (hfront.map_inField field) (ih hc hbody .nil)
    exact hbefore.append (hinner.overNode fun node hnode => .extended hmaker hc h hnode)

/-- Every node below the root of the tree of a text is made by the grammar. -/
theorem made_of_parse (hg : g.Shaped shape) (hc : c.StandsIn text) {kind : String} {start : ρ}
    (h : (g.parse kind start c).hasError = false) :
    ∀ node ∈ (g.parse kind start c).root.children.flatMap Node.preorder, g.Made text node := by
  obtain ⟨trees, d, hreads, hroot⟩ := reads_of_parse h
  have hmade := hreads.allMade hg hc (fun maker hmaker => absurd hmaker List.not_mem_nil) .nil
  rw [hroot]
  intro node hnode
  obtain ⟨tree, htree, hnode⟩ := List.mem_flatMap.mp hnode
  exact hmade node (List.mem_flatMap.mpr ⟨tree, List.mem_reverse.mp htree, hnode⟩)

/-! ## Where phrases begin -/

/-- Reading on top of some trees leaves the lowest of them where it starts. -/
theorem Reads.exists_lowest (h : Reads g phrase trees c out d) {low : Node}
    (hlow : trees.getLast? = some low) : ∃ low', out.getLast? = some low' ∧ low'.start = low.start := by
  induction h generalizing low with
  | terminal | node | gather | field => exact ⟨low, List.mem_getLast?_append_of_mem_getLast? hlow, rfl⟩
  | @single _ _ trees tree =>
    rw [← List.singleton_append]
    exact ⟨low, List.mem_getLast?_append_of_mem_getLast? hlow, rfl⟩
  | rule _ ih | first _ ih | second _ ih => exact ih hlow
  | nothing | stop | ahead | notAhead => exact ⟨low, hlow, rfl⟩
  | seq _ _ ihfirst ihsecond =>
    obtain ⟨middle, hmiddle, hstart⟩ := ihfirst hlow
    rw [← hstart]
    exact ihsecond hmiddle
  | again _ _ ihbody ihmore =>
    obtain ⟨middle, hmiddle, hstart⟩ := ihbody hlow
    rw [← hstart]
    exact ihmore hmiddle
  | @extend kind field body front before inner c d h ih =>
    rcases eq_or_ne before [] with rfl | hne
    · -- the tree in front is the lowest, and the node that replaces it starts with it
      cases hlow
      obtain ⟨first, last, hfirst, -, hover⟩ :=
        Node.exists_over_eq kind (List.append_ne_nil_of_right_ne_nil inner
          (List.cons_ne_nil (front.inField field) []))
      rw [List.getLast?_concat, Option.some.injEq] at hfirst
      rw [hover, ← hfirst]
      exact ⟨_, rfl, rfl⟩
    · rw [List.getLast?_cons_of_ne_nil hne] at hlow
      exact ⟨low, List.mem_getLast?_append_of_mem_getLast? hlow, rfl⟩

/-- What a phrase reads starts with the token of its first terminal. -/
theorem Reads.exists_first (hg : g.Shaped shape) (h : Reads g phrase [] c out d) {t : τ} {s : Shape}
    (hfirst : phrase.first? = some t) (hshape : shape t = some s) (hneeded : s.isOptional = false) :
    ∃ size low, out.getLast? = some low ∧ low.start = c.offset ∧ c.rest.take size ≠ [] ∧
      s.Fits (c.rest.take size) := by
  induction phrase generalizing out d with
  | terminal t' =>
    cases hfirst
    cases h with
    | @terminal _ _ tokens _ _ h =>
      cases hg t c tokens d h with
      | nothing hoptional _ => exact absurd (hoptional s hshape) (by simp [hneeded])
      | @token s' size _ hshape' hne hfits _ =>
        cases hshape.symm.trans hshape'
        exact ⟨size, _, rfl, rfl, hne, hfits⟩
  | seq first second ihfirst _ =>
    cases h with
    | seq hreads hmore =>
      obtain ⟨size, low, hlow, hstart, htoken⟩ := ihfirst hreads hfirst
      obtain ⟨low', hlow', hsame⟩ := hmore.exists_lowest hlow
      exact ⟨size, low', hlow', hsame.trans hstart, htoken⟩
  | _ => cases hfirst

end Grammar

end ModuleAtlas.Syntax
