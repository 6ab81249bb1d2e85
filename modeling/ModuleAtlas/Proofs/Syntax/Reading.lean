import Mathlib.Data.List.Basic
import ModuleAtlas.Syntax.Grammar

/-!
# What a grammar reads

A run of a grammar looks ahead and goes back. What it has read in the end follows the phrases all the
same: `Reads` relates a phrase to the trees before and after it, last first, and to the cursors between
which it reads them. A run gives nothing else (`reads_of_run`, `reads_of_parse`), so what one phrase
after the other preserves holds of the tree of every text that follows the grammar.
-/

namespace ModuleAtlas.Syntax

variable {τ ρ : Type}

/-! ## Nodes over trees -/

/-- A node over some trees starts where the first of them does and stops where the last does. -/
theorem Node.exists_over_eq {reversed : List Node} (kind : String) (h : reversed ≠ []) :
    ∃ first last, reversed.getLast? = some first ∧ reversed.head? = some last ∧
      Node.over kind reversed =
        [.mk { kind := kind, start := first.start, stop := last.stop, row := first.row }
          reversed.reverse] := by
  unfold Node.over
  split
  · rename_i first more last before hreverse
    refine ⟨first, last, ?_, rfl, by rw [hreverse]⟩
    rw [← List.head?_reverse, hreverse, List.head?_cons]
  · rename_i hnone
    obtain ⟨last, before, rfl⟩ := List.exists_cons_of_ne_nil h
    obtain ⟨first, more, hfirst⟩ :=
      List.exists_cons_of_ne_nil (List.reverse_ne_nil_iff.mpr (List.cons_ne_nil last before))
    exact (hnone first more last before hfirst rfl).elim

theorem Node.mem_over {kind : String} {reversed : List Node} {node : Node}
    (h : node ∈ Node.over kind reversed) :
    ∃ first last, reversed.getLast? = some first ∧ reversed.head? = some last ∧
      node = .mk { kind := kind, start := first.start, stop := last.stop, row := first.row }
        reversed.reverse := by
  rcases eq_or_ne reversed [] with rfl | hne
  · cases h
  · obtain ⟨first, last, hfirst, hlast, hover⟩ := exists_over_eq kind hne
    rw [hover, List.mem_singleton] at h
    exact ⟨first, last, hfirst, hlast, h⟩

namespace Grammar

variable {g : Grammar τ ρ} {phrase body first second : Phrase τ ρ} {c d e far : Cursor}
  {trees middle out inner : List Node} {depth : Nat} {name : ρ}

/-! ## Readings -/

/-- A phrase reads from one cursor to another, and makes other trees of the trees before it. Both are
given last first. -/
inductive Reads (g : Grammar τ ρ) :
    Phrase τ ρ → List Node → Cursor → List Node → Cursor → Prop where
  | terminal {t : τ} {trees tokens : List Node} {c d : Cursor} (h : g.read t c = some (tokens, d)) :
    Reads g (.terminal t) trees c (tokens.reverse ++ trees) d
  | rule {name : ρ} {trees out : List Node} {c d : Cursor} (h : Reads g (g.phrase name) trees c out d) :
    Reads g (.rule name) trees c out d
  | nothing {trees : List Node} {c : Cursor} : Reads g .nothing trees c trees c
  | seq {first second : Phrase τ ρ} {trees middle out : List Node} {c d e : Cursor}
    (hfirst : Reads g first trees c middle d) (hsecond : Reads g second middle d out e) :
    Reads g (.seq first second) trees c out e
  | first {first second : Phrase τ ρ} {trees out : List Node} {c d : Cursor}
    (h : Reads g first trees c out d) : Reads g (.choice first second) trees c out d
  | second {first second : Phrase τ ρ} {trees out : List Node} {c d : Cursor}
    (h : Reads g second trees c out d) : Reads g (.choice first second) trees c out d
  | stop {body : Phrase τ ρ} {trees : List Node} {c : Cursor} : Reads g (.many body) trees c trees c
  | again {body : Phrase τ ρ} {trees middle out : List Node} {c d e : Cursor}
    (hbody : Reads g body trees c middle d) (hmore : Reads g (.many body) middle d out e) :
    Reads g (.many body) trees c out e
  | node {kind : String} {body : Phrase τ ρ} {trees inner : List Node} {c d : Cursor}
    (h : Reads g body [] c inner d) :
    Reads g (.node kind body) trees c (Node.over kind inner ++ trees) d
  | single {kind : String} {body : Phrase τ ρ} {trees : List Node} {tree : Node} {c d : Cursor}
    (h : Reads g body [] c [tree] d) : Reads g (.gather kind body) trees c (tree :: trees) d
  | gather {kind : String} {body : Phrase τ ρ} {trees inner : List Node} {c d : Cursor}
    (h : Reads g body [] c inner d) :
    Reads g (.gather kind body) trees c (Node.over kind inner ++ trees) d
  | extend {kind field : String} {body : Phrase τ ρ} {front : Node} {before inner : List Node}
    {c d : Cursor} (h : Reads g body [] c inner d) :
    Reads g (.extend kind field body) (front :: before) c
      (Node.over kind (inner ++ [front.inField field]) ++ before) d
  | field {field : String} {body : Phrase τ ρ} {trees inner : List Node} {c d : Cursor}
    (h : Reads g body [] c inner d) :
    Reads g (.field field body) trees c (inner.map (·.inField field) ++ trees) d
  | ahead {body : Phrase τ ρ} {trees : List Node} {c : Cursor} :
    Reads g (.ahead body) trees c trees c
  | notAhead {body : Phrase τ ρ} {trees : List Node} {c : Cursor} :
    Reads g (.notAhead body) trees c trees c

/-- What each round of a repetition preserves, the repetition does. -/
theorem Reads.many {P : List Node → Cursor → Prop} (h : Reads g (.many body) trees c out d)
    (hbody : ∀ {trees c out d}, Reads g body trees c out d → P trees c → P out d) (hP : P trees c) :
    P out d := by
  generalize hphrase : Phrase.many body = phrase at h
  induction h with
  | stop => exact hP
  | again h _ _ ihmore =>
    cases hphrase
    exact ihmore (hbody h hP) rfl
  | _ => cases hphrase

/-- An attempt that gives nothing but what a phrase reads. -/
def Follows (g : Grammar τ ρ) (phrase : Phrase τ ρ) (attempt : List Node → Cursor → Cursor → Attempt) :
    Prop :=
  ∀ trees c far out d, (attempt trees c far).result = some (out, d) → Reads g phrase trees c out d

/-- A repetition reads what its body reads, several times. -/
theorem follows_repeatWhile {attempt : List Node → Cursor → Cursor → Attempt}
    (h : g.Follows body attempt) (bound : Nat) :
    g.Follows (.many body) (repeatWhile attempt bound) := by
  induction bound with
  | zero =>
    intro trees c far out d hresult
    cases hresult
    exact .stop
  | succ bound ih =>
    intro trees c far out d hresult
    rw [repeatWhile] at hresult
    split at hresult
    · rename_i trees' c' far' hattempt
      split at hresult
      · exact .again (h trees c far trees' c' (by rw [hattempt])) (ih _ _ _ _ _ hresult)
      · -- a round that does not move on ends the repetition, and what it has read is dropped
        cases hresult
        exact .stop
    · cases hresult
      exact .stop

/-- A run reads what its phrase can read. -/
theorem reads_of_run (g : Grammar τ ρ) (depth : Nat) (phrase : Phrase τ ρ) :
    g.Follows phrase (g.run depth phrase) := by
  -- the parts of a phrase are run one level down
  induction depth generalizing phrase with
  | zero =>
    intro trees c far out d hresult
    cases hresult
  | succ depth ih =>
    intro trees c far out d hresult
    cases phrase with
    | terminal t =>
      rw [run] at hresult
      split at hresult
      · rename_i tokens c' hread
        cases hresult
        exact .terminal hread
      · cases hresult
    | rule name => exact .rule (ih (g.phrase name) _ _ _ _ _ hresult)
    | nothing =>
      cases hresult
      exact .nothing
    | seq first second =>
      rw [run] at hresult
      split at hresult
      · rename_i trees' c' far' hfirst
        exact .seq (ih first trees c far trees' c' (by rw [hfirst])) (ih second _ _ _ _ _ hresult)
      · cases hresult
    | choice first second =>
      rw [run] at hresult
      split at hresult
      · rename_i result far' hfirst
        cases hresult
        exact .first (ih first trees c far out d (by rw [hfirst]))
      · exact .second (ih second _ _ _ _ _ hresult)
    | many body => exact follows_repeatWhile (ih body) depth _ _ _ _ _ hresult
    | node kind body =>
      rw [run] at hresult
      split at hresult
      · rename_i inner c' far' hbody
        cases hresult
        exact .node (ih body [] c far inner d (by rw [hbody]))
      · cases hresult
    | gather kind body =>
      rw [run] at hresult
      split at hresult
      · rename_i tree c' far' hbody
        cases hresult
        exact .single (ih body [] c far [tree] d (by rw [hbody]))
      · rename_i inner c' far' _ hbody
        cases hresult
        exact .gather (ih body [] c far inner d (by rw [hbody]))
      · cases hresult
    | extend kind field body =>
      cases trees with
      | nil => cases hresult
      | cons front before =>
        rw [run] at hresult
        split at hresult
        · rename_i inner c' far' hbody
          cases hresult
          exact .extend (ih body [] c far inner d (by rw [hbody]))
        · cases hresult
    | field field body =>
      rw [run] at hresult
      split at hresult
      · rename_i inner c' far' hbody
        cases hresult
        exact .field (ih body [] c far inner d (by rw [hbody]))
      · cases hresult
    | ahead body =>
      rw [run] at hresult
      split at hresult
      · cases hresult
        exact .ahead
      · cases hresult
    | notAhead body =>
      rw [run] at hresult
      split at hresult
      · cases hresult
      · cases hresult
        exact .notAhead

/-- The tree of a text that follows a grammar holds what the first rule reads. -/
theorem reads_of_parse {kind : String} {start : ρ} (h : (g.parse kind start c).hasError = false) :
    ∃ trees d, Reads g (.rule start) [] c trees d ∧ (g.parse kind start c).root =
      .mk { kind := kind, start := c.offset, stop := d.offset, row := c.row } trees.reverse := by
  unfold parse at h ⊢
  split at h
  · rename_i trees d far' hrun
    exact ⟨trees, d, reads_of_run g _ _ [] c c trees d (by rw [hrun]), rfl⟩
  · cases h

end Grammar

end ModuleAtlas.Syntax
