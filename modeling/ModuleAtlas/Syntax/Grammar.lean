import ModuleAtlas.Syntax.Cursor
import ModuleAtlas.Syntax.Parser

/-!
# Grammars as values

A grammar is a set of parsing expressions, called phrases here: choices are ordered and repetition
takes all it can. `Grammar.run` tries a phrase at a cursor and gathers the trees it reads; beside the
result it keeps the furthest cursor at which a terminal was refused, which is where a text that does
not follow the grammar goes wrong.
-/

namespace ModuleAtlas.Syntax

/-- A parsing expression over terminals `τ` and rule names `ρ`. -/
inductive Phrase (τ ρ : Type) where
  | terminal (t : τ)
  | rule (name : ρ)
  | nothing
  | seq (first second : Phrase τ ρ)
  /-- the second is tried where the first fails -/
  | choice (first second : Phrase τ ρ)
  /-- as many in a row as there are -/
  | many (body : Phrase τ ρ)
  /-- gathers what the body reads under one node -/
  | node (kind : String) (body : Phrase τ ρ)
  /-- gathers what the body reads under one node if that is more than one tree -/
  | gather (kind : String) (body : Phrase τ ρ)
  /-- gathers the tree in front, which fills a field, and what the body reads under one node -/
  | extend (kind field : String) (body : Phrase τ ρ)
  /-- what the body reads fills a field of the node around it -/
  | field (name : String) (body : Phrase τ ρ)
  /-- succeeds where the body does and reads nothing -/
  | ahead (body : Phrase τ ρ)
  /-- succeeds where the body fails and reads nothing -/
  | notAhead (body : Phrase τ ρ)

namespace Phrase

variable {τ ρ : Type}

/-- One phrase after the other. -/
def all : List (Phrase τ ρ) → Phrase τ ρ
  | [] => nothing
  | [p] => p
  | p :: more => seq p (all more)

/-- The first of several phrases that succeeds. -/
def any : List (Phrase τ ρ) → Phrase τ ρ
  | [] => notAhead nothing
  | [p] => p
  | p :: more => choice p (any more)

/-- The phrase, or nothing where it fails. -/
def opt (p : Phrase τ ρ) : Phrase τ ρ := choice p nothing

/-- Several phrases one after the other, or nothing where they fail. -/
def maybe (ps : List (Phrase τ ρ)) : Phrase τ ρ := opt (all ps)

/-- One or more of the phrase. -/
def some (p : Phrase τ ρ) : Phrase τ ρ := seq p (many p)

/-- One or more of the phrase with separators between them. -/
def sepBy (sep p : Phrase τ ρ) : Phrase τ ρ := seq p (many (seq sep p))

/-- Any number of the phrase with separators between them and perhaps one at the end. -/
def listOf (sep p : Phrase τ ρ) : Phrase τ ρ := opt (seq (sepBy sep p) (opt sep))

end Phrase

/-- The node over some trees, which are given last first. There is none over no trees. -/
def Node.over (kind : String) (reversed : List Node) : List Node :=
  match reversed.reverse, reversed with
  | first :: more, last :: _ =>
    [.mk { kind := kind, start := first.start, stop := last.stop, row := first.row } (first :: more)]
  | _, _ => []

/-- A grammar: how its terminals are read, and the phrase behind each rule name. A terminal reads at
most one token and moves the cursor past it. -/
structure Grammar (τ ρ : Type) where
  read : τ → Cursor → Option (List Node × Cursor)
  phrase : ρ → Phrase τ ρ

/-- The outcome of trying a phrase: the trees gathered so far, last first, with the cursor after
them, or nothing; and the furthest cursor at which a terminal was refused. -/
structure Attempt where
  result : Option (List Node × Cursor)
  furthest : Cursor

/-- The cursor further on in the text; the first of two at the same place. -/
def Cursor.further (a b : Cursor) : Cursor := if a.offset < b.offset then b else a

/-- Repeats an attempt while it succeeds and moves on, at most `bound` times. -/
def repeatWhile (attempt : List Node → Cursor → Cursor → Attempt) :
    Nat → List Node → Cursor → Cursor → Attempt
  | 0, trees, c, far => ⟨some (trees, c), far⟩
  | bound + 1, trees, c, far =>
    match attempt trees c far with
    | ⟨some (trees', c'), far'⟩ =>
      if c.offset < c'.offset then repeatWhile attempt bound trees' c' far'
      else ⟨some (trees, c), far'⟩
    | ⟨none, far'⟩ => ⟨some (trees, c), far'⟩

namespace Grammar

variable {τ ρ : Type}

/-- Tries a phrase at cursor `c` with the trees read before it, last first. The first argument bounds
the depth of the attempt. -/
def run (g : Grammar τ ρ) : Nat → Phrase τ ρ → List Node → Cursor → Cursor → Attempt
  | 0, _, _, _, far => ⟨none, far⟩
  | depth + 1, phrase, trees, c, far =>
    match phrase with
    | .terminal t =>
      match g.read t c with
      | some (tokens, c') => ⟨some (tokens.reverse ++ trees, c'), far⟩
      | none => ⟨none, far.further c⟩
    | .rule name => run g depth (g.phrase name) trees c far
    | .nothing => ⟨some (trees, c), far⟩
    | .seq first second =>
      match run g depth first trees c far with
      | ⟨some (trees', c'), far'⟩ => run g depth second trees' c' far'
      | ⟨none, far'⟩ => ⟨none, far'⟩
    | .choice first second =>
      match run g depth first trees c far with
      | ⟨some result, far'⟩ => ⟨some result, far'⟩
      | ⟨none, far'⟩ => run g depth second trees c far'
    | .many body => repeatWhile (run g depth body) depth trees c far
    | .node kind body =>
      match run g depth body [] c far with
      | ⟨some (inner, c'), far'⟩ => ⟨some (Node.over kind inner ++ trees, c'), far'⟩
      | ⟨none, far'⟩ => ⟨none, far'⟩
    | .gather kind body =>
      match run g depth body [] c far with
      | ⟨some ([tree], c'), far'⟩ => ⟨some (tree :: trees, c'), far'⟩
      | ⟨some (inner, c'), far'⟩ => ⟨some (Node.over kind inner ++ trees, c'), far'⟩
      | ⟨none, far'⟩ => ⟨none, far'⟩
    | .extend kind field body =>
      match trees with
      | [] => ⟨none, far⟩
      | front :: before =>
        match run g depth body [] c far with
        | ⟨some (inner, c'), far'⟩ =>
          ⟨some (Node.over kind (inner ++ [front.inField field]) ++ before, c'), far'⟩
        | ⟨none, far'⟩ => ⟨none, far'⟩
    | .field name body =>
      match run g depth body [] c far with
      | ⟨some (inner, c'), far'⟩ => ⟨some (inner.map (·.inField name) ++ trees, c'), far'⟩
      | ⟨none, far'⟩ => ⟨none, far'⟩
    | .ahead body =>
      match run g depth body [] c far with
      | ⟨some _, far'⟩ => ⟨some (trees, c), far'⟩
      | ⟨none, far'⟩ => ⟨none, far'⟩
    | .notAhead body =>
      match run g depth body [] c far with
      | ⟨some _, _⟩ => ⟨none, far.further c⟩
      | ⟨none, _⟩ => ⟨some (trees, c), far⟩

/-- A depth that no attempt on a text reaches: every rule that is entered again at the same place
has been entered at most a few thousand phrases before. -/
def depthFor (c : Cursor) : Nat := 10000 * (c.rest.length + 1)

/-- Reads a whole text as `start`, whose phrase has to reach the end of the text itself, under a root
of the given kind. In a text that does not follow the grammar, the fault stands where the furthest
cursor points. -/
def parse (g : Grammar τ ρ) (kind : String) (start : ρ) (c : Cursor) : Tree :=
  match g.run (depthFor c) (.rule start) [] c c with
  | ⟨some (trees, last), _⟩ =>
    ⟨.mk { kind := kind, start := c.offset, stop := last.offset, row := c.row } trees.reverse, false⟩
  | ⟨none, far⟩ =>
    let fault : Label := { kind := "ERROR", isFault := true, start := far.offset, stop := far.offset,
                           row := far.faultRow }
    ⟨.mk { kind := kind, start := c.offset, stop := far.offset, row := c.row } [.mk fault []], true⟩

end Grammar

end ModuleAtlas.Syntax
