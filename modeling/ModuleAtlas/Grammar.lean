import ModuleAtlas.Grammar.EcmaScript
import ModuleAtlas.Grammar.Go
import ModuleAtlas.Grammar.Python

/-!
# The parser of the program

The analysis is written for any parser. The program runs with the one that reads each dialect by its
grammar here.
-/

namespace ModuleAtlas

open Syntax (Dialect Tree)

/-- The syntax tree of a text in a dialect. -/
def parseText : Dialect → String → Tree
  | .go => Go.parse
  | .python => Python.parse
  | .typeScript => EcmaScript.Variant.parse ⟨true, false⟩
  | .typeScriptMarkup => EcmaScript.Variant.parse ⟨true, true⟩
  | .javaScript => EcmaScript.Variant.parse ⟨false, true⟩

instance : Syntax.Parser := ⟨parseText⟩

end ModuleAtlas
