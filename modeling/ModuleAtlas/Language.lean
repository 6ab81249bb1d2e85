import ModuleAtlas.Text.LowerCase

/-!
# Source languages

The languages whose module structure is analysed, and the file extensions that tell them.
-/

namespace ModuleAtlas

/-- A source language. -/
inductive Language where
  | go
  | python
  | typeScript
  | javaScript
  deriving DecidableEq, Repr

namespace Language

/-- The name of a language in reports. -/
def name : Language → String
  | .go => "go"
  | .python => "python"
  | .typeScript => "typescript"
  | .javaScript => "javascript"

/-- The extensions of each language, in lower case and without the point. -/
def extensions : Language → List String
  | .go => ["go"]
  | .python => ["py", "pyi"]
  | .typeScript => ["ts", "tsx", "mts", "cts"]
  | .javaScript => ["js", "jsx", "mjs", "cjs"]

/-- All languages. -/
def every : List Language := [.go, .python, .typeScript, .javaScript]

/-- The language of files with an extension; the case of the extension does not matter. -/
def ofExtension? (extension : String) : Option Language :=
  every.find? fun language => language.extensions.contains (Text.toLowerCase extension)

end Language

end ModuleAtlas
