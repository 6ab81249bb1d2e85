import ModuleAtlas.Extract.EcmaScript
import ModuleAtlas.Extract.Go
import ModuleAtlas.Extract.Python
import ModuleAtlas.Language
import ModuleAtlas.Syntax.Parser
import ModuleAtlas.Text.Split

/-!
# Source files

A source file as it was discovered, and the extraction of its imports and exports.
-/

namespace ModuleAtlas

/-- How the analysis treats a file. -/
inductive FileClass where
  | source
  | test
  | generated
  | excluded
  deriving DecidableEq, Repr

/-- The word for a class of files. -/
def FileClass.name : FileClass → String
  | .source => "source"
  | .test => "test"
  | .generated => "generated"
  | .excluded => "excluded"

/-- A discovered file. -/
structure SourceFile where
  /-- relative to the scan root, with `/` between segments -/
  path : String
  language : Language
  content : ByteArray
  fileClass : FileClass := .source

/-- Why nothing can be extracted from a file. -/
inductive ExtractError where
  | notUtf8 (path : String)
  | badSyntax (path : String) (line : Nat)
  deriving DecidableEq, Repr

/-- The text of an extraction error. -/
def ExtractError.message : ExtractError → String
  | .notUtf8 path => "File is not valid UTF-8: " ++ path
  | .badSyntax path line => "Syntax error in " ++ path ++ " at line " ++ toString line

/-- The grammar for the files of a language. The path tells the two grammars of TypeScript apart. -/
def dialectOf (language : Language) (path : String) : Syntax.Dialect :=
  match language with
  | .go => .go
  | .python => .python
  | .typeScript => if Text.endsWith ".tsx" path then .typeScriptMarkup else .typeScript
  | .javaScript => .javaScript

/-- What the syntax tree of a text in a language holds. -/
def Language.extraction : Language → Syntax.Node → String → Extraction
  | .go => Go.extraction
  | .python => Python.extraction
  | .typeScript | .javaScript => EcmaScript.extraction

variable [Syntax.Parser]

/-- The extraction of a text in a language, or the line where the text goes wrong. -/
def extractText (language : Language) (path : String) (text : String) : Except Nat Extraction :=
  let tree := Syntax.parse (dialectOf language path) text
  if tree.hasError then .error tree.faultLine else .ok (language.extraction tree.root text)

/-- The extraction of a file. -/
def SourceFile.extract (file : SourceFile) : Except ExtractError Extraction :=
  match String.fromUTF8? file.content with
  | none => .error (.notUtf8 file.path)
  | some text => (extractText file.language file.path text).mapError (.badSyntax file.path)

end ModuleAtlas
