import ModuleAtlas.Report.Format
import ModuleAtlas.Text.Split

/-!
# Command-line arguments

The arguments name a command, and its options may stand anywhere after it. An option takes its value
from the rest of its own argument or from the next one, which must not look like an option. Two
hyphens end the options. Arguments are read in order, and the first fault or request for help
decides.
-/

namespace ModuleAtlas.CommandLine

/-- What to analyse and how to report it. -/
structure AnalyzeRequest where
  path : Option String := none
  format : Option ReportFormat := none
  /-- the configuration file, unless it is the one at the scan root -/
  config : Option String := none
  workers : Option Nat := none
  /-- further entry points -/
  entries : List String := []
  deriving DecidableEq, Repr

/-- What the program is asked to do. -/
inductive Request where
  | greeting
  | help
  /-- `--version` -/
  | versionFlag
  /-- `version` -/
  | version
  | analyze (request : AnalyzeRequest)
  /-- the arguments make no sense -/
  | misuse
  deriving DecidableEq, Repr

/-- The options with a value. -/
inductive ValueOption where
  | format
  | config
  | workers
  | entry
  deriving DecidableEq, Repr

namespace ValueOption

/-- The name of an option after two hyphens. -/
def longName : ValueOption → String
  | .format => "format"
  | .config => "config"
  | .workers => "workers"
  | .entry => "entry"

/-- The letter of an option after one hyphen. -/
def letter : ValueOption → Char
  | .format => 'f'
  | .config => 'c'
  | .workers => 'w'
  | .entry => 'e'

/-- All options with a value. -/
def every : List ValueOption := [.format, .config, .workers, .entry]

end ValueOption

/-- The largest number of workers that can be asked for. -/
def maxWorkers : Nat := Nat.pow 2 64 - 1

/-- A number of workers: digits with an optional plus sign. -/
def workers? (value : String) : Option Nat :=
  let digits := if value.toList.head? = some '+' then value.toList.drop 1 else value.toList
  if digits.isEmpty ∨ !digits.all Char.isDigit then none
  else
    let n := digits.foldl (fun n c => 10 * n + (c.toNat - 48)) 0
    if n ≤ maxWorkers then some n else none

/-- A path; it is not empty. -/
def path? (value : String) : Option String := if value = "" then none else some value

/-- Sets an option. All but the entry points can be set once. -/
def AnalyzeRequest.set? (request : AnalyzeRequest) (o : ValueOption) (value : String) :
    Option AnalyzeRequest :=
  match o with
  | .format =>
    if request.format.isSome then none
    else (ReportFormat.ofName? value).map fun format => { request with format := some format }
  | .config =>
    if request.config.isSome then none
    else (path? value).map fun path => { request with config := some path }
  | .workers =>
    if request.workers.isSome then none
    else (workers? value).map fun n => { request with workers := some n }
  | .entry => some { request with entries := request.entries ++ [value] }

/-- Sets the path to analyse, which can be given once. -/
def AnalyzeRequest.setPath? (request : AnalyzeRequest) (value : String) : Option AnalyzeRequest :=
  if request.path.isSome then none
  else (path? value).map fun path => { request with path := some path }

/-- What one argument says by its form. -/
inductive Argument where
  | help
  /-- an option without its value -/
  | option (o : ValueOption)
  /-- an option with its value -/
  | optionWith (o : ValueOption) (value : String)
  | unknownOption
  /-- two hyphens -/
  | endOfOptions
  | plain (value : String)
  deriving DecidableEq, Repr

/-- The form of an argument after two hyphens. -/
def longArgument (text : List Char) : Argument :=
  let name := String.ofList (text.takeWhile (· != '='))
  let rest := text.dropWhile (· != '=')
  match ValueOption.every.find? (·.longName = name) with
  | some o => if rest.isEmpty then .option o else .optionWith o (String.ofList (rest.drop 1))
  | none => if name = "help" ∧ rest.isEmpty then .help else .unknownOption

/-- The form of an argument after one hyphen. -/
def shortArgument : List Char → Argument
  | [] => .unknownOption
  | letter :: rest =>
    match ValueOption.every.find? (·.letter = letter) with
    | some o =>
      if rest.isEmpty then .option o
      else .optionWith o (String.ofList (if rest.head? = some '=' then rest.drop 1 else rest))
    | none => if letter = 'h' then .help else .unknownOption

/-- The form of an argument. A single hyphen is a plain value. -/
def argument (text : String) : Argument :=
  match text.toList with
  | ['-', '-'] => .endOfOptions
  | '-' :: '-' :: rest => longArgument rest
  | ['-'] => .plain text
  | '-' :: rest => shortArgument rest
  | _ => .plain text

/-- Paths after two hyphens. -/
def readPaths (request : AnalyzeRequest) : List String → Request
  | [] => .analyze request
  | value :: rest =>
    match request.setPath? value with
    | some request => readPaths request rest
    | none => .misuse

/-- The arguments of an analysis. -/
def readAnalyze (request : AnalyzeRequest) : List String → Request
  | [] => .analyze request
  | text :: rest =>
    match argument text with
    | .help => .help
    | .unknownOption => .misuse
    | .endOfOptions => readPaths request rest
    | .plain value =>
      match request.setPath? value with
      | some request => readAnalyze request rest
      | none => .misuse
    | .optionWith o value =>
      match request.set? o value with
      | some request => readAnalyze request rest
      | none => .misuse
    | .option o =>
      match rest with
      | [] => .misuse
      | next :: rest =>
        match argument next with
        | .plain value =>
          match request.set? o value with
          | some request => readAnalyze request rest
          | none => .misuse
        | _ => .misuse

/-- The arguments of the version command: there are none, but help may be asked for. -/
def readVersion : List String → Request
  | [] => .version
  | text :: rest =>
    match argument text with
    | .help => .help
    | .endOfOptions => if rest.isEmpty then .version else .misuse
    | _ => .misuse

/-- The arguments of the help command: the name of a command, or none. -/
def readHelp : List String → Request
  | [] => .help
  | [name] => if ["analyze", "version", "help"].contains name then .help else .misuse
  | _ => .misuse

/-- What the arguments ask for. -/
def request : List String → Request
  | [] => .greeting
  | "analyze" :: rest => readAnalyze {} rest
  | "version" :: rest => readVersion rest
  | "help" :: rest => readHelp rest
  | "--" :: rest => if rest.isEmpty then .greeting else .misuse
  | text :: _ =>
    match text.toList with
    | '-' :: '-' :: name =>
      if String.ofList name = "version" then .versionFlag
      else if String.ofList name = "help" then .help
      else .misuse
    | '-' :: 'V' :: _ => .versionFlag
    | '-' :: 'h' :: _ => .help
    | _ => .misuse

end ModuleAtlas.CommandLine
