import TypeEnv.CommandLine.Arguments
import TypeEnv.Options.Reader
import TypeEnv.Report

/-! What the program does with its arguments: it loads a document, and writes the counts, the
entries of a catalog, and the names that were to be looked up. How files are read is left open;
everything else is settled here, the text of both outputs and the exit code among it. -/

namespace TypeEnv.CommandLine

/-- Why a file of options gives no options. -/
inductive OptionsFailure where
  | unreadable (path : String) (failure : ReadFailure)
  | invalid (path : String) (error : OptionsError)
  deriving Inhabited

/-- Why the program fails. -/
inductive Failure where
  | options (failure : OptionsFailure)
  | load (path : String) (error : LoadError)
  deriving Inhabited

def OptionsFailure.message : OptionsFailure → String
  | unreadable path _ => s!"failed to read options file {path}"
  | invalid path _ => s!"invalid options file {path}"

def OptionsFailure.cause : OptionsFailure → String
  | unreadable _ failure => failure.message
  | invalid _ error => error.locatedMessage

def Failure.message : Failure → String
  | options failure => failure.message
  | load path _ => s!"failed to load spec {path}"

/-- What led to a failure, the nearest cause first. -/
def Failure.causes : Failure → List String
  | options failure => [failure.cause]
  | load _ error => error.message :: error.cause?.toList

/-- A text whose lines but the first are indented. -/
def hang (indent : String) (text : String) : String :=
  String.join (text.toList.map fun c => if c = '\n' then "\n" ++ indent else c.toString)

/-- Several causes are numbered, a single one is not. -/
def renderCauses : List String → String
  | [cause] => "\n    " ++ hang "    " cause
  | causes => String.join (causes.mapIdx fun index cause =>
      s!"\n    {index}: " ++ hang "       " cause)

def Failure.render (failure : Failure) : String :=
  "Error: " ++ failure.message ++ "\n\nCaused by:" ++ renderCauses failure.causes ++ "\n"

/-- What the program leaves behind. -/
structure Outcome where
  code : Nat
  stdout : String := ""
  stderr : String := ""
  deriving DecidableEq, Repr

def usage : String := "Usage: tsenv [OPTIONS] <SPEC>\n"

def help : String :=
  "Load and inspect a serialized TypeScript environment spec\n\n" ++ usage ++ "
Arguments:
  <SPEC>  Path to the spec JSON file

Options:
      --options <OPTIONS>        Reader options as a JSON file
      --allow-qualified-globals  Keep multi-segment global names instead of failing the load
      --skip-null-records        Leave null records unregistered instead of failing the load
      --list <LIST>              Print every entry of a catalog [globals, types, ambient]
      --lookup <LOOKUP>          Look up a named type by dotted path
      --json                     Emit the summary as JSON
  -h, --help                     Print help
  -V, --version                  Print version
"

def UsageError.outcome : UsageError → Outcome
  | help => { code := 0, stdout := CommandLine.help }
  | version => { code := 0, stdout := "tsenv 0.1.0\n" }
  | _ => { code := 2, stderr := usage }

/-- Flags go on top of the options of a file. -/
def Arguments.adjust (arguments : Arguments) (options : LoadOptions) : LoadOptions where
  requireFlatGlobals := options.requireFlatGlobals && !arguments.allowQualifiedGlobals
  nullRecords := if arguments.skipNullRecords then .skip else options.nullRecords

def CatalogName.select (environment : Environment) : CatalogName → NameTable
  | globals => environment.globals
  | types => environment.types
  | ambient => environment.ambient

/-- The line that answers a look-up. -/
def lookupLine (environment : Environment) (dotted : String) : String :=
  match environment.lookup? (splitName dotted) with
  | some id => dotted ++ "\t" ++ environment.graph.tagAt id ++ s!"\t#{id.val}"
  | none => dotted ++ "\tnot found"

/-- Everything that is written about an environment. -/
def Arguments.report (arguments : Arguments) (environment : Environment) : String :=
  let summary := Summary.of environment
  let listed := match arguments.list with
    | some catalog => NameTable.lines environment.graph (catalog.select environment)
    | none => []
  (if arguments.json then summary.renderJson ++ "\n" else summary.render) ++
    String.join ((listed ++ arguments.lookup.map (lookupLine environment)).map (· ++ "\n"))

section Files

variable {m : Type → Type} [Monad m] (readFile : String → m (Except ReadFailure String))

/-- The options for a load. -/
def Arguments.loadOptions (arguments : Arguments) :
    m (Except OptionsFailure LoadOptions) := do
  match arguments.options with
  | none => return .ok (arguments.adjust {})
  | some path =>
    match ← readFile path with
    | .error failure => return .error (.unreadable path failure)
    | .ok text =>
      match LoadOptions.ofText text with
      | .error error => return .error (.invalid path error)
      | .ok options => return .ok (arguments.adjust options)

/-- The environment that a file describes. -/
def loadFile (options : LoadOptions) (path : String) : m (Except LoadError Environment) := do
  match ← readFile path with
  | .error failure => return .error (.unreadable path failure)
  | .ok text => return Environment.ofText options text

def Arguments.run (arguments : Arguments) : m (Except Failure String) := do
  match ← arguments.loadOptions readFile with
  | .error failure => return .error (.options failure)
  | .ok options =>
    match ← loadFile readFile options arguments.spec with
    | .error error => return .error (.load arguments.spec error)
    | .ok environment => return .ok (arguments.report environment)

/-- The whole program. -/
def run (argv : List String) : m Outcome := do
  match Arguments.parse argv with
  | .error error => return error.outcome
  | .ok arguments =>
    match ← arguments.run readFile with
    | .error failure => return { code := 1, stderr := failure.render }
    | .ok stdout => return { code := 0, stdout }

end Files

end TypeEnv.CommandLine
