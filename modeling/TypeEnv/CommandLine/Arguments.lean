/-! The arguments of the command line. Options take their value from the same argument, after an
equals sign, or from the next one; the value of an option is judged only when the next option or
positional argument comes, or the arguments end, so of two mistakes the later one can be the one
reported. After a lone `--` every argument is positional. -/

namespace TypeEnv.CommandLine

inductive CatalogName where
  | globals | types | ambient
  deriving DecidableEq, Repr, Inhabited

def CatalogName.name : CatalogName → String
  | globals => "globals"
  | types => "types"
  | ambient => "ambient"

def CatalogName.ofName? (name : String) : Option CatalogName :=
  [globals, types, ambient].find? (·.name = name)

structure Arguments where
  /-- The path of the document. -/
  spec : String
  /-- The path of a file of options. -/
  options : Option String := none
  allowQualifiedGlobals : Bool := false
  skipNullRecords : Bool := false
  /-- The catalog to list. -/
  list : Option CatalogName := none
  /-- Dotted names to look up. -/
  lookup : List String := []
  json : Bool := false
  deriving DecidableEq, Repr, Inhabited

/-- Why arguments are not taken. Asking for help or for the version is among them. -/
inductive UsageError where
  | missingArgument
  | unknownArgument
  | invalidValue
  | conflict
  | tooManyValues
  | help
  | version
  deriving DecidableEq, Repr, Inhabited

/-- What takes a value. -/
inductive Slot where
  | spec | options | list | lookup
  deriving DecidableEq, Repr

inductive Flag where
  | allowQualifiedGlobals | skipNullRecords | json | help | version
  deriving DecidableEq, Repr

/-- An option by its long name. -/
def option? : String → Option (Slot ⊕ Flag)
  | "options" => some (.inl .options)
  | "list" => some (.inl .list)
  | "lookup" => some (.inl .lookup)
  | "allow-qualified-globals" => some (.inr .allowQualifiedGlobals)
  | "skip-null-records" => some (.inr .skipNullRecords)
  | "json" => some (.inr .json)
  | "help" => some (.inr .help)
  | "version" => some (.inr .version)
  | _ => none

/-- The arguments that have been taken, with one whose value is not judged yet. -/
structure Draft where
  spec : Option String := none
  arguments : Arguments := { spec := "" }
  pending : Option (Slot × Option String) := none
  /-- Whether the pending option may take the next argument as its value. -/
  awaiting : Bool := false
  /-- Whether the positional argument has come. -/
  positionalTaken : Bool := false
  /-- Whether all further arguments are positional. -/
  trailing : Bool := false

namespace Draft

/-- Sets a path, which must not be empty, where none is set yet. -/
def path (old : Option String) (value : String) : Except UsageError String :=
  if old.isSome then throw .conflict
  else if value.isEmpty then throw .invalidValue
  else return value

def setSlot (draft : Draft) (slot : Slot) (value : String) : Except UsageError Draft := do
  match slot with
  | .spec => return { draft with spec := some (← path draft.spec value) }
  | .options =>
    let path ← path draft.arguments.options value
    return { draft with arguments.options := some path }
  | .list =>
    if draft.arguments.list.isSome then throw .conflict
    match CatalogName.ofName? value with
    | some catalog => return { draft with arguments.list := some catalog }
    | none => throw .invalidValue
  | .lookup =>
    return { draft with arguments.lookup := draft.arguments.lookup ++ [value] }

/-- Judges the pending value. -/
def settle (draft : Draft) : Except UsageError Draft :=
  match draft.pending with
  | none => .ok draft
  | some (_, none) => .error .invalidValue
  | some (slot, some value) => { draft with pending := none }.setSlot slot value

def setFlag (draft : Draft) : Flag → Except UsageError Draft
  | .allowQualifiedGlobals =>
    if draft.arguments.allowQualifiedGlobals then throw .conflict
    else return { draft with arguments.allowQualifiedGlobals := true }
  | .skipNullRecords =>
    if draft.arguments.skipNullRecords then throw .conflict
    else return { draft with arguments.skipNullRecords := true }
  | .json =>
    if draft.arguments.json then throw .conflict
    else return { draft with arguments.json := true }
  | .help => throw .help
  | .version => throw .version

/-- An option by its long name, with the value after an equals sign, if there is one. -/
def takeLong (draft : Draft) (name : String) (value : Option String) : Except UsageError Draft := do
  match option? name, value with
  | none, _ => throw .unknownArgument
  | some (.inr _), some _ => throw .tooManyValues
  | some (.inr flag), none =>
    let draft ← draft.settle
    return { ← draft.setFlag flag with awaiting := false }
  | some (.inl slot), some value =>
    let draft ← draft.settle
    return { ← draft.setSlot slot value with awaiting := false }
  | some (.inl slot), none =>
    return { ← draft.settle with pending := some (slot, none), awaiting := true }

/-- Options by their short names. Both known ones end the reading, so the first decides. -/
def takeShort (draft : Draft) (name : Char) : Except UsageError Draft := do
  match name with
  | 'h' =>
    let draft ← draft.settle
    draft.setFlag .help
  | 'V' =>
    let draft ← draft.settle
    draft.setFlag .version
  | _ => throw .unknownArgument

def takePositional (draft : Draft) (value : String) : Except UsageError Draft := do
  if draft.positionalTaken then
    throw .unknownArgument
  return { ← draft.settle with
    pending := some (.spec, some value), awaiting := false, positionalTaken := true }

/-- An argument that is no option: the value of the pending option, or a positional argument. -/
def takeValue (draft : Draft) (value : String) : Except UsageError Draft :=
  match draft.pending, draft.awaiting with
  | some (slot, _), true =>
    return { draft with pending := some (slot, some value), awaiting := false }
  | _, _ => draft.takePositional value

def take (draft : Draft) (argument : String) : Except UsageError Draft :=
  if draft.trailing then draft.takePositional argument
  else
    match argument.toList with
    | ['-', '-'] => return { draft with trailing := true }
    | '-' :: '-' :: long =>
      let name := String.ofList (long.takeWhile (· ≠ '='))
      match long.dropWhile (· ≠ '=') with
      | [] => draft.takeLong name none
      | _ :: value => draft.takeLong name (some (String.ofList value))
    | '-' :: short :: _ => draft.takeShort short
    | _ => draft.takeValue argument

end Draft

def Arguments.parse (argv : List String) : Except UsageError Arguments := do
  let draft ← argv.foldlM Draft.take {}
  let draft ← draft.settle
  match draft.spec with
  | some spec => return { draft.arguments with spec }
  | none => throw .missingArgument

end TypeEnv.CommandLine
