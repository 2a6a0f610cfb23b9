import TypeEnv.Json.Reader
import TypeEnv.Layout.Fault
import TypeEnv.Options.Basic

/-! Reading options from a JSON text. Options are an object, or an array of their values in order;
what is left out keeps its default, and an object may have other members. The text is judged token
by token, so the first fault in it is the one reported, be it in the JSON or in the options. A value
that is passed over has to have the form of JSON and nothing more. -/

namespace TypeEnv

inductive OptionsError where
  | notJson
  /-- A fault, and how far the text had been read when it was found. -/
  | misfit (fault : Fault) (position : Json.Position)
  deriving Inhabited

def OptionsError.message : OptionsError → String
  | notJson => "invalid JSON"
  | misfit fault _ => fault.message

/-- The message with the position, where there is one. -/
def OptionsError.locatedMessage (error : OptionsError) : String :=
  match error with
  | notJson => error.message
  | misfit _ position => error.message ++ s!" at line {position.line} column {position.column}"

namespace LoadOptions

open Json (Token Located Reader)

def flatName : String := "requireFlatGlobals"
def nullsName : String := "nullRecords"

/-- The options that have been read. In an array, also the names of those that may follow. -/
structure Draft where
  following : Option (List String) := none
  requireFlatGlobals : Option Bool := none
  nullRecords : Option NullRecords := none

def Draft.options (draft : Draft) : LoadOptions where
  requireFlatGlobals := draft.requireFlatGlobals.getD true
  nullRecords := draft.nullRecords.getD .reject

def Draft.has (draft : Draft) (name : String) : Bool :=
  (name = flatName && draft.requireFlatGlobals.isSome) ||
    (name = nullsName && draft.nullRecords.isSome)

/-- What may come next. -/
inductive State where
  | start
  | firstItem (draft : Draft)
  | key (draft : Draft) (first : Bool)
  | colon (draft : Draft) (name : String)
  | value (draft : Draft) (name : String)
  | skipping (draft : Draft) (reader : Reader)
  /-- The policy for nulls can be written as an object with a null under its name. -/
  | policyKey (draft : Draft)
  | policyColon (draft : Draft) (policy : NullRecords)
  | policyValue (draft : Draft) (policy : NullRecords)
  | policyEnd (draft : Draft) (policy : NullRecords)
  | separator (draft : Draft)
  /-- An option came twice. What follows, or the end of the text, tells how far that was read. -/
  | repeated (name : String)
  | done (options : LoadOptions)

abbrev Step := Except OptionsError State

/-- A token in the place of something else. Only the first token of an array or object is seen, and
it is not read yet when it is judged. -/
def mismatch (found : Located) (expected : Expected) : Step :=
  let misfit (json : Json) (position : Json.Position) : Step :=
    throw (.misfit (.mismatch json expected) position)
  match found.token with
  | .null => misfit .null found.stop
  | .bool b => misfit (.bool b) found.stop
  | .number (some n) => misfit (.number n) found.stop
  | .string (some s) => misfit (.string s) found.stop
  | .openArray => misfit (.array []) found.start
  | .openObject => misfit (.object []) found.start
  | _ => throw .notJson

/-- The policy with a name that ends at `position`. -/
def policy (name : String) (position : Json.Position) : Except OptionsError NullRecords :=
  match NullRecords.ofName? name with
  | some policy => .ok policy
  | none => throw (.misfit (.unknownVariant name (NullRecords.all.map (·.name))) position)

/-- After a token of a value that is passed over. -/
def skip (draft : Draft) (reader : Reader) (token : Token) : Step :=
  match reader.step Reader.skipped token with
  | some (.done _) => return .separator draft
  | some reader => return .skipping draft reader
  | none => throw .notJson

/-- A token where the value of an option begins. -/
def startValue (draft : Draft) (name : String) (found : Located) : Step :=
  if name = flatName then
    match found.token with
    | .bool b => return .separator { draft with requireFlatGlobals := some b }
    | _ => mismatch found .boolean
  else if name = nullsName then
    match found.token with
    | .string (some text) => do
      return .separator { draft with nullRecords := some (← policy text found.stop) }
    | .openObject => return .policyKey draft
    | _ => throw .notJson
  else skip draft (.value []) found.token

def step (state : State) (found : Located) : Step :=
  match state, found.token with
  | .start, .openObject => return .key {} true
  | .start, .openArray => return .firstItem { following := some [nullsName] }
  | .start, _ => mismatch found (.layout "ReaderOptions")
  | .firstItem draft, .closeArray => return .done draft.options
  | .firstItem draft, _ => startValue draft flatName found
  | .key draft true, .closeObject => return .done draft.options
  | .key draft _, .string (some name) =>
    return if draft.has name then .repeated name else .colon draft name
  | .repeated name, .closeObject => throw (.misfit (.duplicateField name) found.stop)
  | .repeated name, _ => throw (.misfit (.duplicateField name) found.start)
  | .colon draft name, .colon => return .value draft name
  | .value draft name, _ => startValue draft name found
  | .skipping draft reader, token => skip draft reader token
  | .policyKey draft, .string (some text) => return .policyColon draft (← policy text found.stop)
  | .policyColon draft policy, .colon => return .policyValue draft policy
  | .policyValue draft policy, .null => return .policyEnd draft policy
  | .policyValue _ _, _ => mismatch found .unit
  | .policyEnd draft policy, .closeObject =>
    return .separator { draft with nullRecords := some policy }
  | .separator draft, token =>
    match draft.following, token with
    | none, .comma => return .key draft false
    | none, .closeObject => return .done draft.options
    | some (name :: names), .comma => return .value { draft with following := some names } name
    | some _, .closeArray => return .done draft.options
    | _, _ => throw .notJson
  | _, _ => throw .notJson

/-- The options that a text writes. -/
def ofText (text : String) : Except OptionsError LoadOptions := do
  match ← (Json.tokens text).foldlM step .start with
  | .done options => return options
  | .repeated name => throw (.misfit (.duplicateField name) (.endOf text))
  | _ => throw .notJson

end LoadOptions

end TypeEnv
