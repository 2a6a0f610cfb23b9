import TypeEnv.FileTree
import TypeEnv.Layout.Fault
import TypeEnv.Resolver

/-! Why an environment cannot be loaded. Every error ends the load. -/

namespace TypeEnv

/-- What is wrong at a place of a document. -/
inductive Defect where
  | notAnObject
  | sectionMissing
  | notAnArray
  | notACatalog
  | emptyName
  | notAnId (number : JsonNumber)
  | leafNotAnId
  | nullRecord
  | recordNotAnObject
  | kindNotText
  | kindMissing
  | tooManyRecords
  | tupleTooLong
  | misfit (fault : Fault)
  deriving Inhabited

inductive LoadError where
  | notJson
  | malformed (place : String) (defect : Defect)
  | unknownKind (id : RecordId) (tag : String)
  | resolution (error : ResolveError)
  | qualifiedGlobal (path : List String)
  | placeholderLeft (id : TypeId)
  | unreadable (path : String) (failure : ReadFailure)
  deriving Inhabited

def Defect.message : Defect → String
  | notAnObject => "top level is not an object"
  | sectionMissing => "missing required field"
  | notAnArray => "not an array"
  | notACatalog => "catalog is neither an array nor an object"
  | emptyName => "empty qualified name"
  | notAnId number => s!"`{number.render}` is not a valid type id"
  | leafNotAnId => "catalog leaf is not a type id"
  | nullRecord => "record is null"
  | recordNotAnObject => "record is not an object"
  | kindNotText => "`kind` is not a string"
  | kindMissing => "missing `kind`"
  | tooManyRecords => "too many records"
  | tupleTooLong => "tuple has too many elements"
  | misfit fault => fault.message

namespace LoadError

/-- What is wrong with an environment whose parts are each in order. -/
def violation? : LoadError → Option String
  | resolution error => error.violation?
  | qualifiedGlobal path =>
    some ("global `" ++ ".".intercalate path ++ "` has a qualified name of length " ++
      s!"{path.length}, expected 1")
  | placeholderLeft id => some s!"node #{id.val} is still a placeholder after resolution"
  | _ => none

def message (error : LoadError) : String :=
  match error with
  | notJson => "malformed spec at $: invalid JSON"
  | malformed place defect => s!"malformed spec at {place}: {defect.message}"
  | unknownKind id tag => s!"record {id.val} has unknown kind `{tag}`"
  | resolution (.duplicateId id) => s!"id {id.val} is registered twice"
  | resolution (.unresolvedId id) => s!"id {id.val} does not exist"
  | unreadable path _ => s!"failed to read {path}"
  | _ => "invariant violation: " ++ error.violation?.getD ""

/-- The error behind an error. -/
def cause? : LoadError → Option String
  | unreadable _ failure => some failure.message
  | _ => none

end LoadError

end TypeEnv
