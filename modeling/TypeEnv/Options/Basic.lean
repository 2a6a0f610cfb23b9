/-! What may be set for a load. -/

namespace TypeEnv

/-- What a null in the place of a record means. -/
inductive NullRecords where
  /-- The load fails. -/
  | reject
  /-- There is no record at this position. -/
  | skip
  deriving DecidableEq, Repr, Inhabited

structure LoadOptions where
  /-- Whether every global has to have a name of one segment. If not, the others stand in the
  catalog of globals but are no properties of the global node. -/
  requireFlatGlobals : Bool := true
  nullRecords : NullRecords := .reject
  deriving DecidableEq, Repr, Inhabited

def NullRecords.name : NullRecords → String
  | reject => "reject"
  | skip => "skip"

def NullRecords.all : List NullRecords := [reject, skip]

def NullRecords.ofName? (name : String) : Option NullRecords :=
  all.find? (·.name = name)

end TypeEnv
