/-! The closed set of kinds a type can have, and the tag each one is written with. A record of an
environment names its kind by tag; the eleven simple kinds say everything about their type, the
others come with fields of their own. -/

namespace TypeEnv

/-- Kinds that carry no fields. -/
inductive SimpleKind where
  | any | string | number | boolean | void | undefined | null | never | symbol | object
  | enumeration
  deriving DecidableEq, Repr, Inhabited

inductive Kind where
  | simple (kind : SimpleKind)
  | stringLiteral | booleanLiteral | numberLiteral
  | interface | classDeclaration | classInstance | generic
  | reference | tuple | union | intersection
  | typeParameter | thisType | index | indexedAccess | anonymous
  deriving DecidableEq, Repr, Inhabited

namespace SimpleKind

/-- Every simple kind, in the order of the tag list. -/
def all : List SimpleKind :=
  [any, string, number, boolean, void, undefined, null, never, symbol, object, enumeration]

def tag : SimpleKind → String
  | any => "Any"
  | string => "String"
  | number => "Number"
  | boolean => "Boolean"
  | void => "Void"
  | undefined => "Undefined"
  | null => "Null"
  | never => "Never"
  | symbol => "Symbol"
  | object => "Object"
  | enumeration => "Enum"

end SimpleKind

namespace Kind

/-- Every kind, in the order of the tag list. -/
def all : List Kind :=
  SimpleKind.all.map simple ++
    [stringLiteral, booleanLiteral, numberLiteral, interface, classDeclaration, classInstance,
      generic, reference, tuple, union, intersection, typeParameter, thisType, index,
      indexedAccess, anonymous]

def tag : Kind → String
  | simple kind => kind.tag
  | stringLiteral => "StringLiteral"
  | booleanLiteral => "BooleanLiteral"
  | numberLiteral => "NumberLiteral"
  | interface => "Interface"
  | classDeclaration => "Class"
  | classInstance => "ClassInstance"
  | generic => "Generic"
  | reference => "Reference"
  | tuple => "Tuple"
  | union => "Union"
  | intersection => "Intersection"
  | typeParameter => "TypeParameter"
  | thisType => "ThisType"
  | index => "Index"
  | indexedAccess => "IndexedAccess"
  | anonymous => "Anonymous"

/-- The kind written with `text`; tags are case-sensitive. -/
def ofTag? (text : String) : Option Kind :=
  all.find? (·.tag == text)

/-- What is said of a tag that no kind is written with. -/
def unknownMessage (tag : String) : String := s!"unknown type kind `{tag}`"

def simple? : Kind → Option SimpleKind
  | simple kind => some kind
  | _ => none

theorem mem_all (kind : Kind) : kind ∈ all := by
  cases kind with
  | simple kind => cases kind <;> decide
  | _ => decide

/-- No two kinds share a tag. -/
theorem ofTag?_tag (kind : Kind) : ofTag? kind.tag = some kind := by
  cases kind with
  | simple kind => cases kind <;> decide
  | _ => decide

end Kind

end TypeEnv
