import TypeEnv.Json.Token
import TypeEnv.OrderedMap

/-! Reading a value from tokens. The containers that are open are kept in a list, innermost first,
so reading takes one step per token. At most 127 containers may be open at once. A key that repeats
in an object keeps its first place and takes its last value. -/

namespace TypeEnv.Json

/-- A container that is not closed yet. -/
inductive Container where
  /-- Items, newest first. -/
  | array (items : List Json)
  | object (members : OrderedMap String Json) (key : String)

/-- What may come next, inside the containers given. -/
inductive Reader where
  | value (containers : List Container)
  | firstItem (containers : List Container)
  /-- A key, or the end of the object if nothing stands in it yet. -/
  | key (members : OrderedMap String Json) (first : Bool) (containers : List Container)
  | colon (members : OrderedMap String Json) (key : String) (containers : List Container)
  | separator (innermost : Container) (containers : List Container)
  | done (value : Json)

namespace Reader

/-- What may be read. -/
structure Limits where
  /-- The greatest number of containers open at once. -/
  depth : Option Nat
  /-- Whether numbers have to be in range and strings have to be text. -/
  exact : Bool

/-- The limits of values that are kept. -/
def kept : Limits := { depth := some 127, exact := true }

/-- The limits of values that are passed over: their form alone counts. -/
def skipped : Limits := { depth := none, exact := false }

namespace Limits

def allows (limits : Limits) (containers : List Container) : Bool :=
  match limits.depth with
  | some depth => containers.length < depth
  | none => true

def number? (limits : Limits) (value : Option JsonNumber) : Option JsonNumber :=
  value <|> if limits.exact then none else some (.int 0)

def string? (limits : Limits) (text : Option String) : Option String :=
  text <|> if limits.exact then none else some ""

end Limits

/-- After a whole value. -/
def close (json : Json) : List Container → Reader
  | [] => .done json
  | .array items :: containers => .separator (.array (json :: items)) containers
  | .object members name :: containers =>
    .separator (.object (members.insert name json) name) containers

def finishContainer : Container → Json
  | .array items => .array items.reverse
  | .object members _ => .object members.entries

/-- A token where a value begins. -/
def startValue (limits : Limits) (containers : List Container) : Token → Option Reader
  | .null => some (close .null containers)
  | .bool b => some (close (.bool b) containers)
  | .number n => (limits.number? n).map fun n => close (.number n) containers
  | .string text => (limits.string? text).map fun s => close (.string s) containers
  | .openArray => if limits.allows containers then some (.firstItem containers) else none
  | .openObject => if limits.allows containers then some (.key ∅ true containers) else none
  | _ => none

def step (limits : Limits) (reader : Reader) (token : Token) : Option Reader :=
  match reader, token with
  | .value containers, token => startValue limits containers token
  | .firstItem containers, .closeArray => some (close (.array []) containers)
  | .firstItem containers, token => startValue limits (.array [] :: containers) token
  | .key members _ containers, .string text =>
    (limits.string? text).map fun name => .colon members name containers
  | .key members true containers, .closeObject => some (close (.object members.entries) containers)
  | .colon members name containers, .colon => some (.value (.object members name :: containers))
  | .separator (.array items) containers, .comma => some (.value (.array items :: containers))
  | .separator (.array items) containers, .closeArray =>
    some (close (finishContainer (.array items)) containers)
  | .separator (.object members _) containers, .comma => some (.key members false containers)
  | .separator (.object members name) containers, .closeObject =>
    some (close (finishContainer (.object members name)) containers)
  | _, _ => none

end Reader

/-- The value that a text writes, or `none` if it is no JSON text. -/
def parse? (text : String) : Option Json :=
  match ((tokens text).map (·.token)).foldlM (Reader.step Reader.kept) (.value []) with
  | some (.done value) => some value
  | _ => none

end TypeEnv.Json
