import TypeEnv.Proofs.Document.Edits
import Mathlib.Logic.Equiv.Defs

/-! Documents with other numbers. A permutation moves the records to other positions, and every number of
a record, in records, catalogs and locations, follows; negative numbers name no record and stay. What
fields hold numbers and how is told by the tables of the fields, so a key that no layout knows keeps its
value. -/

namespace TypeEnv

/-! ### Values -/

/-- The number of a record exchanged for another. -/
def Json.renumber (h : Int → Int) : Json → Json
  | .number (.int n) => .number (.int (h n))
  | json => json

mutual

/-- What a field of a record holds, with other numbers. -/
def FieldSort.renumber (h : Int → Int) : FieldSort → Json → Json
  | .reference, json | .optionalReference, json => json.renumber h
  | .references, .array items => .array (items.map (·.renumber h))
  | .properties, .object members | .optionalProperties, .object members =>
    .object (members.map fun member => (member.1, member.2.renumber h))
  | .parameters, .array items => .array (renumberObjects h .parameter items)
  | .target, .object members => .object (renumberMembers h ObjectSort.signature.fields members)
  | .target, .array items => .array (renumberItems h ObjectSort.signature.fields items)
  | .signatures, .array items | .constructors, .array items =>
    .array (renumberObjects h .signature items)
  | _, json => json
termination_by structural _ json => json

/-- An object, or an array that stands for one, with other numbers. -/
def ObjectSort.renumber (h : Int → Int) (sort : ObjectSort) : Json → Json
  | .object members => .object (renumberMembers h sort.fields members)
  | .array items => .array (renumberItems h sort.fields items)
  | json => json
termination_by structural json => json

def renumberObjects (h : Int → Int) (sort : ObjectSort) : List Json → List Json
  | [] => []
  | item :: items => sort.renumber h item :: renumberObjects h sort items
termination_by structural items => items

def renumberMembers (h : Int → Int) (fields : List (String × FieldSort)) :
    List (String × Json) → List (String × Json)
  | [] => []
  | (name, value) :: members =>
    (name, (fields.lookup name).elim value (·.renumber h value)) :: renumberMembers h fields members
termination_by structural members => members

def renumberItems (h : Int → Int) : List (String × FieldSort) → List Json → List Json
  | _, [] => []
  | [], items => items
  | field :: fields, item :: items => field.2.renumber h item :: renumberItems h fields items
termination_by structural _ items => items

end

mutual

/-- A tree of a catalog with other numbers at its leaves. -/
def Catalog.renumberTree (h : Int → Int) : Json → Json
  | .number (.int n) => .number (.int (h n))
  | .object branches => .object (renumberBranches h branches)
  | json => json
termination_by structural tree => tree

def Catalog.renumberBranches (h : Int → Int) : List (String × Json) → List (String × Json)
  | [] => []
  | (name, tree) :: branches => (name, renumberTree h tree) :: renumberBranches h branches
termination_by structural branches => branches

end

/-- The locations of one file with other numbers. -/
def Locations.renumberFile (h : Int → Int) : Json → Json
  | .object entries => .object (entries.map fun entry => (entry.1, ObjectSort.location.renumber h entry.2))
  | json => json

/-! ### Documents -/

/-- The entries of a list, the one at `k` moved to `p k`. -/
def moved {α : Type} (p : Equiv.Perm ℕ) (l : List α) : List α :=
  (List.range l.length).filterMap fun k => l[p.symm k]?

/-- The number that a reference becomes when the record at `k` is moved to `p k`. -/
def renumbered (p : Equiv.Perm ℕ) (n : Int) : Int :=
  if 0 ≤ n then p n.toNat else n

/-- What a field of a document holds when the record at `k` is moved to `p k`. -/
def FieldSort.move (p : Equiv.Perm ℕ) : FieldSort → Json → Json
  | .records, .array items => .array (moved p (items.map fun item =>
      (ObjectSort.record (Record.kindOf? item)).renumber (renumbered p) item))
  | .catalog _, .array items => .array (items.map (ObjectSort.catalogEntry.renumber (renumbered p)))
  | .catalog _, tree => Catalog.renumberTree (renumbered p) tree
  | .locations, .object files =>
    .object (files.map fun file => (file.1, Locations.renumberFile (renumbered p) file.2))
  | _, json => json

def Document.moveMembers (p : Equiv.Perm ℕ) (members : List (String × Json)) : List (String × Json) :=
  members.map fun member =>
    (member.1, (documentFields.lookup member.1).elim member.2 (·.move p member.2))

/-- The document whose record at `k` is moved to `p k`, with its references to it. -/
def Document.move (p : Equiv.Perm ℕ) : Json → Json
  | .object members => .object (moveMembers p members)
  | json => json

end TypeEnv
