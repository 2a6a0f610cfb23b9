import TypeEnv.Proofs.Document.FieldSorts

/-! Edits of a document that say the same in another way: other orders of keys, keys that no layout
knows, fields left out that hold what stands for them anyway, and empty parts of catalogs. They are
made one at a time, at any depth. -/

namespace TypeEnv

open Reading

/-- A value that says no more than leaving the field out. -/
inductive FieldSort.Blank : FieldSort → Json → Prop where
  | default (value : Json) : Blank (.defaulted value) value
  | noReference : Blank .optionalReference .null
  | negative {n : Int} (hlow : -0x8000000000000000 ≤ n) (hneg : n < 0) :
    Blank .optionalReference (.number (.int n))
  | references : Blank .references (.array [])
  | properties : Blank .properties (.object [])
  | noProperties : Blank .optionalProperties .null
  | parameters : Blank .parameters (.array [])
  | target : Blank .target .null
  | signatures : Blank .signatures (.array [])
  | noConstructors : Blank .constructors .null
  | constructors : Blank .constructors (.array [])
  | noCatalog : Blank (.catalog true) .null
  | entries : Blank (.catalog true) (.array [])
  | tree : Blank (.catalog true) (.object [])
  | noLocations : Blank .locations .null
  | locations : Blank .locations (.object [])

/-- An empty subtree is dropped. -/
inductive Catalog.Pruned : Json → Json → Prop where
  | here (before after : List (String × Json)) (name : String) :
    Pruned (.object (before ++ (name, .object []) :: after)) (.object (before ++ after))
  | inside (before after : List (String × Json)) (name : String) {tree tree' : Json}
    (h : Pruned tree tree') :
    Pruned (.object (before ++ (name, tree) :: after)) (.object (before ++ (name, tree') :: after))

namespace Record

/-- The kind that a record names. -/
def kindOf? : Json → Option Kind
  | .object members => kind? members
  | _ => none

/-- How many elements the members of a tuple list. -/
def elementCount? (members : List (String × Json)) : Option Nat :=
  match members.lookup "elementTypes" with
  | some (.array elements) => some elements.length
  | some _ => none
  | none => some 0

end Record

mutual

/-- An edit in the value of a field. -/
inductive FieldSort.Edit : FieldSort → Json → Json → Prop where
  | blank {sort : FieldSort} {value value' : Json} (h : sort.Blank value) (h' : sort.Blank value') :
    FieldSort.Edit sort value value'
  | parameter (before after : List Json) {value value' : Json}
    (h : ObjectSort.Edit .parameter value value') :
    FieldSort.Edit .parameters (.array (before ++ value :: after)) (.array (before ++ value' :: after))
  | target {value value' : Json} (h : ObjectSort.Edit .signature value value') :
    FieldSort.Edit .target value value'
  | signature (before after : List Json) {value value' : Json}
    (h : ObjectSort.Edit .signature value value') :
    FieldSort.Edit .signatures (.array (before ++ value :: after)) (.array (before ++ value' :: after))
  | constructors {value value' : Json} (h : FieldSort.Edit .signatures value value') :
    FieldSort.Edit .constructors value value'
  | record (before after : List Json) {value value' : Json}
    (h : ObjectSort.Edit (.record (Record.kindOf? value)) value value') :
    FieldSort.Edit .records (.array (before ++ value :: after)) (.array (before ++ value' :: after))
  | entry (optional : Bool) (before after : List Json) {value value' : Json}
    (h : ObjectSort.Edit .catalogEntry value value') :
    FieldSort.Edit (.catalog optional) (.array (before ++ value :: after))
      (.array (before ++ value' :: after))
  | tree (optional : Bool) {tree tree' : Json} (h : Catalog.Pruned tree tree') :
    FieldSort.Edit (.catalog optional) tree tree'
  | location (files files' : List (String × Json)) (file : String)
    (before after : List (String × Json)) (key : String) {value value' : Json}
    (h : ObjectSort.Edit .location value value') :
    FieldSort.Edit .locations
      (.object (files ++ (file, .object (before ++ (key, value) :: after)) :: files'))
      (.object (files ++ (file, .object (before ++ (key, value') :: after)) :: files'))

/-- An edit of the members of an object with the fields `fields`. -/
inductive MembersEdit :
    List (String × FieldSort) → List (String × Json) → List (String × Json) → Prop where
  | reorder (fields : List (String × FieldSort)) {members members' : List (String × Json)}
    (h : members.Perm members') (hnodup : (members.map Prod.fst).Nodup) :
    MembersEdit fields members members'
  | unknown {fields : List (String × FieldSort)} (before after : List (String × Json)) {name : String}
    (value : Json) (hname : fields.lookup name = none) :
    MembersEdit fields (before ++ (name, value) :: after) (before ++ after)
  | blank {fields : List (String × FieldSort)} (before after : List (String × Json)) {name : String}
    {sort : FieldSort} {value : Json} (hname : fields.lookup name = some sort)
    (hblank : sort.Blank value) (hnodup : ((before ++ (name, value) :: after).map Prod.fst).Nodup) :
    MembersEdit fields (before ++ (name, value) :: after) (before ++ after)
  | value {fields : List (String × FieldSort)} (before after : List (String × Json)) {name : String}
    {sort : FieldSort} {value value' : Json} (hname : fields.lookup name = some sort)
    (h : FieldSort.Edit sort value value') :
    MembersEdit fields (before ++ (name, value) :: after) (before ++ (name, value') :: after)

/-- An edit of an object, or of an array that stands for one. -/
inductive ObjectSort.Edit : ObjectSort → Json → Json → Prop where
  | members {sort : ObjectSort} {members members' : List (String × Json)}
    (h : MembersEdit sort.fields members members') :
    ObjectSort.Edit sort (.object members) (.object members')
  | item {sort : ObjectSort} (before after : List Json) {name : String}
    {field : FieldSort} {value value' : Json} (hname : sort.fields[before.length]? = some (name, field))
    (h : FieldSort.Edit field value value') :
    ObjectSort.Edit sort (.array (before ++ value :: after)) (.array (before ++ value' :: after))
  | lastItem {sort : ObjectSort} (items : List Json) {name : String} {field : FieldSort} {value : Json}
    (hname : sort.fields[items.length]? = some (name, field)) (hblank : field.Blank value) :
    ObjectSort.Edit sort (.array (items ++ [value])) (.array items)
  | minLength (before after : List (String × Json)) {n : Nat}
    (hcount : Record.elementCount? (before ++ after) = some n)
    (hnodup : ((before ++ ("minLength", .number (.int n)) :: after).map Prod.fst).Nodup) :
    ObjectSort.Edit (.record (some .tuple)) (.object (before ++ ("minLength", .number (.int n)) :: after))
      (.object (before ++ after))

end

/-- An edit of a document. -/
inductive Document.Edit : Json → Json → Prop where
  | members {members members' : List (String × Json)} (h : MembersEdit documentFields members members') :
    Document.Edit (.object members) (.object members')

end TypeEnv
