import TypeEnv.Proofs.Document.Alike
import Mathlib.Logic.Relation

/-! The canonical form of a document: what is read from its fields, with what is left out filled in and
nothing looked up or checked against the rest. Edits that say the same in another way leave it as it
is. -/

namespace TypeEnv

open Reading

/-! ### Values -/

namespace Catalog

/-- Pruning a tree leaves its leaves where they are. -/
theorem Pruned.leaves_eq {tree tree' : Json} (h : Pruned tree tree') (path : List String) :
    leaves path tree = leaves path tree' := by
  induction h generalizing path with
  | here before after name =>
    simp [leaves, branchLeaves_eq, forestLeaves, branchLeaves]
  | inside before after name _ ih =>
    simp [leaves, branchLeaves_eq, forestLeaves, ih]

theorem Pruned.listing?_eq {tree tree' : Json} (h : Pruned tree tree') : listing? tree = listing? tree' := by
  cases h with
  | here before after name => rw [listing?, listing?, (Pruned.here before after name).leaves_eq]
  | inside before after name h => rw [listing?, listing?, (h.inside before after name).leaves_eq]

theorem Pruned.isNull {tree tree' : Json} (h : Pruned tree tree') :
    tree.isNull = false ∧ tree'.isNull = false := by
  cases h <;> exact ⟨rfl, rfl⟩

end Catalog

theorem toOption_readMap_set {α : Type} {read : Json → Except Fault α}
    {before after : List (String × Json)} {key : String} {value value' : Json}
    (h : (read value).toOption = (read value').toOption) :
    ((Json.object (before ++ (key, value) :: after)).readMap read).toOption =
      ((Json.object (before ++ (key, value') :: after)).readMap read).toOption := by
  have hentry : (do return (key, ← read value) : Except Fault (String × α)).toOption =
      (do return (key, ← read value') : Except Fault (String × α)).toOption := by
    simp only [toOption_bind, h]
  simp only [Json.readMap, toOption_bind]
  exact congrArg (Option.bind · _) (toOption_mapM_set
    (f := fun member : String × Json => (do return (member.1, ← read member.2) : Except Fault (String × α))) hentry)

namespace Record

theorem readSignatures_array (items : List Json) : readSignatures (.array items) = items.mapM readSignature := by
  rw [readSignatures]
  induction items with
  | nil => rfl
  | cons item items ih => rw [readSignatureItems, ih, List.mapM_cons]

theorem viewMembers_eq (members : List (String × Json)) :
    viewMembers members = members.map fun member => (member.1, view member.2) := by
  induction members with
  | nil => rfl
  | cons member members ih => rw [viewMembers, ih]; rfl

theorem viewItems_eq (items : List Json) : viewItems items = items.map view := by
  induction items with
  | nil => rfl
  | cons item items ih => rw [viewItems, ih]; rfl

theorem readSignature_eq (json : Json) :
    readSignature json = .ofSignature <$> (signatureLayout.comap view).read json := by
  cases json with
  | object members =>
    rw [readSignature, viewMembers_eq, ← Layout.comap_ofMembers]
    rfl
  | array items =>
    rw [readSignature, viewItems_eq, ← Layout.comap_ofItems]
    rfl
  | _ => rfl

end Record

/-! ### Edits -/

/-- Two values that are read alike as objects of the sort. -/
def ObjectSort.Alike (sort : ObjectSort) (value value' : Json) : Prop :=
  match sort with
  | .record kind => Record.kindOf? value = kind →
    Record.spelledOrNull? value = Record.spelledOrNull? value'
  | .signature => (Record.readSignature value).toOption = (Record.readSignature value').toOption
  | .parameter =>
    (Record.parameterLayout.read value).toOption = (Record.parameterLayout.read value').toOption
  | .catalogEntry =>
    (Catalog.entryLayout.read value).toOption = (Catalog.entryLayout.read value').toOption
  | .location =>
    (Locations.fieldsLayout.read value).toOption = (Locations.fieldsLayout.read value').toOption

/-- Values that every layout with the fields of the sort reads alike. -/
theorem ObjectSort.alike_of_layouts {sort : ObjectSort} {value value' : Json}
    (hrecord : ∀ kind, sort = .record kind → Record.kindOf? value = kind →
      Record.spelledOrNull? value = Record.spelledOrNull? value')
    (hlayout : ∀ {ρ : Type} {layout : Layout Json ρ}, layout.Fits sort.fields →
      (layout.read value).toOption = (layout.read value').toOption) : sort.Alike value value' := by
  cases sort with
  | record kind => exact hrecord kind rfl
  | signature =>
    rw [Alike, Record.readSignature_eq, Record.readSignature_eq, toOption_map, toOption_map,
      hlayout signatureLayout_fits]
  | parameter => exact hlayout parameterLayout_fits
  | catalogEntry => exact hlayout entryLayout_fits
  | location => exact hlayout fieldsLayout_fits

theorem ObjectSort.Edit.isNull {sort : ObjectSort} {value value' : Json} (h : sort.Edit value value') :
    value.isNull = false ∧ value'.isNull = false := by
  cases h <;> exact ⟨rfl, rfl⟩

theorem readNullable_eq {α : Type} {read : Json → Except Fault α} {value : Json}
    (h : value.isNull = false) : value.readNullable read = some <$> read value := by
  cases value with
  | null => cases h
  | _ => rfl

theorem FieldSort.Edit.isNull {value value' : Json} (h : FieldSort.Edit .signatures value value') :
    value.isNull = false ∧ value'.isNull = false := by
  cases h with
  | blank h h' => cases h; cases h'; exact ⟨rfl, rfl⟩
  | signature => exact ⟨rfl, rfl⟩

mutual

/-- Each case of an edit, from the edits inside it. -/
theorem FieldSort.Edit.read?_eq {sort : FieldSort} {value value' : Json} :
    sort.Edit value value' → sort.read? value = sort.read? value'
  | .blank h h' => by
    obtain ⟨x, hx, hread⟩ := h.read?
    obtain ⟨x', hx', hread'⟩ := h'.read?
    rw [hread, hread', ← hx, ← hx']
  | .parameter before after h => toOption_mapM_set h.alike
  | .target h => by
    have halike : (Record.readSignature _).toOption = (Record.readSignature _).toOption := h.alike
    simp only [FieldSort.read?, readNullable_eq h.isNull.1, readNullable_eq h.isNull.2, toOption_map, halike]
    rfl
  | .signature before after h => by
    simp only [FieldSort.read?, Record.readSignatures_array]
    exact toOption_mapM_set h.alike
  | .constructors h => by
    have hread : (Record.readSignatures _).toOption = (Record.readSignatures _).toOption := h.read?_eq
    simp only [FieldSort.read?, readNullable_eq h.isNull.1, readNullable_eq h.isNull.2, toOption_map, hread]
  | .record before after h => by
    have halike := h.alike rfl
    simp only [FieldSort.read?, List.mapM_append, List.mapM_cons, halike]
    rfl
  | .entry optional before after h => by
    have hentries : ((before ++ _ :: after).mapM Catalog.entryLayout.read).toOption =
        ((before ++ _ :: after).mapM Catalog.entryLayout.read).toOption := toOption_mapM_set h.alike
    simp only [FieldSort.read?, Json.isNull, Bool.and_false, Bool.false_eq_true, Catalog.listing?, hentries]
  | .tree optional h => by
    simp only [FieldSort.read?, h.isNull.1, h.isNull.2, h.listing?_eq]
  | .location files files' file before after key h => by
    simp only [FieldSort.read?, Json.isNull, Bool.false_eq_true]
    exact toOption_readMap_set (toOption_readMap_set h.alike)

theorem MembersEdit.alike {fields : List (String × FieldSort)} {members members' : List (String × Json)} :
    MembersEdit fields members members' → MembersAlike fields members members'
  | .reorder _ h hnodup => .reorder h hnodup
  | .unknown before after value hname => .unknown hname
  | .blank before after hname hblank hnodup => .blank hname hblank hnodup
  | .value before after hname h => .set hname h.read?_eq

theorem ObjectSort.Edit.alike {sort : ObjectSort} {value value' : Json} :
    sort.Edit value value' → sort.Alike value value'
  | .members h => by
    have halike := h.alike
    refine ObjectSort.alike_of_layouts (fun kind hsort hkind => Record.spelledOrNull?_eq ?_) fun hlayout =>
      halike.ofMembers hlayout.fitsIn_self
    rwa [hsort, ← hkind] at halike
  | .item before after hname h => ObjectSort.alike_of_layouts (fun _ _ _ => rfl) fun hlayout =>
    hlayout.ofItems_set hname h.read?_eq
  | .lastItem items hname hblank => ObjectSort.alike_of_layouts (fun _ _ _ => rfl) fun hlayout =>
    hlayout.ofItems_blank hname hblank
  | .minLength before after hcount hnodup => fun hkind =>
    congrArg (Option.map some) (Record.spelled?_minLength hkind hcount hnodup)

end

/-! ### Documents -/

namespace Document

/-- What a document says, field by field. -/
structure Canonical where
  records : List (Option (NestedRecord Int))
  globals : List (List String × Int)
  types : List (List String × Int)
  ambient : List (List String × Int)
  locations : OrderedMap String (OrderedMap String Locations.Fields)

def canonical? : Json → Option Canonical
  | .object members => do
    return {
      records := ← readField? members "data" .records
      globals := ← readField? members "globals" (.catalog false)
      types := ← readField? members "types" (.catalog false)
      ambient := ← readField? members "ambient" (.catalog true)
      locations := ← readField? members "locations" .locations }
  | _ => none

theorem canonical?_eq_some {json : Json} {c : Canonical} : canonical? json = some c ↔
    ∃ members, json = .object members ∧ readField? members "data" .records = some c.records ∧
      readField? members "globals" (.catalog false) = some c.globals ∧
      readField? members "types" (.catalog false) = some c.types ∧
      readField? members "ambient" (.catalog true) = some c.ambient ∧
      readField? members "locations" .locations = some c.locations := by
  cases json with
  | object members =>
    simp only [canonical?, Option.bind_eq_bind, Option.bind_eq_some_iff, Option.pure_def, Option.some.injEq,
      Json.object.injEq, exists_eq_left']
    constructor
    · rintro ⟨records, hrecords, globals, hglobals, types, htypes, ambient, hambient, locations,
        hlocations, rfl⟩
      exact ⟨hrecords, hglobals, htypes, hambient, hlocations⟩
    · rintro ⟨hrecords, hglobals, htypes, hambient, hlocations⟩
      exact ⟨_, hrecords, _, hglobals, _, htypes, _, hambient, _, hlocations, rfl⟩
  | _ => exact ⟨nofun, nofun⟩

theorem Edit.canonical?_eq {json json' : Json} (h : Edit json json') : canonical? json = canonical? json' := by
  obtain @⟨members, members', h⟩ := h
  have hfield : ∀ name sort, documentFields.lookup name = some sort →
      readField? members name sort = readField? members' name sort := fun _ _ => h.alike.field
  refine Option.ext fun c => ?_
  rw [canonical?_eq_some, canonical?_eq_some]
  simp only [Json.object.injEq, exists_eq_left', hfield "data" .records rfl,
    hfield "globals" (.catalog false) rfl, hfield "types" (.catalog false) rfl,
    hfield "ambient" (.catalog true) rfl, hfield "locations" .locations rfl]

/-- Documents that become each other by edits say the same. -/
theorem canonical?_eq_of_edits {json json' : Json} (h : Relation.EqvGen Edit json json') :
    canonical? json = canonical? json' := by
  induction h with
  | rel _ _ h => exact h.canonical?_eq
  | refl _ => rfl
  | symm _ _ _ ih => exact ih.symm
  | trans _ _ _ _ _ ih ih' => exact ih.trans ih'

end Document

end TypeEnv
