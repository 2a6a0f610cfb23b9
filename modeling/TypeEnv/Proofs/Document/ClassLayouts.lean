import TypeEnv.Proofs.Document.RecordFields
import TypeEnv.Proofs.Document.Records
import TypeEnv.Proofs.Graph.Traversal

/-! The two layouts of classes. A class lists its constructors among its construct signatures or apart from
them, and gives the properties of its instances or leaves them to be the declared ones. Classes that list the
same constructors in all, and have the same properties for their instances, are read as the same type. -/

namespace TypeEnv

open Reading

namespace Record

variable {members members' : List (String × Json)}

/-! ### Layouts of classes -/

/-- The items of a list that can be left out. -/
def items? : Option Json → Option (List Json)
  | none => some []
  | some (.array items) => some items
  | some _ => none

/-- The constructors of a class as it writes them down, its construct signatures and then the others. -/
def constructorItems? (members : List (String × Json)) : Option (List Json) := do
  return (← items? (members.lookup "declaredConstructSignatures")) ++
    (← items? (Document.section? members "signatures"))

/-- The properties of the instances of a class as it writes them down: the declared ones if it gives no others. -/
def instanceProperties (members : List (String × Json)) : Json :=
  (Document.section? members "instanceProperties").getD ((members.lookup "declaredProperties").getD (.object []))

/-- The second class differs from the first only in whether a constructor stands among the construct signatures
or after them under `signatures`, and in whether declared properties are repeated as those of the instances. -/
structure Relaid (members members' : List (String × Json)) : Prop where
  kind : members.lookup "kind" = some (.string Kind.classDeclaration.tag)
  nodup : (members.map Prod.fst).Nodup
  nodup' : (members'.map Prod.fst).Nodup
  others : ∀ name ∉ ["declaredConstructSignatures", "signatures", "instanceProperties"],
    members'.lookup name = members.lookup name
  constructors : constructorItems? members' = constructorItems? members
  instanceProperties : instanceProperties members' = instanceProperties members

/-- A list of signatures that can be left out. -/
def listed? (json? : Option Json) : Option (List SignatureTexts) :=
  json?.elim (some []) fun json => (readSignatures json).toOption

theorem listed?_eq_some {json? : Option Json} {signatures : List SignatureTexts} :
    listed? json? = some signatures ↔
      ∃ items, items? json? = some items ∧ items.mapM readSignature = .ok signatures := by
  cases json? with
  | none => simp [listed?, items?, eq_comm]
  | some json =>
    cases json with
    | array items => simp [listed?, items?, readSignatures_array, toOption_eq_some]
    | _ => simp [listed?, items?, readSignatures]

theorem readField?_constructors (members : List (String × Json)) :
    readField? members "signatures" .constructors = listed? (Document.section? members "signatures") := by
  rw [Document.section?, readField?]
  cases members.lookup "signatures" with
  | none => rfl
  | some json =>
    cases hnull : json.isNull with
    | true =>
      cases json with
      | null => rfl
      | _ => cases hnull
    | false =>
      rw [Option.filter_some_pos (by simp [hnull])]
      exact FieldSort.read?_constructors_of_isNull hnull

/-- The constructors of a class are read one after the other from wherever they stand. -/
theorem exists_constructors_iff {constructors : List SignatureTexts} :
    (∃ declared others, listed? (members.lookup "declaredConstructSignatures") = some declared ∧
      listed? (Document.section? members "signatures") = some others ∧ declared ++ others = constructors) ↔
      ∃ items, constructorItems? members = some items ∧ items.mapM readSignature = .ok constructors := by
  simp only [listed?_eq_some, constructorItems?, Option.bind_eq_bind, Option.pure_def, Option.bind_eq_some_iff,
    Option.some.injEq]
  constructor
  · rintro ⟨declared, others, ⟨items, hitems, hread⟩, ⟨items', hitems', hread'⟩, rfl⟩
    exact ⟨_, ⟨items, hitems, items', hitems', rfl⟩, by rw [List.mapM_append, hread, hread']; rfl⟩
  · rintro ⟨_, ⟨items, hitems, items', hitems', rfl⟩, hread⟩
    simp only [List.mapM_append, bind_eq_ok, pure_eq_ok] at hread
    obtain ⟨declared, hread, others, hread', rfl⟩ := hread
    exact ⟨declared, others, ⟨items, hitems, hread⟩, ⟨items', hitems', hread'⟩, rfl⟩

/-- The properties of the instances of a class are those that it gives, and the declared ones otherwise. -/
theorem exists_instanceProperties_iff {declared properties : OrderedMap String Int}
    (hdeclared : readField? members "declaredProperties" .properties = some declared) :
    (∃ given : Option (OrderedMap String Int),
      readField? members "instanceProperties" .optionalProperties = some given ∧ given.getD declared = properties) ↔
      FieldSort.readProperties (instanceProperties members) = .ok properties := by
  have hwritten : FieldSort.readProperties ((members.lookup "declaredProperties").getD (.object [])) =
      .ok declared := by
    rw [readField?] at hdeclared
    cases hlookup : members.lookup "declaredProperties" with
    | none =>
      rw [hlookup] at hdeclared
      exact congrArg Except.ok (Option.some.inj hdeclared)
    | some json =>
      rw [hlookup] at hdeclared
      exact toOption_eq_some.1 hdeclared
  have hnone : (∃ given : Option (OrderedMap String Int), some none = some given ∧
      given.getD declared = properties) ↔
      FieldSort.readProperties ((members.lookup "declaredProperties").getD (.object [])) = .ok properties := by
    simp [hwritten]
  rw [readField?, instanceProperties, Document.section?]
  cases members.lookup "instanceProperties" with
  | none => exact hnone
  | some json =>
    cases hnull : json.isNull with
    | true =>
      cases json with
      | null => exact hnone
      | _ => cases hnull
    | false =>
      rw [Option.filter_some_pos (by simp [hnull]), Option.getD_some, Option.elim_some, FieldSort.read?,
        readNullable_eq hnull, toOption_map]
      cases FieldSort.readProperties json with
      | error fault => simp
      | ok given =>
        constructor
        · rintro ⟨_, ⟨⟩, rfl⟩
          rfl
        · rintro ⟨⟩
          exact ⟨some properties, rfl, rfl⟩

namespace Relaid

variable (h : Relaid members members')

include h

theorem readField?_eq {name : String} (sort : FieldSort)
    (hname : name ∉ ["declaredConstructSignatures", "signatures", "instanceProperties"]) :
    readField? members' name sort = readField? members name sort := by
  rw [readField?, readField?, h.others name hname]

/-- A class that is laid out anew is read, as the same type. -/
theorem exists_readsClass {record : ClassRecord Int SignatureTexts} (hread : ReadsClass members record) :
    ∃ record', ReadsClass members' record' ∧ record'.form = record.form := by
  obtain ⟨items, hitems, hall⟩ := exists_constructors_iff.1
    ⟨_, _, hread.shape.constructSignatures, readField?_constructors members ▸ hread.constructors, rfl⟩
  obtain ⟨declared, others, hdeclared, hothers, hsum⟩ :=
    exists_constructors_iff.2 ⟨items, h.constructors.trans hitems, hall⟩
  have hproperties : readField? members' "declaredProperties" .properties = some record.shape.declaredProperties :=
    (h.readField?_eq .properties (by decide)).trans hread.shape.declaredProperties
  have hinstances := (exists_instanceProperties_iff hread.shape.declaredProperties).1
    ⟨_, hread.instanceProperties, rfl⟩
  rw [← h.instanceProperties] at hinstances
  obtain ⟨given, hgiven, hsame⟩ := (exists_instanceProperties_iff hproperties).2 hinstances
  refine ⟨{ record with
    shape := { record.shape with constructSignatures := declared }
    constructors := others
    instanceProperties := given }, ⟨⟨?_, ?_, hproperties, ?_, hdeclared, ?_, ?_⟩, hgiven, ?_,
      (readField?_constructors members').trans hothers, ?_, ?_⟩, ?_⟩
  · exact (h.readField?_eq _ (by decide)).trans hread.shape.typeParameters
  · exact (h.readField?_eq _ (by decide)).trans hread.shape.baseTypes
  · exact (h.readField?_eq _ (by decide)).trans hread.shape.callSignatures
  · exact (h.readField?_eq _ (by decide)).trans hread.shape.stringIndex
  · exact (h.readField?_eq _ (by decide)).trans hread.shape.numberIndex
  · exact (h.readField?_eq _ (by decide)).trans hread.staticProperties
  · exact (h.readField?_eq _ (by decide)).trans hread.target
  · exact (h.readField?_eq _ (by decide)).trans hread.typeArguments
  · simp only [ClassRecord.form, hsum, hsame]

end Relaid

/-! ### Records -/

theorem spells_class_iff (hkind : members.lookup "kind" = some (.string Kind.classDeclaration.tag))
    (hnodup : (members.map Prod.fst).Nodup) {raw : NestedRecord Int} :
    Spells (.object members) raw ↔ ∃ record, ReadsClass members record ∧ raw = .classDeclaration record := by
  rw [spells_iff hnodup]
  constructor
  · rintro ⟨kind, htag, hfields⟩
    obtain rfl : kind = .classDeclaration := by
      rw [hkind, Option.some.injEq, Json.string.injEq] at htag
      exact Option.some.inj ((Kind.ofTag?_eq_some.2 htag.symm).symm.trans (Kind.ofTag?_tag _))
    cases hfields with
    | classDeclaration hrecord => exact ⟨_, hrecord, rfl⟩
  · rintro ⟨record, hrecord, rfl⟩
    exact ⟨_, hkind, .classDeclaration hrecord⟩

/-- Records that are checked to be of one type before are of one type after. -/
theorem exists_check_of_form {place : String} {raw raw' : NestedRecord Int} {record : NestedRecord RecordId}
    (hform : raw.form = raw'.form) (hlength : HasLength raw') (hcheck : check place raw = .ok record) :
    ∃ record', check place raw' = .ok record' ∧ record.form = record'.form := by
  obtain ⟨hrefs, -⟩ := check_eq_ok.1 hcheck
  have hids : ∀ n ∈ raw'.mentions, ∃ id, RecordId.NumberOf n id := by
    intro n hn
    obtain ⟨id, -, hid⟩ := exists_of_forall₂ (checkReferences_eq_ok hrefs).1.flip ((mem_mentions_iff hform).2 hn)
    exact ⟨id, hid⟩
  obtain ⟨record', hrefs'⟩ := exists_checkReferences place hids
  refine ⟨record', check_eq_ok.2 ⟨hrefs', hlength⟩, ?_⟩
  have hsame := (checkReferences_each hrefs).form
  rw [hform] at hsame
  refine TypeForm.Related.eq (hsame.flip.trans ?_ ?_ (checkReferences_each hrefs').form)
  · intro id n id' hid hid'
    exact Option.some.inj (hid.symm.trans hid')
  · intro s tree s' hs hs'
    exact Except.ok.inj (hs.symm.trans hs')

/-- A record that is a class laid out anew is read, as the same type. -/
theorem Relaid.exists_read (h : Relaid members members') {id : RecordId} {record : NestedRecord RecordId}
    (hread : read id (.object members) = .ok record) :
    ∃ record', read id (.object members') = .ok record' ∧ record.form = record'.form := by
  obtain ⟨raw, hspells, hcheck⟩ := read_eq_ok.1 hread
  obtain ⟨c, hclass, rfl⟩ := (spells_class_iff h.kind h.nodup).1 hspells
  obtain ⟨c', hclass', hform⟩ := h.exists_readsClass hclass
  have hkind' : members'.lookup "kind" = some (.string Kind.classDeclaration.tag) :=
    (h.others "kind" (by decide)).trans h.kind
  have hforms : (classDeclaration c : NestedRecord Int).form = (classDeclaration c').form := by
    rw [form, form, hform]
  obtain ⟨record', hcheck', hsame⟩ := exists_check_of_form hforms trivial hcheck
  exact ⟨record', read_eq_ok.2 ⟨_, (spells_class_iff hkind' h.nodup').2 ⟨c', hclass', rfl⟩, hcheck'⟩, hsame⟩

/-- What a signature is as it is written down, with records for numbers. -/
def Writes (item : Json) (tree : SignatureTree RecordId) : Prop :=
  ∃ raw, readSignature item = .ok raw ∧ raw.Becomes RecordId.NumberOf Copied tree

/-- The constructors of the type are those that the class lists. -/
theorem exists_constructors_of_read {id : RecordId} {record : NestedRecord RecordId}
    (hkind : members.lookup "kind" = some (.string Kind.classDeclaration.tag))
    (hnodup : (members.map Prod.fst).Nodup) (hread : read id (.object members) = .ok record) :
    ∃ items trees, constructorItems? members = some items ∧ record.form.constructors? = some trees ∧
      List.Forall₂ Writes items trees := by
  obtain ⟨raw, hspells, hcheck⟩ := read_eq_ok.1 hread
  obtain ⟨c, hclass, rfl⟩ := (spells_class_iff hkind hnodup).1 hspells
  obtain ⟨items, hitems, hall⟩ := exists_constructors_iff.1
    ⟨_, _, hclass.shape.constructSignatures, readField?_constructors members ▸ hclass.constructors, rfl⟩
  have hrelated := checkReferences_each (check_eq_ok.1 hcheck).1
  cases hrelated with
  | @classDeclaration _ c' hrelated =>
    refine ⟨items, _, hitems, rfl, ?_⟩
    refine forall₂_trans ?_ (mapM_eq_ok.1 hall) hrelated.form.shape.constructSignatures
    exact fun item raw tree hraw htree => ⟨raw, hraw, checkSignature_becomes htree⟩

end Record

end TypeEnv
