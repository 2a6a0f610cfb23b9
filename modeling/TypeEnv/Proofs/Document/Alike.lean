import TypeEnv.Proofs.Document.Edits
import TypeEnv.Proofs.Layout.FieldByField

/-! Members of an object that say the same: every layout reads them alike, and so does who looks up
one field. The order of keys, keys that no field has, and fields that hold what stands for them make
no such difference; in a tuple, neither does a least length that is the number of elements. -/

namespace TypeEnv

open Reading

/-! ### Layouts -/

theorem FieldSort.Blank.read? {sort : FieldSort} {value : Json} (h : sort.Blank value) :
    ∃ x, sort.blank? = some x ∧ sort.read? value = some x := by
  cases h with
  | @negative n hlow hneg =>
    have hint : (Json.number (.int n)).readInt64 = .ok n := by
      rw [Json.readInt64, if_pos ⟨hlow, by omega⟩]
    refine ⟨none, rfl, ?_⟩
    simp [FieldSort.read?, Json.readReference?, Json.readNullable, hint, map_eq_pure_bind,
      Except.toOption, Option.filter, Int.not_le.2 hneg]
    rfl
  | _ => exact ⟨_, rfl, rfl⟩

namespace Layout

variable {ρ : Type} {layout : Layout Json ρ} {fields : List (String × FieldSort)}
  {before after : List (String × Json)} {name : String} {sort : FieldSort} {value value' : Json}

namespace FitsIn

variable (h : layout.FitsIn fields)

include h

theorem fits_of_lookup (hname : fields.lookup name = some sort) {field : Field Json ρ}
    (hfield : layout.field? name = some field) : field.Fits sort layout.blank := by
  obtain ⟨hmem, rfl⟩ := (field?_eq_some h.lawful).1 hfield
  obtain ⟨sort', hsort', hfits⟩ := h.field field hmem
  rwa [← Option.some.inj (hsort'.symm.trans hname)]

theorem change?_eq (hname : fields.lookup name = some sort) (hread : sort.read? value = sort.read? value') :
    layout.change? (name, value) = layout.change? (name, value') := by
  cases hfield : layout.field? name with
  | none => rw [change?_of_unknown (field?_eq_none.1 hfield), change?_of_unknown (field?_eq_none.1 hfield)]
  | some field =>
    obtain ⟨put, hput, -⟩ := h.fits_of_lookup hname hfield
    rw [change?_of_field? hfield, change?_of_field? hfield, hput, hput, hread]

theorem ofMembers_set (hname : fields.lookup name = some sort)
    (hread : sort.read? value = sort.read? value') :
    (layout.ofMembers (before ++ (name, value) :: after)).toOption =
      (layout.ofMembers (before ++ (name, value') :: after)).toOption :=
  Layout.ofMembers_set rfl (h.change?_eq hname hread)

theorem ofMembers_unknown (hname : fields.lookup name = none) :
    (layout.ofMembers (before ++ (name, value) :: after)).toOption =
      (layout.ofMembers (before ++ after)).toOption := by
  refine Layout.ofMembers_unknown fun hmem => ?_
  obtain ⟨field, hfield, rfl⟩ := List.mem_map.1 hmem
  obtain ⟨sort, hsort, -⟩ := h.field field hfield
  cases hname.symm.trans hsort

theorem ofMembers_blank (hname : fields.lookup name = some sort) (hblank : sort.Blank value)
    (hnodup : ((before ++ (name, value) :: after).map Prod.fst).Nodup) :
    (layout.ofMembers (before ++ (name, value) :: after)).toOption =
      (layout.ofMembers (before ++ after)).toOption := by
  cases hfield : layout.field? name with
  | none => exact Layout.ofMembers_unknown (field?_eq_none.1 hfield)
  | some field =>
    obtain ⟨put, hput, hfits⟩ := h.fits_of_lookup hname hfield
    obtain ⟨x, hx, hread⟩ := hblank.read?
    obtain ⟨hreq, c, hc, hblank⟩ := hfits x hx
    refine Layout.ofMembers_blank h.lawful hfield hreq (toOption_eq_some.1 ?_) hblank hnodup
    rw [hput, hread, Option.bind_some, hc]

end FitsIn

namespace Fits

variable (h : layout.Fits fields) {items before after : List Json}

include h

/-- The fields around one of them. -/
theorem names_split {n : Nat} (hname : fields[n]? = some (name, sort)) : ∃ names names',
    layout.fields.map Field.name = names ++ name :: names' ∧ names.length = n := by
  obtain ⟨hlt, hentry⟩ := List.getElem?_eq_some_iff.1 hname
  have hsplit : fields.take n ++ (name, sort) :: fields.drop (n + 1) = fields := by
    rw [← hentry, ← List.drop_eq_getElem_cons hlt, List.take_append_drop]
  refine ⟨(fields.take n).map Prod.fst, (fields.drop (n + 1)).map Prod.fst, ?_, ?_⟩
  · rw [h.names_eq, ← List.map_cons (f := Prod.fst) (a := (name, sort)), ← List.map_append, hsplit]
  · simp [Nat.le_of_lt hlt]

theorem lookup_of_getElem? {n : Nat} (hname : fields[n]? = some (name, sort)) :
    fields.lookup name = some sort :=
  lookup_of_mem (h.names_eq ▸ h.lawful.nodup) (List.mem_of_getElem? hname)

theorem ofItems_set (hname : fields[before.length]? = some (name, sort))
    (hread : sort.read? value = sort.read? value') :
    (layout.ofItems (before ++ value :: after)).toOption =
      (layout.ofItems (before ++ value' :: after)).toOption := by
  obtain ⟨names, names', hnames, hlen⟩ := h.names_split hname
  rw [ofItems_eq h.lawful, ofItems_eq h.lawful, hnames, List.zip_append hlen, List.zip_append hlen,
    List.zip_cons_cons, List.zip_cons_cons, h.fitsIn_self.ofMembers_set (h.lookup_of_getElem? hname) hread]
  simp only [List.length_append, List.length_cons]

theorem ofItems_blank (hname : fields[items.length]? = some (name, sort)) (hblank : sort.Blank value) :
    (layout.ofItems (items ++ [value])).toOption = (layout.ofItems items).toOption := by
  obtain ⟨names, names', hnames, hlen⟩ := h.names_split hname
  have hlong : items.length + 1 ≤ layout.fields.length := by
    have hlength := congrArg List.length hnames
    simp only [List.length_map, List.length_append, List.length_cons] at hlength
    omega
  have hall : (layout.fields.map Field.name).zip (items ++ [value]) =
      names.zip items ++ [(name, value)] := by
    rw [hnames, List.zip_append hlen, List.zip_cons_cons, List.zip_nil_right]
  have hinit : (layout.fields.map Field.name).zip items = names.zip items := by
    rw [hnames, ← List.append_nil items, List.zip_append hlen, List.zip_nil_right, List.append_nil,
      List.append_nil]
  have hnodup : ((names.zip items ++ [(name, value)]).map Prod.fst).Nodup := by
    rw [← hall, map_fst_zip]
    exact h.lawful.nodup.sublist (List.take_sublist _ _)
  have hmembers := h.fitsIn_self.ofMembers_blank (h.lookup_of_getElem? hname) hblank hnodup
  rw [List.append_nil] at hmembers
  rw [ofItems_eq h.lawful, ofItems_eq h.lawful, hall, hinit, hmembers, if_pos, if_pos]
  · omega
  · simpa using hlong

end Fits

end Layout

/-! ### Members -/

/-- What is read from the field `name`, whether it is there or left out. -/
def readField? (members : List (String × Json)) (name : String) (sort : FieldSort) :
    Option sort.Value :=
  (members.lookup name).elim sort.blank? sort.read?

/-- A field that reads what its sort says is read as the members say it. -/
theorem Layout.readEach_field {ρ : Type} {members : List (String × Json)} {field : Field Json ρ}
    {fields : List (Field Json ρ)} (sort : FieldSort) {put : sort.Value → ρ → ρ} {r s : ρ} {P : sort.Value → Prop}
    (hread : ∀ json, (field.read json).toOption = (sort.read? json).map put)
    (hblank : (if field.required then none else some r) = sort.blank?.map (put · r))
    (hnext : ∀ value, readEach members fields (put value r) = some s ↔ P value) :
    readEach members (field :: fields) r = some s ↔
      ∃ value, readField? members field.name sort = some value ∧ P value :=
  readEach_cons hread hblank hnext

/-- Members that say the same to every reader of `fields`. -/
structure MembersAlike (fields : List (String × FieldSort)) (members members' : List (String × Json)) :
    Prop where
  ofMembers : ∀ {ρ : Type} {layout : Layout Json ρ}, layout.FitsIn fields →
    (layout.ofMembers members).toOption = (layout.ofMembers members').toOption
  field : ∀ {name : String} {sort : FieldSort}, fields.lookup name = some sort →
    readField? members name sort = readField? members' name sort

namespace MembersAlike

variable {fields : List (String × FieldSort)} {members members' before after : List (String × Json)}
  {name : String} {sort : FieldSort} {value value' : Json}

theorem reorder (h : members.Perm members') (hnodup : (members.map Prod.fst).Nodup) :
    MembersAlike fields members members' where
  ofMembers hlayout := Layout.ofMembers_perm hlayout.lawful h hnodup
  field _ := by rw [readField?, readField?, lookup_perm h hnodup]

theorem lookup_around {name' : String} (hne : name' ≠ name) :
    (before ++ (name, value) :: after).lookup name' = (before ++ after).lookup name' := by
  rw [List.lookup_append, List.lookup_append, List.lookup_cons, beq_eq_false_iff_ne.2 hne]

theorem unknown (hname : fields.lookup name = none) :
    MembersAlike fields (before ++ (name, value) :: after) (before ++ after) where
  ofMembers hlayout := hlayout.ofMembers_unknown hname
  field {name' sort} hname' := by
    have hne : name' ≠ name := fun heq => by simp [heq, hname] at hname'
    rw [readField?, readField?, lookup_around hne]

theorem blank (hname : fields.lookup name = some sort) (hblank : sort.Blank value)
    (hnodup : ((before ++ (name, value) :: after).map Prod.fst).Nodup) :
    MembersAlike fields (before ++ (name, value) :: after) (before ++ after) where
  ofMembers hlayout := hlayout.ofMembers_blank hname hblank hnodup
  field {name' sort'} hname' := by
    by_cases hne : name' = name
    · subst hne
      obtain rfl := Option.some.inj (hname.symm.trans hname')
      obtain ⟨x, hx, hread⟩ := hblank.read?
      have hsome := lookup_of_mem hnodup (List.mem_append_right before List.mem_cons_self)
      have hnone : (before ++ after).lookup name' = none := by
        rw [List.map_append, List.map_cons, List.nodup_middle, List.nodup_cons, ← List.map_append] at hnodup
        exact lookup_eq_none.2 hnodup.1
      rw [readField?, readField?, hsome, hnone, Option.elim_some, Option.elim_none, hread, hx]
    · rw [readField?, readField?, lookup_around hne]

theorem set (hname : fields.lookup name = some sort) (hread : sort.read? value = sort.read? value') :
    MembersAlike fields (before ++ (name, value) :: after) (before ++ (name, value') :: after) where
  ofMembers hlayout := hlayout.ofMembers_set hname hread
  field {name' sort'} hname' := by
    by_cases hne : name' = name
    · subst hne
      obtain rfl := Option.some.inj (hname.symm.trans hname')
      simp only [readField?, List.lookup_append, List.lookup_cons_self]
      cases before.lookup name' with
      | none => simpa using hread
      | some _ => rfl
    · rw [readField?, readField?, lookup_around hne, lookup_around hne]

end MembersAlike

/-! ### Records -/

namespace Record

variable {kind : Kind} {members members' : List (String × Json)}

theorem toOption_mapError {ε ε' α : Type} (f : ε → ε') (x : Except ε α) :
    (x.mapError f).toOption = x.toOption := by
  cases x <;> rfl

/-- A kind of one field is read alike. -/
theorem only_fitsIn {γ : Type} {fields : List (String × FieldSort)} {field : Field Json γ} {blank : γ}
    {sort : FieldSort} (hname : fields.lookup field.name = some sort) (hfits : field.Fits sort blank) :
    Layout.FitsIn { fields := [field], blank } fields where
  lawful := Layout.lawful_single field blank
  field := by
    rintro _ (_ | ⟨_, ⟨⟩⟩)
    exact ⟨sort, hname, hfits⟩

theorem readFields_eq (h : MembersAlike (ObjectSort.record (some kind)).fields members members') :
    (readFields members kind).toOption = (readFields members' kind).toOption := by
  cases kind with
  | simple | anonymous => rfl
  | stringLiteral | booleanLiteral | numberLiteral =>
    simp only [readFields, toOption_bind]
    exact congrArg (Option.bind · _) (h.ofMembers (only_fitsIn rfl (.plain _)))
  | classInstance | index =>
    simp only [readFields, toOption_bind]
    exact congrArg (Option.bind · _) (h.ofMembers (only_fitsIn rfl (.needed (fun _ => rfl) rfl)))
  | interface =>
    have hlayout := h.ofMembers (shapeLayout_fits.fitsIn (List.subset_cons_self _ _) (by decide))
    simp only [readFields, toOption_bind, hlayout]
  | classDeclaration =>
    have hclass := h.ofMembers (classLayout_fits.fitsIn
      (List.subset_cons_of_subset _ (List.subset_append_left _ _)) (by decide))
    have hshape := h.ofMembers (shapeLayout_fits.fitsIn
      (List.subset_cons_of_subset _ (List.subset_append_right _ _)) (by decide))
    simp only [readFields, readClass, readInterfacePart, toOption_bind, toOption_mapError, hclass, hshape]
  | generic =>
    have happlication := h.ofMembers (applicationLayout_fits.fitsIn
      (List.subset_cons_of_subset _ (List.subset_append_left _ _)) (by decide))
    have hshape := h.ofMembers (shapeLayout_fits.fitsIn
      (List.subset_cons_of_subset _ (List.subset_append_right _ _)) (by decide))
    simp only [readFields, readGeneric, readInterfacePart, toOption_bind, toOption_mapError,
      happlication, hshape]
  | reference =>
    have hlayout := h.ofMembers (applicationLayout_fits.fitsIn (List.subset_cons_self _ _) (by decide))
    simp only [readFields, toOption_bind, hlayout]
  | tuple =>
    have hlayout := h.ofMembers (tupleLayout_fits.fitsIn (List.subset_cons_self _ _) (by decide))
    simp only [readFields, toOption_bind, hlayout]
  | union | intersection =>
    simp only [readFields, toOption_bind]
    exact congrArg (Option.bind · _) (h.ofMembers (only_fitsIn rfl (.optional (fun _ => rfl) rfl rfl)))
  | typeParameter | thisType =>
    simp only [readFields, toOption_bind]
    exact congrArg (Option.bind · _) (h.ofMembers (only_fitsIn rfl (.optional (fun _ => rfl) rfl rfl)))
  | indexedAccess =>
    have hlayout := h.ofMembers (accessLayout_fits.fitsIn (List.subset_cons_self _ _) (by decide))
    simp only [readFields, toOption_bind, hlayout]

theorem readField?_plain (members : List (String × Json)) (name : String) :
    readField? members name .plain = members.lookup name := by
  rw [readField?]
  cases members.lookup name <;> rfl

theorem kind?_eq {fields : List (String × FieldSort)} (h : MembersAlike fields members members')
    (hkind : fields.lookup "kind" = some .plain) : kind? members = kind? members' := by
  have hlookup := h.field hkind
  rw [readField?_plain, readField?_plain] at hlookup
  rw [kind?, kind?, hlookup]

theorem spelledOrNull?_eq
    (h : MembersAlike (ObjectSort.record (kind? members)).fields members members') :
    spelledOrNull? (.object members) = spelledOrNull? (.object members') := by
  have hkind := kind?_eq h rfl
  simp only [spelledOrNull?, spelled?, Json.isNull, ← hkind]
  cases hk : kind? members with
  | none => rfl
  | some kind =>
    rw [hk] at h
    simp only [Option.bind_eq_bind, Option.bind_some, readFields_eq h]

/-! ### Tuples -/

/-- A least length as it is written, null where there is none. -/
def lengthJson (minLength : Option UInt32) : Json :=
  minLength.elim .null fun n => .number (.int n.toNat)

theorem readLength_eq_ok (json : Json) (minLength : Option UInt32) :
    json.readNullable Json.readUInt32 = .ok minLength ↔ json = lengthJson minLength := by
  rw [Json.readNullable_eq_ok]
  cases minLength with
  | none => simp [lengthJson]
  | some n =>
    simp only [reduceCtorEq, and_false, false_or, Json.readUInt32_eq_ok, Option.some.injEq, exists_eq_right',
      lengthJson, Option.elim_some, and_iff_right_iff_imp]
    rintro rfl
    rfl

theorem ofMembers_tuple_eq_ok (hnodup : (members.map Prod.fst).Nodup) {tuple : List Int × Option UInt32} :
    tupleLayout.ofMembers members = .ok tuple ↔ readField? members "elementTypes" .references = some tuple.1 ∧
      (members.lookup "minLength").getD .null = lengthJson tuple.2 := by
  rw [← toOption_eq_some, Layout.ofMembers_eq_readEach tupleLayout_fits.lawful hnodup]
  refine (Layout.readEach_field .references (fun _ => toOption_map _ _) rfl fun _ =>
    Layout.readEach_optional readLength_eq_ok rfl fun _ => Iff.rfl).trans ?_
  constructor
  · rintro ⟨_, helements, _, hlength, ⟨⟩⟩
    exact ⟨helements, hlength⟩
  · rintro ⟨helements, hlength⟩
    exact ⟨_, helements, _, hlength, rfl⟩

/-- The elements of a tuple are as many as are listed. -/
theorem length_of_elementCount? {n : Nat} (hcount : elementCount? members = some n) {elements : List Int}
    (h : readField? members "elementTypes" .references = some elements) : elements.length = n := by
  rw [elementCount?] at hcount
  rw [readField?] at h
  cases hlookup : members.lookup "elementTypes" with
  | none =>
    rw [hlookup] at h hcount
    obtain rfl := Option.some.inj h
    exact Option.some.inj hcount
  | some value =>
    rw [hlookup] at h hcount
    cases value with
    | array items =>
      have hread : items.mapM Json.readInt64 = .ok elements := toOption_eq_some.1 h
      rw [← Option.some.inj hcount, (mapM_eq_ok.1 hread).length_eq]
    | _ => cases hcount

/-- Where no least length is given, it is the number of elements, if that has 32 bits. -/
theorem complete?_tuple_eq_some {elements : List Int} {minLength : Option UInt32} {record : NestedRecord Int} :
    complete? (.tuple elements minLength) = some record ↔ ∃ n, record = .tuple elements (some n) ∧
      (minLength = some n ∨ minLength = none ∧ n.toNat = elements.length) := by
  cases minLength with
  | some m => simp [complete?, eq_comm]
  | none =>
    simp only [complete?, reduceCtorEq, true_and, false_or]
    constructor
    · intro h
      split at h
      · next hlength =>
        obtain rfl := Option.some.inj h
        exact ⟨_, rfl, toNat_toUInt32 hlength⟩
      · cases h
    · rintro ⟨n, rfl, hn⟩
      have hlt := n.toNat_lt
      rw [if_pos (by omega), ← hn]
      simp

/-- What a tuple spells, told by its two fields. -/
theorem spelled?_tuple (hkind : kind? members = some .tuple) (hnodup : (members.map Prod.fst).Nodup)
    {record : NestedRecord Int} : spelled? (.object members) = some record ↔
      ∃ elements n, record = .tuple elements (some n) ∧
        readField? members "elementTypes" .references = some elements ∧
        ((members.lookup "minLength").getD .null = .number (.int n.toNat) ∨
          (members.lookup "minLength").getD .null = .null ∧ n.toNat = elements.length) := by
  have hspelled : spelled? (.object members) = some record ↔ ∃ tuple, tupleLayout.ofMembers members = .ok tuple ∧
      complete? (.tuple tuple.1 tuple.2) = some record := by
    simp only [spelled?, hkind, readFields, Option.bind_eq_bind, Option.bind_some, Option.bind_eq_some_iff,
      toOption_eq_some, bind_eq_ok, pure_eq_ok]
    constructor
    · rintro ⟨_, ⟨tuple, htuple, rfl⟩, h⟩
      exact ⟨tuple, htuple, h⟩
    · rintro ⟨tuple, htuple, h⟩
      exact ⟨_, ⟨tuple, htuple, rfl⟩, h⟩
  simp only [hspelled, ofMembers_tuple_eq_ok hnodup, complete?_tuple_eq_some]
  constructor
  · rintro ⟨⟨elements, _⟩, ⟨helements, hlength⟩, n, rfl, rfl | ⟨rfl, hn⟩⟩
    · exact ⟨elements, n, rfl, helements, .inl hlength⟩
    · exact ⟨elements, n, rfl, helements, .inr ⟨hlength, hn⟩⟩
  · rintro ⟨elements, n, rfl, helements, hlength | ⟨hlength, hn⟩⟩
    · exact ⟨(elements, some n), ⟨helements, hlength⟩, n, rfl, .inl rfl⟩
    · exact ⟨(elements, none), ⟨helements, hlength⟩, n, rfl, .inr ⟨rfl, hn⟩⟩

theorem spelled?_minLength {before after : List (String × Json)} {n : Nat}
    (hkind : kind? (before ++ ("minLength", .number (.int n)) :: after) = some .tuple)
    (hcount : elementCount? (before ++ after) = some n)
    (hnodup : ((before ++ ("minLength", .number (.int n)) :: after).map Prod.fst).Nodup) :
    spelled? (.object (before ++ ("minLength", .number (.int n)) :: after)) =
      spelled? (.object (before ++ after)) := by
  have hkind' : kind? (before ++ after) = some .tuple := by
    rw [← hkind, kind?, kind?, MembersAlike.lookup_around (by decide)]
  obtain ⟨hmin, hnodup'⟩ :
      "minLength" ∉ (before ++ after).map Prod.fst ∧ ((before ++ after).map Prod.fst).Nodup := by
    rwa [List.map_append, List.map_cons, List.nodup_middle, List.nodup_cons, ← List.map_append] at hnodup
  have helements : readField? (before ++ ("minLength", .number (.int n)) :: after) "elementTypes" .references =
      readField? (before ++ after) "elementTypes" .references := by
    rw [readField?, readField?, MembersAlike.lookup_around (by decide)]
  have hgiven := lookup_of_mem hnodup (List.mem_append_right before List.mem_cons_self)
  refine Option.ext fun record => ?_
  rw [spelled?_tuple hkind hnodup, spelled?_tuple hkind' hnodup', helements, hgiven, lookup_eq_none.2 hmin]
  refine exists_congr fun elements => exists_congr fun m => and_congr_right fun _ => and_congr_right fun h => ?_
  have hlength := length_of_elementCount? hcount h
  simp only [Option.getD_some, Option.getD_none, Json.number.injEq, JsonNumber.int.injEq, reduceCtorEq, false_and,
    or_false, false_or, true_and, hlength]
  omega

end Record

end TypeEnv
