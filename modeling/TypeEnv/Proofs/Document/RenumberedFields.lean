import TypeEnv.Proofs.Document.CanonicalForm
import TypeEnv.Proofs.Document.Renumbering
import TypeEnv.Proofs.Layout.Simulation
import TypeEnv.Proofs.Record.Rows

/-! What is read from a record with other numbers: the same record with other numbers. A field of each
sort is followed by the same field renumbered, hence so is each layout, and each kind of record. -/

namespace TypeEnv

open Reading

/-! ### Values inside values -/

namespace Json

/-- `value` is an item or the value of a member of `json`. -/
inductive Inside (value : Json) : Json → Prop where
  | item {items : List Json} (h : value ∈ items) : Inside value (.array items)
  | member {members : List (String × Json)} {name : String} (h : (name, value) ∈ members) :
    Inside value (.object members)

theorem size_le_sizeItems {value : Json} {items : List Json} (h : value ∈ items) :
    value.size ≤ sizeItems items := by
  induction items with
  | nil => cases h
  | cons item items ih =>
    rw [sizeItems]
    rcases List.mem_cons.1 h with rfl | h
    · exact Nat.le_add_right _ _
    · exact Nat.le_trans (ih h) (Nat.le_add_left _ _)

theorem Inside.size_lt {value json : Json} (h : value.Inside json) : value.size < json.size := by
  cases h with
  | item h => exact Nat.lt_succ_of_le (size_le_sizeItems h)
  | member h =>
    rw [size, Catalog.sizeMembers_eq]
    exact Nat.lt_succ_of_le (size_le_sizeItems (List.mem_map.2 ⟨_, h, rfl⟩))

/-- What holds of a value when it holds of the values inside it holds of every value. -/
theorem inside_induction {P : Json → Prop} (h : ∀ json, (∀ value, value.Inside json → P value) → P json)
    (json : Json) : P json := by
  induction hsize : json.size using Nat.strong_induction_on generalizing json with
  | _ size ih => exact h json fun value hvalue => ih value.size (hsize ▸ hvalue.size_lt) value rfl

end Json

/-! ### Members -/

section Members

variable (h : Int → Int)

theorem renumberMembers_eq (fields : List (String × FieldSort)) (members : List (String × Json)) :
    renumberMembers h fields members = members.map fun member =>
      (member.1, (fields.lookup member.1).elim member.2 (·.renumber h member.2)) := by
  induction members with
  | nil => rfl
  | cons member members ih => rw [renumberMembers, ih]; rfl

theorem renumberObjects_eq (sort : ObjectSort) (items : List Json) :
    renumberObjects h sort items = items.map (sort.renumber h) := by
  induction items with
  | nil => rfl
  | cons item items ih => rw [renumberObjects, ih]; rfl

theorem lookup_map_values {α β : Type} (f : String → α → β) (members : List (String × α)) (name : String) :
    (members.map fun member => (member.1, f member.1 member.2)).lookup name =
      (members.lookup name).map (f name) := by
  induction members with
  | nil => rfl
  | cons member members ih =>
    rw [List.map_cons, List.lookup_cons, List.lookup_cons, ih]
    cases hname : name == member.1 with
    | false => rfl
    | true => rw [eq_of_beq hname]; rfl

theorem lookup_renumberMembers (fields : List (String × FieldSort)) (members : List (String × Json))
    (name : String) : (renumberMembers h fields members).lookup name =
      (members.lookup name).map fun value => (fields.lookup name).elim value (·.renumber h value) := by
  rw [renumberMembers_eq]
  exact lookup_map_values (fun name value => (fields.lookup name).elim value (·.renumber h value)) members name

/-- The members that an array stands for, with other numbers. -/
theorem zip_renumberItems {all fields : List (String × FieldSort)}
    (hall : ∀ field ∈ fields, all.lookup field.1 = some field.2) (items : List Json) :
    (fields.map Prod.fst).zip (renumberItems h fields items) =
      renumberMembers h all ((fields.map Prod.fst).zip items) := by
  induction fields generalizing items with
  | nil => cases items <;> rfl
  | cons field fields ih =>
    obtain ⟨hfield, hall⟩ := List.forall_mem_cons.1 hall
    cases items with
    | nil => rfl
    | cons item items =>
      rw [renumberItems, List.map_cons, List.zip_cons_cons, List.zip_cons_cons, renumberMembers, ih hall, hfield]
      rfl

theorem length_renumberItems (fields : List (String × FieldSort)) (items : List Json) :
    (renumberItems h fields items).length = items.length := by
  induction items generalizing fields with
  | nil => cases fields <;> rfl
  | cons item items ih =>
    cases fields with
    | nil => rfl
    | cons field fields => rw [renumberItems, List.length_cons, List.length_cons, ih]

end Members

/-! ### Layouts -/

namespace Layout

variable {ρ : Type} {layout : Layout Json ρ} {h : Int → Int} {R : Set String → ρ → ρ → Prop}
  {D : Json → Prop} {fields all : List (String × FieldSort)}

/-- Each field of the layout reads a value of `D` and the value renumbered alike. -/
def Renumbers (layout : Layout Json ρ) (h : Int → Int) (D : Json → Prop)
    (R : Set String → ρ → ρ → Prop) (fields : List (String × FieldSort)) : Prop :=
  List.Forall₂ (fun field entry => field.name = entry.1 ∧
    ∀ value, D value → field.Agrees R value (entry.2.renumber h value)) layout.fields fields

theorem Renumbers.membersAgree (hrenumbers : layout.Renumbers h D R fields) (hlawful : layout.Lawful)
    (hsub : fields ⊆ all) (hnodup : (all.map Prod.fst).Nodup) {members : List (String × Json)}
    (hD : ∀ member ∈ members, D member.2) :
    layout.MembersAgree R members (renumberMembers h all members) := by
  rw [renumberMembers_eq, MembersAgree, List.forall₂_map_right_iff]
  refine List.forall₂_same.2 fun member hmember => ⟨rfl, fun field hfield => ?_⟩
  obtain ⟨hmem, hname⟩ := (field?_eq_some hlawful).1 hfield
  obtain ⟨i, hi⟩ := List.mem_iff_getElem?.1 hmem
  have hlen : i < fields.length := hrenumbers.length_eq ▸ (List.getElem?_eq_some_iff.1 hi).1
  obtain ⟨hname', hagrees⟩ := getElem?_of_forall₂ hrenumbers hi (List.getElem?_eq_getElem hlen)
  have hlookup : all.lookup member.1 = some fields[i].2 := by
    rw [← hname, hname']
    exact lookup_of_mem hnodup (hsub (List.getElem_mem hlen))
  rw [hlookup]
  exact hagrees _ (hD member hmember)

section Read

variable (hrenumbers : layout.Renumbers h D R fields) (hlawful : layout.Lawful)
  (hblank : R ∅ layout.blank layout.blank)

include hrenumbers

theorem Renumbers.names_eq : layout.fields.map Field.name = fields.map Prod.fst := by
  have hfields := hrenumbers
  rw [Renumbers] at hfields
  clear hrenumbers
  generalize layout.fields = l at hfields
  induction hfields with
  | nil => rfl
  | cons hentry _ ih => rw [List.map_cons, List.map_cons, ih, hentry.1]

include hlawful

theorem Renumbers.nodup : (fields.map Prod.fst).Nodup := hrenumbers.names_eq ▸ hlawful.nodup

include hblank

theorem Renumbers.ofMembers (hsub : fields ⊆ all) (hnodup : (all.map Prod.fst).Nodup)
    {members : List (String × Json)} (hD : ∀ member ∈ members, D member.2) :
    Follows (fun s s' => ∃ seen, layout.SeenRequired seen ∧ R seen s s') (layout.ofMembers members)
      (layout.ofMembers (renumberMembers h all members)) :=
  (hrenumbers.membersAgree hlawful hsub hnodup hD).ofMembers hblank

theorem Renumbers.ofItems {items : List Json} (hD : ∀ item ∈ items, D item) :
    Follows (fun s s' => ∃ seen, layout.SeenRequired seen ∧ R seen s s') (layout.ofItems items)
      (layout.ofItems (renumberItems h fields items)) := by
  have hnodup := hrenumbers.nodup hlawful
  have hD' : ∀ member ∈ (fields.map Prod.fst).zip items, D member.2 :=
    fun member hmember => hD _ (List.of_mem_zip hmember).2
  have hzip := hrenumbers.ofMembers hlawful hblank (List.Subset.refl _) hnodup hD'
  rw [← zip_renumberItems h fun field hfield => lookup_of_mem hnodup hfield] at hzip
  by_cases hlen : items.length ≤ layout.fields.length
  · refine hzip.of_toOption ?_ ?_
    · rw [ofItems_eq hlawful, if_pos hlen, hrenumbers.names_eq]
    · rw [ofItems_eq hlawful, length_renumberItems, if_pos hlen, hrenumbers.names_eq]
  · intro s hs
    rw [← toOption_eq_some, ofItems_eq hlawful, if_neg hlen] at hs
    cases hs

/-- A layout reads an object, or the array that stands for it, as it reads the one renumbered. -/
theorem Renumbers.read {sort : ObjectSort} (hsort : sort.fields = fields) {json : Json}
    (hD : ∀ value, value.Inside json → D value) :
    Follows (fun s s' => ∃ seen, layout.SeenRequired seen ∧ R seen s s') (layout.read json)
      (layout.read (sort.renumber h json)) := by
  subst hsort
  cases json with
  | object members =>
    exact hrenumbers.ofMembers hlawful hblank (List.Subset.refl _) (hrenumbers.nodup hlawful)
      fun member hmember => hD _ (.member hmember)
  | array items => exact hrenumbers.ofItems hlawful hblank fun item hitem => hD _ (.item hitem)
  | _ => exact .error _

end Read

end Layout

/-- What has been said of a field stays true when another is read. -/
theorem unless_read {seen : Set String} {name field : String} {P : Prop} (hP : name ∈ seen → P)
    (hne : name ≠ field) (hmem : name ∈ insert field seen) : P :=
  hP (Set.mem_of_mem_insert_of_ne hmem hne)

/-! ### Fields -/

/-- The new numbers have the sign of the old ones, and 64 bits if the old ones have. -/
structure KeepsRange (h : Int → Int) : Prop where
  nonneg : ∀ n, 0 ≤ h n ↔ 0 ≤ n
  int64 : ∀ n, -0x8000000000000000 ≤ n → n < 0x8000000000000000 →
    -0x8000000000000000 ≤ h n ∧ h n < 0x8000000000000000

section References

theorem isNull_renumber (h : Int → Int) (json : Json) : (json.renumber h).isNull = json.isNull := by
  cases json with
  | number number => cases number <;> rfl
  | _ => rfl

theorem renumber_reference (h : Int → Int) (json : Json) :
    FieldSort.reference.renumber h json = json.renumber h := by
  cases json <;> rfl

theorem renumber_optionalReference (h : Int → Int) (json : Json) :
    FieldSort.optionalReference.renumber h json = json.renumber h := by
  cases json <;> rfl

theorem follows_plain {γ : Type} (h : Int → Int) (read : Json → Except Fault γ) (json : Json) :
    Follows (· = ·) (read json) (read (FieldSort.plain.renumber h json)) := by
  cases json <;> exact .self _

theorem follows_defaulted {γ : Type} (h : Int → Int) (read : Json → Except Fault γ) (default json : Json) :
    Follows (· = ·) (read json) (read ((FieldSort.defaulted default).renumber h json)) := by
  cases json <;> exact .self _

theorem follows_readNullable {γ γ' : Type} {V : γ → γ' → Prop} {read : Json → Except Fault γ}
    {read' : Json → Except Fault γ'} {json json' : Json} (hread : Follows V (read json) (read' json'))
    (hnull : json'.isNull = json.isNull) :
    Follows (Option.Rel V) (json.readNullable read) (json'.readNullable read') := by
  cases hjson : json.isNull with
  | false =>
    rw [readNullable_eq hjson, readNullable_eq (hnull.trans hjson)]
    exact hread.map fun _ _ => .some
  | true =>
    obtain rfl : json = .null := by cases json <;> simp_all [Json.isNull]
    obtain rfl : json' = .null := by cases json' <;> simp_all [Json.isNull]
    exact .ok .none

theorem follows_readMap {γ : Type} {V : γ → γ → Prop} {read : Json → Except Fault γ} {f : Json → Json}
    (hread : ∀ value, Follows V (read value) (read (f value))) (members : List (String × Json)) :
    Follows (OrderedMap.Related V) ((Json.object members).readMap read)
      ((Json.object (members.map fun member => (member.1, f member.2))).readMap read) := by
  refine Follows.bind (.mapM (List.forall₂_map_right_iff.2 (List.forall₂_same.2 fun member _ => ?_)))
    fun entries entries' hentries => .ok (.ofList hentries)
  exact (hread member.2).bind fun _ _ hx => .ok ⟨rfl, hx⟩

variable {h : Int → Int} (hkeeps : KeepsRange h) (json : Json)

include hkeeps

theorem follows_readInt64 : Follows (h · = ·) json.readInt64 (json.renumber h).readInt64 := by
  cases json with
  | number number =>
    cases number with
    | int n =>
      rw [Json.renumber, Json.readInt64, Json.readInt64]
      split
      · next hn =>
        rw [if_pos (hkeeps.int64 n hn.1 hn.2)]
        exact .ok rfl
      · exact .error _
    | float _ => exact .error _
  | _ => exact .error _

theorem follows_reference :
    Follows (h · = ·) json.readInt64 (FieldSort.reference.renumber h json).readInt64 := by
  rw [renumber_reference]
  exact follows_readInt64 hkeeps json

theorem follows_optionalReference : Follows (Option.Rel (h · = ·)) json.readReference?
    (FieldSort.optionalReference.renumber h json).readReference? := by
  rw [renumber_optionalReference]
  refine (follows_readNullable (follows_readInt64 hkeeps json) (isNull_renumber h json)).bind ?_
  rintro _ _ hn
  refine .ok ?_
  cases hn with
  | none => exact .none
  | @some n _ hn =>
    subst hn
    by_cases hn : 0 ≤ n
    · rw [Option.filter_some, Option.filter_some, if_pos (decide_eq_true hn),
        if_pos (decide_eq_true ((hkeeps.nonneg n).2 hn))]
      exact .some rfl
    · rw [Option.filter_some, Option.filter_some, if_neg (by simpa using hn),
        if_neg (by simpa [hkeeps.nonneg n] using hn)]
      exact .none

theorem follows_references : Follows (List.Forall₂ (h · = ·)) json.readReferences
    (FieldSort.references.renumber h json).readReferences := by
  cases json with
  | array items =>
    refine .mapM (List.forall₂_map_right_iff.2 (List.forall₂_same.2 fun item _ => ?_))
    exact follows_readInt64 hkeeps item
  | _ => exact .error _

theorem follows_properties : Follows (OrderedMap.Related (h · = ·)) (json.readMap Json.readInt64)
    ((FieldSort.properties.renumber h json).readMap Json.readInt64) := by
  cases json with
  | object members => exact follows_readMap (follows_readInt64 hkeeps) members
  | _ => exact .error _

theorem follows_optionalProperties : Follows (Option.Rel (OrderedMap.Related (h · = ·)))
    (json.readNullable (·.readMap Json.readInt64))
    ((FieldSort.optionalProperties.renumber h json).readNullable (·.readMap Json.readInt64)) := by
  have hsort : FieldSort.optionalProperties.renumber h json = FieldSort.properties.renumber h json := by
    cases json <;> rfl
  rw [hsort]
  exact follows_readNullable (follows_properties hkeeps json) (by cases json <;> rfl)

theorem follows_parameters : Follows (List.Forall₂ fun p q => p.name = q.name ∧ h p.type = q.type)
    (json.readList Record.parameterLayout.read)
    ((FieldSort.parameters.renumber h json).readList Record.parameterLayout.read) := by
  have hlayout : Record.parameterLayout.Renumbers h (fun _ => True)
      (fun seen p q => p.name = q.name ∧ ("type" ∈ seen → h p.type = q.type)) ObjectSort.parameter.fields :=
    .cons ⟨rfl, fun value _ => Field.agrees_needed (follows_plain h _ value) fun _ _ _ _ _ hname hpq =>
      ⟨hname, unless_read hpq.2 (by decide)⟩⟩ <|
    .cons ⟨rfl, fun value _ => Field.agrees_needed (follows_reference hkeeps value)
      fun _ _ _ _ _ htype hpq => ⟨hpq.1, fun _ => htype⟩⟩ .nil
  cases json with
  | array items =>
    rw [FieldSort.renumber, renumberObjects_eq]
    refine .mapM (List.forall₂_map_right_iff.2 (List.forall₂_same.2 fun item _ => ?_))
    refine (hlayout.read parameterLayout_fits.lawful ⟨rfl, nofun⟩ rfl fun _ _ => trivial).imp ?_
    rintro p q ⟨seen, hseen, hname, htype⟩
    exact ⟨hname, htype (hseen _ (List.mem_cons_of_mem _ List.mem_cons_self) rfl)⟩
  | _ => exact .error _

end References

end TypeEnv
