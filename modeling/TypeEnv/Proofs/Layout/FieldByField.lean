import TypeEnv.Proofs.Form.Related
import TypeEnv.Proofs.Ident
import TypeEnv.Proofs.Json.Names
import TypeEnv.Proofs.Layout.Members

/-! What a layout reads, field by field. Where the names of an object differ, each of its fields can be looked
up by name, and what is read is put together from what the fields hold, in the order of the layout. A value
is told by the JSON that it is written as. -/

namespace TypeEnv

open Reading

/-! ### Single values -/

/-- The integers that are read are those of 64 bits. -/
def HasInt64 (n : Int) : Prop := -0x8000000000000000 ≤ n ∧ n < 0x8000000000000000

namespace Json

variable {α : Type} {json : Json} {read : Json → Except Fault α}

theorem readInt64_eq_ok {n : Int} : json.readInt64 = .ok n ↔ json = .number (.int n) ∧ HasInt64 n := by
  cases json with
  | number number =>
    cases number with
    | int m =>
      rw [readInt64, HasInt64]
      split
      · next hm =>
        simp only [Except.ok.injEq, Json.number.injEq, JsonNumber.int.injEq]
        constructor
        · rintro rfl
          exact ⟨rfl, hm⟩
        · exact And.left
      · next hm =>
        simp only [reduceCtorEq, Json.number.injEq, JsonNumber.int.injEq, false_iff]
        rintro ⟨rfl, hn⟩
        exact hm hn
    | float value => simp [readInt64]
  | _ => simp [readInt64]

theorem readUInt32_eq_ok {n : UInt32} : json.readUInt32 = .ok n ↔ json = .number (.int n.toNat) := by
  cases json with
  | number number =>
    cases number with
    | int m =>
      have hlt := n.toNat_lt
      rw [readUInt32]
      split
      · next hm =>
        have hword := toNat_toUInt32 (n := m.toNat) (by omega)
        simp only [Except.ok.injEq, Json.number.injEq, JsonNumber.int.injEq]
        constructor
        · rintro rfl
          omega
        · rintro rfl
          simp
      · next hm =>
        simp only [reduceCtorEq, Json.number.injEq, JsonNumber.int.injEq, false_iff]
        omega
    | float value => simp [readUInt32]
  | _ => simp [readUInt32]

theorem readFloat_eq_ok {value : Binary64} : json.readFloat = .ok value ↔
    (∃ n, json = .number (.int n) ∧ value = .ofInt n) ∨ json = .number (.float value) := by
  cases json with
  | number number => cases number <;> simp [readFloat, eq_comm]
  | _ => simp [readFloat]

theorem readBool_eq_ok {value : Bool} : json.readBool = .ok value ↔ json = .bool value := by
  cases json <;> simp [readBool]

theorem readText_eq_ok {text : String} : json.readText = .ok text ↔ json = .string text := by
  cases json <;> simp [readText]

theorem readNullable_eq_ok {x : Option α} : json.readNullable read = .ok x ↔
    json = .null ∧ x = none ∨ json.isNull = false ∧ ∃ a, read json = .ok a ∧ x = some a := by
  cases json with
  | null => simp [readNullable, isNull, eq_comm]
  | _ => simp [readNullable, isNull, map_eq_ok, eq_comm (b := x)]

theorem readList_eq_ok {l : List α} : json.readList read = .ok l ↔
    ∃ items, json = .array items ∧ List.Forall₂ (fun item a => read item = .ok a) items l := by
  cases json with
  | array items => simp [readList, mapM_eq_ok]
  | _ => simp [readList]

/-- A map has the members of the object that it is read of, in their order. -/
theorem readMap_eq_ok (hdiffer : json.NamesDiffer) {m : OrderedMap String α} : json.readMap read = .ok m ↔
    ∃ members, json = .object members ∧
      List.Forall₂ (fun member entry => member.1 = entry.1 ∧ read member.2 = .ok entry.2) members m.entries := by
  cases json with
  | object members =>
    have hentry : ∀ (member : String × Json) (entry : String × α),
        (do return (member.1, ← read member.2) : Except Fault (String × α)) = .ok entry ↔
          member.1 = entry.1 ∧ read member.2 = .ok entry.2 := by
      rintro ⟨name, value⟩ ⟨name', a⟩
      simp [bind_eq_ok, and_comm]
    simp only [readMap, bind_eq_ok, mapM_eq_ok, hentry, pure_eq_ok, object.injEq, exists_eq_left']
    constructor
    · rintro ⟨entries, hentries, rfl⟩
      have hnames := map_eq_of_forall₂ (hentries.imp fun _ _ hentry => hentry.1)
      rwa [OrderedMap.entries_ofList (hnames ▸ hdiffer.1)]
    · intro hentries
      exact ⟨m.entries, hentries, OrderedMap.ofList_entries m⟩
  | _ => simp [readMap]

end Json

/-! ### Fields one by one -/

namespace Layout

variable {α ρ : Type} {layout : Layout α ρ} {members : List (String × α)}

/-- What stands under the names of `fields`, in their order. -/
def known (fields : List (Field α ρ)) (members : List (String × α)) : List (String × α) :=
  fields.filterMap fun field => (members.lookup field.name).map (field.name, ·)

theorem mem_known {fields : List (Field α ρ)} {member : String × α} : member ∈ known fields members ↔
    member.1 ∈ fields.map Field.name ∧ members.lookup member.1 = some member.2 := by
  obtain ⟨name, value⟩ := member
  simp only [known, List.mem_filterMap, Option.map_eq_some_iff, Prod.mk.injEq, List.mem_map]
  constructor
  · rintro ⟨field, hfield, value, hvalue, rfl, rfl⟩
    exact ⟨⟨field, hfield, rfl⟩, hvalue⟩
  · rintro ⟨⟨field, hfield, rfl⟩, hvalue⟩
    exact ⟨field, hfield, value, hvalue, rfl, rfl⟩

theorem map_fst_known_sublist (fields : List (Field α ρ)) :
    ((known fields members).map Prod.fst).Sublist (fields.map Field.name) := by
  induction fields with
  | nil => exact .slnil
  | cons field fields ih =>
    rw [known, List.filterMap_cons]
    cases members.lookup field.name with
    | none => exact ih.cons _
    | some value => exact ih.cons_cons _

/-- Members are those that a layout knows, in the order of its fields, and those that it does not. -/
theorem perm_known (h : layout.Lawful) (hnodup : (members.map Prod.fst).Nodup) :
    members.Perm (known layout.fields members ++
      members.filter fun member => member.1 ∉ layout.fields.map Field.name) := by
  have hmem : ∀ member : String × α, member ∈ members ↔ members.lookup member.1 = some member.2 :=
    fun member => ⟨lookup_of_mem hnodup, mem_of_lookup⟩
  have hknown : (known layout.fields members).Nodup :=
    List.Nodup.of_map _ (h.nodup.sublist (map_fst_known_sublist _))
  have hall : (known layout.fields members ++
      members.filter fun member => member.1 ∉ layout.fields.map Field.name).Nodup := by
    refine hknown.append ((List.Nodup.of_map _ hnodup).filter _) fun member hin hout => ?_
    rw [List.mem_filter, decide_eq_true_iff] at hout
    exact hout.2 (mem_known.1 hin).1
  refine (List.perm_ext_iff_of_nodup (List.Nodup.of_map _ hnodup) hall).2 fun member => ?_
  rw [List.mem_append, mem_known, List.mem_filter, decide_eq_true_iff, hmem]
  tauto

theorem readMembers_unknown (h : ∀ member ∈ members, member.1 ∉ layout.fields.map Field.name) (r : ρ) :
    (layout.readMembers members r).toOption = some r := by
  induction members with
  | nil => rfl
  | cons member members ih =>
    obtain ⟨hmember, hmembers⟩ := List.forall_mem_cons.1 h
    rw [readMembers_cons, change?_of_unknown hmember, Option.bind_some, id, ih hmembers]

/-- Reads the fields one after the other. One that is left out leaves the record as it is, unless it has to be
there. -/
def readEach (members : List (String × α)) : List (Field α ρ) → ρ → Option ρ
  | [], r => some r
  | field :: fields, r =>
    ((members.lookup field.name).elim (if field.required then none else some r) fun value =>
      (field.read value).toOption.map (· r)).bind (readEach members fields)

theorem readEach_eq_some (h : layout.Lawful) {fields : List (Field α ρ)}
    (hfields : ∀ field ∈ fields, field ∈ layout.fields) {r s : ρ} :
    readEach members fields r = some s ↔ (layout.readMembers (known fields members) r).toOption = some s ∧
      ∀ field ∈ fields, field.required = true → field.name ∈ members.map Prod.fst := by
  induction fields generalizing r with
  | nil => simp [readEach, known, readMembers]
  | cons field fields ih =>
    obtain ⟨hfield, hfields⟩ := List.forall_mem_cons.1 hfields
    rw [known, List.filterMap_cons, readEach, List.forall_mem_cons]
    cases hlookup : members.lookup field.name with
    | none =>
      have hmissing : field.name ∉ members.map Prod.fst := lookup_eq_none.1 hlookup
      cases hrequired : field.required with
      | true => simp [hmissing]
      | false => exact (ih hfields).trans (and_congr_right fun _ => (and_iff_right (absurd · Bool.false_ne_true)).symm)
    | some value =>
      have hthere : field.name ∈ members.map Prod.fst := List.mem_map_of_mem (mem_of_lookup hlookup)
      have hchange : layout.change? (field.name, value) = (field.read value).toOption :=
        change?_of_field? ((field?_eq_some h).2 ⟨hfield, rfl⟩)
      rw [Option.map_some, readMembers_cons, hchange, Option.elim_some]
      cases (field.read value).toOption with
      | none => simp
      | some c => exact (ih hfields).trans (and_congr_right fun _ => (and_iff_right fun _ => hthere).symm)

/-- Members whose names differ can be read in the order of the fields. -/
theorem ofMembers_eq_readEach (h : layout.Lawful) (hnodup : (members.map Prod.fst).Nodup) :
    (layout.ofMembers members).toOption = readEach members layout.fields layout.blank := by
  have hunknown (r : ρ) : (layout.readMembers (members.filter fun member =>
      member.1 ∉ layout.fields.map Field.name) r).toOption = some r :=
    readMembers_unknown (fun member hmember => by simpa using (List.mem_filter.1 hmember).2) r
  refine Option.ext fun r => ?_
  rw [ofMembers_eq_some, readEach_eq_some h fun _ => id, readMembers_perm h (perm_known h hnodup) hnodup,
    readMembers_append]
  simp only [hunknown, Option.bind_fun_some]

section Steps

variable {γ : Type} {fields : List (Field α ρ)} {put : γ → ρ → ρ} {r s : ρ} {P : γ → Prop}

/-- A field is read from what stands under its name, or from `blank?` where it is left out. -/
theorem readEach_cons {field : Field α ρ} {read? : α → Option γ} {blank? : Option γ}
    (hread : ∀ value, (field.read value).toOption = (read? value).map put)
    (hblank : (if field.required then none else some r) = blank?.map (put · r))
    (hnext : ∀ value, readEach members fields (put value r) = some s ↔ P value) :
    readEach members (field :: fields) r = some s ↔
      ∃ value, (members.lookup field.name).elim blank? read? = some value ∧ P value := by
  have hstep : readEach members (field :: fields) r =
      ((members.lookup field.name).elim blank? read?).bind fun value => readEach members fields (put value r) := by
    rw [readEach]
    cases members.lookup field.name with
    | none =>
      rw [Option.elim_none, Option.elim_none, hblank, Option.bind_map]
      rfl
    | some value =>
      rw [Option.elim_some, Option.elim_some, hread, Option.map_map, Option.bind_map]
      rfl
  rw [hstep, Option.bind_eq_some_iff]
  exact exists_congr fun value => and_congr_right fun _ => hnext value

variable {name : String} {read : α → Except Fault γ} {write : γ → α}
  (hread : ∀ value x, read value = .ok x ↔ value = write x)

include hread

/-- A field that has to be there and is written in one way only. -/
theorem readEach_needed (hnext : ∀ x, readEach members fields (put x r) = some s ↔ P x) :
    readEach members (.needed name read put :: fields) r = some s ↔
      ∃ x, members.lookup name = some (write x) ∧ P x := by
  have hcons : readEach members (.needed name read put :: fields) r = some s ↔
      ∃ x, (members.lookup name).elim none (fun value => (read value).toOption) = some x ∧ P x :=
    readEach_cons (fun value => toOption_map (read value) put) rfl hnext
  refine hcons.trans (exists_congr fun x => and_congr_left fun _ => ?_)
  cases members.lookup name with
  | none => simp
  | some value => simp [toOption_eq_some, hread]

/-- A field that may be left out and is written in one way only. -/
theorem readEach_optional {blank : γ} (hput : put blank r = r)
    (hnext : ∀ x, readEach members fields (put x r) = some s ↔ P x) :
    readEach members (.optional name read put :: fields) r = some s ↔
      ∃ x, (members.lookup name).getD (write blank) = write x ∧ P x := by
  have hcons : readEach members (.optional name read put :: fields) r = some s ↔
      ∃ x, (members.lookup name).elim (some blank) (fun value => (read value).toOption) = some x ∧ P x :=
    readEach_cons (fun value => toOption_map (read value) put) (congrArg some hput.symm) hnext
  have hinj : ∀ x, write blank = write x ↔ blank = x := by
    intro x
    rw [← hread, (hread _ _).2 rfl, Except.ok.injEq]
  refine hcons.trans (exists_congr fun x => and_congr_left fun _ => ?_)
  cases members.lookup name with
  | none => simp [hinj]
  | some value => simp [toOption_eq_some, hread]

end Steps

end Layout

end TypeEnv
