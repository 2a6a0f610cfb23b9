import TypeEnv.Proofs.Record.Check

/-! The kind of a record is that of its type. The fields of a kind are read as a form of this kind, and
forms that differ in their references only are of one kind. -/

namespace TypeEnv

open Reading

variable {α β σ ρ : Type} {A : α → β → Prop} {S : σ → ρ → Prop}

theorem TypeForm.Related.kind_eq {x : TypeForm α σ} {y : TypeForm β ρ} (h : x.Related A S y) :
    y.kind = x.kind := by
  cases h <;> rfl

namespace Kind

theorem ofTag?_eq_some {tag : String} {kind : Kind} : ofTag? tag = some kind ↔ kind.tag = tag := by
  constructor
  · intro h
    simpa using List.find?_some h
  · rintro rfl
    exact ofTag?_tag kind

/-- No kind is written as what has none is described. -/
theorem tag_ne (kind : Kind) : kind.tag ≠ "?" := by
  intro h
  cases (ofTag?_eq_some.2 h : ofTag? "?" = some kind)

end Kind

namespace Record

variable {members : List (String × Json)} {kind : Kind}

theorem kind_of_readGeneric {form : TypeForm Int SignatureTexts} (h : readGeneric members = .ok form) :
    form.kind = .generic := by
  obtain ⟨application, -, h⟩ := bind_eq_ok.1 h
  obtain ⟨shape, -, h⟩ := bind_eq_ok.1 h
  obtain rfl := pure_eq_ok.1 h
  rfl

/-- The fields of a kind make a type of this kind. -/
theorem kind_of_readFields {raw : NestedRecord Int} (h : readFields members kind = .ok raw) :
    raw.form.kind = kind := by
  cases kind with
  | simple kind =>
    obtain rfl := pure_eq_ok.1 h
    rfl
  | anonymous =>
    obtain rfl := pure_eq_ok.1 h
    rfl
  | generic =>
    obtain ⟨form, hform, h⟩ := bind_eq_ok.1 h
    obtain rfl := pure_eq_ok.1 h
    exact kind_of_readGeneric hform
  | _ =>
    obtain ⟨fields, -, h⟩ := bind_eq_ok.1 h
    obtain rfl := pure_eq_ok.1 h
    rfl

/-- A record that is read names the kind of its type. -/
theorem exists_kind_of_read {id : RecordId} {json : Json} {record : NestedRecord RecordId}
    (h : read id json = .ok record) : ∃ members, json = .object members ∧
      members.lookup "kind" = some (.string record.form.kind.tag) := by
  obtain ⟨raw, ⟨members, tag, kind, rfl, htag, hkind, hfields⟩, hcheck⟩ := read_eq_ok.1 h
  have hrelated := (checkReferences_eq_ok (check_eq_ok.1 hcheck).1).2
  refine ⟨members, rfl, ?_⟩
  rw [hrelated.form.kind_eq, kind_of_readFields hfields, Kind.ofTag?_eq_some.1 hkind, htag]

end Record

end TypeEnv
