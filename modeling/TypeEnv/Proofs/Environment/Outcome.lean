import TypeEnv.Proofs.Environment.Loading

/-! Why a load fails. Once the sections of a document are read, the error of a load can be told from the
document alone: that of the first record that does not read by itself, or the first number without a
record, first among what the records mention and then among what the sections name, or the first
global name of several segments. -/

namespace TypeEnv.Environment

open Reading Resolver

variable {options : LoadOptions} {json : Json} {data : List Json} {o : Document.Outline}

/-! ### What a document can be refused for -/

/-- What stands at position `index`, read and taken in as if there were no other records. -/
def takeAlone (options : LoadOptions) (index : Nat) (json : Json) :
    Except LoadError (Option (TypeForm TypeId SignatureId)) := do
  match ← Document.readAt options index json with
  | none => return none
  | some record =>
    match ((formOf record).run.run {}).1 with
    | .error error => throw (.resolution error)
    | .ok form => return some form

/-- The error of the first position that is not taken in. -/
def rejection? (options : LoadOptions) (data : List Json) : Option LoadError :=
  data.zipIdx.findSome? fun entry => error? (takeAlone options entry.2 entry.1)

/-- What the records that read mention, record by record. -/
def recordMentions (options : LoadOptions) (data : List Json) : List RecordId :=
  data.zipIdx.flatMap fun entry =>
    match Document.readAt options entry.2 entry.1 with
    | .ok (some record) => record.mentions
    | _ => []

/-- The first of `ids` that is not the position of a record. -/
def dangling? (data : List Json) (ids : List RecordId) : Option RecordId :=
  ids.find? fun id => !Document.holdsRecord data id

/-- What a document whose sections are read is refused for, if it is. -/
def loadError? (options : LoadOptions) (o : Document.Outline) : Option LoadError :=
  rejection? options o.data <|>
    (dangling? o.data (recordMentions options o.data)).map (fun id => .resolution (.unresolvedId id)) <|>
    (dangling? o.data (sectionIds (o.document []))).map (fun id => .resolution (.unresolvedId id)) <|>
    (qualifiedGlobal? options (o.document [])).map .qualifiedGlobal

/-! ### Records by themselves -/

/-- Taking in a record that reads never fails, so it is for nothing but reading that it is rejected. -/
theorem error?_takeAlone (options : LoadOptions) (index : Nat) (json : Json) :
    error? (takeAlone options index json) = error? (Document.readAt options index json) := by
  rw [takeAlone]
  cases Document.readAt options index json with
  | error error => rfl
  | ok record =>
    cases record with
    | none => rfl
    | some record =>
      obtain ⟨form, r, hrun, -⟩ := collects_formOf record {} collecting_new
      change error? (match ((formOf record).run.run {}).1 with
        | .error error => .error (LoadError.resolution error)
        | .ok form => .ok (some form)) = none
      rw [hrun]
      rfl

theorem rejection?_eq (options : LoadOptions) (data : List Json) :
    rejection? options data = error? (Document.readRecords options 0 data) := by
  rw [Document.readRecords_eq, error?_mapM, rejection?]
  simp only [error?_takeAlone]

theorem recordMentions_eq {records : List (Option (NestedRecord RecordId))}
    (h : Document.readRecords options 0 data = .ok records) :
    recordMentions options data = mentionsOf records := by
  rw [Document.readRecords_eq, mapM_eq_ok] at h
  rw [recordMentions, mentionsOf]
  generalize data.zipIdx = entries at h
  induction h with
  | nil => rfl
  | @cons entry record _ _ hread _ ih =>
    rw [List.flatMap_cons, ih, hread]
    cases record <;> rfl

theorem Registers.missing?_eq {records : List (Option (NestedRecord RecordId))} {r : Resolver}
    (hregisters : Registers 0 records {} r)
    (hrecords : Document.readRecords options 0 data = .ok records) (ids : List RecordId) :
    r.graph.missing? ids = dangling? data ids := by
  have hid : ∀ id, (r.graph.registered? id).isNone = !Document.holdsRecord data id := by
    intro id
    rw [Bool.eq_iff_iff, Bool.not_eq_true', ← Bool.not_eq_true, ← hregisters.holdsRecord hrecords id,
      Option.isNone_iff_eq_none, not_exists, Option.eq_none_iff_forall_ne_some]
  simp only [TypeGraph.missing?, dangling?, hid]

/-! ### Loads -/

/-- Every node of the graph that records are taken into, and a global node, have handles of their
own. -/
def Fits (options : LoadOptions) (json : Json) : Prop :=
  ∀ document, Document.read options json = .ok document → (collected document).graph.size < 0x100000000

theorem fits_iff : Fits options json ↔ ((Document.read options json).toOption.all fun document =>
    (collected document).graph.size < 0x100000000) = true := by
  rw [Fits]
  cases Document.read options json with
  | error error => simp [Except.toOption]
  | ok document => simp [Except.toOption]

instance : Decidable (Fits options json) := decidable_of_iff _ fits_iff.symm

/-- A load fails as its document says and no other way. -/
theorem error?_ofJson (hfits : Fits options json) (ho : Document.outline json = .ok o) :
    error? (ofJson options json) = loadError? options o := by
  rw [loadError?, rejection?_eq]
  cases hrecords : Document.readRecords options 0 o.data with
  | error error =>
    have hread : Document.read options json = .error error := by
      rw [Document.read_eq, ho]
      simp [hrecords]
    rw [ofJson, hread]
    rfl
  | ok records =>
    have hread := Document.read_eq_ok.2 ⟨o, records, ho, hrecords, rfl⟩
    have hlen := Document.length_le_of_read hread
    have hload : ofJson options json = ofDocument options (o.document records) := by
      rw [ofJson, hread]
      rfl
    have hmissing := (registers_collected hlen).missing?_eq hrecords
    rw [hload, error?_ofDocument options hlen (hfits _ hread), hmissing, hmissing,
      recordMentions_eq hrecords]
    change ((dangling? o.data (mentionsOf records)).or
      (dangling? o.data (sectionIds (o.document [])))).elim
        ((qualifiedGlobal? options (o.document [])).map LoadError.qualifiedGlobal) _ = _
    cases dangling? o.data (mentionsOf records) with
    | some id => rfl
    | none =>
      cases dangling? o.data (sectionIds (o.document [])) with
      | some id => rfl
      | none => rfl

/-- The errors that a load can end with. -/
def Reported : LoadError → Prop
  | .malformed .. | .unknownKind .. | .resolution (.unresolvedId _) | .qualifiedGlobal _ => True
  | _ => False

theorem ofJson_failsWith (hfits : Fits options json) : FailsWith Reported (ofJson options json) := by
  intro error h
  rcases bind_eq_error.1 h with hread | ⟨document, hread, hload⟩
  · have hreading := Document.read_failsWith options json error hread
    cases error with
    | malformed | unknownKind => trivial
    | _ => exact hreading.elim
  · have herror := error?_ofDocument options (Document.length_le_of_read hread) (hfits document hread)
    rw [error?_eq_some.2 hload] at herror
    cases hmissing : ((collected document).graph.missing? (mentionsOf document.records)).or
        ((collected document).graph.missing? (sectionIds document)) with
    | some id =>
      rw [hmissing] at herror
      cases herror
      trivial
    | none =>
      rw [hmissing] at herror
      obtain ⟨path, -, rfl⟩ := Option.map_eq_some_iff.1 herror.symm
      trivial

/-- The error of a load is the one that its document is refused for. Numbers never repeat, aliases never
arise, and no placeholder is left. -/
theorem error_of_ofJson (options : LoadOptions) (json : Json) (error : LoadError)
    (hfits : Fits options json) (h : ofJson options json = .error error) :
    (∀ o, Document.outline json = .ok o → loadError? options o = some error) ∧
      (∀ id, error ≠ .resolution (.duplicateId id)) ∧
      (∀ id, error ≠ .resolution (.endlessAlias id)) ∧ ∀ t, error ≠ .placeholderLeft t := by
  have hreported := ofJson_failsWith hfits error h
  refine ⟨fun o ho => ?_, ?_, ?_, ?_⟩
  · rw [← error?_ofJson hfits ho]
    exact error?_eq_some.2 h
  · rintro id rfl
    exact hreported
  · rintro id rfl
    exact hreported
  · rintro t rfl
    exact hreported

/-- A record and a global name that both lead nowhere, the name of two segments. -/
def danglingJson : Json :=
  .object [("globals", .object [("a", .object [("b", .number (.int 9))])]), ("types", .array []),
    ("data", .array [
      .object [("kind", .string "Union"), ("elements", .array [.number (.int 1), .number (.int 7)])],
      .object [("kind", .string "Index"), ("type", .number (.int 5))]])]

theorem error_danglingJson : Fits {} danglingJson ∧
    ofJson {} danglingJson = .error (.resolution (.unresolvedId ⟨7⟩)) ∧
    (∀ o, Document.outline danglingJson = .ok o →
      loadError? {} o = some (.resolution (.unresolvedId ⟨7⟩))) := by
  have hfits : Fits {} danglingJson := by decide +kernel
  have herror : (match ofJson {} danglingJson with
      | .error (.resolution (.unresolvedId id)) => id == ⟨7⟩
      | _ => false) = true := by decide +kernel
  have hload : ofJson {} danglingJson = .error (.resolution (.unresolvedId ⟨7⟩)) := by
    split at herror
    · next id hid => rw [hid, eq_of_beq herror]
    · cases herror
  exact ⟨hfits, hload, (error_of_ofJson {} danglingJson _ hfits hload).1⟩

end TypeEnv.Environment
