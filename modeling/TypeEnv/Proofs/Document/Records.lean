import TypeEnv.Document
import TypeEnv.Proofs.Record.Check

/-! Reading the records of a document. Each position is read on its own, knowing nothing of the others;
the first that does not read is what the document is refused for. -/

namespace TypeEnv

open Reading

namespace Document

variable {options : LoadOptions}

theorem readRecord_eq_ok {id : RecordId} {json : Json} {record : Option (NestedRecord RecordId)} :
    readRecord options id json = .ok record ↔
      (json.isNull = true ∧ options.nullRecords = .skip ∧ record = none) ∨
        json.isNull = false ∧ ∃ r, record = some r ∧ Record.read id json = .ok r := by
  rw [readRecord]
  cases json.isNull with
  | true =>
    cases options.nullRecords with
    | reject => simp
    | skip => simp [eq_comm]
  | false => simp [map_eq_ok, and_comm, eq_comm (b := record)]

theorem readAt_eq_ok {index : Nat} {json : Json} {record : Option (NestedRecord RecordId)} :
    readAt options index json = .ok record ↔
      index < 0x100000000 ∧ readRecord options ⟨index.toUInt32⟩ json = .ok record := by
  rw [readAt]
  split
  · next h => exact (and_iff_right h).symm
  · next h => exact ⟨nofun, fun hread => absurd hread.1 h⟩

theorem isNull_of_read {id : RecordId} {json : Json} {record : NestedRecord RecordId}
    (h : Record.read id json = .ok record) : json.isNull = false := by
  cases json with
  | null => cases h
  | _ => rfl

theorem readRecords_eq (index : Nat) (data : List Json) : readRecords options index data =
    (data.zipIdx index).mapM fun entry => readAt options entry.2 entry.1 := by
  induction data generalizing index with
  | nil => rfl
  | cons json data ih => simp only [readRecords, List.zipIdx_cons, List.mapM_cons, ih]

theorem readRecords_eq_ok {data : List Json} {records : List (Option (NestedRecord RecordId))} :
    readRecords options 0 data = .ok records ↔ records.length = data.length ∧
      ∀ (k : Nat) json, data[k]? = some json → ∃ record, records[k]? = some record ∧
        readAt options k json = .ok record := by
  rw [readRecords_eq, mapM_eq_ok, List.forall₂_iff_get]
  simp only [List.length_zipIdx, eq_comm (a := data.length)]
  refine and_congr_right fun hlen => ⟨fun h k json hk => ?_, fun h k hk hk' => ?_⟩
  · obtain ⟨hlt, rfl⟩ := List.getElem?_eq_some_iff.1 hk
    have hread := h k hlt (hlen ▸ hlt)
    refine ⟨_, List.getElem?_eq_getElem (hlen ▸ hlt), ?_⟩
    simpa using hread
  · obtain ⟨record, hrecord, hread⟩ := h k _ (List.getElem?_eq_getElem hk)
    obtain ⟨hlt, rfl⟩ := List.getElem?_eq_some_iff.1 hrecord
    simpa using hread

/-- Values that are read alike at every position are read alike one after the other. -/
theorem follows_readRecords {V : Json → Json → Prop}
    {R : Option (NestedRecord RecordId) → Option (NestedRecord RecordId) → Prop}
    (hat : ∀ index json json', V json json' → Follows R (readAt options index json) (readAt options index json'))
    {data data' : List Json} (h : List.Forall₂ V data data') (index : Nat) :
    Follows (List.Forall₂ R) (readRecords options index data) (readRecords options index data') := by
  induction h generalizing index with
  | nil => exact .ok .nil
  | cons hjson _ ih =>
    rw [readRecords, readRecords]
    exact (hat _ _ _ hjson).bind fun _ _ hrecord => (ih _).bind fun _ _ hrecords => .ok (.cons hrecord hrecords)

/-- Positions that read have numbers of their own. -/
theorem length_le_of_readRecords {data : List Json} {records : List (Option (NestedRecord RecordId))}
    (h : readRecords options 0 data = .ok records) : data.length ≤ 0x100000000 := by
  by_contra hlen
  obtain ⟨k, hk, hlt⟩ : ∃ k, 0x100000000 ≤ k ∧ k < data.length := ⟨0x100000000, Nat.le_refl _, by omega⟩
  obtain ⟨record, -, hread⟩ := (readRecords_eq_ok.1 h).2 k _ (List.getElem?_eq_getElem hlt)
  have hindex := (readAt_eq_ok.1 hread).1
  omega

theorem exists_read {data : List Json} {records : List (Option (NestedRecord RecordId))}
    (h : readRecords options 0 data = .ok records) {k : Nat} {json : Json} (hk : data[k]? = some json)
    (hnull : json.isNull = false) : ∃ record, Record.read ⟨k.toUInt32⟩ json = .ok record := by
  obtain ⟨found, -, hok⟩ := (readRecords_eq_ok.1 h).2 k json hk
  rcases readRecord_eq_ok.1 (readAt_eq_ok.1 hok).2 with ⟨hnull', -, -⟩ | ⟨-, r, -, hr⟩
  · simp [hnull] at hnull'
  · exact ⟨r, hr⟩

/-- The records that are read are those that are not null, each as it reads by itself. -/
theorem getElem?_records {data : List Json} {records : List (Option (NestedRecord RecordId))}
    (h : readRecords options 0 data = .ok records) {k : Nat} {record : NestedRecord RecordId} :
    records[k]? = some (some record) ↔ ∃ json, data[k]? = some json ∧ json.isNull = false ∧
      Record.read ⟨k.toUInt32⟩ json = .ok record := by
  obtain ⟨hlen, hread⟩ := readRecords_eq_ok.1 h
  have hat : ∀ json, data[k]? = some json → ∃ found, records[k]? = some found ∧
      readRecord options ⟨k.toUInt32⟩ json = .ok found := by
    intro json hk
    obtain ⟨found, hfound, hok⟩ := hread k json hk
    exact ⟨found, hfound, (readAt_eq_ok.1 hok).2⟩
  constructor
  · intro hk
    have hlt : k < data.length := hlen ▸ (List.getElem?_eq_some_iff.1 hk).1
    obtain ⟨found, hfound, hok⟩ := hat _ (List.getElem?_eq_getElem hlt)
    obtain rfl := Option.some.inj (hk.symm.trans hfound)
    rcases readRecord_eq_ok.1 hok with ⟨-, -, hnone⟩ | ⟨hnull, r, hr, hok⟩
    · cases hnone
    · cases hr
      exact ⟨_, List.getElem?_eq_getElem hlt, hnull, hok⟩
  · rintro ⟨json, hk, hnull, hok⟩
    obtain ⟨found, hfound, hok'⟩ := hat json hk
    rcases readRecord_eq_ok.1 hok' with ⟨hnull', -, -⟩ | ⟨-, r, rfl, hr⟩
    · simp [hnull] at hnull'
    · obtain rfl := Except.ok.inj (hok.symm.trans hr)
      exact hfound

theorem readAt_failsWith (options : LoadOptions) (index : Nat) (json : Json) :
    FailsWith LoadError.OfReading (readAt options index json) := by
  rw [readAt]
  split
  · rw [readRecord]
    split
    · split
      · exact .error trivial
      · exact .ok _
    · exact (Record.read_failsWith _ _).map _
  · exact .error trivial

/-- A record that is not null stands at position `id`. -/
def holdsRecord (data : List Json) (id : RecordId) : Bool :=
  data[id.val.toNat]?.any (!·.isNull)

theorem holdsRecord_iff {data : List Json} {id : RecordId} : holdsRecord data id = true ↔
    ∃ json, data[id.val.toNat]? = some json ∧ json.isNull = false := by
  simp [holdsRecord, Option.any_eq_true]

end Document

end TypeEnv
