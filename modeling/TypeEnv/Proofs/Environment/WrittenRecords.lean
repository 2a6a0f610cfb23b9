import TypeEnv.Proofs.Document.RecordFields
import TypeEnv.Proofs.Environment.Identity
import TypeEnv.Proofs.Environment.Listings

/-! What the nodes of a loaded graph say, told by the text that is loaded. The node of a record is of the kind
that the record names and has the fields that are written for this kind, with nodes for their numbers. -/

namespace TypeEnv.Environment

open Reading

/-- The node of record `id` has the kind and the fields that are written in `json`. -/
def SaysWritten (graph : TypeGraph) (id : RecordId) (json : Json) : Prop :=
  ∃ members kind raw t form, json = .object members ∧ members.lookup "kind" = some (.string (Kind.tag kind)) ∧
    Record.ReadsFields members kind raw ∧ graph.registered? id = some t ∧ graph.node? t = some (.form form) ∧
    raw.form.Related graph.Numbered
      (SignatureTree.Becomes graph.Numbered fun signature s => graph.signature? s = some signature) form

theorem Represents.saysWritten {graph : TypeGraph} {data : List Json} (h : Represents graph data) {id : RecordId}
    {json : Json} (hjson : data[id.val.toNat]? = some json) (hnull : json.isNull = false)
    (hdiffer : json.NamesDiffer) : SaysWritten graph id json := by
  obtain ⟨record, t, form, hread, ht, hnode, hsays⟩ := h.record id json hjson hnull
  obtain ⟨members, rfl, -⟩ := Record.exists_kind_of_read hread
  obtain ⟨kind, raw, hkind, hfields, -, hrelated⟩ := Record.exists_readsFields_of_read hdiffer.1 hread
  refine ⟨members, kind, raw, t, form, rfl, hkind, hfields, ht, hnode, hrelated.form.trans ?_ ?_ hsays⟩
  · exact fun n id t hn hid => ⟨id, hn, hid⟩
  · exact fun tree copy s => SignatureTree.becomes_trans (fun n id t hn hid => ⟨id, hn, hid⟩) tree copy s

/-- Every record of a text that is loaded is said by its node, field by field. -/
theorem saysWritten_of_ofText (options : LoadOptions) (text : String) (environment : Environment)
    (h : ofText options text = .ok environment) (haddressable : environment.graph.Addressable) :
    ∃ members data, Json.parse? text = some (.object members) ∧ members.lookup "data" = some (.array data) ∧
      ∀ (id : RecordId) json, data[id.val.toNat]? = some json → json.isNull = false →
        SaysWritten environment.graph id json := by
  rw [ofText] at h
  cases hparse : Json.parse? text with
  | none =>
    rw [hparse] at h
    cases h
  | some json =>
    rw [hparse] at h
    obtain ⟨document, hread, hload⟩ := ok_of_ofJson.1 h
    obtain ⟨members, data, rfl, hdata, hrepresents⟩ := represents_of_ofDocument hread hload haddressable
    obtain ⟨-, hmembers⟩ := Json.namesDiffer_of_parse? hparse
    have hitems : (Json.array data).NamesDiffer :=
      Json.membersDiffer_iff.1 hmembers _ (List.mem_map_of_mem (mem_of_lookup hdata))
    exact ⟨members, data, rfl, hdata, fun id json hjson hnull => hrepresents.saysWritten hjson hnull
      (Json.itemsDiffer_iff.1 hitems json (List.mem_of_getElem? hjson))⟩

end TypeEnv.Environment
