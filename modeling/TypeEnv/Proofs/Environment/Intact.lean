import TypeEnv.Proofs.Environment.Contents
import TypeEnv.Proofs.Views.Intact

/-! The graph of a loaded environment is intact, and stays so whatever views are asked for afterwards,
in whatever order and of whatever handles. The placeholders that the records left behind are still in
the arena, but nothing leads to them. -/

namespace TypeEnv.Environment

open Stateful Resolver TypeGraph

variable {options : LoadOptions}

/-- What is loaded holds handles of types only, wherever it holds any. -/
theorem intact_of_ofDocument {document : Document} {environment : Environment}
    (hlen : document.records.length ≤ 0x100000000) (h : ofDocument options document = .ok environment)
    (haddressable : environment.graph.Addressable) : environment.graph.Intact := by
  have hviews : environment.graph.views = {} := (holds_of_ofDocument hlen h haddressable).views
  obtain ⟨table, sections, properties, hterminals, hsections, hproperties, rfl⟩ := ok_of_ofDocument hlen h
  have hr := (registers_collected hlen).collecting
  have htype : ∀ t, (∃ id, (finalGraph (collected document) table properties).registered? id = some t) →
      (finalGraph (collected document) table properties).IsType t := by
    rintro t ⟨id, hid⟩
    exact form_of_registered hr hterminals haddressable hid
  have hvalues : ∀ t ∈ properties.values, ∃ id, (collected document).graph.registered? id = some t :=
    fun t => registered_of_mem_properties hr hterminals haddressable hsections hproperties
  exact {
    nodes := fun node hnode t ht =>
      htype t (registered_of_mem_nodes hr hterminals haddressable hvalues hnode ht)
    signatures := fun signature hsignature t ht =>
      htype t (registered_of_mem_signatures hr hterminals haddressable hsignature ht)
    registry := fun id t hid => htype t ⟨id, hid⟩
    views := fun request view hview =>
      (not_derived_of_empty hviews _ _ (derived_origin.2 hview)).elim }

/-- However a loaded environment is asked for views, and of whatever handles: every request is
answered, and after each of them all handles are those of types, so that no search that starts
elsewhere than at a placeholder meets one. -/
theorem intact_of_ofJson {json : Json} {environment : Environment}
    (h : ofJson options json = .ok environment) (haddressable : environment.graph.Addressable)
    (requests : List ViewRequest)
    (hsize : ((performAll requests).run.run environment.graph).2.size ≤ 0x100000000) :
    ∀ made, made <+: requests → ∃ answers graph,
      (performAll made).run.run environment.graph = (.ok answers, graph) ∧ graph.Intact ∧
        ∀ roots, (∀ t ∈ roots, ¬ graph.StandsIn t) → graph.placeholderFrom? roots = none := by
  intro made hmade
  obtain ⟨document, hread, hdocument⟩ := ok_of_ofJson.1 h
  have hlen := Document.length_le_of_read hread
  have hintact : environment.graph.Intact := intact_of_ofDocument hlen hdocument haddressable
  have hviews : environment.graph.views = {} :=
    (holds_of_ofDocument hlen hdocument haddressable).views
  obtain ⟨answers, graph, hrun, hgraph⟩ := hintact.performAll hviews hsize hmade
  exact ⟨answers, graph, hrun, hgraph, fun roots => placeholderFrom?_of_settled hgraph.settled⟩

/-- Two classes that inherit from each other, one of them through a reference, and a generic type. -/
def familyJson : Json :=
  .object [("globals", .object [("a", .number (.int 0))]), ("types", .array []), ("data", .array [
    .object [("kind", .string "Class"), ("baseTypes", .array [.number (.int 2), .number (.int 1)])],
    .object [("kind", .string "Class"), ("baseTypes", .array [.number (.int 0)])],
    .object [("kind", .string "Reference"), ("target", .number (.int 1)),
      ("typeArguments", .array [.number (.int 3)])],
    .object [("kind", .string "Generic"), ("target", .number (.int 0)),
      ("baseTypes", .array [.number (.int 1)])]])]

/-- Requests for a class, the generic type, a placeholder and a handle out of range. -/
def familyRequests : List ViewRequest :=
  [.instanceInterface ⟨2⟩, .interfacePart ⟨7⟩, .classInstance ⟨0⟩, .instanceInterface ⟨900⟩]

theorem intact_familyJson : ∃ environment, ofJson {} familyJson = .ok environment ∧
    environment.graph.Addressable ∧
    ((performAll familyRequests).run.run environment.graph).2.size = 13 ∧
    ∀ made, made <+: familyRequests → ∃ answers graph,
      (performAll made).run.run environment.graph = (.ok answers, graph) ∧ graph.Intact ∧
        ∀ roots, (∀ t ∈ roots, ¬ graph.StandsIn t) → graph.placeholderFrom? roots = none := by
  have hload : ((ofJson {} familyJson).toOption.any fun environment =>
      decide environment.graph.Addressable &&
        ((performAll familyRequests).run.run environment.graph).2.size == 13) = true := by
    decide +kernel
  cases h : ofJson {} familyJson with
  | error error =>
    rw [h] at hload
    cases hload
  | ok environment =>
    rw [h, Except.toOption, Option.any_some, Bool.and_eq_true, decide_eq_true_iff,
      beq_iff_eq] at hload
    obtain ⟨haddressable, hsize⟩ := hload
    exact ⟨environment, rfl, haddressable, hsize,
      intact_of_ofJson h haddressable familyRequests (by rw [hsize]; decide)⟩

end TypeEnv.Environment
