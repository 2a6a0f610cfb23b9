import TypeEnv.Proofs.Environment.Placement

/-! The forms of the nodes of an environment, in the order of the arena. Placeholders have none, so there
is a form for each record, in the order of the records, and that of the global node at the end. -/

namespace TypeEnv

/-! ### Forms of a graph -/

namespace Node

def form? : Node → Option (TypeForm TypeId SignatureId)
  | form f => some f
  | placeholder _ => none

theorem form?_mapTypes (f : TypeId → TypeId) (node : Node) :
    (node.mapTypes f).form? = node.form?.map (·.mapTypes f) := by
  cases node <;> rfl

theorem kind?_eq (node : Node) : node.kind? = node.form?.map TypeForm.kind := by
  cases node <;> rfl

theorem signatureRefs_eq (node : Node) : node.signatureRefs = node.form?.toList.flatMap (·.signatureRefs) := by
  cases node <;> simp [signatureRefs, form?]

end Node

namespace TypeGraph

variable (graph : TypeGraph)

/-- The forms of the nodes that are no placeholders. -/
def forms : List (TypeForm TypeId SignatureId) := graph.nodes.toList.filterMap Node.form?

theorem filterMap_kind? : graph.nodes.toList.filterMap Node.kind? = graph.forms.map TypeForm.kind := by
  rw [forms, List.map_filterMap]
  exact congrArg (List.filterMap · _) (funext Node.kind?_eq)

theorem flatMap_signatureRefs :
    graph.nodes.toList.flatMap Node.signatureRefs = graph.forms.flatMap (·.signatureRefs) := by
  rw [forms]
  induction graph.nodes.toList with
  | nil => rfl
  | cons node nodes ih =>
    rw [List.flatMap_cons, ih, node.signatureRefs_eq, List.filterMap_cons]
    cases node.form? <;> simp

end TypeGraph

namespace Environment

open Stateful Resolver

/-! ### Taking in -/

/-- The roots of the signature trees of the records, as they are numbered from `start` on. -/
def rootsFrom (start : ℕ) : List (Option (NestedRecord RecordId)) → List ℕ
  | [] => []
  | none :: records => rootsFrom start records
  | some record :: records =>
    SignatureTree.roots start record.form.signatureRefs ++
      rootsFrom (start + SignatureTree.countOfList record.form.signatureRefs) records

/-- From `r` the records have been taken in, and `forms` are what they have become. -/
structure Forms (records : List (Option (NestedRecord RecordId))) (r r' : Resolver)
    (forms : List (TypeForm TypeId SignatureId)) : Prop where
  grows : r.GrowsTo r'
  forms_eq : r'.graph.forms = r.graph.forms ++ forms
  takes : List.Forall₂ (Takes r') (records.filterMap id) forms
  signatureRefs_eq : forms.flatMap (·.signatureRefs) =
    (rootsFrom r.graph.signatureCount records).map signatureOf

variable {r r' r₁ r₂ : Resolver} {index : ℕ} {record : NestedRecord RecordId}
  {records : List (Option (NestedRecord RecordId))} {form : TypeForm TypeId SignatureId}

/-- What a record mentions adds no form. -/
theorem forms_eq_of_takes (htakes : Resolver.Takes record.mentions r r') (hsteps : Steps r r') :
    r'.graph.forms = r.graph.forms := by
  rcases exists_placeholders_of_steps hsteps with hlt | ⟨-, ids, hnodes⟩
  · rw [htakes.registry] at hlt
    exact absurd hlt (Nat.lt_irrefl _)
  · have hnone : Node.form? ∘ Node.placeholder = fun _ => none := rfl
    rw [TypeGraph.forms, hnodes, List.filterMap_append, List.filterMap_map, hnone, List.filterMap_none,
      List.append_nil]
    rfl

theorem forms_withRegistered (r : Resolver) (id : RecordId) (form : TypeForm TypeId SignatureId) :
    (r.withRegistered id (.form form)).graph.forms = r.graph.forms ++ [form] := by
  simp [TypeGraph.forms, withRegistered, TypeGraph.alloc, Node.form?]

/-- A record that is taken in adds its form, and then come the forms of the records after it. -/
theorem Forms.cons {forms : List (TypeForm TypeId SignatureId)}
    (htakes : Resolver.Takes record.mentions r r₁) (hsteps : Steps r r₁)
    (hadds : Adds (SignatureTree.rowsOfList r.graph.signatureCount record.form.signatureRefs) r r₁)
    (hform : ∀ final, r₁.GrowsTo final → Takes final record form)
    (hrefs : form.signatureRefs =
      (SignatureTree.roots r.graph.signatureCount record.form.signatureRefs).map signatureOf)
    (hfree : r₁.graph.registered? ⟨index.toUInt32⟩ = none)
    (h : Forms records (r₁.withRegistered ⟨index.toUInt32⟩ (.form form)) r₂ forms) :
    Forms (some record :: records) r r₂ (form :: forms) where
  grows := htakes.grows.trans ((growsTo_withRegistered _ hfree).trans h.grows)
  forms_eq := by
    rw [h.forms_eq, forms_withRegistered, forms_eq_of_takes htakes hsteps, List.append_assoc,
      List.singleton_append]
  takes := .cons (hform r₂ ((growsTo_withRegistered _ hfree).trans h.grows)) h.takes
  signatureRefs_eq := by
    have hcount : (r₁.withRegistered ⟨index.toUInt32⟩ (.form form)).graph.signatureCount =
        r.graph.signatureCount + SignatureTree.countOfList record.form.signatureRefs := by
      rw [← SignatureTree.length_rowsOfList]
      exact hadds.count_eq
    rw [List.flatMap_cons, h.signatureRefs_eq, hcount, hrefs, rootsFrom, List.map_append]

theorem exists_forms_of_run (hr : r.Collecting)
    (h : (registerFrom index records).run.run r = (.ok (), r')) : ∃ forms, Forms records r r' forms := by
  induction records generalizing index r with
  | nil =>
    obtain rfl : r = r' := congrArg Prod.snd h
    exact ⟨[], .refl r, (List.append_nil _).symm, .nil, rfl⟩
  | cons first records ih =>
    cases first with
    | none =>
      obtain ⟨forms, hforms⟩ := ih hr h
      exact ⟨forms, hforms.grows, hforms.forms_eq, hforms.takes, hforms.signatureRefs_eq⟩
    | some record =>
      obtain ⟨form, r₁, hrun₁, htakes, hform⟩ := collects_formOf record r hr
      obtain ⟨form', r₁', hrun₁', hadds, hrefs⟩ := numbers_formOf record r hr
      obtain ⟨⟨⟩, rfl⟩ : (Except.ok form : Except ResolveError _) = .ok form' ∧ r₁ = r₁' :=
        Prod.mk.inj (hrun₁.symm.trans hrun₁')
      simp only [registerFrom, run_bind, hrun₁, run_discard, run_register, htakes.collecting.phase,
        reduceCtorEq, if_false] at h
      by_cases hid : r₁.isRegistered ⟨index.toUInt32⟩ = true
      · rw [if_pos hid] at h
        cases h
      · rw [if_neg hid] at h
        have hheld := held_of_named (hform r₁ (.refl r₁)).typeRefs
        obtain ⟨forms, hforms⟩ := ih (htakes.collecting.withRegistered hheld) h
        exact ⟨form :: forms, .cons htakes (steps_formOf hrun₁) hadds hform hrefs (not_isRegistered_iff.1 hid) hforms⟩

/-! ### Environments -/

/-- The forms of an environment are those of the records, in their order, and the one of the global node. -/
structure HasForms (environment : Environment) (records : List (Option (NestedRecord RecordId)))
    (forms : List (TypeForm TypeId SignatureId)) : Prop where
  forms_eq : ∃ properties, environment.graph.forms = forms ++ [.interface { declaredProperties := properties }]
  related : List.Forall₂ (Says environment.graph) (records.filterMap id) forms
  signatureRefs_eq : forms.flatMap (·.signatureRefs) = (rootsFrom 0 records).map signatureOf

theorem forms_finalGraph (r : Resolver) (table : Std.TreeMap TypeId TypeId)
    (properties : OrderedMap String TypeId) : (finalGraph r table properties).forms =
      (r.graph.forms.map fun form => form.mapTypes fun t => table.getD t t) ++
        [.interface { declaredProperties := properties }] := by
  have hmap : Node.form? ∘ (fun node : Node => node.mapTypes fun t => table.getD t t) =
      fun node => node.form?.map fun form => form.mapTypes fun t => table.getD t t :=
    funext fun node => node.form?_mapTypes _
  simp only [TypeGraph.forms, finalGraph, withGlobal, TypeGraph.alloc, resolvedBy, TypeGraph.mapTypes,
    Array.toList_push, Array.toList_map, List.filterMap_append, List.filterMap_map, hmap, List.map_filterMap]
  rfl

theorem exists_hasForms_of_ofDocument {options : LoadOptions} {document : Document} {environment : Environment}
    (hlen : document.records.length ≤ 0x100000000) (h : ofDocument options document = .ok environment)
    (haddressable : environment.graph.Addressable) :
    ∃ forms, environment.HasForms document.records forms := by
  obtain ⟨table, sections, properties, hterminals, -, -, rfl⟩ := ok_of_ofDocument hlen h
  have hr := (registers_collected hlen).collecting
  obtain ⟨forms, hforms⟩ := exists_forms_of_run collecting_new (run_registerFrom_zero hlen).1
  refine ⟨forms.map fun form => form.mapTypes fun t => table.getD t t, ⟨properties, ?_⟩, ?_, ?_⟩
  · have hfinal := forms_finalGraph (collected document) table properties
    rw [hforms.forms_eq] at hfinal
    exact hfinal
  · rw [List.forall₂_map_right_iff]
    exact hforms.takes.imp fun record form => takes_finalGraph hr hterminals haddressable
  · simp only [List.flatMap_map, TypeForm.signatureRefs_mapTypes]
    exact hforms.signatureRefs_eq

end Environment

end TypeEnv
