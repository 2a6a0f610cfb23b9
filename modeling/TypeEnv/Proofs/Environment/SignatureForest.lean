import TypeEnv.Proofs.Environment.Contents
import TypeEnv.Proofs.Environment.Forms
import TypeEnv.Proofs.Record.Forests

/-! The stored signatures of an environment are a forest. Every one of them stands in one place, among the
signatures of a node or inside another signature that is stored after it, and who follows the handles from
the node of a record comes by the signatures as the record has them, one inside the other. -/

namespace TypeEnv

variable {α β σ ρ : Type} {A : α → β → Prop} {S : σ → ρ → Prop}

/-! ### The two lists of a form -/

namespace TypeForm

def shape? : TypeForm α σ → Option (Shape α σ)
  | interface shape => some shape
  | classDeclaration form => some form.shape
  | generic shape .. => some shape
  | _ => none

def callSignatures (form : TypeForm α σ) : List σ := (form.shape?.map (·.callSignatures)).getD []

def constructSignatures (form : TypeForm α σ) : List σ := (form.shape?.map (·.constructSignatures)).getD []

/-- A form has no other signatures. -/
theorem signatureRefs_eq (form : TypeForm α σ) :
    form.signatureRefs = form.callSignatures ++ form.constructSignatures := by
  have hleft : (Sum.getRight? ∘ Sum.inl : α → Option σ) = fun _ => none := rfl
  have hright : (Sum.getRight? ∘ Sum.inr (α := α) : σ → Option σ) = some := rfl
  cases form <;>
    simp [signatureRefs, callSignatures, constructSignatures, shape?, references, ClassForm.references,
      Shape.references, List.filterMap_append, hleft, hright]

theorem Related.callSignatures {x : TypeForm α σ} {y : TypeForm β ρ} (h : x.Related A S y) :
    List.Forall₂ S x.callSignatures y.callSignatures := by
  cases h with
  | interface h => exact h.callSignatures
  | classDeclaration h => exact h.shape.callSignatures
  | generic h => exact h.callSignatures
  | _ => exact .nil

theorem Related.constructSignatures {x : TypeForm α σ} {y : TypeForm β ρ} (h : x.Related A S y) :
    List.Forall₂ S x.constructSignatures y.constructSignatures := by
  cases h with
  | interface h => exact h.constructSignatures
  | classDeclaration h => exact h.shape.constructSignatures
  | generic h => exact h.constructSignatures
  | _ => exact .nil

end TypeForm

/-- Signatures that are alike refer to the same number of signatures, in the same order. -/
theorem Signature.Related.signatureRefs {x : Signature α σ} {y : Signature β ρ} (h : x.Related A S y) :
    List.Forall₂ S x.signatureRefs y.signatureRefs :=
  List.rel_append (forall₂_toList.2 h.target) h.unionSignatures

/-! ### Following handles -/

namespace TypeGraph

variable (graph : TypeGraph)

/-- The tree below signature `s`, if it has at most `depth` levels. -/
def unfoldSignature? : ℕ → SignatureId → Option (SignatureTree TypeId)
  | 0, _ => none
  | depth + 1, s => do
    let signature ← graph.signature? s
    let target ← signature.target.mapM (unfoldSignature? depth)
    let unionSignatures ← signature.unionSignatures.mapM (unfoldSignature? depth)
    return .node signature.header target unionSignatures

/-- The tree below signature `s`. Where inner signatures have smaller handles, it has no more levels than
there are handles up to `s`. -/
def signatureTree? (s : SignatureId) : Option (SignatureTree TypeId) :=
  graph.unfoldSignature? (s.val.toNat + 1) s

/-- Inner signatures have smaller handles. -/
def Descending : Prop :=
  ∀ (i : ℕ) signature, graph.signatures[i]? = some signature → ∀ s ∈ signature.signatureRefs, s.val.toNat < i

/-- The same tree, with the node of a record in place of its number. -/
def Copies : SignatureTree RecordId → SignatureTree TypeId → Prop :=
  SignatureTree.Becomes (fun id t => graph.registered? id = some t) Copied

/-- Following the handles makes up these trees, one for each handle and in their order. -/
def Rebuilds (trees : List (SignatureTree RecordId)) (ss : List SignatureId) : Prop :=
  ∃ rebuilt, ss.mapM graph.signatureTree? = some rebuilt ∧ List.Forall₂ graph.Copies trees rebuilt

section Unfold

variable {graph} {A : α → TypeId → Prop}

theorem Descending.lt (hdescending : graph.Descending) {s : SignatureId} {signature : StoredSignature}
    (hs : graph.signature? s = some signature) {depth : ℕ} (hdepth : s.val.toNat < depth + 1) :
    ∀ s' ∈ signature.signatureRefs, s'.val.toNat < depth :=
  fun s' hs' => Nat.lt_of_lt_of_le (hdescending _ signature hs s' hs') (Nat.le_of_lt_succ hdepth)

mutual

/-- What a tree has been stored as unfolds to a copy of the tree. -/
theorem unfold_of_becomes (hdescending : graph.Descending) :
    ∀ (tree : SignatureTree α) (s : SignatureId) (depth : ℕ), s.val.toNat < depth →
    tree.Becomes A (fun signature s => graph.signature? s = some signature) s →
      ∃ copy, graph.unfoldSignature? depth s = some copy ∧ tree.Becomes A Copied copy
  | _, _, 0, hdepth, _ => absurd hdepth (Nat.not_lt_zero _)
  | .node header target unions, s, depth + 1, hdepth, ⟨signature, hs, hheader, htarget, hunions⟩ => by
    have hlt := hdescending.lt hs hdepth
    obtain ⟨target', htarget', hcopy⟩ := unfold_of_targetBecomes hdescending target signature.target depth
      (fun s' hs' => hlt s' (List.mem_append_left _ (Option.mem_toList.2 hs'))) htarget
    obtain ⟨unions', hunions', hcopies⟩ := unfold_of_listBecomes hdescending unions signature.unionSignatures
      depth (fun s' hs' => hlt s' (List.mem_append_right _ hs')) hunions
    refine ⟨.node signature.header target' unions', ?_, ⟨signature.header, target', unions'⟩, rfl, hheader,
      hcopy, hcopies⟩
    simp [unfoldSignature?, hs, htarget', hunions']

theorem unfold_of_targetBecomes (hdescending : graph.Descending) :
    ∀ (target : Option (SignatureTree α)) (s : Option SignatureId) (depth : ℕ), (∀ s' ∈ s, s'.val.toNat < depth) →
    SignatureTree.targetBecomes A (fun signature s => graph.signature? s = some signature) target s →
      ∃ copy, s.mapM (graph.unfoldSignature? depth) = some copy ∧
        SignatureTree.targetBecomes A Copied target copy
  | none, _, _, _, h => by
    obtain rfl := h
    exact ⟨none, rfl, rfl⟩
  | some tree, _, depth, hdepth, ⟨s, hs, h⟩ => by
    subst hs
    obtain ⟨copy, hcopy, hbecomes⟩ := unfold_of_becomes hdescending tree s depth (hdepth s rfl) h
    exact ⟨some copy, by simp [hcopy], copy, rfl, hbecomes⟩

theorem unfold_of_listBecomes (hdescending : graph.Descending) :
    ∀ (trees : List (SignatureTree α)) (ss : List SignatureId) (depth : ℕ), (∀ s ∈ ss, s.val.toNat < depth) →
    SignatureTree.listBecomes A (fun signature s => graph.signature? s = some signature) trees ss →
      ∃ copies, ss.mapM (graph.unfoldSignature? depth) = some copies ∧
        SignatureTree.listBecomes A Copied trees copies
  | [], _, _, _, h => by
    obtain rfl := h
    exact ⟨[], rfl, rfl⟩
  | tree :: trees, _, depth, hdepth, ⟨s, ss, hss, h, hrest⟩ => by
    subst hss
    obtain ⟨hs, hdepth⟩ := List.forall_mem_cons.1 hdepth
    obtain ⟨copy, hcopy, hbecomes⟩ := unfold_of_becomes hdescending tree s depth hs h
    obtain ⟨copies, hcopies, hrest⟩ := unfold_of_listBecomes hdescending trees ss depth hdepth hrest
    exact ⟨copy :: copies, by simp [hcopy, hcopies], copy, copies, rfl, hbecomes, hrest⟩

end

theorem rebuilds_of_becomes (hdescending : graph.Descending) {trees : List (SignatureTree RecordId)}
    {ss : List SignatureId}
    (h : List.Forall₂ (SignatureTree.Becomes (fun id t => graph.registered? id = some t)
      fun signature s => graph.signature? s = some signature) trees ss) : graph.Rebuilds trees ss := by
  induction h with
  | nil => exact ⟨[], rfl, .nil⟩
  | @cons tree s trees ss hs _ ih =>
    obtain ⟨copy, hcopy, hcopies⟩ := unfold_of_becomes hdescending tree s _ (Nat.lt_succ_self _) hs
    obtain ⟨rebuilt, hrebuilt, hrest⟩ := ih
    exact ⟨copy :: rebuilt, Reading.mapM_eq_some.2 (.cons hcopy (Reading.mapM_eq_some.1 hrebuilt)),
      .cons hcopies hrest⟩

end Unfold

end TypeGraph

/-! ### Environments -/

namespace Environment

open Resolver

/-- Where the signatures of `data` are kept. -/
structure StoresSignatures (graph : TypeGraph) (data : List Json) : Prop where
  /-- Each signature is referred to once, by a node or another signature, and there is nothing else that is
  referred to. -/
  count_eq : ∀ s, (graph.nodes.toList.flatMap Node.signatureRefs ++
    graph.signatures.toList.flatMap Signature.signatureRefs).count s =
      if s.val.toNat < graph.signatureCount then 1 else 0
  descending : graph.Descending
  record : ∀ (id : RecordId) json, data[id.val.toNat]? = some json → json.isNull = false →
    ∃ record t form, Record.read id json = .ok record ∧ graph.registered? id = some t ∧
      graph.node? t = some (.form form) ∧
      graph.Rebuilds record.form.callSignatures form.callSignatures ∧
      graph.Rebuilds record.form.constructSignatures form.constructSignatures

theorem once_from (start : ℕ) (records : List (Option (NestedRecord RecordId))) :
    SignatureTree.Once start (rowsFrom start records).length (rootsFrom start records) (rowsFrom start records) := by
  induction records generalizing start with
  | nil => exact .refl []
  | cons first records ih =>
    cases first with
    | none => exact ih start
    | some record =>
      rw [rowsFrom, rootsFrom, List.length_append, SignatureTree.length_rowsOfList]
      exact (SignatureTree.once_list start _).append (ih _)

theorem descends_from (start : ℕ) (records : List (Option (NestedRecord RecordId))) :
    Descends start (rowsFrom start records) := by
  induction records generalizing start with
  | nil => exact descends_nil
  | cons first records ih =>
    cases first with
    | none => exact ih start
    | some record =>
      refine (SignatureTree.descends_list start _).append ?_
      rw [SignatureTree.length_rowsOfList]
      exact ih _

section Stored

variable {environment : Environment} {options : LoadOptions} {document : Document}
  (hholds : environment.Holds options document) (haddressable : environment.graph.Addressable)

include hholds

/-- The signatures that are stored refer to what their rows refer to. -/
theorem map_signatureRefs_of_holds : environment.graph.signatures.toList.map Signature.signatureRefs =
    (rowsFrom 0 document.records).map fun row => row.signatureRefs.map signatureOf := by
  refine List.ext_getElem? fun i => ?_
  rw [List.getElem?_map, List.getElem?_map, Array.getElem?_toList]
  cases hrow : (rowsFrom 0 document.records)[i]? with
  | none =>
    rw [List.getElem?_eq_none_iff, ← hholds.signatureCount_eq] at hrow
    rw [Array.getElem?_eq_none hrow]
    rfl
  | some row =>
    obtain ⟨signature, hsignature, hrelated⟩ := hholds.signature i row hrow
    rw [hsignature, Option.map_some, Option.map_some]
    refine congrArg some ?_
    have hrefs := (map_eq_of_forall₂ (f := signatureOf) (g := id) (hrelated.signatureRefs.imp fun _ _ h => h.symm))
    rw [hrefs, List.map_id]

include haddressable

theorem descending_of_holds : environment.graph.Descending := by
  intro i signature hsignature s hs
  have hlt := (Array.getElem?_eq_some_iff.1 hsignature).1
  have hrefs := congrArg (·[i]?) (map_signatureRefs_of_holds hholds)
  simp only [List.getElem?_map, Array.getElem?_toList, hsignature, Option.map_some] at hrefs
  obtain ⟨row, hrow, hrow'⟩ := Option.map_eq_some_iff.1 hrefs.symm
  rw [← hrow'] at hs
  obtain ⟨j, hj, rfl⟩ := List.mem_map.1 hs
  have hji := descends_from 0 document.records i row hrow j hj
  have hsize : i < 0x100000000 := Nat.lt_of_lt_of_le hlt haddressable.signatures
  rw [signatureOf, toNat_toUInt32 (by omega)]
  omega

omit hholds in
theorem count_handles (s : SignatureId) :
    ((List.range' 0 environment.graph.signatureCount).map signatureOf).count s =
      if s.val.toNat < environment.graph.signatureCount then 1 else 0 := by
  have hbound := haddressable.signatures
  have hnodup : ((List.range' 0 environment.graph.signatureCount).map signatureOf).Nodup := by
    refine List.Nodup.map_on ?_ List.nodup_range'
    intro i hi j hj h
    rw [List.mem_range'_1] at hi hj
    have hval := congrArg (·.val.toNat) h
    simp only [signatureOf] at hval
    rwa [toNat_toUInt32 (by omega), toNat_toUInt32 (by omega)] at hval
  have hmem : s ∈ (List.range' 0 environment.graph.signatureCount).map signatureOf ↔
      s.val.toNat < environment.graph.signatureCount := by
    rw [List.mem_map]
    constructor
    · rintro ⟨i, hi, rfl⟩
      rw [List.mem_range'_1] at hi
      rw [signatureOf, toNat_toUInt32 (by omega)]
      omega
    · exact fun h => ⟨_, List.mem_range'_1.2 ⟨Nat.zero_le _, by rwa [Nat.zero_add]⟩, s.word_eq⟩
  split
  · next h => exact List.count_eq_one_of_mem hnodup (hmem.2 h)
  · next h => exact List.count_eq_zero_of_not_mem (mt hmem.1 h)

/-- The roots stand in the nodes and all other signatures inside others. -/
theorem count_signatureRefs {forms : List (TypeForm TypeId SignatureId)}
    (hforms : environment.HasForms document.records forms) (s : SignatureId) :
    (environment.graph.nodes.toList.flatMap Node.signatureRefs ++
      environment.graph.signatures.toList.flatMap Signature.signatureRefs).count s =
        if s.val.toNat < environment.graph.signatureCount then 1 else 0 := by
  obtain ⟨properties, heq⟩ := hforms.forms_eq
  have hglobal : (TypeForm.interface (σ := SignatureId) { declaredProperties := properties }).signatureRefs = [] := by
    rw [TypeForm.signatureRefs_eq]
    rfl
  have hroots : environment.graph.nodes.toList.flatMap Node.signatureRefs =
      (rootsFrom 0 document.records).map signatureOf := by
    rw [environment.graph.flatMap_signatureRefs, heq, List.flatMap_append, hforms.signatureRefs_eq,
      List.flatMap_singleton, hglobal, List.append_nil]
  have hrows : environment.graph.signatures.toList.flatMap Signature.signatureRefs =
      ((rowsFrom 0 document.records).flatMap (·.signatureRefs)).map signatureOf := by
    rw [List.flatMap_def, map_signatureRefs_of_holds hholds, ← List.flatMap_def, List.map_flatMap]
  have honce := (once_from 0 document.records).map signatureOf
  rw [← hholds.signatureCount_eq, List.map_append, ← hroots, ← hrows] at honce
  rw [honce.count_eq, count_handles haddressable]

end Stored

/-- What is loaded stores the signatures of its document as a forest. -/
theorem storesSignatures_of_ofJson (options : LoadOptions) (json : Json) (environment : Environment)
    (h : ofJson options json = .ok environment) (haddressable : environment.graph.Addressable) :
    ∃ members data, json = .object members ∧ members.lookup "data" = some (.array data) ∧
      StoresSignatures environment.graph data := by
  obtain ⟨members, data, document, rfl, hdata, hlen, hrecords, hload⟩ := exists_data_of_ofJson h
  have hholds := holds_of_ofDocument hlen hload haddressable
  have hdescending := descending_of_holds hholds haddressable
  obtain ⟨forms, hforms⟩ := exists_hasForms_of_ofDocument hlen hload haddressable
  refine ⟨members, data, rfl, hdata, count_signatureRefs hholds haddressable hforms, hdescending,
    fun id json hjson hnull => ?_⟩
  obtain ⟨record, hread⟩ := Document.exists_read hrecords hjson hnull
  have hk := (Document.getElem?_records hrecords).2 ⟨json, hjson, hnull, hread⟩
  obtain ⟨t, form, ht, hnode, hsays, -⟩ := hholds.record id record hk
  rw [RecordId.word_eq] at hread
  exact ⟨record, t, form, hread, ht, hnode, TypeGraph.rebuilds_of_becomes hdescending hsays.callSignatures,
    TypeGraph.rebuilds_of_becomes hdescending hsays.constructSignatures⟩

/-- A class with constructors in both places, and signatures with targets and union members inside each other. -/
def forestJson : Json :=
  .object [("globals", .array []), ("types", .array []), ("data", .array [
    .object [("kind", .string "Any")],
    .object [("kind", .string "Class"),
      ("declaredCallSignatures", .array [
        .object [("resolvedReturnType", .number (.int 0)),
          ("target", .object [("resolvedReturnType", .number (.int 1)),
            ("unionSignatures", .array [.object [("resolvedReturnType", .number (.int 0))],
              .object [("resolvedReturnType", .number (.int 1))]])]),
          ("unionSignatures", .array [.object [("resolvedReturnType", .number (.int 1))]])],
        .object [("resolvedReturnType", .number (.int 1))]]),
      ("declaredConstructSignatures", .array [.object [("resolvedReturnType", .number (.int 1))]]),
      ("signatures", .array [.object [("resolvedReturnType", .number (.int 0))]])],
    .object [("kind", .string "Interface"),
      ("declaredConstructSignatures", .array [.object [("resolvedReturnType", .number (.int 0))]])]])]

theorem storesSignatures_forestJson : ∃ environment, ofJson {} forestJson = .ok environment ∧
    environment.graph.Addressable ∧ ∃ members data, forestJson = .object members ∧
      members.lookup "data" = some (.array data) ∧ StoresSignatures environment.graph data := by
  obtain ⟨environment, h, haddressable⟩ := Reading.exists_ok_of_any (x := ofJson {} forestJson)
    (P := fun environment => environment.graph.Addressable) (by decide +kernel)
  exact ⟨environment, h, haddressable, storesSignatures_of_ofJson _ forestJson environment h haddressable⟩

/-- Targets and union members are stored before what they stand in, the constructors of a class last. -/
example : ((ofJson {} forestJson).toOption.map fun environment =>
    (environment.graph.nodes.toList.map fun node => node.signatureRefs.map (·.val),
      environment.graph.signatures.toList.map fun s => s.signatureRefs.map (·.val))) =
    some ([[], [], [], [4, 5, 6, 7], [8], []], [[], [], [0, 1], [], [2, 3], [], [], [], []]) := by
  decide +kernel

end Environment

end TypeEnv
