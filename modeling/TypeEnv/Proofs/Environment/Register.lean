import TypeEnv.Environment
import TypeEnv.Proofs.Resolver.Intake

/-! Taking in the records of a document. No two records have the same position and a registered node
is a form, so nothing can fail before the collection ends; what can be missing is found only then. -/

namespace TypeEnv.Environment

open Stateful Resolver

/-- The form that record `record` has in `final`: each number replaced by the placeholder of its
record, each signature by the handle it is stored at. -/
def Takes (final : Resolver) (record : NestedRecord RecordId)
    (form : TypeForm TypeId SignatureId) : Prop :=
  record.form.Related final.Named (SignatureTree.Becomes final.Named final.Stored) form

theorem collects_formOf (record : NestedRecord RecordId) :
    Collects record.mentions (formOf record) fun final form => Takes final record form := by
  rw [Record.mentions_eq]
  have h := collects_exchange SignatureTree.mentions _ (record.exchanges (fun _ => resolve) _)
    collects_tree
  exact h.map Record.form fun _ _ hrecord => hrecord.form

/-- What records mention, in the order in which they are taken in. -/
def mentionsOf (records : List (Option (NestedRecord RecordId))) : List RecordId :=
  (records.filterMap id).flatMap Record.mentions

/-- From `r`, the records from position `index` on have been taken in. -/
structure Registers (index : Nat) (records : List (Option (NestedRecord RecordId)))
    (r r' : Resolver) : Prop where
  collecting : r'.Collecting
  grows : r.GrowsTo r'
  mentioned : ∀ p, r'.graph.mentioned.find? p = (r.graph.mentioned ++ mentionsOf records).find? p
  registered : ∀ id, (∃ t, r'.graph.registered? id = some t) ↔
    (∃ t, r.graph.registered? id = some t) ∨
      ∃ k record, records[k]? = some (some record) ∧ id = ⟨(index + k).toUInt32⟩
  forms : ∀ k record, records[k]? = some (some record) → ∃ t form,
    r'.graph.registered? ⟨(index + k).toUInt32⟩ = some t ∧ r'.graph.NodeAt t (.form form) ∧
      Takes r' record form

variable {r r₁ r₂ : Resolver} {index : Nat} {record : NestedRecord RecordId}
  {records : List (Option (NestedRecord RecordId))}

theorem exists_cons_iff {P : Nat → NestedRecord RecordId → Prop}
    {first : Option (NestedRecord RecordId)} :
    (∃ k record, (first :: records)[k]? = some (some record) ∧ P k record) ↔
      (∃ record, first = some record ∧ P 0 record) ∨
        ∃ k record, records[k]? = some (some record) ∧ P (k + 1) record := by
  constructor
  · rintro ⟨k | k, record, hk, hP⟩
    · exact .inl ⟨record, by simpa using hk, hP⟩
    · exact .inr ⟨k, record, by simpa using hk, hP⟩
  · rintro (⟨record, rfl, hP⟩ | ⟨k, record, hk, hP⟩)
    · exact ⟨0, record, by simp, hP⟩
    · exact ⟨k + 1, record, by simpa using hk, hP⟩

theorem registers_nil (hr : r.Collecting) : Registers index [] r r where
  collecting := hr
  grows := .refl r
  mentioned := by simp [mentionsOf]
  registered := by simp
  forms := by simp

/-- A skipped record only uses up its position. -/
theorem Registers.skip (h : Registers (index + 1) records r r₁) :
    Registers index (none :: records) r r₁ where
  collecting := h.collecting
  grows := h.grows
  mentioned := h.mentioned
  registered id := by
    rw [h.registered, exists_cons_iff]
    simp [Nat.add_assoc, Nat.add_comm 1]
  forms k record hk := by
    rcases k with _ | k
    · simp at hk
    · have hform := h.forms k record (by simpa using hk)
      rwa [Nat.add_assoc, Nat.add_comm 1] at hform

theorem Registers.take {form : TypeForm TypeId SignatureId}
    (htakes : Resolver.Takes record.mentions r r₁)
    (hform : ∀ final, r₁.GrowsTo final → Takes final record form)
    (hfree : r₁.graph.registered? ⟨index.toUInt32⟩ = none)
    (h : Registers (index + 1) records (r₁.withRegistered ⟨index.toUInt32⟩ (.form form)) r₂) :
    Registers index (some record :: records) r r₂ where
  collecting := h.collecting
  grows := htakes.grows.trans ((growsTo_withRegistered _ hfree).trans h.grows)
  mentioned p := by
    have hgraph : (r₁.withRegistered ⟨index.toUInt32⟩ (.form form)).graph.mentioned =
        r₁.graph.mentioned := TypeGraph.mentioned_alloc_form r₁.graph form
    rw [h.mentioned, hgraph, List.find?_append, htakes.mentioned, ← List.find?_append,
      List.append_assoc]
    rfl
  registered id := by
    rw [h.registered, exists_cons_iff, ← or_assoc]
    apply or_congr
    · have hregistry : ∀ id', r₁.graph.registered? id' = r.graph.registered? id' := fun id' => by
        rw [TypeGraph.registered?, htakes.registry, TypeGraph.registered?]
      simp only [registered?_withRegistered, hregistry]
      by_cases hid : (⟨index.toUInt32⟩ : RecordId) = id
      · simp [hid]
      · simp [hid, Ne.symm hid]
    · simp [Nat.add_assoc, Nat.add_comm 1]
  forms k record' hk := by
    rcases k with _ | k
    · obtain rfl : record = record' := by simpa using hk
      refine ⟨(r₁.graph.alloc (.form form)).1, form, h.grows.registered _ _ ?_,
        h.grows.nodes _ _ (nodeAt_alloc _ _), hform r₂ ((growsTo_withRegistered _ hfree).trans h.grows)⟩
      rw [registered?_withRegistered, Nat.add_zero, if_pos rfl]
    · have hform := h.forms k record' (by simpa using hk)
      rwa [Nat.add_assoc, Nat.add_comm 1] at hform

theorem run_register_form (hr : r.Collecting) {id : RecordId}
    (hfree : r.graph.registered? id = none) (form : TypeForm TypeId SignatureId) :
    (register id (.form form)).run.run r =
      (.ok (r.graph.alloc (.form form)).1, r.withRegistered id (.form form)) := by
  rw [run_register, if_neg (ne_resolved hr.phase), if_neg (not_isRegistered_iff.2 hfree)]

/-- Records at positions that have handles and are free are taken in without fail. -/
theorem run_registerFrom (hr : r.Collecting) (hbound : index + records.length ≤ 0x100000000)
    (hfree : ∀ k, index ≤ k → k < 0x100000000 → r.graph.registered? ⟨k.toUInt32⟩ = none) :
    ∃ r', (registerFrom index records).run.run r = (.ok (), r') ∧
      Registers index records r r' := by
  induction records generalizing index r with
  | nil => exact ⟨r, rfl, registers_nil hr⟩
  | cons first records ih =>
    have hbound' : index + 1 + records.length ≤ 0x100000000 := by
      rw [List.length_cons] at hbound
      omega
    cases first with
    | none =>
      obtain ⟨r', hrun, hregisters⟩ := ih hr hbound' fun k hk => hfree k (by omega)
      exact ⟨r', hrun, hregisters.skip⟩
    | some record =>
      obtain ⟨form, r₁, hrun₁, htakes, hform⟩ := collects_formOf record r hr
      have hfree₁ : ∀ k, index ≤ k → k < 0x100000000 → r₁.graph.registered? ⟨k.toUInt32⟩ = none := by
        intro k hk hlt
        rw [TypeGraph.registered?, htakes.registry]
        exact hfree k hk hlt
      have hnone := hfree₁ index (Nat.le_refl _) (by omega)
      have hrefs := held_of_named (hform r₁ (.refl r₁)).typeRefs
      have hfree₂ : ∀ k, index + 1 ≤ k → k < 0x100000000 →
          (r₁.withRegistered ⟨index.toUInt32⟩ (.form form)).graph.registered? ⟨k.toUInt32⟩ = none := by
        intro k hk hlt
        rw [registered?_withRegistered, if_neg, hfree₁ k (by omega) hlt]
        intro heq
        have hval := congrArg (·.val.toNat) heq
        rw [toNat_toUInt32 (by omega), toNat_toUInt32 hlt] at hval
        omega
      obtain ⟨r', hrun, hregisters⟩ :=
        ih (htakes.collecting.withRegistered hrefs) hbound' hfree₂
      refine ⟨r', ?_, hregisters.take htakes hform hnone⟩
      simp only [registerFrom, run_bind, hrun₁, run_discard,
        run_register_form htakes.collecting hnone form, hrun]

end TypeEnv.Environment
