import TypeEnv.Proofs.Environment.Loading
import TypeEnv.Proofs.Resolver.Numbering
import Mathlib.Algebra.GroupWithZero.Nat

/-! The signatures of a document, record by record. The first signature of a record has as many before it
as the records before it hold, so a signature of the arena is told by its record and its place there. -/

namespace TypeEnv.Environment

open Stateful Resolver

/-! ### The states of a load -/

theorem leaves_formOf (record : NestedRecord RecordId) : Leaves Steps (formOf record) :=
  (Leaves.exchange (record.exchanges (fun _ => resolve) _) leaves_resolve leaves_tree).bind fun _ => .pure _

theorem leaves_registerFrom (index : Nat) (records : List (Option (NestedRecord RecordId))) :
    Leaves Steps (registerFrom index records) := by
  induction records generalizing index with
  | nil => exact .pure ()
  | cons first records ih =>
    cases first with
    | none => exact ih (index + 1)
    | some record =>
      exact (leaves_formOf record).bind fun form => Leaves.bind
        (by rw [discard, map_const]; exact (leaves_register _ form).map _) fun _ => ih (index + 1)

theorem steps_collected (document : Document) : Steps {} (collected document) :=
  leaves_registerFrom 0 document.records {}

/-! ### Signatures -/

/-- How many signatures a record holds. -/
def signaturesIn : Option (NestedRecord RecordId) → Nat
  | none => 0
  | some record => SignatureTree.countOfList record.form.signatureRefs

/-- How many signatures the records before position `k` hold. -/
def firstSignature (records : List (Option (NestedRecord RecordId))) (k : Nat) : Nat :=
  ((records.take k).map signaturesIn).sum

/-- The signatures of the records, in the order in which they are stored. -/
def rowsFrom (start : Nat) : List (Option (NestedRecord RecordId)) → List (Signature RecordId Nat)
  | [] => []
  | none :: records => rowsFrom start records
  | some record :: records =>
    SignatureTree.rowsOfList start record.form.signatureRefs ++
      rowsFrom (start + SignatureTree.countOfList record.form.signatureRefs) records

theorem firstSignature_cons (first : Option (NestedRecord RecordId))
    (records : List (Option (NestedRecord RecordId))) (k : Nat) :
    firstSignature (first :: records) (k + 1) = signaturesIn first + firstSignature records k := by
  simp [firstSignature]

theorem numbers_formOf (record : NestedRecord RecordId) :
    Numbers (SignatureTree.rowsOfList · record.form.signatureRefs) (formOf record) fun start form =>
      form.signatureRefs = (SignatureTree.roots start record.form.signatureRefs).map signatureOf :=
  (numbers_record record).map Record.form fun _ _ => id

/-- From `r` the records from position `index` on have been taken in, and each holds the signatures whose
numbers come next. -/
structure Numbered (index : Nat) (records : List (Option (NestedRecord RecordId))) (r r' : Resolver) :
    Prop where
  adds : Adds (rowsFrom r.graph.signatureCount records) r r'
  forms : ∀ k record, records[k]? = some (some record) → ∃ t form,
    r'.graph.registered? ⟨(index + k).toUInt32⟩ = some t ∧ r'.graph.NodeAt t (.form form) ∧
      form.signatureRefs = (SignatureTree.roots (r.graph.signatureCount + firstSignature records k)
        record.form.signatureRefs).map signatureOf

section Numbered

variable {r r₁ r' : Resolver} {index : Nat} {records : List (Option (NestedRecord RecordId))}

theorem Numbered.skip (h : Numbered (index + 1) records r r') : Numbered index (none :: records) r r' := by
  refine ⟨h.adds, fun k record hk => ?_⟩
  cases k with
  | zero => simp at hk
  | succ k =>
    have hform := h.forms k record (by simpa using hk)
    rwa [firstSignature_cons, signaturesIn, Nat.zero_add, Nat.add_comm k, ← Nat.add_assoc]

theorem Numbered.cons {record : NestedRecord RecordId} {form : TypeForm TypeId SignatureId}
    (hadds : Adds (SignatureTree.rowsOfList r.graph.signatureCount record.form.signatureRefs) r r₁)
    (hform : form.signatureRefs =
      (SignatureTree.roots r.graph.signatureCount record.form.signatureRefs).map signatureOf)
    (hrefs : ∀ t ∈ form.typeRefs, r₁.Held t) (hfree : r₁.graph.registered? ⟨index.toUInt32⟩ = none)
    (h : Numbered (index + 1) records (r₁.withRegistered ⟨index.toUInt32⟩ (.form form)) r') :
    Numbered index (some record :: records) r r' := by
  have hregister : Adds [] r₁ (r₁.withRegistered ⟨index.toUInt32⟩ (.form form)) :=
    ⟨hadds.collecting.withRegistered hrefs, growsTo_withRegistered _ hfree, [], by
      rw [List.append_nil]
      rfl, .nil⟩
  have hcount : (r₁.withRegistered ⟨index.toUInt32⟩ (.form form)).graph.signatureCount =
      r.graph.signatureCount + SignatureTree.countOfList record.form.signatureRefs := by
    rw [← SignatureTree.length_rowsOfList]
    exact hadds.count_eq
  obtain ⟨hrest, hforms⟩ := h
  rw [hcount] at hrest hforms
  refine ⟨hadds.trans (hregister.trans hrest), fun k record' hk => ?_⟩
  cases k with
  | zero =>
    obtain rfl : record = record' := by simpa using hk
    refine ⟨(r₁.graph.alloc (.form form)).1, form, hrest.grows.registered _ _ ?_,
      hrest.grows.nodes _ _ (nodeAt_alloc _ _), hform⟩
    rw [registered?_withRegistered, Nat.add_zero, if_pos rfl]
  | succ k =>
    have hform' := hforms k record' (by simpa using hk)
    rw [firstSignature_cons, signaturesIn, ← Nat.add_assoc r.graph.signatureCount]
    rwa [Nat.add_assoc index 1 k, Nat.add_comm 1 k] at hform'

end Numbered

theorem numbered_of_run {r r' : Resolver} {index : Nat} {records : List (Option (NestedRecord RecordId))}
    (hr : r.Collecting) (h : (registerFrom index records).run.run r = (.ok (), r')) :
    Numbered index records r r' := by
  induction records generalizing index r with
  | nil =>
    obtain rfl : r = r' := congrArg Prod.snd h
    exact ⟨.refl hr, by simp⟩
  | cons first records ih =>
    cases first with
    | none => exact (ih hr h).skip
    | some record =>
      obtain ⟨form, r₁, hrun₁, hadds₁, hform⟩ := numbers_formOf record r hr
      obtain ⟨form', r₁', hrun₁', -, htakes⟩ := collects_formOf record r hr
      obtain ⟨⟨⟩, rfl⟩ : (Except.ok form : Except ResolveError _) = .ok form' ∧ r₁ = r₁' :=
        Prod.mk.inj (hrun₁.symm.trans hrun₁')
      have hrefs := held_of_named (htakes r₁ (.refl r₁)).typeRefs
      simp only [registerFrom, run_bind, hrun₁, run_discard, run_register, hadds₁.collecting.phase,
        reduceCtorEq, if_false] at h
      by_cases hid : r₁.isRegistered ⟨index.toUInt32⟩ = true
      · rw [if_pos hid] at h
        cases h
      · rw [if_neg hid] at h
        have hfree := not_isRegistered_iff.1 hid
        exact .cons hadds₁ hform hrefs hfree (ih (hadds₁.collecting.withRegistered hrefs) h)

theorem numbered_collected {document : Document} (hlen : document.records.length ≤ 0x100000000) :
    Numbered 0 document.records {} (collected document) :=
  numbered_of_run collecting_new (run_registerFrom_zero hlen).1

theorem signatureCount_collected {document : Document} (hlen : document.records.length ≤ 0x100000000) :
    (collected document).graph.signatureCount = (rowsFrom 0 document.records).length :=
  (numbered_collected hlen).adds.count_eq.trans (Nat.zero_add _)

/-! ### Places -/

/-- Signature `i` is the one with number `j` of those that the record at position `k` holds. -/
def SignatureAt (records : List (Option (NestedRecord RecordId))) (i k j : Nat) : Prop :=
  i = firstSignature records k + j ∧ ∃ record, records[k]? = some record ∧ j < signaturesIn record

section Places

variable {records : List (Option (NestedRecord RecordId))} {i k k' j j' : Nat}

theorem signatureAt_succ {first : Option (NestedRecord RecordId)} :
    SignatureAt (first :: records) i (k + 1) j ↔
      ∃ i', i = signaturesIn first + i' ∧ SignatureAt records i' k j := by
  simp only [SignatureAt, firstSignature_cons, List.getElem?_cons_succ]
  constructor
  · rintro ⟨rfl, h⟩
    exact ⟨_, Nat.add_assoc _ _ _, rfl, h⟩
  · rintro ⟨i', rfl, rfl, h⟩
    exact ⟨(Nat.add_assoc _ _ _).symm, h⟩

theorem signatureAt_zero {first : Option (NestedRecord RecordId)} :
    SignatureAt (first :: records) i 0 j ↔ i = j ∧ j < signaturesIn first := by
  simp [SignatureAt, firstSignature]

theorem SignatureAt.unique (h : SignatureAt records i k j) (h' : SignatureAt records i k' j') :
    k = k' ∧ j = j' := by
  induction records generalizing i k k' with
  | nil =>
    obtain ⟨-, record, hrecord, -⟩ := h
    simp at hrecord
  | cons first records ih =>
    rcases k with _ | k <;> rcases k' with _ | k'
    · exact ⟨rfl, (signatureAt_zero.1 h).1.symm.trans (signatureAt_zero.1 h').1⟩
    · obtain ⟨rfl, hj⟩ := signatureAt_zero.1 h
      obtain ⟨i', rfl, -⟩ := signatureAt_succ.1 h'
      omega
    · obtain ⟨rfl, hj⟩ := signatureAt_zero.1 h'
      obtain ⟨i', rfl, -⟩ := signatureAt_succ.1 h
      omega
    · obtain ⟨i₁, hi₁, hrest₁⟩ := signatureAt_succ.1 h
      obtain ⟨i₂, hi₂, hrest₂⟩ := signatureAt_succ.1 h'
      obtain rfl : i₁ = i₂ := by omega
      obtain ⟨rfl, rfl⟩ := ih hrest₁ hrest₂
      exact ⟨rfl, rfl⟩

theorem length_rowsFrom_cons (start : Nat) (first : Option (NestedRecord RecordId)) :
    (rowsFrom start (first :: records)).length =
      signaturesIn first + (rowsFrom (start + signaturesIn first) records).length := by
  cases first with
  | none => simp [rowsFrom, signaturesIn]
  | some record => rw [rowsFrom, List.length_append, SignatureTree.length_rowsOfList, signaturesIn]

/-- Every signature is held by some record. -/
theorem exists_signatureAt_iff (start : Nat) :
    (∃ k j, SignatureAt records i k j) ↔ i < (rowsFrom start records).length := by
  induction records generalizing i start with
  | nil => simp [SignatureAt, rowsFrom]
  | cons first records ih =>
    rw [length_rowsFrom_cons]
    constructor
    · rintro ⟨k, j, h⟩
      cases k with
      | zero =>
        obtain ⟨rfl, hj⟩ := signatureAt_zero.1 h
        omega
      | succ k =>
        obtain ⟨i', rfl, hrest⟩ := signatureAt_succ.1 h
        have := (ih (start + signaturesIn first)).1 ⟨k, j, hrest⟩
        omega
    · intro hi
      by_cases hfirst : i < signaturesIn first
      · exact ⟨0, i, signatureAt_zero.2 ⟨rfl, hfirst⟩⟩
      · obtain ⟨k, j, h⟩ := (ih (i := i - signaturesIn first) (start + signaturesIn first)).2 (by omega)
        exact ⟨k + 1, j, signatureAt_succ.2 ⟨_, by omega, h⟩⟩

/-- The row of a signature is found among those of its record. -/
theorem getElem?_rowsFrom {start : Nat} {record : NestedRecord RecordId}
    (hk : records[k]? = some (some record)) (hj : j < signaturesIn (some record)) :
    (rowsFrom start records)[firstSignature records k + j]? =
      (SignatureTree.rowsOfList (start + firstSignature records k) record.form.signatureRefs)[j]? := by
  induction records generalizing start k with
  | nil => simp at hk
  | cons first records ih =>
    cases k with
    | zero =>
      obtain rfl : first = some record := by simpa using hk
      have hlen : j < (SignatureTree.rowsOfList start record.form.signatureRefs).length := by
        rwa [SignatureTree.length_rowsOfList]
      simp [firstSignature, rowsFrom, List.getElem?_append_left hlen]
    | succ k =>
      have hrest := @ih k (start + signaturesIn first) (by simpa using hk)
      rw [firstSignature_cons, ← Nat.add_assoc, ← hrest]
      cases first with
      | none => simp [signaturesIn, rowsFrom]
      | some first =>
        have hlen := SignatureTree.length_rowsOfList start first.form.signatureRefs
        rw [rowsFrom, List.getElem?_append_right (by rw [hlen, signaturesIn]; omega), hlen, signaturesIn]
        congr 1
        omega

end Places

end TypeEnv.Environment
