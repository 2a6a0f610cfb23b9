import TypeEnv.Record.Basic
import Mathlib.Data.List.Forall2
import Mathlib.Data.Sum.Basic

/-! Forms that differ in their references only. Two forms are related when they are alike in
everything but what they refer to, and what stands in the same place is related. For signature trees
the other side is whatever the tree has become: another tree, or the handle it is stored at. -/

namespace TypeEnv

variable {α β σ ρ : Type} {A A' : α → β → Prop} {S S' : σ → ρ → Prop}

def OrderedMap.Related {κ : Type} (A : α → β → Prop) (x : OrderedMap κ α) (y : OrderedMap κ β) :
    Prop :=
  List.Forall₂ (fun p q => p.1 = q.1 ∧ A p.2 q.2) x.entries y.entries

structure Shape.Related (A : α → β → Prop) (S : σ → ρ → Prop) (x : Shape α σ) (y : Shape β ρ) :
    Prop where
  typeParameters : List.Forall₂ A x.typeParameters y.typeParameters
  baseTypes : List.Forall₂ A x.baseTypes y.baseTypes
  declaredProperties : x.declaredProperties.Related A y.declaredProperties
  callSignatures : List.Forall₂ S x.callSignatures y.callSignatures
  constructSignatures : List.Forall₂ S x.constructSignatures y.constructSignatures
  stringIndex : Option.Rel A x.stringIndex y.stringIndex
  numberIndex : Option.Rel A x.numberIndex y.numberIndex

structure ClassForm.Related (A : α → β → Prop) (S : σ → ρ → Prop) (x : ClassForm α σ)
    (y : ClassForm β ρ) : Prop where
  shape : x.shape.Related A S y.shape
  instanceProperties : x.instanceProperties.Related A y.instanceProperties
  staticProperties : x.staticProperties.Related A y.staticProperties
  target : Option.Rel A x.target y.target
  typeArguments : List.Forall₂ A x.typeArguments y.typeArguments

/-- The same kind, the same names, literals and bounds, and related references. -/
inductive TypeForm.Related (A : α → β → Prop) (S : σ → ρ → Prop) :
    TypeForm α σ → TypeForm β ρ → Prop where
  | simple (kind) : Related A S (.simple kind) (.simple kind)
  | stringLiteral (text) : Related A S (.stringLiteral text) (.stringLiteral text)
  | booleanLiteral (value) : Related A S (.booleanLiteral value) (.booleanLiteral value)
  | numberLiteral (value) : Related A S (.numberLiteral value) (.numberLiteral value)
  | interface {x y} : x.Related A S y → Related A S (.interface x) (.interface y)
  | classDeclaration {x y} :
    x.Related A S y → Related A S (.classDeclaration x) (.classDeclaration y)
  | classInstance {a b} : A a b → Related A S (.classInstance a) (.classInstance b)
  | generic {x y a b as bs} : x.Related A S y → A a b → List.Forall₂ A as bs →
    Related A S (.generic x a as) (.generic y b bs)
  | reference {a b as bs} : A a b → List.Forall₂ A as bs →
    Related A S (.reference a as) (.reference b bs)
  | tuple {as bs} (minLength) : List.Forall₂ A as bs →
    Related A S (.tuple as minLength) (.tuple bs minLength)
  | union {as bs} : List.Forall₂ A as bs → Related A S (.union as) (.union bs)
  | intersection {as bs} : List.Forall₂ A as bs →
    Related A S (.intersection as) (.intersection bs)
  | typeParameter {a b} : Option.Rel A a b → Related A S (.typeParameter a) (.typeParameter b)
  | thisType {a b} : Option.Rel A a b → Related A S (.thisType a) (.thisType b)
  | index {a b} : A a b → Related A S (.index a) (.index b)
  | indexedAccess {a b a' b'} : A a b → A a' b' →
    Related A S (.indexedAccess a a') (.indexedAccess b b')
  | anonymous : Related A S .anonymous .anonymous

structure SignatureHeader.Related (A : α → β → Prop) (x : SignatureHeader α)
    (y : SignatureHeader β) : Prop where
  typeParameters : List.Forall₂ A x.typeParameters y.typeParameters
  parameters :
    List.Forall₂ (fun p q => p.name = q.name ∧ A p.type q.type) x.parameters y.parameters
  returns : A x.returns y.returns
  minArgumentCount : x.minArgumentCount = y.minArgumentCount
  hasRestParameter : x.hasRestParameter = y.hasRestParameter
  hasStringLiterals : x.hasStringLiterals = y.hasStringLiterals
  isolated : Option.Rel A x.isolated y.isolated

section Trees

variable (A : α → β → Prop) (made : Signature β ρ → ρ → Prop)

mutual

/-- A tree becomes `s`: the signature that `s` was made from has a related header, and its target
and union members are what those of the tree become. -/
def SignatureTree.Becomes : SignatureTree α → ρ → Prop
  | .node header target unions, s => ∃ signature, made signature s ∧
    header.Related A signature.header ∧ targetBecomes target signature.target ∧
    listBecomes unions signature.unionSignatures

def SignatureTree.targetBecomes : Option (SignatureTree α) → Option ρ → Prop
  | none, s => s = none
  | some tree, s => ∃ s', s = some s' ∧ tree.Becomes s'

def SignatureTree.listBecomes : List (SignatureTree α) → List ρ → Prop
  | [], s => s = []
  | tree :: trees, s => ∃ s' rest, s = s' :: rest ∧ tree.Becomes s' ∧ listBecomes trees rest

end

end Trees

structure ClassRecord.Related (A : α → β → Prop) (S : σ → ρ → Prop) (x : ClassRecord α σ)
    (y : ClassRecord β ρ) : Prop where
  shape : x.shape.Related A S y.shape
  instanceProperties :
    Option.Rel (OrderedMap.Related A) x.instanceProperties y.instanceProperties
  staticProperties : x.staticProperties.Related A y.staticProperties
  constructors : List.Forall₂ S x.constructors y.constructors
  target : Option.Rel A x.target y.target
  typeArguments : List.Forall₂ A x.typeArguments y.typeArguments

inductive Record.Related (A : α → β → Prop) (S : σ → ρ → Prop) : Record α σ → Record β ρ → Prop where
  | whole {x y} : x.Related A S y → Related A S (.whole x) (.whole y)
  | classDeclaration {x y} :
    x.Related A S y → Related A S (.classDeclaration x) (.classDeclaration y)
  | tuple {as bs} (minLength) : List.Forall₂ A as bs →
    Related A S (.tuple as minLength) (.tuple bs minLength)

/-! ### Chains

Two steps of relations whose ends are related make one. -/

section Trans

variable {γ τ : Type} {B : β → γ → Prop} {C : α → γ → Prop} {T : ρ → τ → Prop} {U : σ → τ → Prop}

theorem forall₂_trans {l : List α} {l' : List β} {l'' : List γ}
    (h : ∀ a b c, A a b → B b c → C a c) (h₁ : List.Forall₂ A l l') (h₂ : List.Forall₂ B l' l'') :
    List.Forall₂ C l l'' := by
  induction h₁ generalizing l'' with
  | nil => exact List.forall₂_nil_left_iff.2 (List.forall₂_nil_left_iff.1 h₂)
  | cons hab _ ih =>
    obtain _ | ⟨hbc, h₂⟩ := h₂
    exact .cons (h _ _ _ hab hbc) (ih h₂)

theorem exists_of_forall₂ {l : List α} {l' : List β} (h : List.Forall₂ A l l') {b : β}
    (hb : b ∈ l') : ∃ a ∈ l, A a b := by
  induction h with
  | nil => cases hb
  | cons hab _ ih =>
    rcases List.mem_cons.1 hb with rfl | hb
    · exact ⟨_, List.mem_cons_self, hab⟩
    · obtain ⟨a, ha, hab⟩ := ih hb
      exact ⟨a, List.mem_cons_of_mem _ ha, hab⟩

theorem getElem?_of_forall₂ {l : List α} {l' : List β}
    (h : List.Forall₂ A l l') {i : Nat} {a : α} {b : β} (ha : l[i]? = some a)
    (hb : l'[i]? = some b) : A a b := by
  induction h generalizing i with
  | nil => simp at ha
  | cons hab _ ih =>
    rcases i with _ | i
    · simp only [List.getElem?_cons_zero, Option.some.injEq] at ha hb
      exact ha ▸ hb ▸ hab
    · exact ih (by simpa using ha) (by simpa using hb)

theorem map_eq_of_forall₂ {f : α → γ} {g : β → γ} {l : List α} {l' : List β}
    (h : List.Forall₂ (fun a b => f a = g b) l l') : l.map f = l'.map g := by
  induction h with
  | nil => rfl
  | cons hab _ ih => rw [List.map_cons, List.map_cons, hab, ih]

theorem rel_imp {a : Option α} {b : Option β} (h : Option.Rel A a b) (hA : ∀ a b, A a b → A' a b) :
    Option.Rel A' a b := by
  cases h with
  | none => exact .none
  | some h => exact .some (hA _ _ h)

theorem rel_trans {a : Option α} {b : Option β} {c : Option γ} (h : ∀ a b c, A a b → B b c → C a c)
    (h₁ : Option.Rel A a b) (h₂ : Option.Rel B b c) : Option.Rel C a c := by
  cases h₁ with
  | none => cases h₂; exact .none
  | some hab => cases h₂ with | some hbc => exact .some (h _ _ _ hab hbc)

theorem OrderedMap.Related.trans {κ : Type} {x : OrderedMap κ α} {y : OrderedMap κ β}
    {z : OrderedMap κ γ} (h : ∀ a b c, A a b → B b c → C a c) (h₁ : x.Related A y)
    (h₂ : y.Related B z) : x.Related C z :=
  forall₂_trans (fun _ _ _ p q => ⟨p.1.trans q.1, h _ _ _ p.2 q.2⟩) h₁ h₂

variable (hA : ∀ a b c, A a b → B b c → C a c) (hS : ∀ a b c, S a b → T b c → U a c)

include hA hS

theorem Shape.Related.trans {x : Shape α σ} {y : Shape β ρ} {z : Shape γ τ}
    (h₁ : x.Related A S y) (h₂ : y.Related B T z) : x.Related C U z where
  typeParameters := forall₂_trans hA h₁.typeParameters h₂.typeParameters
  baseTypes := forall₂_trans hA h₁.baseTypes h₂.baseTypes
  declaredProperties := h₁.declaredProperties.trans hA h₂.declaredProperties
  callSignatures := forall₂_trans hS h₁.callSignatures h₂.callSignatures
  constructSignatures := forall₂_trans hS h₁.constructSignatures h₂.constructSignatures
  stringIndex := rel_trans hA h₁.stringIndex h₂.stringIndex
  numberIndex := rel_trans hA h₁.numberIndex h₂.numberIndex

theorem ClassForm.Related.trans {x : ClassForm α σ} {y : ClassForm β ρ} {z : ClassForm γ τ}
    (h₁ : x.Related A S y) (h₂ : y.Related B T z) : x.Related C U z where
  shape := h₁.shape.trans hA hS h₂.shape
  instanceProperties := h₁.instanceProperties.trans hA h₂.instanceProperties
  staticProperties := h₁.staticProperties.trans hA h₂.staticProperties
  target := rel_trans hA h₁.target h₂.target
  typeArguments := forall₂_trans hA h₁.typeArguments h₂.typeArguments

theorem TypeForm.Related.trans {x : TypeForm α σ} {y : TypeForm β ρ} {z : TypeForm γ τ}
    (h₁ : x.Related A S y) (h₂ : y.Related B T z) : x.Related C U z := by
  cases h₁ with
  | simple kind => cases h₂; exact .simple kind
  | stringLiteral text => cases h₂; exact .stringLiteral text
  | booleanLiteral value => cases h₂; exact .booleanLiteral value
  | numberLiteral value => cases h₂; exact .numberLiteral value
  | interface p => cases h₂ with | interface q => exact .interface (p.trans hA hS q)
  | classDeclaration p =>
    cases h₂ with | classDeclaration q => exact .classDeclaration (p.trans hA hS q)
  | classInstance p => cases h₂ with | classInstance q => exact .classInstance (hA _ _ _ p q)
  | generic p p' p'' =>
    cases h₂ with
    | generic q q' q'' =>
      exact .generic (p.trans hA hS q) (hA _ _ _ p' q') (forall₂_trans hA p'' q'')
  | reference p p' =>
    cases h₂ with | reference q q' => exact .reference (hA _ _ _ p q) (forall₂_trans hA p' q')
  | tuple minLength p => cases h₂ with | tuple _ q => exact .tuple _ (forall₂_trans hA p q)
  | union p => cases h₂ with | union q => exact .union (forall₂_trans hA p q)
  | intersection p => cases h₂ with | intersection q => exact .intersection (forall₂_trans hA p q)
  | typeParameter p => cases h₂ with | typeParameter q => exact .typeParameter (rel_trans hA p q)
  | thisType p => cases h₂ with | thisType q => exact .thisType (rel_trans hA p q)
  | index p => cases h₂ with | index q => exact .index (hA _ _ _ p q)
  | indexedAccess p p' =>
    cases h₂ with | indexedAccess q q' => exact .indexedAccess (hA _ _ _ p q) (hA _ _ _ p' q')
  | anonymous => cases h₂; exact .anonymous

omit hS in
theorem SignatureHeader.Related.trans {x : SignatureHeader α} {y : SignatureHeader β}
    {z : SignatureHeader γ} (h₁ : x.Related A y) (h₂ : y.Related B z) : x.Related C z where
  typeParameters := forall₂_trans hA h₁.typeParameters h₂.typeParameters
  parameters := forall₂_trans (fun _ _ _ p q => ⟨p.1.trans q.1, hA _ _ _ p.2 q.2⟩) h₁.parameters
    h₂.parameters
  returns := hA _ _ _ h₁.returns h₂.returns
  minArgumentCount := h₁.minArgumentCount.trans h₂.minArgumentCount
  hasRestParameter := h₁.hasRestParameter.trans h₂.hasRestParameter
  hasStringLiterals := h₁.hasStringLiterals.trans h₂.hasStringLiterals
  isolated := rel_trans hA h₁.isolated h₂.isolated

end Trans

/-! ### Maps that are built up -/

namespace OrderedMap

variable {κ : Type} [DecidableEq κ]

theorem forall₂_insertEntry {l : List (κ × α)} {l' : List (κ × β)}
    (h : List.Forall₂ (fun p q => p.1 = q.1 ∧ A p.2 q.2) l l') (key : κ) {a : α} {b : β} (hab : A a b) :
    List.Forall₂ (fun p q => p.1 = q.1 ∧ A p.2 q.2) (insertEntry key a l) (insertEntry key b l') := by
  induction h with
  | nil => exact .cons ⟨rfl, hab⟩ .nil
  | cons hentry hrest ih =>
    rw [insertEntry, insertEntry, ← hentry.1]
    split
    · exact .cons ⟨rfl, hab⟩ hrest
    · exact .cons hentry ih

theorem Related.insert {x : OrderedMap κ α} {y : OrderedMap κ β} (h : x.Related A y) (key : κ) {a : α}
    {b : β} (hab : A a b) : (x.insert key a).Related A (y.insert key b) :=
  forall₂_insertEntry h key hab

theorem Related.get? {x : OrderedMap κ α} {y : OrderedMap κ β} (h : x.Related A y) (key : κ) :
    Option.Rel A (x.get? key) (y.get? key) := by
  obtain ⟨entries, hx⟩ := x
  obtain ⟨entries', hy⟩ := y
  replace h : List.Forall₂ (fun p q => p.1 = q.1 ∧ A p.2 q.2) entries entries' := h
  simp only [OrderedMap.get?]
  clear hx hy
  induction h with
  | nil => exact .none
  | cons hentry _ ih =>
    rw [List.find?_cons, List.find?_cons, ← hentry.1]
    split
    · exact .some hentry.2
    · exact ih

theorem Related.ofList {l : List (κ × α)} {l' : List (κ × β)}
    (h : List.Forall₂ (fun p q => p.1 = q.1 ∧ A p.2 q.2) l l') : (ofList l).Related A (ofList l') := by
  have hfold : ∀ (x : OrderedMap κ α) (y : OrderedMap κ β), x.Related A y →
      (l.foldl (fun m entry => m.insert entry.1 entry.2) x).Related A
        (l'.foldl (fun m entry => m.insert entry.1 entry.2) y) := by
    induction h with
    | nil => exact fun _ _ hxy => hxy
    | cons hentry _ ih =>
      intro x y hxy
      rw [List.foldl_cons, List.foldl_cons, ← hentry.1]
      exact ih _ _ (hxy.insert _ hentry.2)
  exact hfold ∅ ∅ .nil

end OrderedMap

/-! ### References of related forms -/

@[simp] theorem forall₂_inl {as : List α} {bs : List β} :
    List.Forall₂ (Sum.LiftRel A S) (as.map .inl) (bs.map .inl) ↔ List.Forall₂ A as bs := by
  simp [List.forall₂_map_left_iff, List.forall₂_map_right_iff]

@[simp] theorem forall₂_inr {ss : List σ} {rs : List ρ} :
    List.Forall₂ (Sum.LiftRel A S) (ss.map .inr) (rs.map .inr) ↔ List.Forall₂ S ss rs := by
  simp [List.forall₂_map_left_iff, List.forall₂_map_right_iff]

@[simp] theorem forall₂_toList {a : Option α} {b : Option β} :
    List.Forall₂ A a.toList b.toList ↔ Option.Rel A a b := by
  rcases a with _ | a <;> rcases b with _ | b
  · simp
  · simp only [Option.toList_none, Option.toList_some, List.forall₂_nil_left_iff]
    exact ⟨by simp, nofun⟩
  · simp only [Option.toList_none, Option.toList_some, List.forall₂_nil_right_iff]
    exact ⟨by simp, nofun⟩
  · simp only [Option.toList_some, List.forall₂_cons, List.Forall₂.nil, and_true]
    exact ⟨.some, fun | .some h => h⟩

theorem OrderedMap.Related.values {κ : Type} {x : OrderedMap κ α} {y : OrderedMap κ β}
    (h : x.Related A y) : List.Forall₂ A x.values y.values := by
  simp only [OrderedMap.values, List.forall₂_map_left_iff, List.forall₂_map_right_iff]
  exact h.imp fun _ _ hpq => hpq.2

theorem Shape.Related.references {x : Shape α σ} {y : Shape β ρ} (h : x.Related A S y) :
    List.Forall₂ (Sum.LiftRel A S) x.references y.references := by
  apply List.rel_append
  · apply List.rel_append
    · exact forall₂_inl.2 <| List.rel_append (List.rel_append h.typeParameters h.baseTypes)
        h.declaredProperties.values
    · exact forall₂_inr.2 <| List.rel_append h.callSignatures h.constructSignatures
  · exact forall₂_inl.2 <| List.rel_append (forall₂_toList.2 h.stringIndex)
      (forall₂_toList.2 h.numberIndex)

theorem ClassForm.Related.references {x : ClassForm α σ} {y : ClassForm β ρ}
    (h : x.Related A S y) : List.Forall₂ (Sum.LiftRel A S) x.references y.references := by
  apply List.rel_append h.shape.references
  refine forall₂_inl.2 <| List.rel_append (List.rel_append (List.rel_append ?_ ?_) ?_) ?_
  · exact h.instanceProperties.values
  · exact h.staticProperties.values
  · exact forall₂_toList.2 h.target
  · exact h.typeArguments

theorem TypeForm.Related.references {x : TypeForm α σ} {y : TypeForm β ρ} (h : x.Related A S y) :
    List.Forall₂ (Sum.LiftRel A S) x.references y.references := by
  cases h with
  | interface h => exact h.references
  | classDeclaration h => exact h.references
  | generic h h' h'' => exact List.rel_append h.references (forall₂_inl.2 (.cons h' h''))
  | reference h h' => exact forall₂_inl.2 (.cons h h')
  | tuple _ h | union h | intersection h => exact forall₂_inl.2 h
  | typeParameter h | thisType h => exact forall₂_inl.2 (forall₂_toList.2 h)
  | classInstance h | index h => exact .cons (.inl h) .nil
  | indexedAccess h h' => exact .cons (.inl h) (.cons (.inl h') .nil)
  | simple | stringLiteral | booleanLiteral | numberLiteral | anonymous => exact .nil

theorem forall₂_getLeft {refs : List (α ⊕ σ)} {refs' : List (β ⊕ ρ)}
    (h : List.Forall₂ (Sum.LiftRel A S) refs refs') :
    List.Forall₂ A (refs.filterMap Sum.getLeft?) (refs'.filterMap Sum.getLeft?) := by
  induction h with
  | nil => exact .nil
  | cons hab _ ih =>
    cases hab with
    | inl hab => exact .cons hab ih
    | inr _ => exact ih

theorem TypeForm.Related.typeRefs {x : TypeForm α σ} {y : TypeForm β ρ} (h : x.Related A S y) :
    List.Forall₂ A x.typeRefs y.typeRefs :=
  forall₂_getLeft h.references

theorem forall₂_getRight {refs : List (α ⊕ σ)} {refs' : List (β ⊕ ρ)}
    (h : List.Forall₂ (Sum.LiftRel A S) refs refs') :
    List.Forall₂ S (refs.filterMap Sum.getRight?) (refs'.filterMap Sum.getRight?) := by
  induction h with
  | nil => exact .nil
  | cons hab _ ih =>
    cases hab with
    | inl _ => exact ih
    | inr hab => exact .cons hab ih

theorem TypeForm.Related.signatureRefs {x : TypeForm α σ} {y : TypeForm β ρ}
    (h : x.Related A S y) : List.Forall₂ S x.signatureRefs y.signatureRefs :=
  forall₂_getRight h.references

theorem SignatureHeader.Related.typeRefs {x : SignatureHeader α} {y : SignatureHeader β}
    (h : x.Related A y) : List.Forall₂ A x.typeRefs y.typeRefs := by
  refine List.rel_append (List.rel_append (List.rel_append h.typeParameters ?_) ?_) ?_
  · simp only [List.forall₂_map_left_iff, List.forall₂_map_right_iff]
    exact h.parameters.imp fun _ _ hpq => hpq.2
  · exact .cons h.returns .nil
  · exact forall₂_toList.2 h.isolated

end TypeEnv
