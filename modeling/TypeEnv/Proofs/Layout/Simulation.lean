import TypeEnv.Proofs.Layout.Members
import Mathlib.Data.Set.Insert

/-! Two objects read by one layout. Where the members of one change a record as those of the other change
a related record, what is read from both is related. The relation may depend on which fields have been
read, for what a required field holds in a blank record is nobody's choice. -/

namespace TypeEnv

open Reading

variable {α ρ : Type} {R : Set String → ρ → ρ → Prop}

/-- What the field reads from `value'` changes a record as what it reads from `value` changes a related
one, and with it the field counts as read. -/
def Field.Agrees (field : Field α ρ) (R : Set String → ρ → ρ → Prop) (value value' : α) : Prop :=
  Follows (fun c c' => ∀ seen r r', R seen r r' → R (insert field.name seen) (c r) (c' r'))
    (field.read value) (field.read value')

namespace Field

variable {γ : Type} {V : γ → γ → Prop} {name : String} {read : α → Except Fault γ} {put : γ → ρ → ρ}
  {value value' : α}

theorem agrees_optional (hread : Follows V (read value) (read value'))
    (hput : ∀ seen r r' x x', V x x' → R seen r r' → R (insert name seen) (put x r) (put x' r')) :
    (Field.optional name read put).Agrees R value value' :=
  hread.map fun x x' hx seen r r' => hput seen r r' x x' hx

theorem agrees_needed (hread : Follows V (read value) (read value'))
    (hput : ∀ seen r r' x x', V x x' → R seen r r' → R (insert name seen) (put x r) (put x' r')) :
    (Field.needed name read put).Agrees R value value' :=
  hread.map fun x x' hx seen r r' => hput seen r r' x x' hx

end Field

namespace Layout

variable {layout : Layout α ρ} {members members' : List (String × α)}

/-- The same names, with values that the layout reads alike. -/
def MembersAgree (layout : Layout α ρ) (R : Set String → ρ → ρ → Prop)
    (members members' : List (String × α)) : Prop :=
  List.Forall₂ (fun member member' => member.1 = member'.1 ∧
    ∀ field, layout.field? member.1 = some field → field.Agrees R member.2 member'.2) members members'

theorem MembersAgree.names_eq (h : layout.MembersAgree R members members') :
    members.map Prod.fst = members'.map Prod.fst := by
  induction h with
  | nil => rfl
  | cons hmember _ ih => rw [List.map_cons, List.map_cons, ih, hmember.1]

/-- One member after the other, the records stay related and more fields have been read. -/
theorem MembersAgree.readMembers (h : layout.MembersAgree R members members') {seen : Set String} {r r' : ρ}
    (hr : R seen r r') : Follows (fun s s' => ∃ seen', R seen' s s' ∧ seen ⊆ seen' ∧
      ∀ name ∈ members.map Prod.fst, (layout.field? name).isSome → name ∈ seen')
    (layout.readMembers members r) (layout.readMembers members' r') := by
  induction h generalizing seen r r' with
  | nil => exact .ok ⟨seen, hr, subset_rfl, by simp⟩
  | @cons member member' members members' hmember _ ih =>
    obtain ⟨name, value⟩ := member
    obtain ⟨name', value'⟩ := member'
    obtain ⟨rfl, hagrees⟩ := hmember
    rw [Layout.readMembers, Layout.readMembers]
    cases hfield : layout.field? name with
    | none =>
      refine (ih hr).imp ?_
      rintro s s' ⟨seen', hs, hsub, hnames⟩
      refine ⟨seen', hs, hsub, ?_⟩
      rw [List.map_cons, List.forall_mem_cons]
      exact ⟨by simp [hfield], hnames⟩
    | some field =>
      obtain rfl : field.name = name := by simpa using List.find?_some hfield
      refine (hagrees field hfield).bind fun c c' hc => ?_
      refine (ih (hc seen r r' hr)).imp ?_
      rintro s s' ⟨seen', hs, hsub, hnames⟩
      refine ⟨seen', hs, (Set.subset_insert _ _).trans hsub, ?_⟩
      rw [List.map_cons, List.forall_mem_cons]
      exact ⟨fun _ => hsub (Set.mem_insert _ _), hnames⟩

/-- Every required field has been read. -/
def SeenRequired (layout : Layout α ρ) (seen : Set String) : Prop :=
  ∀ field ∈ layout.fields, field.required = true → field.name ∈ seen

theorem MembersAgree.ofMembers (h : layout.MembersAgree R members members')
    (hblank : R ∅ layout.blank layout.blank) :
    Follows (fun s s' => ∃ seen, layout.SeenRequired seen ∧ R seen s s')
      (layout.ofMembers members) (layout.ofMembers members') := by
  rw [Layout.ofMembers, Layout.ofMembers, ← h.names_eq]
  refine (h.readMembers hblank).bind ?_
  rintro s s' ⟨seen, hs, -, hnames⟩
  cases hmissing : layout.missing? (members.map Prod.fst) with
  | some field => exact .error _
  | none =>
    refine .ok ⟨seen, fun field hfield hreq => ?_, hs⟩
    refine hnames _ (missing?_eq_none.1 hmissing field hfield hreq) ?_
    exact List.find?_isSome.2 ⟨field, hfield, by simp⟩

end Layout

end TypeEnv
