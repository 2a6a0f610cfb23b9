import TypeEnv.Layout.Basic
import TypeEnv.Proofs.Reading
import Mathlib.Data.List.Nodup
import Mathlib.Data.List.Pairwise

/-! What a layout reads from an object. The members change the record one after the other, and as the
fields of a layout do not get in each other's way, neither the order of the keys nor a member that says
nothing makes a difference. An array is read like the object that has its items under the names of the
fields. -/

namespace TypeEnv

open Reading

variable {α ρ : Type}

/-! ### Keys -/

theorem mem_of_lookup {l : List (String × α)} {name : String} {a : α} (h : l.lookup name = some a) :
    (name, a) ∈ l := by
  obtain ⟨l₁, l₂, rfl, -⟩ := List.lookup_eq_some_iff.1 h
  simp

theorem lookup_of_mem {l : List (String × α)} (hnodup : (l.map Prod.fst).Nodup) {name : String} {a : α}
    (h : (name, a) ∈ l) : l.lookup name = some a := by
  induction l with
  | nil => cases h
  | cons entry l ih =>
    rw [List.map_cons, List.nodup_cons] at hnodup
    rcases List.mem_cons.1 h with rfl | h
    · rw [List.lookup_cons_self]
    · have hne : (name == entry.1) = false := by
        rw [beq_eq_false_iff_ne]
        rintro rfl
        exact hnodup.1 (List.mem_map.2 ⟨_, h, rfl⟩)
      rw [List.lookup_cons, hne]
      exact ih hnodup.2 h

theorem lookup_eq_none {l : List (String × α)} {name : String} : l.lookup name = none ↔ name ∉ l.map Prod.fst := by
  simp only [List.lookup_eq_none_iff, bne_iff_ne, List.mem_map, not_exists, not_and]
  exact forall₂_congr fun _ _ => ne_comm

theorem lookup_perm {l l' : List (String × α)} (h : l.Perm l') (hnodup : (l.map Prod.fst).Nodup)
    (name : String) : l.lookup name = l'.lookup name := by
  refine Option.ext fun a => ⟨fun ha => ?_, fun ha => ?_⟩
  · exact lookup_of_mem ((h.map Prod.fst).nodup_iff.1 hnodup) (h.mem_iff.1 (mem_of_lookup ha))
  · exact lookup_of_mem hnodup (h.mem_iff.2 (mem_of_lookup ha))

/-! ### Fields -/

/-- The changes of two fields can be made in either order. -/
def Field.Commute (f g : Field α ρ) : Prop :=
  ∀ v w c d, f.read v = .ok c → g.read w = .ok d → ∀ r, c (d r) = d (c r)

instance : Std.Symm (Field.Commute (α := α) (ρ := ρ)) where
  symm _ _ h v w c d hc hd r := (h w v d c hd hc r).symm

/-- The field for values that `view` makes readable. -/
def Field.comap {β : Type} (view : β → α) (field : Field α ρ) : Field β ρ where
  name := field.name
  required := field.required
  read value := field.read (view value)

namespace Layout

/-- Each field has a name of its own, and no two get in each other's way. -/
structure Lawful (layout : Layout α ρ) : Prop where
  nodup : (layout.fields.map Field.name).Nodup
  commute : layout.fields.Pairwise Field.Commute

theorem lawful_single (field : Field α ρ) (blank : ρ) : ({ fields := [field], blank } : Layout α ρ).Lawful where
  nodup := List.nodup_singleton _
  commute := List.pairwise_singleton _ _

variable {layout : Layout α ρ} {members members' before after : List (String × α)}
  {member member' : String × α}

theorem field?_eq_some (h : layout.Lawful) {field : Field α ρ} {name : String} :
    layout.field? name = some field ↔ field ∈ layout.fields ∧ field.name = name := by
  constructor
  · intro hfind
    exact ⟨List.mem_of_find?_eq_some hfind, by simpa using List.find?_some hfind⟩
  · rintro ⟨hmem, rfl⟩
    obtain ⟨found, hfound⟩ : ∃ found, layout.field? field.name = some found :=
      Option.isSome_iff_exists.1 (List.find?_isSome.2 ⟨field, hmem, by simp⟩)
    have hname : found.name = field.name := by simpa using List.find?_some hfound
    rw [hfound, List.inj_on_of_nodup_map h.nodup (List.mem_of_find?_eq_some hfound) hmem hname]

theorem field?_eq_none {name : String} :
    layout.field? name = none ↔ name ∉ layout.fields.map Field.name := by
  simp [field?, List.find?_eq_none]

/-! ### One member -/

/-- How a member changes the record, if its value fits. -/
def change? (layout : Layout α ρ) (member : String × α) : Option (ρ → ρ) :=
  match layout.field? member.1 with
  | none => some id
  | some field => (field.read member.2).toOption

theorem change?_of_field? {field : Field α ρ} (h : layout.field? member.1 = some field) :
    layout.change? member = (field.read member.2).toOption := by
  rw [change?, h]

theorem change?_of_unknown (h : member.1 ∉ layout.fields.map Field.name) :
    layout.change? member = some id := by
  rw [change?, field?_eq_none.2 h]

theorem readMembers_cons (member : String × α) (members : List (String × α)) (r : ρ) :
    (layout.readMembers (member :: members) r).toOption =
      (layout.change? member).bind fun c => (layout.readMembers members (c r)).toOption := by
  obtain ⟨name, value⟩ := member
  simp only [readMembers, change?]
  cases layout.field? name with
  | none => rfl
  | some field => dsimp only; cases field.read value <;> rfl

theorem readMembers_append (members members' : List (String × α)) (r : ρ) :
    (layout.readMembers (members ++ members') r).toOption =
      (layout.readMembers members r).toOption.bind fun s =>
        (layout.readMembers members' s).toOption := by
  induction members generalizing r with
  | nil => rfl
  | cons member members ih => simp only [List.cons_append, readMembers_cons, ih, Option.bind_assoc]

theorem change?_commute (h : layout.Lawful) (hne : member.1 ≠ member'.1) {c d : ρ → ρ}
    (hc : layout.change? member = some c) (hd : layout.change? member' = some d) (r : ρ) :
    c (d r) = d (c r) := by
  cases hf : layout.field? member.1 with
  | none =>
    rw [change?_of_unknown (field?_eq_none.1 hf), Option.some.injEq] at hc
    rw [← hc]; rfl
  | some f =>
    cases hg : layout.field? member'.1 with
    | none =>
      rw [change?_of_unknown (field?_eq_none.1 hg), Option.some.injEq] at hd
      rw [← hd]; rfl
    | some g =>
      rw [change?_of_field? hf, toOption_eq_some] at hc
      rw [change?_of_field? hg, toOption_eq_some] at hd
      obtain ⟨hfmem, hfname⟩ := (field?_eq_some h).1 hf
      obtain ⟨hgmem, hgname⟩ := (field?_eq_some h).1 hg
      have hfg : f ≠ g := fun heq => hne (hfname.symm.trans (heq ▸ hgname))
      exact h.commute.forall hfmem hgmem hfg _ _ _ _ hc hd r

theorem readMembers_perm (h : layout.Lawful) (hperm : members.Perm members')
    (hnodup : (members.map Prod.fst).Nodup) (r : ρ) :
    (layout.readMembers members r).toOption = (layout.readMembers members' r).toOption := by
  induction hperm generalizing r with
  | nil => rfl
  | cons member _ ih =>
    simp only [readMembers_cons, ih (List.nodup_cons.1 hnodup).2]
  | swap m n rest =>
    have hne : n.1 ≠ m.1 := fun heq => by simp [heq] at hnodup
    simp only [readMembers_cons]
    cases hc : layout.change? n with
    | none => cases layout.change? m <;> rfl
    | some c =>
      cases hd : layout.change? m with
      | none => rfl
      | some d => simp only [Option.bind_some, change?_commute h hne hc hd]
  | trans hperm₁ _ ih₁ ih₂ =>
    rw [ih₁ hnodup, ih₂ ((hperm₁.map Prod.fst).nodup_iff.1 hnodup)]

/-! ### Whole objects -/

theorem missing?_eq_none {names : List String} : layout.missing? names = none ↔
    ∀ field ∈ layout.fields, field.required = true → field.name ∈ names := by
  simp [missing?, List.find?_eq_none]

theorem ofMembers_eq_some {r : ρ} : (layout.ofMembers members).toOption = some r ↔
    (layout.readMembers members layout.blank).toOption = some r ∧
      ∀ field ∈ layout.fields, field.required = true → field.name ∈ members.map Prod.fst := by
  rw [ofMembers, toOption_eq_some, toOption_eq_some, bind_eq_ok, ← missing?_eq_none]
  cases layout.missing? (members.map Prod.fst) with
  | none => simp
  | some field => simp

/-- Objects read alike when they change the record alike and have the same required fields. -/
theorem ofMembers_congr
    (hread : (layout.readMembers members layout.blank).toOption =
      (layout.readMembers members' layout.blank).toOption)
    (hnames : ∀ field ∈ layout.fields, field.required = true →
      (field.name ∈ members.map Prod.fst ↔ field.name ∈ members'.map Prod.fst)) :
    (layout.ofMembers members).toOption = (layout.ofMembers members').toOption := by
  refine Option.ext fun r => ?_
  rw [ofMembers_eq_some, ofMembers_eq_some, hread]
  exact and_congr_right fun _ => forall₂_congr fun field hfield =>
    ⟨fun h hreq => (hnames field hfield hreq).1 (h hreq),
      fun h hreq => (hnames field hfield hreq).2 (h hreq)⟩

theorem ofMembers_perm (h : layout.Lawful) (hperm : members.Perm members')
    (hnodup : (members.map Prod.fst).Nodup) :
    (layout.ofMembers members).toOption = (layout.ofMembers members').toOption :=
  ofMembers_congr (readMembers_perm h hperm hnodup _) fun _ _ _ => (hperm.map Prod.fst).mem_iff

theorem ofMembers_set (hname : member.1 = member'.1)
    (hchange : layout.change? member = layout.change? member') :
    (layout.ofMembers (before ++ member :: after)).toOption =
      (layout.ofMembers (before ++ member' :: after)).toOption := by
  refine ofMembers_congr ?_ fun _ _ _ => by simp [hname]
  simp only [readMembers_append, readMembers_cons, hchange]

theorem ofMembers_unknown (h : member.1 ∉ layout.fields.map Field.name) :
    (layout.ofMembers (before ++ member :: after)).toOption =
      (layout.ofMembers (before ++ after)).toOption := by
  refine ofMembers_congr ?_ fun field hfield _ => ?_
  · simp only [readMembers_append, readMembers_cons, change?_of_unknown h, Option.bind_some, id]
  · have hne : field.name ≠ member.1 := fun heq => h (heq ▸ List.mem_map_of_mem hfield)
    simp [hne]

/-- A field that leaves a blank record blank may as well be left out. -/
theorem ofMembers_blank (h : layout.Lawful) {field : Field α ρ} {c : ρ → ρ}
    (hfield : layout.field? member.1 = some field) (hopt : field.required = false)
    (hread : field.read member.2 = .ok c) (hblank : c layout.blank = layout.blank)
    (hnodup : ((before ++ member :: after).map Prod.fst).Nodup) :
    (layout.ofMembers (before ++ member :: after)).toOption =
      (layout.ofMembers (before ++ after)).toOption := by
  obtain ⟨hmem, hname⟩ := (field?_eq_some h).1 hfield
  refine (ofMembers_perm h List.perm_middle hnodup).trans (ofMembers_congr ?_ fun g hg hreq => ?_)
  · rw [readMembers_cons, change?_of_field? hfield, hread]
    simp only [Except.toOption, Option.bind_some, hblank]
  · have hne : g.name ≠ member.1 := fun heq => by
      rw [← (field?_eq_some h).2 ⟨hg, heq⟩ |>.symm.trans hfield |> Option.some.inj] at hopt
      simp [hopt] at hreq
    simp [hne]

/-! ### Arrays -/

theorem readItems_eq (h : layout.Lawful) {fields : List (Field α ρ)}
    (hfields : ∀ field ∈ fields, field ∈ layout.fields) (items : List α) (r : ρ) :
    (readItems fields items r).toOption =
      (layout.readMembers ((fields.map Field.name).zip items) r).toOption := by
  induction fields generalizing items r with
  | nil => rfl
  | cons field fields ih =>
    obtain ⟨hfield, hfields⟩ := List.forall_mem_cons.1 hfields
    cases items with
    | nil => rfl
    | cons item items =>
      have hchange : layout.change? (field.name, item) = (field.read item).toOption :=
        change?_of_field? ((field?_eq_some h).2 ⟨hfield, rfl⟩)
      rw [List.map_cons, List.zip_cons_cons, readMembers_cons, hchange, readItems]
      cases field.read item with
      | error _ => rfl
      | ok c => exact ih hfields items (c r)

/-- The names of the fields that an array of `n` items has. -/
theorem required_drop_iff (h : layout.Lawful) (n : Nat) :
    (∀ field ∈ layout.fields.drop n, field.required = false) ↔
      ∀ field ∈ layout.fields, field.required = true →
        field.name ∈ (layout.fields.map Field.name).take n := by
  have hnodup := h.nodup
  rw [← List.take_append_drop n layout.fields, List.map_append, List.nodup_append] at hnodup
  constructor
  · intro hdrop field hfield hreq
    rw [← List.take_append_drop n layout.fields, List.mem_append] at hfield
    rcases hfield with hfield | hfield
    · rw [← List.map_take]
      exact List.mem_map_of_mem hfield
    · simp [hdrop field hfield] at hreq
  · intro htake field hfield
    by_contra hreq
    have hname := htake field (List.mem_of_mem_drop hfield) (by simpa using hreq)
    rw [← List.map_take] at hname
    exact hnodup.2.2 _ hname _ (List.mem_map_of_mem hfield) rfl

theorem map_fst_zip (items : List α) : (((layout.fields.map Field.name).zip items).map Prod.fst) =
    (layout.fields.map Field.name).take items.length := by
  induction layout.fields.map Field.name generalizing items with
  | nil => simp
  | cons name names ih => cases items <;> simp [ih]

theorem ofItems_eq (h : layout.Lawful) (items : List α) : (layout.ofItems items).toOption =
    if items.length ≤ layout.fields.length then
      (layout.ofMembers ((layout.fields.map Field.name).zip items)).toOption
    else none := by
  have hread := readItems_eq h (fun _ => id) items layout.blank
  have hfound : (layout.fields.drop items.length).findIdx? (·.required) = none ↔
      ∀ field ∈ layout.fields.drop items.length, field.required = false := by simp
  refine Option.ext fun r => ?_
  rw [ofItems, toOption_eq_some, bind_eq_ok]
  simp only [← toOption_eq_some, hread]
  by_cases hlen : items.length ≤ layout.fields.length
  · rw [if_pos hlen, ofMembers_eq_some, map_fst_zip, ← required_drop_iff h, ← hfound]
    cases (layout.fields.drop items.length).findIdx? (·.required) with
    | none => simp [Nat.not_lt.2 hlen, toOption_eq_some]
    | some skipped => simp [toOption_eq_some]
  · rw [if_neg hlen]
    cases (layout.fields.drop items.length).findIdx? (·.required) with
    | none => simp [Nat.lt_of_not_le hlen, toOption_eq_some]
    | some skipped => simp [toOption_eq_some]

/-! ### Values seen in another way -/

section Comap

variable {β : Type} (view : β → α)

/-- The layout for values that `view` makes readable. -/
def comap (layout : Layout α ρ) : Layout β ρ where
  name := layout.name
  fields := layout.fields.map (·.comap view)
  blank := layout.blank

theorem comap_readMembers (members : List (String × β)) (r : ρ) :
    (layout.comap view).readMembers members r =
      layout.readMembers (members.map fun member => (member.1, view member.2)) r := by
  induction members generalizing r with
  | nil => rfl
  | cons member members ih =>
    obtain ⟨name, value⟩ := member
    have hfield : (layout.comap view).field? name = (layout.field? name).map (·.comap view) := by
      simp only [field?, comap, List.find?_map]
      rfl
    rw [List.map_cons, readMembers, readMembers, hfield]
    cases layout.field? name with
    | none => exact ih r
    | some field => simp only [Option.map_some, Field.comap, ih]

theorem comap_missing? (layout : Layout α ρ) (names : List String) :
    ((layout.comap view).missing? names).map Field.name = (layout.missing? names).map Field.name := by
  simp only [missing?, comap, List.find?_map, Option.map_map]
  rfl

theorem comap_ofMembers (members : List (String × β)) : (layout.comap view).ofMembers members =
    layout.ofMembers (members.map fun member => (member.1, view member.2)) := by
  have hnames : (members.map fun member => (member.1, view member.2)).map Prod.fst =
      members.map Prod.fst := by simp
  have hmissing := comap_missing? view layout (members.map Prod.fst)
  rw [ofMembers, ofMembers, comap_readMembers, hnames]
  congr 1
  funext record
  cases hm : layout.missing? (members.map Prod.fst) <;>
    cases hm' : (layout.comap view).missing? (members.map Prod.fst) <;> simp_all

theorem comap_readItems (fields : List (Field α ρ)) (items : List β) (r : ρ) :
    readItems (fields.map (·.comap view)) items r = readItems fields (items.map view) r := by
  induction fields generalizing items r with
  | nil => rfl
  | cons field fields ih =>
    cases items with
    | nil => rfl
    | cons item items => simp only [List.map_cons, readItems, ih]; rfl

theorem comap_ofItems (items : List β) : (layout.comap view).ofItems items =
    layout.ofItems (items.map view) := by
  have hfound : (((layout.comap view).fields.drop items.length).findIdx? (·.required)) =
      ((layout.fields.drop items.length).findIdx? (·.required)) := by
    simp only [comap, ← List.map_drop, List.findIdx?_map]
    rfl
  have hsize : (layout.comap view).fields.length = layout.fields.length := List.length_map _
  have hread : readItems (layout.comap view).fields items (layout.comap view).blank =
      readItems layout.fields (items.map view) layout.blank := comap_readItems view _ _ _
  simp only [ofItems, hfound, hsize, hread, List.length_map]
  rfl

end Comap

end Layout

end TypeEnv
