import TypeEnv.Json.Reader
import TypeEnv.Proofs.OrderedMap

/-! The names in the objects that are read. A name that repeats takes the place of the one before, so no
object of a value that is read from a text, however deep inside, has two members of one name. -/

namespace TypeEnv.Json

mutual

/-- No object in the value has two members of one name. -/
def NamesDiffer : Json → Prop
  | array items => ItemsDiffer items
  | object members => (members.map Prod.fst).Nodup ∧ MembersDiffer members
  | _ => True
termination_by structural json => json

def ItemsDiffer : List Json → Prop
  | [] => True
  | item :: items => NamesDiffer item ∧ ItemsDiffer items
termination_by structural items => items

def MembersDiffer : List (String × Json) → Prop
  | [] => True
  | (_, value) :: members => NamesDiffer value ∧ MembersDiffer members
termination_by structural members => members

end

theorem itemsDiffer_iff {items : List Json} : ItemsDiffer items ↔ ∀ item ∈ items, item.NamesDiffer := by
  induction items with
  | nil => simp [ItemsDiffer]
  | cons item items ih => rw [ItemsDiffer, ih, List.forall_mem_cons]

theorem membersDiffer_iff {members : List (String × Json)} :
    MembersDiffer members ↔ ∀ value ∈ members.map Prod.snd, value.NamesDiffer := by
  induction members with
  | nil => simp [MembersDiffer]
  | cons member members ih => rw [MembersDiffer, ih, List.map_cons, List.forall_mem_cons]

theorem namesDiffer_array {items : List Json} (h : ∀ item ∈ items, item.NamesDiffer) :
    (array items).NamesDiffer := by
  rw [NamesDiffer, itemsDiffer_iff]
  exact h

theorem namesDiffer_object {members : OrderedMap String Json} (h : ∀ value ∈ members.values, value.NamesDiffer) :
    (object members.entries).NamesDiffer := by
  rw [NamesDiffer, membersDiffer_iff]
  exact ⟨members.nodup_keys, h⟩

/-! ### Reading -/

/-- Names differ in what has been read of a container. -/
def Container.NamesDiffer : Container → Prop
  | array items => ∀ item ∈ items, item.NamesDiffer
  | object members _ => ∀ value ∈ members.values, value.NamesDiffer

namespace Reader

/-- Names differ in all that has been read. -/
def NamesDiffer : Reader → Prop
  | value containers | firstItem containers => ∀ c ∈ containers, c.NamesDiffer
  | key members _ containers | colon members _ containers =>
    (∀ json ∈ members.values, json.NamesDiffer) ∧ ∀ c ∈ containers, c.NamesDiffer
  | separator innermost containers => innermost.NamesDiffer ∧ ∀ c ∈ containers, c.NamesDiffer
  | done json => json.NamesDiffer

variable {limits : Limits} {containers : List Container} {reader reader' : Reader} {token : Token}

theorem namesDiffer_close {json : Json} (hjson : json.NamesDiffer) (h : ∀ c ∈ containers, c.NamesDiffer) :
    (close json containers).NamesDiffer := by
  rcases containers with _ | ⟨_ | _, containers⟩
  · exact hjson
  · obtain ⟨hitems, hcontainers⟩ := List.forall_mem_cons.1 h
    exact ⟨List.forall_mem_cons.2 ⟨hjson, hitems⟩, hcontainers⟩
  · obtain ⟨hmembers, hcontainers⟩ := List.forall_mem_cons.1 h
    refine ⟨fun value hvalue => ?_, hcontainers⟩
    rcases OrderedMap.mem_values_insert hvalue with rfl | hvalue
    · exact hjson
    · exact hmembers value hvalue

theorem namesDiffer_finishContainer {c : Container} (h : c.NamesDiffer) : (finishContainer c).NamesDiffer := by
  cases c with
  | array items => exact namesDiffer_array fun item hitem => h item (List.mem_reverse.1 hitem)
  | object members _ => exact namesDiffer_object h

theorem namesDiffer_startValue (h : ∀ c ∈ containers, c.NamesDiffer)
    (hstart : startValue limits containers token = some reader') : reader'.NamesDiffer := by
  cases token with
  | null | bool =>
    cases hstart
    exact namesDiffer_close trivial h
  | number | string =>
    obtain ⟨_, -, rfl⟩ := Option.map_eq_some_iff.1 hstart
    exact namesDiffer_close trivial h
  | openArray =>
    obtain ⟨-, ⟨⟩⟩ := Option.ite_none_right_eq_some.1 hstart
    exact h
  | openObject =>
    obtain ⟨-, ⟨⟩⟩ := Option.ite_none_right_eq_some.1 hstart
    exact ⟨nofun, h⟩
  | _ => cases hstart

/-- One token more leaves names different. -/
theorem namesDiffer_step (h : reader.NamesDiffer) (hstep : step limits reader token = some reader') :
    reader'.NamesDiffer := by
  unfold step at hstep
  -- one case for each rule of a step, in their order
  split at hstep
  · exact namesDiffer_startValue h hstep
  · cases hstep
    exact namesDiffer_close (namesDiffer_array nofun) h
  · have hopened : (Container.array []).NamesDiffer := List.forall_mem_nil _
    exact namesDiffer_startValue (List.forall_mem_cons.2 ⟨hopened, h⟩) hstep
  · obtain ⟨_, -, rfl⟩ := Option.map_eq_some_iff.1 hstep
    exact h
  · cases hstep
    exact namesDiffer_close (namesDiffer_object h.1) h.2
  · cases hstep
    exact List.forall_mem_cons.2 h
  · cases hstep
    exact List.forall_mem_cons.2 h
  · cases hstep
    exact namesDiffer_close (namesDiffer_finishContainer h.1) h.2
  · cases hstep
    exact h
  · cases hstep
    exact namesDiffer_close (namesDiffer_finishContainer h.1) h.2
  · cases hstep

theorem namesDiffer_run {tokens : List Token} (h : reader.NamesDiffer)
    (hrun : tokens.foldlM (step limits) reader = some reader') : reader'.NamesDiffer := by
  induction tokens generalizing reader with
  | nil =>
    cases hrun
    exact h
  | cons token tokens ih =>
    rw [List.foldlM_cons] at hrun
    obtain ⟨next, hstep, hrun⟩ := Option.bind_eq_some_iff.1 hrun
    exact ih (namesDiffer_step h hstep) hrun

end Reader

/-- In what is read from a text names differ. -/
theorem namesDiffer_of_parse? {text : String} {json : Json} (h : parse? text = some json) : json.NamesDiffer := by
  rw [parse?] at h
  split at h
  · next value hrun =>
    cases h
    have hstart : (Reader.value []).NamesDiffer := List.forall_mem_nil _
    exact Reader.namesDiffer_run hstart hrun
  · cases h

end TypeEnv.Json
