/-! Finite maps that remember the order in which their keys arrived. A repeated key keeps the place
it had and takes the new value. The map is its list of entries, together with the fact that no key
occurs twice. -/

namespace TypeEnv

structure OrderedMap (κ α : Type) where
  entries : List (κ × α)
  nodup_keys : (entries.map Prod.fst).Nodup
  deriving DecidableEq

namespace OrderedMap

variable {κ α β : Type}

def empty : OrderedMap κ α := ⟨[], by simp⟩

instance : EmptyCollection (OrderedMap κ α) := ⟨empty⟩
instance : Inhabited (OrderedMap κ α) := ⟨empty⟩

def keys (m : OrderedMap κ α) : List κ := m.entries.map Prod.fst
def values (m : OrderedMap κ α) : List α := m.entries.map Prod.snd
def size (m : OrderedMap κ α) : Nat := m.entries.length
def isEmpty (m : OrderedMap κ α) : Bool := m.entries.isEmpty

section Lookup

variable [DecidableEq κ]

/-- The entries with `key` bound to `value`, in its old place or at the end. -/
def insertEntry (key : κ) (value : α) : List (κ × α) → List (κ × α)
  | [] => [(key, value)]
  | entry :: rest =>
    if entry.1 = key then (key, value) :: rest else entry :: insertEntry key value rest

theorem keys_insertEntry (key : κ) (value : α) (entries : List (κ × α)) :
    (insertEntry key value entries).map Prod.fst =
      if key ∈ entries.map Prod.fst then entries.map Prod.fst
      else entries.map Prod.fst ++ [key] := by
  induction entries with
  | nil => simp [insertEntry]
  | cons entry rest ih => grind [insertEntry]

def insert (m : OrderedMap κ α) (key : κ) (value : α) : OrderedMap κ α where
  entries := insertEntry key value m.entries
  nodup_keys := by
    have h := m.nodup_keys
    rw [keys_insertEntry]
    split
    · exact h
    · next hk => exact List.nodup_append.2 ⟨h, by simp, by grind⟩

theorem keys_insert (m : OrderedMap κ α) (key : κ) (value : α) :
    (m.insert key value).keys = if key ∈ m.keys then m.keys else m.keys ++ [key] :=
  keys_insertEntry key value m.entries

def get? (m : OrderedMap κ α) (key : κ) : Option α :=
  (m.entries.find? (·.1 = key)).map Prod.snd

theorem find?_insertEntry (key other : κ) (value : α) (entries : List (κ × α)) :
    (insertEntry key value entries).find? (·.1 = other) =
      if key = other then some (key, value) else entries.find? (·.1 = other) := by
  induction entries with
  | nil => simp [insertEntry, List.find?_cons]; split <;> simp_all
  | cons entry rest ih => grind [insertEntry]

theorem get?_insert (m : OrderedMap κ α) (key other : κ) (value : α) :
    (m.insert key value).get? other = if key = other then some value else m.get? other := by
  simp only [get?, insert, find?_insertEntry]
  split <;> rfl

/-- The value of `key` changed by `f`, which is given `default` if the key is new. -/
def update (m : OrderedMap κ α) (key : κ) (default : α) (f : α → α) : OrderedMap κ α :=
  m.insert key (f ((m.get? key).getD default))

def ofList (entries : List (κ × α)) : OrderedMap κ α :=
  entries.foldl (fun m entry => m.insert entry.1 entry.2) ∅

end Lookup

/-! ### Changing the values

The keys and their order stay. -/

variable {m : Type → Type} [Monad m]

/-- The entries with `f` run on each value in turn, and the fact that the keys are the same. -/
def traverseEntries (f : κ → α → m β) :
    (entries : List (κ × α)) → m { r : List (κ × β) // r.map Prod.fst = entries.map Prod.fst }
  | [] => pure ⟨[], rfl⟩
  | (key, value) :: rest => do
    let value ← f key value
    let ⟨rest, h⟩ ← traverseEntries f rest
    pure ⟨(key, value) :: rest, by simp [h]⟩

def traverse (f : κ → α → m β) (map : OrderedMap κ α) : m (OrderedMap κ β) := do
  let ⟨entries, h⟩ ← traverseEntries f map.entries
  pure ⟨entries, h ▸ map.nodup_keys⟩

end OrderedMap

end TypeEnv
