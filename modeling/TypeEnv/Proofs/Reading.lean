import Mathlib.Data.List.Forall2

/-! Readers that stop at the first error: what it means for readers in a row, and for one reader along a
list, to succeed and to fail, and which errors they can fail with. -/

namespace TypeEnv.Reading

variable {α β ε : Type}

@[simp] theorem pure_eq (a : α) : (pure a : Except ε α) = .ok a := rfl

@[simp] theorem throw_eq (e : ε) : (throw e : Except ε α) = .error e := rfl

@[simp] theorem error_bind (e : ε) (f : α → Except ε β) : (.error e : Except ε α) >>= f = .error e :=
  rfl

@[simp] theorem ok_bind (a : α) (f : α → Except ε β) : (.ok a : Except ε α) >>= f = f a := rfl

theorem bind_eq_ok {x : Except ε α} {f : α → Except ε β} {b : β} :
    x >>= f = .ok b ↔ ∃ a, x = .ok a ∧ f a = .ok b := by
  cases x <;> simp [bind, Except.bind]

/-- What is read and put in its place is told by what is read. -/
theorem bind_pure_eq_ok {x : Except ε α} {f : α → β} {P : α → Prop} (h : ∀ a, x = .ok a ↔ P a) {b : β} :
    (do return f (← x)) = (.ok b : Except ε β) ↔ ∃ a, P a ∧ f a = b := by
  cases x with
  | error e => simp [← h]
  | ok a => simp [← h]

theorem bind_eq_error {x : Except ε α} {f : α → Except ε β} {e : ε} :
    x >>= f = .error e ↔ x = .error e ∨ ∃ a, x = .ok a ∧ f a = .error e := by
  cases x <;> simp [bind, Except.bind]

theorem map_eq_ok {x : Except ε α} {f : α → β} {b : β} :
    f <$> x = .ok b ↔ ∃ a, x = .ok a ∧ f a = b := by
  cases x <;> simp [Functor.map, Except.map]

theorem map_eq_error {x : Except ε α} {f : α → β} {e : ε} :
    f <$> x = .error e ↔ x = .error e := by
  cases x <;> simp [Functor.map, Except.map]

@[simp] theorem toOption_ok (a : α) : (.ok a : Except ε α).toOption = some a := rfl

@[simp] theorem toOption_error (e : ε) : (.error e : Except ε α).toOption = none := rfl

theorem toOption_eq_some {x : Except ε α} {a : α} : x.toOption = some a ↔ x = .ok a := by
  cases x <;> simp [Except.toOption]

/-- That a reading succeeds with such a result can be evaluated. -/
theorem exists_ok_of_any {x : Except ε α} {P : α → Prop} [DecidablePred P]
    (h : (x.toOption.any fun a => decide (P a)) = true) : ∃ a, x = .ok a ∧ P a := by
  cases x with
  | error e => cases h
  | ok a => exact ⟨a, rfl, of_decide_eq_true h⟩

theorem toOption_map (x : Except ε α) (f : α → β) : (f <$> x).toOption = x.toOption.map f := by
  cases x <;> rfl

theorem toOption_bind (x : Except ε α) (f : α → Except ε β) :
    (x >>= f).toOption = x.toOption.bind fun a => (f a).toOption := by
  cases x <;> rfl

theorem pure_eq_ok {a b : α} : (pure a : Except ε α) = .ok b ↔ a = b := by
  simp

variable {f : α → Except ε β}

theorem mapM_eq_ok {l : List α} {r : List β} :
    l.mapM f = .ok r ↔ List.Forall₂ (fun a b => f a = .ok b) l r := by
  induction l generalizing r with
  | nil => simp [eq_comm]
  | cons a l ih =>
    simp only [List.mapM_cons, bind_eq_ok, ih, pure_eq_ok]
    constructor
    · rintro ⟨b, hb, bs, hbs, rfl⟩
      exact .cons hb hbs
    · rintro (_ | ⟨hb, hbs⟩)
      exact ⟨_, hb, _, hbs, rfl⟩

/-- The error that a reader fails with. -/
def error? : Except ε α → Option ε
  | .error e => some e
  | .ok _ => none

theorem error?_eq_some {x : Except ε α} {e : ε} : error? x = some e ↔ x = .error e := by
  cases x <;> simp [error?]

theorem error?_eq_none {x : Except ε α} : error? x = none ↔ ∃ a, x = .ok a := by
  cases x <;> simp [error?]

/-- The error of a list is that of its first entry that does not read. -/
theorem error?_mapM (f : α → Except ε β) (l : List α) :
    error? (l.mapM f) = l.findSome? fun a => error? (f a) := by
  induction l with
  | nil => rfl
  | cons a l ih =>
    rw [List.mapM_cons, List.findSome?_cons, ← ih]
    cases f a with
    | error e => rfl
    | ok b => cases l.mapM f <;> rfl

/-- A list has a counterpart whose entries are all as wanted when each of its entries has one. -/
theorem exists_forall₂_iff {R : α → β → Prop} {P : β → Prop} {l : List α} :
    (∃ r, List.Forall₂ R l r ∧ ∀ b ∈ r, P b) ↔ ∀ a ∈ l, ∃ b, R a b ∧ P b := by
  induction l with
  | nil => simp
  | cons a l ih =>
    rw [List.forall_mem_cons, ← ih]
    constructor
    · rintro ⟨_, hab | ⟨hab, hrest⟩, hP⟩
      obtain ⟨hb, hP⟩ := List.forall_mem_cons.1 hP
      exact ⟨⟨_, hab, hb⟩, _, hrest, hP⟩
    · rintro ⟨⟨b, hab, hb⟩, r, hrest, hP⟩
      exact ⟨b :: r, .cons hab hrest, List.forall_mem_cons.2 ⟨hb, hP⟩⟩

theorem forall₂_eq_map_iff {f : β → α} {P : β → Prop} {l : List α} {r : List β} :
    List.Forall₂ (fun a b => a = f b ∧ P b) l r ↔ l = r.map f ∧ ∀ b ∈ r, P b := by
  induction r generalizing l with
  | nil => simp
  | cons b r ih =>
    cases l with
    | nil => simp
    | cons a l =>
      rw [List.forall₂_cons, ih, List.map_cons, List.cons.injEq, List.forall_mem_cons]
      tauto

theorem exists_mapM_iff {P : β → Prop} {l : List α} :
    (∃ r, l.mapM f = .ok r ∧ ∀ b ∈ r, P b) ↔ ∀ a ∈ l, ∃ b, f a = .ok b ∧ P b := by
  simp only [mapM_eq_ok, exists_forall₂_iff]

theorem mapM_eq_some {f : α → Option β} {l : List α} {r : List β} :
    l.mapM f = some r ↔ List.Forall₂ (fun a b => f a = some b) l r := by
  induction l generalizing r with
  | nil => simp [eq_comm]
  | cons a l ih =>
    simp only [List.mapM_cons, Option.bind_eq_bind, Option.bind_eq_some_iff, ih, Option.pure_def,
      Option.some.injEq]
    constructor
    · rintro ⟨b, hb, bs, hbs, rfl⟩
      exact .cons hb hbs
    · rintro (_ | ⟨hb, hbs⟩)
      exact ⟨_, hb, _, hbs, rfl⟩

/-- A list that is read and then carried on is carried on item by item. -/
theorem exists_mapM_eq_some_iff {γ : Type} {f : α → Option β} {R : β → γ → Prop} {l : List α} {r : List γ} :
    (∃ read, l.mapM f = some read ∧ List.Forall₂ R read r) ↔
      List.Forall₂ (fun a c => ∃ b, f a = some b ∧ R b c) l r := by
  simp only [mapM_eq_some]
  constructor
  · rintro ⟨read, hread, hr⟩
    induction hread generalizing r with
    | nil =>
      cases hr
      exact .nil
    | cons hb _ ih =>
      obtain _ | ⟨hc, hr⟩ := hr
      exact .cons ⟨_, hb, hc⟩ (ih hr)
  · intro h
    induction h with
    | nil => exact ⟨[], .nil, .nil⟩
    | cons hab _ ih =>
      obtain ⟨b, hb, hc⟩ := hab
      obtain ⟨read, hread, hr⟩ := ih
      exact ⟨b :: read, .cons hb hread, .cons hc hr⟩

theorem toOption_mapM_set {before after : List α} {a a' : α} (h : (f a).toOption = (f a').toOption) :
    ((before ++ a :: after).mapM f).toOption = ((before ++ a' :: after).mapM f).toOption := by
  simp only [List.mapM_append, List.mapM_cons, toOption_bind, h]

/-! ### Readers side by side -/

section Follows

variable {α' β' ε' γ' : Type} {V : α → α' → Prop} {W : β → β' → Prop}

/-- Whenever `x` returns a value, `x'` returns a related one. -/
def Follows (V : α → α' → Prop) (x : Except ε α) (x' : Except ε' α') : Prop :=
  ∀ a, x = .ok a → ∃ a', x' = .ok a' ∧ V a a'

namespace Follows

variable {x : Except ε α} {x' : Except ε' α'}

theorem self (x : Except ε α) : Follows (· = ·) x x := fun a h => ⟨a, h, rfl⟩

theorem ok {a : α} {a' : α'} (h : V a a') : Follows V (.ok a : Except ε α) (.ok a' : Except ε' α') := by
  rintro _ ⟨⟩
  exact ⟨a', rfl, h⟩

theorem error (e : ε) : Follows V (.error e : Except ε α) x' := nofun

theorem imp {V' : α → α' → Prop} (h : Follows V x x') (hV : ∀ a a', V a a' → V' a a') : Follows V' x x' :=
  fun a ha => (h a ha).imp fun a' ha' => ⟨ha'.1, hV a a' ha'.2⟩

theorem bind {f : α → Except ε β} {f' : α' → Except ε' β'} (hx : Follows V x x')
    (hf : ∀ a a', V a a' → Follows W (f a) (f' a')) : Follows W (x >>= f) (x' >>= f') := by
  intro b hb
  obtain ⟨a, ha, hb⟩ := bind_eq_ok.1 hb
  obtain ⟨a', ha', hV⟩ := hx a ha
  obtain ⟨b', hb', hW⟩ := hf a a' hV b hb
  exact ⟨b', bind_eq_ok.2 ⟨a', ha', hb'⟩, hW⟩

theorem map {f : α → β} {f' : α' → β'} (hx : Follows V x x') (hf : ∀ a a', V a a' → W (f a) (f' a')) :
    Follows W (f <$> x) (f' <$> x') := by
  intro b hb
  obtain ⟨a, ha, rfl⟩ := map_eq_ok.1 hb
  obtain ⟨a', ha', hV⟩ := hx a ha
  exact ⟨f' a', map_eq_ok.2 ⟨a', ha', rfl⟩, hf a a' hV⟩

theorem mapM {f : α → Except ε β} {f' : α' → Except ε' β'} {l : List α} {l' : List α'}
    (h : List.Forall₂ (fun a a' => Follows W (f a) (f' a')) l l') :
    Follows (List.Forall₂ W) (l.mapM f) (l'.mapM f') := by
  induction h with
  | nil => exact .ok .nil
  | cons hab _ ih =>
    rw [List.mapM_cons, List.mapM_cons]
    exact hab.bind fun _ _ hb => ih.bind fun _ _ hbs => .ok (.cons hb hbs)

theorem of_toOption {y : Except ε α} {y' : Except ε' α'} (h : Follows V x x')
    (hx : x.toOption = y.toOption) (hx' : x'.toOption = y'.toOption) : Follows V y y' := by
  intro a ha
  obtain ⟨a', ha', hV⟩ := h a (toOption_eq_some.1 (hx.trans (toOption_eq_some.2 ha)))
  exact ⟨a', toOption_eq_some.1 (hx'.symm.trans (toOption_eq_some.2 ha')), hV⟩

end Follows

end Follows

/-! ### Errors of a kind -/

variable {γ : Type} {P : ε → Prop}

/-- Where `x` fails, its error is as `P` says. -/
def FailsWith (P : ε → Prop) (x : Except ε α) : Prop :=
  ∀ e, x = .error e → P e

namespace FailsWith

theorem ok (a : α) : FailsWith P (.ok a) := nofun

theorem error {e : ε} (h : P e) : FailsWith P (.error e : Except ε α) := by
  rintro _ ⟨⟩
  exact h

theorem bind {x : Except ε α} {g : α → Except ε γ} (hx : FailsWith P x)
    (hg : ∀ a, FailsWith P (g a)) : FailsWith P (x >>= g) := by
  intro e he
  rcases bind_eq_error.1 he with he | ⟨a, -, he⟩
  · exact hx e he
  · exact hg a e he

theorem map {x : Except ε α} (hx : FailsWith P x) (g : α → γ) : FailsWith P (g <$> x) :=
  fun e he => hx e (map_eq_error.1 he)

theorem mapM (hf : ∀ a, FailsWith P (f a)) (l : List α) : FailsWith P (l.mapM f) := by
  induction l with
  | nil => exact .ok _
  | cons a l ih =>
    rw [List.mapM_cons]
    exact (hf a).bind fun b => ih.bind fun bs => .ok _

end FailsWith

end TypeEnv.Reading
