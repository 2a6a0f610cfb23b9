/-! Computations on a state that can fail and then keep the state they had reached: what their parts
return and leave behind. -/

namespace TypeEnv.Stateful

variable {α β ε σ : Type} (s : σ)

@[simp] theorem run_pure (a : α) : (pure a : ExceptT ε (StateM σ) α).run.run s = (.ok a, s) := rfl

@[simp] theorem run_get : (get : ExceptT ε (StateM σ) σ).run.run s = (.ok s, s) := rfl

@[simp] theorem run_modify (f : σ → σ) :
    (modify f : ExceptT ε (StateM σ) Unit).run.run s = (.ok (), f s) := rfl

@[simp] theorem run_liftExcept (x : Except ε α) :
    (liftM x : ExceptT ε (StateM σ) α).run.run s = (x, s) := by
  cases x <;> rfl

/-- A computation that returns is followed by the next, from the state it leaves; one that fails is
followed by nothing. -/
theorem run_bind (x : ExceptT ε (StateM σ) α) (f : α → ExceptT ε (StateM σ) β) :
    (x >>= f).run.run s = match x.run.run s with
      | (.ok a, s') => (f a).run.run s'
      | (.error e, s') => (.error e, s') := by
  change (ExceptT.bindCont f (x.run.run s).1).run (x.run.run s).2 = _
  rcases x.run.run s with ⟨e | a, s'⟩ <;> rfl

theorem run_map (f : α → β) (x : ExceptT ε (StateM σ) α) :
    (f <$> x).run.run s = match x.run.run s with
      | (.ok a, s') => (.ok (f a), s')
      | (.error e, s') => (.error e, s') := by
  rw [map_eq_pure_bind, run_bind]
  rfl

theorem run_map_snd (f : α → β) (x : ExceptT ε (StateM σ) α) :
    ((f <$> x).run.run s).2 = (x.run.run s).2 := by
  rw [run_map]
  split <;> simp_all

theorem run_discard (x : ExceptT ε (StateM σ) α) :
    (discard x).run.run s = match x.run.run s with
      | (.ok _, s') => (.ok (), s')
      | (.error e, s') => (.error e, s') := by
  rw [discard, map_const]
  exact run_map s _ x

end TypeEnv.Stateful
