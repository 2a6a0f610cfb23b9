import TypeEnv.CommandLine.Arguments
import TypeEnv.Proofs.Reading

/-! Flags among the arguments. Taking an argument reads a flag only to object to one that comes twice. So a
flag can be put before arguments that do not set it: they are taken as before, and at the end the flag
is set too. -/

namespace TypeEnv.CommandLine

open Reading

/-- The argument that gives a flag. -/
def Flag.argument : Flag → String
  | allowQualifiedGlobals => "--allow-qualified-globals"
  | skipNullRecords => "--skip-null-records"
  | json => "--json"
  | help => "--help"
  | version => "--version"

/-- Whether a flag is set; help and version never are. -/
def Arguments.has (arguments : Arguments) : Flag → Bool
  | .allowQualifiedGlobals => arguments.allowQualifiedGlobals
  | .skipNullRecords => arguments.skipNullRecords
  | .json => arguments.json
  | .help | .version => false

def Arguments.withFlag (arguments : Arguments) : Flag → Arguments
  | .allowQualifiedGlobals => { arguments with allowQualifiedGlobals := true }
  | .skipNullRecords => { arguments with skipNullRecords := true }
  | .json => { arguments with json := true }
  | .help | .version => arguments

theorem Arguments.has_withFlag_of_ne {flag other : Flag} (hne : flag ≠ other) (arguments : Arguments) :
    (arguments.withFlag flag).has other = arguments.has other := by
  cases flag <;> cases other <;> first | exact absurd rfl hne | rfl

theorem Arguments.withFlag_comm (arguments : Arguments) (flag other : Flag) :
    (arguments.withFlag flag).withFlag other = (arguments.withFlag other).withFlag flag := by
  cases flag <;> cases other <;> rfl

namespace Draft

def withFlag (draft : Draft) (flag : Flag) : Draft :=
  { draft with arguments := draft.arguments.withFlag flag }

/-- `run` never unsets the flag, and if it does not set it, it goes the same way where it is set. -/
structure Carries (flag : Flag) (run : Draft → Except UsageError Draft) : Prop where
  kept : ∀ draft next, run draft = .ok next → draft.arguments.has flag = true →
    next.arguments.has flag = true
  carried : ∀ draft next, run draft = .ok next → next.arguments.has flag = false →
    run (draft.withFlag flag) = .ok (next.withFlag flag)

variable {flag : Flag}

namespace Carries

variable {run next : Draft → Except UsageError Draft}

theorem error (e : UsageError) : Carries flag fun _ => .error e where
  kept _ _ h := by cases h
  carried _ _ h := by cases h

/-- Something is read that the flag has no part in, and stored elsewhere. -/
theorem store {α : Type} (g : Draft → Except UsageError α) (f : α → Draft → Draft)
    (hread : ∀ draft, g (draft.withFlag flag) = g draft)
    (hhas : ∀ a draft, (f a draft).arguments.has flag = draft.arguments.has flag)
    (hflag : ∀ a draft, f a (draft.withFlag flag) = (f a draft).withFlag flag) :
    Carries flag fun draft => g draft >>= fun a => .ok (f a draft) where
  kept draft last h hset := by
    obtain ⟨a, -, hlast⟩ := bind_eq_ok.1 h
    obtain rfl := Except.ok.inj hlast
    rwa [hhas]
  carried draft last h _ := by
    obtain ⟨a, ha, hlast⟩ := bind_eq_ok.1 h
    obtain rfl := Except.ok.inj hlast
    rw [hread, ha, ok_bind, hflag]

/-- The draft is changed in another place than the flag. -/
theorem update (f : Draft → Draft)
    (hhas : ∀ draft, (f draft).arguments.has flag = draft.arguments.has flag)
    (hflag : ∀ draft, f (draft.withFlag flag) = (f draft).withFlag flag) :
    Carries flag fun draft => .ok (f draft) :=
  .store (fun _ => .ok ()) (fun _ => f) (fun _ => rfl) (fun _ => hhas) fun _ => hflag

theorem bind (hrun : Carries flag run) (hnext : Carries flag next) :
    Carries flag fun draft => run draft >>= next where
  kept draft last h hhas := by
    obtain ⟨mid, hmid, hlast⟩ := bind_eq_ok.1 h
    exact hnext.kept mid last hlast (hrun.kept draft mid hmid hhas)
  carried draft last h hfree := by
    obtain ⟨mid, hmid, hlast⟩ := bind_eq_ok.1 h
    have hmidfree : mid.arguments.has flag = false := by
      by_contra hset
      have hkept := hnext.kept mid last hlast (by simpa using hset)
      rw [hfree] at hkept
      cases hkept
    rw [hrun.carried draft mid hmid hmidfree]
    exact hnext.carried mid last hlast hfree

theorem ite {p : Draft → Prop} [DecidablePred p] (hp : ∀ draft, p (draft.withFlag flag) ↔ p draft)
    (hrun : Carries flag run) (hnext : Carries flag next) :
    Carries flag fun draft => if p draft then run draft else next draft where
  kept draft last h hhas := by
    split at h
    · exact hrun.kept draft last h hhas
    · exact hnext.kept draft last h hhas
  carried draft last h hfree := by
    simp only [hp]
    split at h
    · next hdraft =>
      rw [if_pos hdraft]
      exact hrun.carried draft last h hfree
    · next hdraft =>
      rw [if_neg hdraft]
      exact hnext.carried draft last h hfree

theorem foldlM {α : Type} {step : Draft → α → Except UsageError Draft}
    (h : ∀ a, Carries flag (step · a)) (l : List α) : Carries flag fun draft => l.foldlM step draft := by
  induction l with
  | nil => exact .update id (fun _ => rfl) fun _ => rfl
  | cons a l ih => exact (h a).bind ih

end Carries

/-! ### The parts of an argument -/

theorem carries_setSlot (slot : Slot) (value : String) :
    Carries flag fun draft => draft.setSlot slot value := by
  cases slot with
  | spec =>
    exact .store (fun draft => path draft.spec value) (fun path draft => { draft with spec := some path })
      (fun _ => rfl) (fun _ _ => rfl) fun _ _ => rfl
  | options =>
    refine .store (fun draft => path draft.arguments.options value)
      (fun path draft => { draft with arguments.options := some path }) ?_ ?_ ?_
    all_goals cases flag <;> intros <;> rfl
  | list =>
    refine .ite ?_ (.error .conflict) ?_
    · cases flag <;> exact fun _ => Iff.rfl
    · cases CatalogName.ofName? value with
      | none => exact .error .invalidValue
      | some catalog =>
        refine .update (fun draft => { draft with arguments.list := some catalog }) ?_ ?_
        all_goals cases flag <;> intros <;> rfl
  | lookup =>
    refine .update
      (fun draft => { draft with arguments.lookup := draft.arguments.lookup ++ [value] }) ?_ ?_
    all_goals cases flag <;> intros <;> rfl

theorem carries_settle : Carries flag settle where
  kept draft last h hset := by
    rw [settle] at h
    split at h
    · obtain rfl := Except.ok.inj h
      exact hset
    · cases h
    · exact (carries_setSlot _ _).kept _ last h hset
  carried draft last h hfree := by
    rw [settle] at h ⊢
    rw [show (draft.withFlag flag).pending = draft.pending from rfl]
    split at h
    · obtain rfl := Except.ok.inj h
      rfl
    · cases h
    · exact (carries_setSlot _ _).carried _ last h hfree

/-- A flag either ends the reading or is set where it was not. -/
theorem setFlag_cases (given : Flag) : (∃ error, ∀ draft : Draft, draft.setFlag given = .error error) ∨
    (∀ arguments : Arguments, (arguments.withFlag given).has given = true) ∧
      ∀ draft : Draft, draft.setFlag given =
        if draft.arguments.has given = true then .error .conflict else .ok (draft.withFlag given) := by
  cases given with
  | help => exact .inl ⟨.help, fun _ => rfl⟩
  | version => exact .inl ⟨.version, fun _ => rfl⟩
  | allowQualifiedGlobals | skipNullRecords | json => exact .inr ⟨fun _ => rfl, fun _ => rfl⟩

theorem carries_setFlag (given : Flag) : Carries flag fun draft => draft.setFlag given := by
  rcases setFlag_cases given with ⟨error, herror⟩ | ⟨hself, hset⟩
  · simp only [herror]
    exact .error error
  · simp only [hset]
    by_cases hgiven : given = flag
    · -- the flag is set here, so there is nothing to carry over
      subst hgiven
      refine ⟨fun draft last h hhas => ?_, fun draft last h hfree => ?_⟩
      · rw [if_pos hhas] at h
        cases h
      · split at h
        · cases h
        · obtain rfl := Except.ok.inj h
          rw [withFlag, hself] at hfree
          cases hfree
    · refine .ite (fun draft => ?_) (.error .conflict) (.update (·.withFlag given) ?_ ?_)
      · rw [withFlag, Arguments.has_withFlag_of_ne (Ne.symm hgiven)]
      · exact fun draft => Arguments.has_withFlag_of_ne hgiven draft.arguments
      · intro draft
        simp only [withFlag, Arguments.withFlag_comm]

theorem carries_takeLong (name : String) (value : Option String) :
    Carries flag fun draft => draft.takeLong name value := by
  unfold takeLong
  cases option? name with
  | none => exact .error .unknownArgument
  | some found =>
    cases found with
    | inl slot =>
      cases value with
      | some value =>
        exact carries_settle.bind <| (carries_setSlot slot value).bind <|
          .update (fun draft => { draft with awaiting := false }) (fun _ => rfl) fun _ => rfl
      | none =>
        exact carries_settle.bind <| .update
          (fun draft => { draft with pending := some (slot, none), awaiting := true }) (fun _ => rfl)
          fun _ => rfl
    | inr given =>
      cases value with
      | some value => exact .error .tooManyValues
      | none =>
        exact carries_settle.bind <| (carries_setFlag given).bind <|
          .update (fun draft => { draft with awaiting := false }) (fun _ => rfl) fun _ => rfl

theorem carries_takeShort (name : Char) : Carries flag fun draft => draft.takeShort name := by
  unfold takeShort
  split
  · exact carries_settle.bind (carries_setFlag .help)
  · exact carries_settle.bind (carries_setFlag .version)
  · exact .error .unknownArgument

theorem carries_takePositional (value : String) :
    Carries flag fun draft => draft.takePositional value := by
  refine .ite (fun _ => Iff.rfl) (.error .unknownArgument) ?_
  exact carries_settle.bind <| .update (fun draft => { draft with
    pending := some (.spec, some value), awaiting := false, positionalTaken := true })
    (fun _ => rfl) fun _ => rfl

theorem carries_takeValue (value : String) : Carries flag fun draft => draft.takeValue value where
  kept draft last h hset := by
    rw [takeValue] at h
    split at h
    · obtain rfl := Except.ok.inj h
      exact hset
    · exact (carries_takePositional value).kept draft last h hset
  carried draft last h hfree := by
    rw [takeValue] at h ⊢
    rw [show (draft.withFlag flag).pending = draft.pending from rfl,
      show (draft.withFlag flag).awaiting = draft.awaiting from rfl]
    split at h
    · obtain rfl := Except.ok.inj h
      rfl
    · exact (carries_takePositional value).carried draft last h hfree

theorem carries_take (argument : String) : Carries flag fun draft => draft.take argument := by
  refine .ite (fun _ => Iff.rfl) (carries_takePositional argument) ?_
  split
  · exact .update (fun draft => { draft with trailing := true }) (fun _ => rfl) fun _ => rfl
  · split
    · exact carries_takeLong _ none
    · exact carries_takeLong _ _
  · exact carries_takeShort _
  · exact carries_takeValue argument

end Draft

/-! ### A flag in front -/

/-- What the arguments say does not change when a flag that they leave unset is put before them, but that
it is set. -/
theorem parse_cons_flag {flag : Flag} {argv : List String} {arguments : Arguments}
    (hfirst : Draft.take {} flag.argument = .ok (Draft.withFlag {} flag))
    (h : Arguments.parse argv = .ok arguments) (hfree : arguments.has flag = false) :
    Arguments.parse (flag.argument :: argv) = .ok (arguments.withFlag flag) := by
  rw [Arguments.parse, bind_eq_ok] at h
  obtain ⟨draft, hdraft, h⟩ := h
  rw [bind_eq_ok] at h
  obtain ⟨last, hlast, h⟩ := h
  cases hspec : last.spec with
  | none =>
    simp only [hspec] at h
    cases h
  | some spec =>
    simp only [hspec] at h
    obtain rfl := Except.ok.inj h
    have hlastfree : last.arguments.has flag = false := by
      cases flag <;> exact hfree
    have hcarries : Draft.Carries flag fun draft => argv.foldlM Draft.take draft >>= Draft.settle :=
      (Draft.Carries.foldlM Draft.carries_take argv).bind Draft.carries_settle
    have hrun := hcarries.carried {} last (bind_eq_ok.2 ⟨draft, hdraft, hlast⟩) hlastfree
    obtain ⟨draft', hdraft', hlast'⟩ := bind_eq_ok.1 hrun
    have hspec' : (last.withFlag flag).spec = some spec := hspec
    rw [Arguments.parse, List.foldlM_cons, hfirst, ok_bind, hdraft', ok_bind, hlast', ok_bind, hspec']
    cases flag <;> rfl

theorem take_allowQualifiedGlobals : Draft.take {} Flag.allowQualifiedGlobals.argument =
    .ok (Draft.withFlag {} .allowQualifiedGlobals) := rfl

theorem take_skipNullRecords : Draft.take {} Flag.skipNullRecords.argument =
    .ok (Draft.withFlag {} .skipNullRecords) := rfl

end TypeEnv.CommandLine
