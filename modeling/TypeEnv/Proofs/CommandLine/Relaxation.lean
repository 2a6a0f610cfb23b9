import TypeEnv.CommandLine.Run
import TypeEnv.Proofs.CommandLine.Flags
import TypeEnv.Proofs.Environment.Relaxation

/-! The flags that relax a load. They go on top of whatever options a file gives, and have no part in what
is written; so where the program succeeds without one of them, it succeeds with it and writes the same. -/

namespace TypeEnv.CommandLine

variable (files : String → Id (Except ReadFailure String)) {arguments : Arguments} {flag : Flag}

/-- A flag asks for nothing more of a document. -/
theorem relaxesTo_adjust (arguments : Arguments) (flag : Flag) (options : LoadOptions) :
    (arguments.adjust options).RelaxesTo ((arguments.withFlag flag).adjust options) := by
  cases flag with
  | allowQualifiedGlobals =>
    refine ⟨fun hrequire => ?_, id⟩
    simp [Arguments.adjust, Arguments.withFlag] at hrequire
  | skipNullRecords => exact ⟨id, fun _ => rfl⟩
  | json | help | version => exact ⟨id, id⟩

theorem options_withFlag : (arguments.withFlag flag).options = arguments.options := by
  cases flag <;> rfl

theorem spec_withFlag : (arguments.withFlag flag).spec = arguments.spec := by
  cases flag <;> rfl

/-- What is written does not depend on the flags for the load. -/
theorem report_withFlag (hjson : flag ≠ .json) (environment : Environment) :
    (arguments.withFlag flag).report environment = arguments.report environment := by
  cases flag <;> first | exact absurd rfl hjson | rfl

/-! ### Runs that succeed -/

theorem id_bind {α β : Type} (a : Id α) (f : α → Id β) : a >>= f = f a := rfl

/-- The options that the flags go on top of: those of a file, when one is named. -/
inductive BaseOptions (arguments : Arguments) : LoadOptions → Prop where
  | unnamed (hnone : arguments.options = none) : BaseOptions arguments {}
  | file {path text : String} {base : LoadOptions} (hpath : arguments.options = some path)
      (htext : files path = .ok text) (hbase : LoadOptions.ofText text = .ok base) : BaseOptions arguments base

theorem loadOptions_eq_ok {options : LoadOptions} : arguments.loadOptions files = .ok options ↔
    ∃ base, BaseOptions files arguments base ∧ arguments.adjust base = options := by
  unfold Arguments.loadOptions
  constructor
  · intro h
    cases hpath : arguments.options with
    | none =>
      simp only [hpath] at h
      exact ⟨{}, .unnamed hpath, Except.ok.inj h⟩
    | some path =>
      cases htext : files path with
      | error failure =>
        simp only [hpath, htext, id_bind] at h
        cases h
      | ok text =>
        cases hbase : LoadOptions.ofText text with
        | error error =>
          simp only [hpath, htext, hbase, id_bind] at h
          cases h
        | ok base =>
          simp only [hpath, htext, hbase, id_bind] at h
          exact ⟨base, .file hpath htext hbase, Except.ok.inj h⟩
  · rintro ⟨base, hbase, rfl⟩
    cases hbase with
    | unnamed hnone =>
      simp only [hnone]
      rfl
    | file hpath htext hbase =>
      simp only [hpath, htext, hbase, id_bind]
      rfl

theorem loadFile_eq_ok {options : LoadOptions} {path : String} {environment : Environment} :
    loadFile files options path = .ok environment ↔
      ∃ text, files path = .ok text ∧ Environment.ofText options text = .ok environment := by
  unfold loadFile
  cases htext : files path with
  | error failure =>
    constructor
    · intro h
      cases h
    · rintro ⟨text, ⟨⟩, -⟩
  | ok text =>
    constructor
    · intro h
      exact ⟨text, rfl, h⟩
    · rintro ⟨_, ⟨⟩, h⟩
      exact h

theorem run_eq_ok {stdout : String} : arguments.run files = .ok stdout ↔
    ∃ options environment, arguments.loadOptions files = .ok options ∧
      loadFile files options arguments.spec = .ok environment ∧ arguments.report environment = stdout := by
  unfold Arguments.run
  constructor
  · intro h
    cases hoptions : arguments.loadOptions files with
    | error failure =>
      simp only [hoptions, id_bind] at h
      cases h
    | ok options =>
      cases hload : loadFile files options arguments.spec with
      | error error =>
        simp only [hoptions, hload, id_bind] at h
        cases h
      | ok environment =>
        simp only [hoptions, hload, id_bind] at h
        exact ⟨options, environment, rfl, hload, Except.ok.inj h⟩
  · rintro ⟨options, environment, hoptions, hload, rfl⟩
    simp only [hoptions, hload, id_bind]
    rfl

/-- The program succeeds when its arguments are taken and the run succeeds. -/
theorem run_of_parse {argv : List String} {stdout : String} (hparse : Arguments.parse argv = .ok arguments)
    (hrun : arguments.run files = .ok stdout) : run files argv = { code := 0, stdout } := by
  rw [run, hparse]
  show (match arguments.run files with
    | .error failure => { code := 1, stderr := failure.render }
    | .ok stdout => { code := 0, stdout } : Outcome) = _
  rw [hrun]

/-! ### Runs with a flag set -/

theorem BaseOptions.withFlag {base : LoadOptions} (h : BaseOptions files arguments base) (flag : Flag) :
    BaseOptions files (arguments.withFlag flag) base := by
  cases h with
  | unnamed hnone => exact .unnamed (options_withFlag.trans hnone)
  | file hpath htext hbase => exact .file (options_withFlag.trans hpath) htext hbase

theorem loadOptions_withFlag (flag : Flag) {options : LoadOptions}
    (h : arguments.loadOptions files = .ok options) :
    ∃ relaxed, (arguments.withFlag flag).loadOptions files = .ok relaxed ∧ options.RelaxesTo relaxed := by
  obtain ⟨base, hbase, rfl⟩ := (loadOptions_eq_ok files).1 h
  refine ⟨(arguments.withFlag flag).adjust base, ?_, relaxesTo_adjust arguments flag base⟩
  rw [loadOptions_eq_ok]
  exact ⟨base, hbase.withFlag files flag, rfl⟩

theorem loadFile_relaxed {options relaxed : LoadOptions} (hrelaxes : options.RelaxesTo relaxed)
    {path : String} {environment : Environment} (h : loadFile files options path = .ok environment) :
    loadFile files relaxed path = .ok environment := by
  rw [loadFile_eq_ok] at h ⊢
  obtain ⟨text, htext, hload⟩ := h
  exact ⟨text, htext, Environment.ofText_relaxed hrelaxes hload⟩

theorem run_withFlag (hjson : flag ≠ .json) {stdout : String}
    (h : arguments.run files = .ok stdout) : (arguments.withFlag flag).run files = .ok stdout := by
  rw [run_eq_ok] at h ⊢
  obtain ⟨options, environment, hoptions, hload, rfl⟩ := h
  obtain ⟨relaxed, hrelaxed, hrelaxes⟩ := loadOptions_withFlag files flag hoptions
  refine ⟨relaxed, environment, hrelaxed, ?_, report_withFlag hjson environment⟩
  rw [spec_withFlag]
  exact loadFile_relaxed files hrelaxes hload

/-- With relaxed options whatever loads gives the same environment. So a run that succeeds, whatever the
file of options says, succeeds with one of the flags that relax a load, too, and writes the same. -/
theorem succeeds_of_relaxed :
    (∀ options relaxed : LoadOptions, options.RelaxesTo relaxed → ∀ json environment,
      Environment.ofJson options json = .ok environment →
        Environment.ofJson relaxed json = .ok environment) ∧
    ∀ (files : String → Id (Except ReadFailure String)) (arguments : Arguments) (stdout : String),
      arguments.run files = .ok stdout →
      ∀ flag, flag = .allowQualifiedGlobals ∨ flag = .skipNullRecords →
        (arguments.withFlag flag).run files = .ok stdout ∧
        ∀ argv, Arguments.parse argv = .ok arguments → arguments.has flag = false →
          run files argv = { code := 0, stdout } ∧
            run files (flag.argument :: argv) = { code := 0, stdout } := by
  refine ⟨fun _ _ hrelaxes _ _ hload => Environment.ofJson_relaxed hrelaxes hload, ?_⟩
  intro files arguments stdout hrun flag hflag
  have hjson : flag ≠ .json := by
    rcases hflag with rfl | rfl <;> decide
  have hfirst : Draft.take {} flag.argument = .ok (Draft.withFlag {} flag) := by
    rcases hflag with rfl | rfl
    · exact take_allowQualifiedGlobals
    · exact take_skipNullRecords
  have hwith : (arguments.withFlag flag).run files = .ok stdout := run_withFlag files hjson hrun
  refine ⟨hwith, fun argv hparse hfree => ⟨run_of_parse files hparse hrun, ?_⟩⟩
  exact run_of_parse files (parse_cons_flag hfirst hparse hfree) hwith

/-- A file of options that objects to nulls and to qualified globals, and a document that has neither but
several records and globals. -/
def strictFiles (path : String) : Id (Except ReadFailure String) :=
  if path = "o.json" then .ok "\x7b\"requireFlatGlobals\":true,\"nullRecords\":\"reject\"\x7d"
  else .ok ("\x7b\"data\":[\x7b\"kind\":\"Interface\"\x7d," ++
      "\x7b\"kind\":\"Union\",\"elements\":[0,2]\x7d,\x7b\"kind\":\"String\"\x7d]," ++
    "\"globals\":[\x7b\"type\":0,\"qName\":[\"document\"]\x7d,\x7b\"type\":2,\"qName\":[\"name\"]\x7d]," ++
    "\"types\":\x7b\"Dom\":1\x7d\x7d")

theorem succeeds_strictFiles : ∃ stdout,
    run strictFiles ["a.json", "--options", "o.json", "--list", "globals"] = { code := 0, stdout } ∧
      run strictFiles ["--skip-null-records", "a.json", "--options", "o.json", "--list", "globals"] =
        { code := 0, stdout } ∧
      run strictFiles ["--allow-qualified-globals", "a.json", "--options", "o.json", "--list", "globals"] =
        { code := 0, stdout } := by
  have hparse : Arguments.parse ["a.json", "--options", "o.json", "--list", "globals"] =
      .ok { spec := "a.json", options := some "o.json", list := some .globals } := rfl
  obtain ⟨stdout, hrun, -⟩ : ∃ stdout, Arguments.run strictFiles
      { spec := "a.json", options := some "o.json", list := some .globals } = .ok stdout ∧ True :=
    Reading.exists_ok_of_any (by decide +kernel)
  have hskip := succeeds_of_relaxed.2 strictFiles _ stdout hrun .skipNullRecords (.inr rfl)
  have hallow := succeeds_of_relaxed.2 strictFiles _ stdout hrun .allowQualifiedGlobals (.inl rfl)
  obtain ⟨hplain, hskipped⟩ := hskip.2 _ hparse rfl
  exact ⟨stdout, hplain, hskipped, (hallow.2 _ hparse rfl).2⟩

end TypeEnv.CommandLine
