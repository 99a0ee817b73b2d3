/-
# Effective options

Each setting of a run is the one that the arguments give, else the one that the configuration sets, else the
default.  What a configuration sets is checked, what the arguments give is not: the path of the core module is
blank exactly if the arguments give a blank one.
-/
import ComponentLowering.CommandLine.Run
import ComponentLowering.Proofs.Batch.Snapshots
import ComponentLowering.Proofs.CommandLine.GivenFlags
import ComponentLowering.Proofs.Settings.Words

namespace ComponentLowering.CommandLine

open ComponentLowering.Batch ComponentLowering.Settings ComponentLowering.Text

variable {s : Snapshot} {args : List String} {i : Invocation} {options a b : Options} {given : GivenOptions}
  {config : Option String}

/-! ### Settings -/

/-- The option of a command that gives a setting. -/
def optionOf : Setting → ValueOption
  | .corePath => .corePath
  | .convention => .convention
  | .componentExport => .componentExport
  | .style => .style

theorem short?_optionOf (setting : Setting) : (optionOf setting).short? = none := by cases setting <;> rfl

/-- An invocation has its own settings and those of the configuration for the others. -/
theorem word_over (i : Invocation) (o : Options) (setting : Setting) :
    Setting.word (i.over o) setting = (i.word? (optionOf setting)).getD (Setting.word o setting) := by
  cases setting with
  | corePath => rfl
  | convention =>
      change (i.convention.getD o.convention).name = (i.convention.map Convention.name).getD o.convention.name
      cases i.convention <;> rfl
  | componentExport =>
      change (i.componentExport.getD o.componentExport).name =
        (i.componentExport.map ComponentExport.name).getD o.componentExport.name
      cases i.componentExport <;> rfl
  | style =>
      change (i.style.getD o.style).name = (i.style.map StyleMode.name).getD o.style.name
      cases i.style <;> rfl

/-! ### Configurations -/

/-- What the configuration of a run sets: nothing if there is none, else what its text does. -/
inductive Configures (s : Snapshot) : Option String → GivenOptions → Prop
  | absent : Configures s none {}
  | text {path source : String} {given : GivenOptions} {stop : Cursor} :
      (s.read path).run = .ok source → OptionsText.options.run ⟨source.toList, 0⟩ = .ok (given, stop) →
      isBlankText given.complete.corePath = false → Configures s (some path) given

theorem Configures.not_blank (h : Configures s config given) : isBlankText given.complete.corePath = false := by
  cases h with
  | absent => decide
  | text _ _ blank => exact blank

theorem configured_ok {source : String} (run : configured source = .ok options) :
    ∃ given stop, OptionsText.options.run ⟨source.toList, 0⟩ = .ok (given, stop) ∧
      isBlankText given.complete.corePath = false ∧ options = given.complete := by
  unfold configured Options.ofText at run
  split at run
  · cases run
  · rename_i given stop read
    dsimp only at run
    split at run
    · cases run
    · rename_i blank
      cases run
      exact ⟨given, stop, read, Bool.eq_false_iff.mpr blank, rfl⟩

/-- The options of a run are those of its configuration under those of the invocation. -/
theorem resolveOptions_ok (resolved : answer (resolveOptions s i) = .ok options) :
    ∃ given, Configures s i.config given ∧ options = i.over given.complete := by
  unfold resolveOptions at resolved
  cases config : i.config with
  | none =>
      rw [config] at resolved
      cases resolved
      exact ⟨{}, .absent, rfl⟩
  | some path =>
      rw [config] at resolved
      dsimp only at resolved
      rw [answer_bind] at resolved
      change ((s.read path).run >>= fun text => _) = _ at resolved
      cases read : (s.read path).run with
      | error fault =>
          rw [read] at resolved
          cases resolved
      | ok source =>
          rw [read] at resolved
          change answer (ExceptT.mk (pure (configured source)) >>= _) = _ at resolved
          rw [answer_bind] at resolved
          change (configured source >>= fun config => _) = _ at resolved
          cases eq : configured source with
          | error message =>
              rw [eq] at resolved
              cases resolved
          | ok config =>
              rw [eq] at resolved
              cases resolved
              obtain ⟨given, stop, parsed, blank, rfl⟩ := configured_ok eq
              exact ⟨given, .text read parsed blank, rfl⟩

/-! ### The options of a run -/

/-- Where the settings of a run come from. -/
structure IsEffective (args : List String) (given : GivenOptions) (options : Options) : Prop where
  flag : ∀ setting word, Gives (optionOf setting) word args → Setting.word options setting = word
  unflagged : ∀ setting, (¬∃ word, Gives (optionOf setting) word args) →
    Setting.word options setting = (Setting.word? given setting).getD (Setting.word {} setting)
  /-- The arguments are the only source of a blank path. -/
  blank : isBlankText options.corePath = true ↔
    ∃ word, Gives .corePath word args ∧ isBlankText word = true

theorem resolveOptions_isEffective (asked : Request.ofArguments args = .ok (.run i))
    (resolved : answer (resolveOptions s i) = .ok options) :
    ∃ given, Configures s i.config given ∧ IsEffective args given options := by
  obtain ⟨given, configures, rfl⟩ := resolveOptions_ok resolved
  have gives (setting : Setting) (word : String) :
      i.word? (optionOf setting) = some word ↔ Gives (optionOf setting) word args :=
    word?_ofArguments (short?_optionOf setting) asked
  refine ⟨given, configures, fun setting word given => ?_, fun setting unset => ?_, ?_⟩
  · rw [word_over, (gives setting word).mpr given]
    rfl
  · have none : i.word? (optionOf setting) = none := by
      cases eq : i.word? (optionOf setting) with
      | none => rfl
      | some word => exact absurd ⟨word, (gives setting word).mp eq⟩ unset
    rw [word_over, none, ← Setting.word_complete]
    rfl
  · refine Iff.trans ?_ (exists_congr fun word => and_congr_left' (gives .corePath word))
    change isBlankText (i.corePath.getD given.complete.corePath) = true ↔
      ∃ word, i.corePath = some word ∧ isBlankText word = true
    cases i.corePath with
    | some word => simp
    | none => simp [configures.not_blank]

/-- There is no more to the options of a run than where its settings come from. -/
theorem IsEffective.unique (h : IsEffective args given a) (h' : IsEffective args given b) : a = b := by
  refine Setting.eq_of_word fun setting => ?_
  by_cases gives : ∃ word, Gives (optionOf setting) word args
  · obtain ⟨word, gives⟩ := gives
    rw [h.flag setting word gives, h'.flag setting word gives]
  · rw [h.unflagged setting gives, h'.unflagged setting gives]

/-! ### A run with a configuration -/

/-- A configuration that sets the path and the convention. -/
def configuredTree : FileTree where
  entries := [(["lazyc.json".toList],
    .file "\x7b \"coreImportPath\": \"@my/core\", \"module\": \"cjs\" \x7d".toUTF8)]

/-- The arguments give the convention and the style over the configuration. -/
def flaggedRun : Invocation :=
  { files := ["a.ts"], config := some "lazyc.json", convention := some .esm, style := some .none }

/-- The path is left to the configuration, and the form of the export to the default. -/
theorem flaggedRun_isEffective :
    Request.ofArguments ["--module=esm", "-c", "lazyc.json", "--style", "none", "a.ts"] = .ok (.run flaggedRun) ∧
      answer (resolveOptions configuredTree.seen flaggedRun) = .ok ⟨"@my/core", .esm, .lazy, .none⟩ ∧
      ∃ given, Configures configuredTree.seen (some "lazyc.json") given ∧
        IsEffective ["--module=esm", "-c", "lazyc.json", "--style", "none", "a.ts"] given
          ⟨"@my/core", .esm, .lazy, .none⟩ := by
  have asked : Request.ofArguments ["--module=esm", "-c", "lazyc.json", "--style", "none", "a.ts"] =
      .ok (.run flaggedRun) := by decide +kernel
  have resolved : answer (resolveOptions configuredTree.seen flaggedRun) =
      .ok ⟨"@my/core", .esm, .lazy, .none⟩ := by decide +kernel
  exact ⟨asked, resolved, resolveOptions_isEffective asked resolved⟩

/-- A blank path is refused in a configuration, but as an argument it becomes the path of the run. -/
theorem blankFlag_resolves :
    (∃ i, Request.ofArguments ["--core-import-path", " ", "a.ts"] = .ok (.run i) ∧
      ∃ options, answer (resolveOptions configuredTree.seen i) = .ok options ∧
        isBlankText options.corePath = true) ∧
      configured "\x7b \"coreImportPath\": \" \" \x7d" = .error "coreImportPath must not be empty" := by
  refine ⟨⟨{ files := ["a.ts"], corePath := some " " }, ?_, ⟨" ", .esm, .lazy, .static⟩, ?_, ?_⟩, ?_⟩
  · decide +kernel
  · decide +kernel
  · decide +kernel
  · decide +kernel

end ComponentLowering.CommandLine
