/-
# Given flags

An invocation has for an option the word that the arguments give it, if they give one.  An option is given by its
long name, with the word behind an equals sign or as the next argument, in front of two dashes that stand alone.
The options with a short name as well are left out: they name files, not settings.
-/
import ComponentLowering.CommandLine.Arguments
import ComponentLowering.Proofs.Component.LiteralForms
import Mathlib.Data.List.Basic

namespace ComponentLowering.CommandLine

open ComponentLowering.Component ComponentLowering.Settings

variable {option other : ValueOption} {argument value word name : String} {args rest : List String}
  {i i' : Invocation} {step : Step}

/-! ### Names of options -/

namespace ValueOption

/-- The long name of an option. -/
def long : ValueOption → String
  | config => "config"
  | corePath => "core-import-path"
  | convention => "module"
  | componentExport => "component-export"
  | style => "style"
  | outDir => "out-dir"

/-- The short name of an option, if it has one. -/
def short? : ValueOption → Option Char
  | config => some 'c'
  | outDir => some 'o'
  | _ => none

theorem ofLong?_eq_some : ofLong? name = some option ↔ name = option.long := by
  constructor
  · intro named
    unfold ofLong? at named
    split at named <;> cases named <;> rfl
  · rintro rfl
    cases option <;> rfl

theorem short?_of_ofShort? {c : Char} (named : ofShort? c = some option) : option.short? = some c := by
  unfold ofShort? at named
  split at named <;> cases named <;> rfl

theorem long_injective (same : option.long = other.long) : option = other := by
  have named : ofLong? option.long = some other := ofLong?_eq_some.mpr same
  rw [ofLong?_eq_some.mpr rfl] at named
  exact Option.some.inj named

theorem not_mem_long (option : ValueOption) : '=' ∉ option.long.toList := by
  cases option <;> decide

end ValueOption

/-- An option whose word is the next argument. -/
def bare (option : ValueOption) : String := "--" ++ option.long

/-- An option with its word. -/
def attached (option : ValueOption) (word : String) : String := "--" ++ option.long ++ "=" ++ word

theorem toList_bare : (bare option).toList = '-' :: '-' :: option.long.toList := by
  rw [bare, String.toList_append]
  rfl

theorem toList_attached :
    (attached option word).toList = '-' :: '-' :: (option.long.toList ++ '=' :: word.toList) := by
  rw [attached, String.toList_append, String.toList_append, String.toList_append]
  simp

/-- Whether arguments give a word to an option. -/
inductive Gives (option : ValueOption) (word : String) : List String → Prop
  | next {rest : List String} : Gives option word (bare option :: word :: rest)
  | attached {rest : List String} : Gives option word (attached option word :: rest)
  | later {argument : String} {rest : List String} :
      argument ≠ "--" → Gives option word rest → Gives option word (argument :: rest)

theorem attached_inj {word' : String} :
    attached option word = attached other word' ↔ option = other ∧ word = word' := by
  constructor
  · intro same
    have same := congrArg String.toList same
    rw [toList_attached, toList_attached] at same
    have tail := (List.cons.inj (List.cons.inj same).2).2
    have name := congrArg (List.takeWhile (· != '=')) tail
    have plain (option : ValueOption) (more : List Char) :
        (option.long.toList ++ '=' :: more).takeWhile (· != '=') = option.long.toList := by
      rw [List.takeWhile_append_of_pos]
      · simp
      · intro c mem
        rw [bne_iff_ne]
        rintro rfl
        exact option.not_mem_long mem
    rw [plain, plain, String.toList_inj] at name
    obtain rfl := ValueOption.long_injective name
    exact ⟨rfl, String.toList_inj.mp (List.cons.inj (List.append_cancel_left tail)).2⟩
  · rintro ⟨rfl, rfl⟩
    rfl

theorem bare_inj : bare option = bare other ↔ option = other := by
  constructor
  · intro same
    have same := congrArg String.toList same
    rw [toList_bare, toList_bare] at same
    exact ValueOption.long_injective (String.toList_inj.mp (List.cons.inj (List.cons.inj same).2).2)
  · rintro rfl
    rfl

theorem bare_ne_attached : bare option ≠ attached other word := by
  intro same
  have mem : '=' ∈ (attached other word).toList := by simp [toList_attached]
  rw [← same, toList_bare] at mem
  simp [option.not_mem_long] at mem

/-- Whether an argument has nothing to do with long names of options. -/
structure IsApart (argument : String) : Prop where
  bare : ∀ option, argument ≠ bare option
  attached : ∀ option word, argument ≠ attached option word

theorem not_gives_nil : ¬Gives option word [] := nofun

/-- What follows two dashes that stand alone gives nothing. -/
theorem not_gives_dashes : ¬Gives option word ("--" :: rest) := by
  have named : option.long ≠ "" := by cases option <;> decide
  generalize eq : "--" :: rest = args
  intro gives
  cases gives with
  | next =>
      have same := congrArg String.toList (List.cons.inj eq).1
      rw [toList_bare] at same
      exact named (String.toList_inj.mp (List.cons.inj (List.cons.inj same).2).2.symm)
  | attached =>
      have same := congrArg String.toList (List.cons.inj eq).1
      rw [toList_attached] at same
      exact absurd (List.cons.inj (List.cons.inj same).2).2 (by simp)
  | later other _ => exact other (List.cons.inj eq).1.symm

theorem gives_cons (other : argument ≠ "--") :
    Gives option word (argument :: rest) ↔
      argument = attached option word ∨ (argument = bare option ∧ rest.head? = some word) ∨
        Gives option word rest := by
  constructor
  · intro gives
    cases gives with
    | next => exact .inr (.inl ⟨rfl, rfl⟩)
    | attached => exact .inl rfl
    | later _ gives => exact .inr (.inr gives)
  · rintro (rfl | ⟨rfl, next⟩ | gives)
    · exact .attached
    · obtain ⟨more, rfl⟩ := List.head?_eq_some_iff.mp next
      exact .next
    · exact .later other gives

theorem IsApart.gives_cons (apart : IsApart argument) (proceeds : argument ≠ "--") :
    Gives option word (argument :: rest) ↔ Gives option word rest := by
  rw [CommandLine.gives_cons proceeds]
  simp [apart.attached, apart.bare]

theorem gives_attached_cons (proceeds : attached other value ≠ "--") :
    Gives option word (attached other value :: rest) ↔
      (option = other ∧ word = value) ∨ Gives option word rest := by
  rw [gives_cons proceeds, attached_inj]
  simp [bare_ne_attached.symm, eq_comm]

/-- The argument behind an option is its word. -/
theorem gives_bare_cons (proceeds : bare other ≠ "--") :
    Gives option word (bare other :: value :: rest) ↔
      (option = other ∧ word = value) ∨ Gives option word (value :: rest) := by
  rw [gives_cons proceeds, bare_inj]
  simp [bare_ne_attached, eq_comm (a := value)]
  rw [eq_comm (a := other)]

theorem isApart_of_isDashed (plain : isDashed value = false) : IsApart value ∧ value ≠ "--" := by
  refine ⟨⟨?_, ?_⟩, ?_⟩
  · rintro option rfl
    unfold isDashed at plain
    rw [toList_bare] at plain
    cases plain
  · rintro option word rfl
    unfold isDashed at plain
    rw [toList_attached] at plain
    cases plain
  · rintro rfl
    cases plain

/-! ### Words of an invocation -/

/-- The word that an invocation has for an option. -/
def Invocation.word? (i : Invocation) : ValueOption → Option String
  | .config => i.config
  | .corePath => i.corePath
  | .convention => i.convention.map Convention.name
  | .componentExport => i.componentExport.map ComponentExport.name
  | .style => i.style.map StyleMode.name
  | .outDir => i.outDir

theorem set_once {α : Type} {before : Option α} {a : α} {f : Option α → Invocation}
    (run : (do return f (← Invocation.once option before a)) = (.ok i' : Except ArgumentFault Invocation)) :
    before = none ∧ i' = f (some a) := by
  unfold Invocation.once at run
  split at run <;> cases run
  rename_i unset
  exact ⟨Option.not_isSome_iff_eq_none.mp unset, rfl⟩

/-- A choice is set by one of the words for it. -/
theorem set_chosen {α : Type} {read : String → Except UnknownWord α} {before : Option α}
    {f : Option α → Invocation}
    (run : (do
      let choice ← Invocation.chosen option read word
      return f (← Invocation.once option before choice)) = (.ok i' : Except ArgumentFault Invocation)) :
    word ∈ option.words ∧ before = none ∧ ∃ choice, read word = .ok choice ∧ i' = f (some choice) := by
  unfold Invocation.chosen at run
  split at run
  · rename_i known
    refine ⟨List.contains_iff_mem.mp known, ?_⟩
    cases eq : read word with
    | error e =>
        rw [eq] at run
        cases run
    | ok choice =>
        rw [eq] at run
        obtain ⟨unset, set⟩ := set_once run
        exact ⟨unset, choice, rfl, set⟩
  · cases run

theorem name_convention {choice : Convention} (mem : word ∈ ValueOption.convention.words)
    (read : Convention.ofWord word = .ok choice) : choice.name = word := by
  rcases List.mem_pair.mp mem with rfl | rfl <;> cases read <;> rfl

theorem name_componentExport {choice : ComponentExport} (mem : word ∈ ValueOption.componentExport.words)
    (read : ComponentExport.ofWord word = .ok choice) : choice.name = word := by
  rcases List.mem_pair.mp mem with rfl | rfl <;> cases read <;> rfl

theorem name_style {choice : StyleMode} (mem : word ∈ ValueOption.style.words)
    (read : StyleMode.ofWord word = .ok choice) : choice.name = word := by
  rcases List.mem_pair.mp mem with rfl | rfl <;> cases read <;> rfl

/-- An option is set at most once, and to the word that is given. -/
theorem word?_set (run : i.set option word = .ok i') :
    i.word? option = none ∧ ∀ other, i'.word? other = if other = option then some word else i.word? other := by
  unfold Invocation.set at run
  cases option with
  | config | corePath | outDir =>
      obtain ⟨unset, rfl⟩ := set_once run
      exact ⟨unset, fun other => by cases other <;> rfl⟩
  | convention =>
      obtain ⟨mem, unset, choice, read, rfl⟩ := set_chosen run
      refine ⟨Option.map_eq_none_iff.mpr unset, fun other => ?_⟩
      cases other with
      | convention => exact congrArg some (name_convention mem read)
      | _ => rfl
  | componentExport =>
      obtain ⟨mem, unset, choice, read, rfl⟩ := set_chosen run
      refine ⟨Option.map_eq_none_iff.mpr unset, fun other => ?_⟩
      cases other with
      | componentExport => exact congrArg some (name_componentExport mem read)
      | _ => rfl
  | style =>
      obtain ⟨mem, unset, choice, read, rfl⟩ := set_chosen run
      refine ⟨Option.map_eq_none_iff.mpr unset, fun other => ?_⟩
      cases other with
      | style => exact congrArg some (name_style mem read)
      | _ => rfl

/-- An invocation whose option is set has the words from before and the one that it is set to. -/
theorem word?_of_set (run : i.set other value = .ok i') :
    i'.word? option = some word ↔ i.word? option = some word ∨ (option = other ∧ word = value) := by
  obtain ⟨unset, after⟩ := word?_set run
  rw [after]
  split
  · rename_i same
    subst same
    simp [unset, eq_comm]
  · rename_i differ
    simp [differ]

/-! ### Arguments -/

/-- What reading an argument does to the words for the options without a short name. -/
inductive ArgumentStep (i : Invocation) : String → Step → Prop
  | attached {option : ValueOption} {word : String} {i' : Invocation} :
      i.set option word = .ok i' → ArgumentStep i (attached option word) (.next i')
  | bare {option : ValueOption} : ArgumentStep i (bare option) (.wants option i)
  | next {argument : String} {i' : Invocation} : IsApart argument →
      (∀ option, option.short? = none → i'.word? option = i.word? option) →
      ArgumentStep i argument (.next i')
  /-- Options with a short name, by that name. -/
  | wants {argument : String} {option : ValueOption} {i' : Invocation} : IsApart argument →
      option.short?.isSome → (∀ option, option.short? = none → i'.word? option = i.word? option) →
      ArgumentStep i argument (.wants option i')
  | version {argument : String} : ArgumentStep i argument (.stop .showVersion)
  | help {argument : String} : ArgumentStep i argument (.stop .showHelp)

theorem word?_setVerbose (run : i.setVerbose = .ok i') : i'.word? option = i.word? option := by
  unfold Invocation.setVerbose at run
  split at run <;> cases run
  cases option <;> rfl

/-- A text up to an equals sign, and what is behind it. -/
theorem equals_cases (text : List Char) :
    text = text.takeWhile (· != '=') ∧ text.dropWhile (· != '=') = [] ∨
      ∃ more, text = text.takeWhile (· != '=') ++ '=' :: more ∧ text.dropWhile (· != '=') = '=' :: more := by
  have whole : text.takeWhile (· != '=') ++ text.dropWhile (· != '=') = text := List.takeWhile_append_dropWhile
  cases rest : text.dropWhile (· != '=') with
  | nil => exact .inl ⟨by rw [rest, List.append_nil] at whole; exact whole.symm, rfl⟩
  | cons c more =>
      have head := List.head?_dropWhile_not (· != '=') text
      rw [rest] at head
      obtain rfl : c = '=' := by simpa using head
      rw [rest] at whole
      exact .inr ⟨more, whole.symm, rfl⟩

theorem takeWhile_long (more : List Char) :
    (option.long.toList ++ '=' :: more).takeWhile (· != '=') = option.long.toList ∧
      option.long.toList.takeWhile (· != '=') = option.long.toList := by
  have plain : ∀ c ∈ option.long.toList, (c != '=') = true := by
    intro c mem
    rw [bne_iff_ne]
    rintro rfl
    exact option.not_mem_long mem
  refine ⟨?_, by simpa using @List.takeWhile_append_of_pos _ _ _ [] plain⟩
  rw [List.takeWhile_append_of_pos plain]
  simp

section Dashes

variable {text : List Char} (eq : argument.toList = '-' :: '-' :: text)
include eq

/-- With the long name of an option an argument gives its word or asks for it. -/
theorem named_cases (named : ValueOption.ofLong? (String.ofList (text.takeWhile (· != '='))) = some option) :
    argument = bare option ∧ text.dropWhile (· != '=') = [] ∨
      ∃ more, argument = attached option (String.ofList more) ∧ text.dropWhile (· != '=') = '=' :: more := by
  have name := congrArg String.toList (ValueOption.ofLong?_eq_some.mp named)
  rw [String.toList_ofList] at name
  rcases equals_cases text with ⟨whole, behind⟩ | ⟨more, whole, behind⟩
  · refine .inl ⟨?_, behind⟩
    rw [← String.toList_inj, eq, toList_bare, whole, name]
  · refine .inr ⟨more, ?_, behind⟩
    rw [← String.toList_inj, eq, toList_attached, String.toList_ofList, whole, name]

theorem isApart_of_unnamed (named : ValueOption.ofLong? (String.ofList (text.takeWhile (· != '='))) = none) :
    IsApart argument := by
  constructor
  · rintro option rfl
    rw [toList_bare] at eq
    cases eq
    rw [(takeWhile_long []).2, String.ofList_toList, ValueOption.ofLong?_eq_some.mpr rfl] at named
    cases named
  · rintro option word rfl
    rw [toList_attached] at eq
    cases eq
    rw [(takeWhile_long _).1, String.ofList_toList, ValueOption.ofLong?_eq_some.mpr rfl] at named
    cases named

/-- Behind two dashes stands the long name of an option, or nothing that has to do with one. -/
theorem argumentStep_readLong (run : readLong text i = .ok step) : ArgumentStep i argument step := by
  unfold readLong at run
  dsimp only at run
  cases named : ValueOption.ofLong? (String.ofList (text.takeWhile (· != '='))) with
  | some option =>
      rw [named] at run
      rcases named_cases eq named with ⟨rfl, behind⟩ | ⟨more, rfl, behind⟩
      · rw [behind] at run
        cases run
        exact .bare
      · rw [behind] at run
        obtain ⟨i', set, done⟩ := bind_eq_ok_iff.mp run
        cases done
        exact .attached set
  | none =>
      have apart := isApart_of_unnamed eq named
      rw [named] at run
      dsimp only at run
      split at run
      · cases run
      · split at run
        · cases run
        · split at run
          · obtain ⟨i', verbose, done⟩ := bind_eq_ok_iff.mp run
            cases done
            exact .next apart fun option _ => word?_setVerbose verbose
          · split at run
            · cases run
              exact .version
            · cases run
              exact .help

end Dashes

/-- Behind a single dash stand short names, which leave the words for the other options as they are. -/
theorem argumentStep_readShort {text : List Char} (apart : IsApart argument) {i₀ : Invocation}
    (same : ∀ option, option.short? = none → i.word? option = i₀.word? option)
    (run : readShort text i = .ok step) : ArgumentStep i₀ argument step := by
  induction text generalizing i with
  | nil =>
      cases run
      exact .next apart same
  | cons c rest ih =>
      have set (option : ValueOption) (value : String) (named : ValueOption.ofShort? c = some option)
          (run : (do return Step.next (← i.set option value)) = (.ok step : Except ArgumentFault Step)) :
          ArgumentStep i₀ argument step := by
        obtain ⟨i', set, done⟩ := bind_eq_ok_iff.mp run
        cases done
        refine .next apart fun other short => ?_
        rw [(word?_set set).2 other, if_neg, same other short]
        rintro rfl
        rw [ValueOption.short?_of_ofShort? named] at short
        cases short
      unfold readShort at run
      split at run
      · rename_i option named
        cases run
        refine .wants apart ?_ same
        rw [ValueOption.short?_of_ofShort? named]
        rfl
      · rename_i option value named
        exact set option _ named run
      · rename_i named _ _
        exact set _ _ named run
      · split at run
        · obtain ⟨i', verbose, run⟩ := bind_eq_ok_iff.mp run
          exact ih (fun option short => (word?_setVerbose verbose).trans (same option short)) run
        · cases run
          exact .version
        · cases run
          exact .help
        · cases run

theorem argumentStep_readArgument (run : readArgument argument i = .ok step) :
    ArgumentStep i argument step := by
  have apart (one : ∀ text, argument.toList ≠ '-' :: '-' :: text) : IsApart argument := by
    constructor
    · rintro option rfl
      exact one _ toList_bare
    · rintro option word rfl
      exact one _ toList_attached
  unfold readArgument at run
  split at run
  · rename_i text eq
    exact argumentStep_readLong eq run
  · rename_i c rest other eq
    refine argumentStep_readShort (apart fun text eq' => ?_) (fun _ _ => rfl) run
    rw [eq] at eq'
    cases eq'
    exact other rfl
  · rename_i other _
    cases run
    refine .next (apart other) fun option _ => ?_
    cases option <;> rfl

/-! ### All arguments -/

theorem finish_ok (run : i.finish = .ok (.run i')) : i' = i := by
  unfold Invocation.finish at run
  split at run <;> cases run
  rfl

/-- A first argument is read alone or with its word behind it. -/
theorem readArguments_cons (other : argument ≠ "--")
    (run : readArguments (argument :: rest) i = .ok (.run i')) :
    (∃ i₁, ArgumentStep i argument (.next i₁) ∧ readArguments rest i₁ = .ok (.run i')) ∨
      ∃ option word more i₁ i₂, ArgumentStep i argument (.wants option i₁) ∧ rest = word :: more ∧
        isDashed word = false ∧ i₁.set option word = .ok i₂ ∧ readArguments more i₂ = .ok (.run i') := by
  rw [readArguments, if_neg (by simpa using other)] at run
  obtain ⟨step, read, run⟩ := bind_eq_ok_iff.mp run
  have step' := argumentStep_readArgument read
  cases step with
  | next i₁ => exact .inl ⟨i₁, step', run⟩
  | stop request =>
      cases run
      cases step'
  | wants option i₁ =>
      cases rest with
      | nil => cases run
      | cons word more =>
          dsimp only at run
          split at run
          · cases run
          · rename_i plain
            obtain ⟨i₂, set, run⟩ := bind_eq_ok_iff.mp run
            exact .inr ⟨option, word, more, i₁, i₂, step', rfl, Bool.eq_false_iff.mpr plain, set, run⟩

/-- An invocation has the words that it had before and those that the arguments give. -/
theorem word?_readArguments (long : option.short? = none) (args : List String) (i : Invocation)
    (run : readArguments args i = .ok (.run i')) :
    i'.word? option = some word ↔ i.word? option = some word ∨ Gives option word args := by
  -- An option with its word behind it takes two arguments, so the recursion is on how many are left.
  match args with
  | [] =>
      rw [finish_ok run]
      simp [not_gives_nil]
  | argument :: rest =>
      by_cases end' : argument = "--"
      · subst end'
        rw [readArguments, if_pos (by decide)] at run
        rw [finish_ok run]
        have same : Invocation.word? { i with files := i.files ++ rest } option = i.word? option := by
          cases option <;> rfl
        simp [same, not_gives_dashes]
      · rcases readArguments_cons end' run with
          ⟨i₁, step, run⟩ | ⟨taker, value, more, i₁, i₂, step, rfl, plain, set, run⟩
        · rw [word?_readArguments long rest i₁ run]
          cases step with
          | attached set => rw [gives_attached_cons end', word?_of_set set, or_assoc]
          | next apart same => rw [same option long, apart.gives_cons end']
        · obtain ⟨apart', proceeds⟩ := isApart_of_isDashed plain
          rw [word?_readArguments long more i₂ run, word?_of_set set]
          cases step with
          | bare => rw [gives_bare_cons end', apart'.gives_cons proceeds, or_assoc]
          | wants apart short same =>
              have differ : option ≠ taker := by
                rintro rfl
                rw [long] at short
                cases short
              rw [same option long, apart.gives_cons end', apart'.gives_cons proceeds]
              simp [differ]
termination_by args.length

/-- A command that is accepted has for an option the word that its arguments give. -/
theorem word?_ofArguments (long : option.short? = none) (asked : Request.ofArguments args = .ok (.run i)) :
    i.word? option = some word ↔ Gives option word args := by
  have unset : Invocation.word? {} option = none := by cases option <;> rfl
  rw [word?_readArguments long args {} asked, unset]
  simp

end ComponentLowering.CommandLine
