/-
# Results with the same target

A file whose path is absolute or goes upwards is put right into the output directory under its file name, so
different files can be given the same target: a directory is left out of what tells them apart.  Two spellings of one
file share a target as well, but there both have the same result.  Links can lead from one target to another one.

Results whose targets are one file take the place of one another, and which of them is left depends on the order in
which they are written.  Where no links lead from one target to another, these are exactly the results of files that
meet.
-/
import ComponentLowering.Proofs.Batch.InsidePaths
import ComponentLowering.Proofs.CommandLine.Completion

namespace ComponentLowering.CommandLine

open ComponentLowering.Batch ComponentLowering.Lowering ComponentLowering.Report ComponentLowering.Settings
open ComponentLowering.Syntax

variable {σ φ File : Type} {machine : Machine (StateM σ)} {store : σ → φ} {volume : φ → Volume File}
  {v v' : Volume File} {f g : File} {options : Options} {dir a b : String} {inputs files : List String}
  {output output' : Output} {results order : List (String × Output)} {s looked before after : σ}

/-! ### Inputs that are put under the same names -/

/-- Whether an input is put right into the output directory: it is absolute, goes upwards, or lies in the
working directory itself. -/
def IsOnTop (path : String) : Prop := IsDescent path → (spoken path).length = 1

instance : Decidable (IsOnTop a) := inferInstanceAs (Decidable (_ → _))

/-- Whether two inputs of the same file name, at least one of them absolute or with a step upwards, are both
put right into the output directory. -/
structure Meets (a b : String) : Prop where
  flattened : ¬IsDescent a ∨ ¬IsDescent b
  first : IsOnTop a
  second : IsOnTop b
  sameName : fileName? a = fileName? b

/-- Whether two inputs go down along the same names, so that they differ in a dot at the front at most. -/
structure Respells (a b : String) : Prop where
  first : IsDescent a
  second : IsDescent b
  sameNames : spoken a = spoken b

theorem insideNames_of_isOnTop {name : String} (onTop : IsOnTop a) (named : fileName? a = some name) :
    insideNames a = [name.toList] := by
  unfold insideNames
  by_cases descent : IsDescent a
  · obtain ⟨only, eq⟩ := List.length_eq_one_iff.mp (onTop descent)
    have mem := mem_spoken_fileName named
    rw [eq, List.mem_singleton] at mem
    rw [if_pos descent, eq, mem]
  · rw [if_neg descent, named]
    rfl

theorem isOnTop_of_insideNames {name : String} (eq : insideNames a = [name.toList])
    (named : (fileName? a).isSome) : IsOnTop a ∧ fileName? a = some name := by
  obtain ⟨own, named⟩ := Option.isSome_iff_exists.mp named
  unfold insideNames at eq
  by_cases descent : IsDescent a
  · rw [if_pos descent] at eq
    have mem := mem_spoken_fileName named
    rw [eq, List.mem_singleton, String.toList_inj] at mem
    exact ⟨fun _ => by rw [eq]; rfl, by rw [named, mem]⟩
  · rw [if_neg descent, named] at eq
    have same : own.toList = name.toList := List.singleton_inj.mp eq
    exact ⟨fun h => absurd h descent, by rw [named, String.toList_inj.mp same]⟩

/-- Inputs are put under the same names exactly if they meet or are spellings of the same names. -/
theorem insideNames_eq_iff (named : (fileName? a).isSome) (named' : (fileName? b).isSome) :
    insideNames a = insideNames b ↔ Meets a b ∨ Respells a b := by
  constructor
  · intro same
    by_cases first : IsDescent a
    · by_cases second : IsDescent b
      · rw [insideNames, insideNames, if_pos first, if_pos second] at same
        exact .inr ⟨first, second, same⟩
      · obtain ⟨name, eq⟩ := Option.isSome_iff_exists.mp named'
        have onTop : IsOnTop b := fun h => absurd h second
        rw [insideNames_of_isOnTop onTop eq] at same
        obtain ⟨onTop', eq'⟩ := isOnTop_of_insideNames same named
        exact .inl ⟨.inr second, onTop', onTop, eq'.trans eq.symm⟩
    · obtain ⟨name, eq⟩ := Option.isSome_iff_exists.mp named
      have onTop : IsOnTop a := fun h => absurd h first
      rw [insideNames_of_isOnTop onTop eq] at same
      obtain ⟨onTop', eq'⟩ := isOnTop_of_insideNames same.symm named'
      exact .inl ⟨.inl first, onTop, onTop', eq.trans eq'.symm⟩
  · rintro (meets | respells)
    · obtain ⟨name, eq⟩ := Option.isSome_iff_exists.mp named
      rw [insideNames_of_isOnTop meets.first eq,
        insideNames_of_isOnTop meets.second (meets.sameName ▸ eq)]
    · rw [insideNames, insideNames, if_pos respells.first, if_pos respells.second, respells.sameNames]

/-- Inputs have the same target exactly if they are put under the same names, behind the same dot if the
output directory has no text. -/
theorem samePath_outputPath_iff (dir : String) (named : (fileName? a).isSome)
    (named' : (fileName? b).isSome) :
    samePath (outputPath dir a) (outputPath dir b) = true ↔
      (Meets a b ∨ Respells a b) ∧ keptDot dir a = keptDot dir b := by
  rw [← insideNames_eq_iff named named', samePath, beq_iff_eq, parts_outputPath dir named,
    parts_outputPath dir named', List.append_cancel_left_eq, insideParts_eq_iff]

/-! ### One file under two paths -/

/-- Targets of inputs that are put under the same names differ in a dot at the front at most. -/
theorem sameButDot_outputPath (dir : String) (named : (fileName? a).isSome) (named' : (fileName? b).isSome)
    (same : insideNames a = insideNames b) : SameButDot (outputPath dir a) (outputPath dir b) where
  absolute := by rw [isAbsolute_outputPath dir named, isAbsolute_outputPath dir named']
  spoken := by rw [spoken_outputPath dir named, spoken_outputPath dir named', same]

theorem Respells.sameButDot (h : Respells a b) : SameButDot a b :=
  ⟨by rw [h.first.relative, h.second.relative], h.sameNames⟩

/-- Paths of files that differ in a dot at the front lead to one file. -/
theorem file?_eq_of_sameButDot (sound : v.IsSound) (isFile : (v.file? a).isSome) (isFile' : (v.file? b).isSome)
    (same : SameButDot a b) : v.file? a = v.file? b := by
  obtain ⟨f, leads⟩ := Option.isSome_iff_exists.mp isFile
  obtain ⟨g, leads'⟩ := Option.isSome_iff_exists.mp isFile'
  rw [leads, leads', sound.spelled a b f g same leads leads']

theorem ofPath_congr (same : spoken a = spoken b) : Dialect.ofPath a = Dialect.ofPath b := by
  have name (path : String) : Dialect.fileName path.toList = (spoken path).getLastD [] := by
    unfold Dialect.fileName spoken segments isSilent
    simp [bne]
  unfold Dialect.ofPath
  rw [name, name, same]

/-- The path of a module only tells the dialect that the module is read in. -/
theorem runLowering_congr {source : String} (same : Dialect.ofPath a = Dialect.ofPath b)
    (ok : (runLowering options a source).1 = .ok output) :
    (runLowering options b source).1 = .ok output := by
  unfold runLowering lowerText at *
  rw [← same]
  cases read : Module.read (Dialect.ofPath a) source.toList with
  | error e =>
      rw [read] at ok
      cases ok
  | ok m =>
      rw [read] at ok
      exact ok

/-- Spellings of one file have the same result. -/
theorem Respells.lowersTo (respells : Respells a b) (sound : v.IsSound) (isFile : (v.file? a).isSome)
    (isFile' : (v.file? b).isSome) (lowers : LowersTo v.seen options a output)
    (lowers' : LowersTo v.seen options b output') : output = output' := by
  obtain ⟨source, reads, ok⟩ := lowers
  obtain ⟨source', reads', ok'⟩ := lowers'
  obtain ⟨f, leads⟩ := Option.isSome_iff_exists.mp isFile
  have leads' := (file?_eq_of_sameButDot sound isFile isFile' respells.sameButDot).symm.trans leads
  have content := sound.read b f source' leads' reads'
  rw [sound.read a f source leads reads] at content
  obtain rfl := toUTF8_inj content
  have ok := runLowering_congr (ofPath_congr respells.sameNames) ok
  exact Except.ok.inj (ok.symm.trans ok')

/-! ### Results that are written -/

/-- Whether results of inputs that meet have the same code. -/
def AgreeWhereTheyMeet (results : List (String × Output)) : Prop :=
  ∀ r ∈ results, ∀ r' ∈ results, Meets r.1 r'.1 → r.2.code = r'.2.code

/-- Whether no links lead from one target to another one: the targets are regular files, and one file only if the
inputs are put under the same names. -/
structure AreUnlinked (v : Volume File) (dir : String) (results : List (String × Output)) : Prop where
  areFiles : ∀ r ∈ results, (v.file? (outputPath dir r.1)).isSome
  apart : ∀ r ∈ results, ∀ r' ∈ results, v.file? (outputPath dir r.1) = v.file? (outputPath dir r'.1) →
    Meets r.1 r'.1 ∨ Respells r.1 r'.1

/-- Without links results with one file are those of inputs that meet, and spellings of one file. -/
theorem AreUnlinked.agreeOnFiles_iff (h : AreUnlinked v dir results) (sound : v.IsSound)
    (named : ∀ r ∈ results, (fileName? r.1).isSome)
    (respelled : ∀ r ∈ results, ∀ r' ∈ results, Respells r.1 r'.1 → r.2 = r'.2) :
    AgreeOnFiles v dir results ↔ AgreeWhereTheyMeet results := by
  constructor
  · intro agree r mem r' mem' meets
    have names := (insideNames_eq_iff (named r mem) (named r' mem')).mpr (.inl meets)
    have same := sameButDot_outputPath dir (named r mem) (named r' mem') names
    exact agree.agree r mem r' mem' (file?_eq_of_sameButDot sound (h.areFiles r mem) (h.areFiles r' mem') same)
  · refine fun agree => ⟨h.areFiles, fun r mem r' mem' same => ?_⟩
    rcases h.apart r mem r' mem' same with meets | respells
    · exact agree r mem r' mem' meets
    · rw [respelled r mem r' mem' respells]

/-- When the targets of results that were written hold their own. -/
structure KeepsOwn (v : Volume File) (dir : String) (results : List (String × Output)) : Prop where
  files : HoldOwn v dir results ↔ AgreeOnFiles v dir results
  unlinked : AreUnlinked v dir results → (HoldOwn v dir results ↔ AgreeWhereTheyMeet results)

/-! ### Runs -/

/-- Which files of a run share a target, and when each target is left with its own result.  The files are lowered in
a state, where `volumeIn` gives what there is on the file system. -/
structure SharesTargets (machine : Machine (StateM σ)) (volumeIn : σ → Volume File) (options : Options)
    (dir : String) (files : List String) (looked : σ) : Prop where
  /-- No path comes twice. -/
  differ : files.Pairwise fun a b => samePath a b = false
  /-- The targets of two files are the same path exactly if the files meet or are spelled alike but for a dot at the
  front; where the output directory has no text, such a dot stays and has to be the same. -/
  targets : ∀ a ∈ files, ∀ b ∈ files, samePath (outputPath dir a) (outputPath dir b) = true ↔
    (Meets a b ∨ Respells a b) ∧ keptDot dir a = keptDot dir b
  /-- Files that are spelled alike are one file. -/
  respelled : ∀ a ∈ files, ∀ b ∈ files, Respells a b → (volumeIn looked).file? a = (volumeIn looked).file? b
  /-- Targets of files that meet or are spelled alike are one file, if they are files. -/
  oneFile : ∀ a ∈ files, ∀ b ∈ files, Meets a b ∨ Respells a b → ∀ s f g,
    (volumeIn s).file? (outputPath dir a) = some f → (volumeIn s).file? (outputPath dir b) = some g → f = g
  /-- The results are written. -/
  written : ∀ before targets after,
    (writeOutputs machine dir (files.map (outcomeOn (volumeIn looked).seen options))).run.run before =
      (.ok targets, after) →
    KeepsOwn (volumeIn after) dir (resultsOn (volumeIn looked).seen options files)
  /-- It is the same in any other order. -/
  reordered : ∀ order, order.Perm (resultsOn (volumeIn looked).seen options files) → ∀ before targets after,
    (order.mapM fun r => writeOutput machine dir r.1 r.2).run.run before = (.ok targets, after) →
    KeepsOwn (volumeIn after) dir order

/-- After results were written, in whatever order, their targets hold their own exactly if results with one file
have the same code. -/
theorem keepsOwn_mapM (system : IsFileSystem machine store volume) (sound : v.IsSound)
    (areFiles : ∀ path ∈ files, (v.file? path).isSome) (reordered : order.Perm (resultsOn v.seen options files))
    {targets : List String}
    (run : (order.mapM fun r => writeOutput machine dir r.1 r.2).run.run before = (.ok targets, after)) :
    KeepsOwn (volume (store after)) dir order := by
  have wrote := system.wroteAll_mapM run
  have isResult (r : String × Output) (mem : r ∈ order) : r.1 ∈ files ∧ LowersTo v.seen options r.1 r.2 :=
    mem_resultsOn.mp (reordered.subset mem)
  refine ⟨wrote.holdOwn_iff, fun unlinked => wrote.holdOwn_iff.trans ?_⟩
  refine unlinked.agreeOnFiles_iff (system.sound _) (fun r mem => ?named) fun r mem r' mem' respells => ?respelled
  case named => exact sound.named r.1 (areFiles r.1 (isResult r mem).1)
  case respelled =>
    obtain ⟨isFile, lowers⟩ := isResult r mem
    obtain ⟨isFile', lowers'⟩ := isResult r' mem'
    exact respells.lowersTo sound (areFiles _ isFile) (areFiles _ isFile') lowers lowers'

/-- The files that inputs lead to share a target exactly where they meet or are the same file, and each target is
left with its own result exactly if those with the same file have the same one. -/
theorem expandInputs_sharesTargets (system : IsFileSystem machine store volume)
    (found : (expandInputs machine inputs).run.run looked = (.ok files, after)) (options : Options)
    (dir : String) : SharesTargets machine (fun s => volume (store s)) options dir files looked := by
  have found : filesOn (volume (store looked)).seen inputs = .ok files := by
    obtain ⟨_, run, -⟩ := system.seen.agrees_expandInputs (store looked) inputs looked rfl
    rw [found] at run
    exact (Prod.mk.inj run).1.symm
  have sound := system.sound (store looked)
  have areFiles := isSome_file? sound found
  have named : ∀ path ∈ files, (fileName? path).isSome := fun path mem => sound.named path (areFiles path mem)
  refine ⟨(pairwise_filesOn found).imp IsBefore.differ, fun a mem b mem' => ?targets,
    fun a mem b mem' respells => ?respelled, fun a mem b mem' names s f g leads leads' => ?oneFile,
    fun before targets after run => ?written, fun order reordered before targets after run => ?reordered⟩
  case targets => exact samePath_outputPath_iff dir (named a mem) (named b mem')
  case respelled =>
    exact file?_eq_of_sameButDot sound (areFiles a mem) (areFiles b mem') respells.sameButDot
  case oneFile =>
    have same := (insideNames_eq_iff (named a mem) (named b mem')).mpr names
    exact (system.sound _).spelled _ _ f g (sameButDot_outputPath dir (named a mem) (named b mem') same) leads leads'
  case written => exact keepsOwn_mapM system sound areFiles (List.Perm.refl _) run
  case reordered => exact keepsOwn_mapM system sound areFiles reordered run

/-- On a tree there are no links, so its targets are one file only if the inputs are put under the same names. -/
theorem areUnlinked_of_wroteAll {t t' : FileTree} (wrote : WroteAll dir results t.volume t'.volume)
    (named : ∀ r ∈ results, (fileName? r.1).isSome) : AreUnlinked t'.volume dir results where
  areFiles := fun r mem => FileTree.isSome_of_isWritten (wrote.there r mem)
  apart := fun r mem r' mem' same => by
    have there := FileTree.isSome_of_isWritten (wrote.there r' mem')
    rw [← insideNames_eq_iff (named r mem) (named r' mem')]
    exact FileTree.insideNames_eq_of_file? (named r mem) (named r' mem') there same

/-- Results that were written on a tree are left in their targets exactly if those of files that meet have the same
code. -/
theorem holdOwn_iff_agreeWhereTheyMeet {t before after : FileTree} {targets : List String}
    (found : filesOn t.seen inputs = .ok files)
    (run : (writeOutputs FileTree.machine dir (files.map (outcomeOn t.seen options))).run.run before =
      (.ok targets, after)) :
    HoldOwn after.volume dir (resultsOn t.seen options files) ↔
      AgreeWhereTheyMeet (resultsOn t.seen options files) := by
  have sound := FileTree.isSound_volume t
  have wrote : WroteAll dir (resultsOn t.seen options files) before.volume after.volume :=
    FileTree.isFileSystem.wroteAll_mapM run
  have keeps := keepsOwn_mapM FileTree.isFileSystem sound (isSome_file? sound found) (List.Perm.refl _) run
  exact keeps.unlinked (areUnlinked_of_wroteAll wrote (isSome_fileName sound options found))

/-! ### Two files of one name -/

/-- The inputs name each file once, the second one along a step upwards. -/
def twoNames : List String := ["a.ts", "d/../d/a.ts"]

theorem filesOn_twoNames : filesOn sameNames.seen twoNames = .ok twoNames := by
  have names : (twoNames.mapM fun input => answer (filesOf sameNames.seen input)) =
      .ok [["a.ts"], ["d/../d/a.ts"]] := by decide +kernel
  exact filesOn_of_pairwise names (by decide +kernel)

theorem run_expandInputs_twoNames :
    (expandInputs FileTree.machine twoNames).run.run sameNames = (.ok twoNames, sameNames) := by
  obtain ⟨after, run, same⟩ := FileTree.isFileSystem.seen.agrees_expandInputs sameNames twoNames sameNames rfl
  obtain rfl : after = sameNames := same
  rw [run]
  exact congrArg (·, sameNames) filesOn_twoNames

theorem exists_run_twoNames : ∃ targets t',
    (writeOutputs FileTree.machine "out" (twoNames.map (outcomeOn sameNames.seen {}))).run.run sameNames =
      (.ok targets, t') := by
  have writes : WritesAll FileTree.machine { files := twoNames, outDir := some "out" }
      (twoNames.map (outcomeOn sameNames.seen {})) sameNames := writesAll_of_isOk rfl (by decide +kernel)
  exact writes "out" rfl

/-- The command writes both results, so what is said of the files of a run applies. -/
theorem twoNames_sharesTargets :
    (expandInputs FileTree.machine twoNames).run.run sameNames = (.ok twoNames, sameNames) ∧
      (∃ targets t',
        (writeOutputs FileTree.machine "out" (twoNames.map (outcomeOn sameNames.seen {}))).run.run sameNames =
          (.ok targets, t')) ∧
      SharesTargets FileTree.machine FileTree.volume {} "out" twoNames sameNames :=
  ⟨run_expandInputs_twoNames, exists_run_twoNames,
    expandInputs_sharesTargets FileTree.isFileSystem run_expandInputs_twoNames {} "out"⟩

/-- The two files are different, but their targets are the same path: one result takes the place of the other. -/
theorem twoNames_overwrites :
    (expandInputs FileTree.machine twoNames).run.run sameNames = (.ok twoNames, sameNames) ∧
      samePath "a.ts" "d/../d/a.ts" = false ∧
      samePath (outputPath "out" "a.ts") (outputPath "out" "d/../d/a.ts") = true ∧
      ∃ targets t',
        (writeOutputs FileTree.machine "out" (twoNames.map (outcomeOn sameNames.seen {}))).run.run sameNames =
            (.ok targets, t') ∧
          ¬HoldOwn t'.volume "out" (resultsOn sameNames.seen {} twoNames) := by
  obtain ⟨targets, t', run⟩ := exists_run_twoNames
  refine ⟨run_expandInputs_twoNames, by decide, by decide, targets, t', run, fun own => ?_⟩
  obtain ⟨output, lowers, code⟩ : ∃ output, LowersTo sameNames.seen {} "a.ts" output ∧
      output.code = "let a = 1;" := exists_lowersTo_code (by decide +kernel)
  obtain ⟨output', lowers', code'⟩ : ∃ output, LowersTo sameNames.seen {} "d/../d/a.ts" output ∧
      output.code = "let b = 2;" := exists_lowersTo_code (by decide +kernel)
  have meets : Meets "a.ts" "d/../d/a.ts" := ⟨.inr (by decide), by decide, by decide, by decide⟩
  have same := (holdOwn_iff_agreeWhereTheyMeet filesOn_twoNames run).mp own
    ("a.ts", output) (mem_resultsOn.mpr ⟨by simp [twoNames], lowers⟩)
    ("d/../d/a.ts", output') (mem_resultsOn.mpr ⟨by simp [twoNames], lowers'⟩) meets
  rw [code, code'] at same
  exact absurd same (by decide)

end ComponentLowering.CommandLine
