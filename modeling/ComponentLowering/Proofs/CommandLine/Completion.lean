/-
# How commands end

A command lowers each of its files on its own and then shows or writes the results, so what goes wrong with a file
takes nothing away from the others, and the exit code tells whether anything went wrong.  That is so on any machine.
On a file system the files are lowered as they are when the command is given, and a command without options or files
leaves nothing behind.

A result that is written is left in its target if that is a regular file of its own.  Different output paths alone do
not see to that: where the output directory has no text, they can differ in a dot at the front, and links can lead
from one to the other.  Which results are there after a write that failed is not claimed.
-/
import ComponentLowering.CommandLine.Run
import ComponentLowering.Proofs.Batch.Expansion
import ComponentLowering.Proofs.Batch.TreeTargets

namespace ComponentLowering.CommandLine

open ComponentLowering.Batch ComponentLowering.Lowering ComponentLowering.Report ComponentLowering.Settings

variable {σ φ File : Type} {machine : Machine (StateM σ)} {v : Snapshot} {i : Invocation} {options : Options}
  {files arguments : List String} {path dir : String} {output : Output} {outcomes : List Outcome}
  {results : List (String × Output)} {result : Result} {s looked s' : σ}

/-! ### Outcomes -/

/-- The result of an outcome, if it has one. -/
def result? (o : Outcome) : Option (String × Output) := o.result.toOption.map fun output => (o.path, output)

theorem result?_eq_some {o : Outcome} : result? o = some (path, output) ↔
    o.path = path ∧ o.result = .ok output := by
  unfold result?
  cases o.result <;> simp [Except.toOption]

/-- The text that shows a result. -/
def shownResult (headed : Bool) (r : String × Output) : String :=
  (if headed then "// " ++ r.1 ++ "\n" else "") ++ r.2.code ++ "\n"

theorem shownCode_eq (outcomes : List Outcome) :
    shownCode outcomes =
      String.join ((outcomes.filterMap result?).map (shownResult (outcomes.length > 1))) := by
  unfold shownCode
  generalize outcomes.length = total
  induction outcomes with
  | nil => rfl
  | cons o rest ih =>
      rw [List.map_cons, String.join_cons, ih, List.filterMap_cons]
      obtain ⟨path, failure | output⟩ := o
      · exact String.empty_append
      · change _ = String.join (List.map (shownResult (total > 1)) ((path, output) :: _))
        rw [List.map_cons, String.join_cons, shownResult]
        simp only [decide_eq_true_eq]

/-- Whether an outcome is a result without an error. -/
def IsFine (o : Outcome) : Prop :=
  ∃ output, o.result = .ok output ∧ ∀ d ∈ output.report.diagnostics, d.category ≠ .error

theorem isFailed_eq_false {o : Outcome} : isFailed o = false ↔ IsFine o := by
  unfold isFailed IsFine
  cases o.result with
  | error failure => simp
  | ok output => simp [LoweringReport.hasErrors, Diagnostic.isError]

theorem any_isFailed : outcomes.any isFailed = false ↔ ∀ o ∈ outcomes, IsFine o := by
  simp only [← isFailed_eq_false, List.any_eq_false, Bool.not_eq_true]

instance (o : Outcome) : Decidable (IsFine o) := decidable_of_iff _ isFailed_eq_false

/-! ### Commands on any machine -/

/-- Whether an exit code tells that a condition holds, with 0, or that it does not, with 1. -/
def Tells (exit : Nat) (fine : Prop) : Prop := fine ∧ exit = 0 ∨ ¬fine ∧ exit = 1

theorem Tells.eq_zero {exit : Nat} {fine : Prop} (h : Tells exit fine) (holds : fine) : exit = 0 :=
  (h.resolve_right fun other => other.1 holds).2

theorem Tells.eq_one {exit : Nat} {fine : Prop} (h : Tells exit fine) (fails : ¬fine) : exit = 1 :=
  (h.resolve_left fun other => fails other.1).2

/-- Whether the results are written without a failure, if they are to be written. -/
def WritesAll (machine : Machine (StateM σ)) (i : Invocation) (outcomes : List Outcome) (s : σ) : Prop :=
  ∀ dir, i.outDir = some dir →
    ∃ targets s', (writeOutputs machine dir outcomes).run.run s = (.ok targets, s')

/-- How a command ends that has lowered its files. -/
structure Concludes (machine : Machine (StateM σ)) (i : Invocation) (outcomes : List Outcome) (s : σ)
    (result : Result) (s' : σ) : Prop where
  /-- It succeeds exactly if nothing went wrong. -/
  exit : Tells result.exit ((∀ o ∈ outcomes, IsFine o) ∧ WritesAll machine i outcomes s)
  /-- Without an output directory all results are shown, and nothing else is done. -/
  shown : i.outDir = none → s' = s ∧
    result.output = String.join ((outcomes.filterMap result?).map (shownResult (outcomes.length > 1)))
  /-- With an output directory nothing is shown, and the results are written. -/
  written : ∀ dir, i.outDir = some dir →
    result.output = "" ∧ s' = ((writeOutputs machine dir outcomes).run.run s).2

theorem writesAll_shown (there : i.outDir = none) : WritesAll machine i outcomes s := by
  intro dir there'
  rw [there] at there'
  cases there'

theorem writesAll_written (there : i.outDir = some dir) :
    WritesAll machine i outcomes s ↔
      ∃ targets s', (writeOutputs machine dir outcomes).run.run s = (.ok targets, s') := by
  refine ⟨fun h => h dir there, fun writes dir' there' => ?_⟩
  rw [there] at there'
  cases there'
  exact writes

/-- The exit code of a command, if the results are written in case they are to be. -/
theorem tells_isFailed (writes : WritesAll machine i outcomes s) :
    Tells (if outcomes.any isFailed then 1 else 0)
      ((∀ o ∈ outcomes, IsFine o) ∧ WritesAll machine i outcomes s) := by
  unfold Tells
  rw [and_iff_left writes, ← any_isFailed]
  cases outcomes.any isFailed <;> simp

/-- With an output directory nothing is shown, whatever becomes of the writes. -/
theorem Concludes.of_outDir (there : i.outDir = some dir)
    (exit : Tells result.exit ((∀ o ∈ outcomes, IsFine o) ∧ WritesAll machine i outcomes s))
    (silent : result.output = "") (left : s' = ((writeOutputs machine dir outcomes).run.run s).2) :
    Concludes machine i outcomes s result s' where
  exit := exit
  shown := fun none => by
    rw [there] at none
    cases none
  written := fun dir' there' => by
    rw [there] at there'
    cases there'
    exact ⟨silent, left⟩

/-- A command lowers its files as it reads them. -/
theorem compile_concludes (machine : Machine (StateM σ)) (i : Invocation) (options : Options)
    (files : List String) (s : σ) :
    Concludes machine i (outcomesOf options files ((readAll machine files).run s).1)
      ((readAll machine files).run s).2 ((compile machine i options files).run s).1
      ((compile machine i options files).run s).2 := by
  obtain ⟨log, run⟩ := run_transformFiles machine options files s
  unfold compile
  rw [run_bind_of run]
  generalize outcomesOf options files ((readAll machine files).run s).1 = outcomes
  generalize ((readAll machine files).run s).2 = looked
  cases there : i.outDir with
  | none =>
      refine ⟨tells_isFailed (writesAll_shown there), fun _ => ⟨rfl, shownCode_eq _⟩, fun dir there' => ?_⟩
      rw [there] at there'
      cases there'
  | some dir =>
      dsimp only
      rcases run : StateT.run (writeOutputs machine dir outcomes) looked with ⟨obstacle | targets, s'⟩
      · have writes : (writeOutputs machine dir outcomes).run.run looked = (.error obstacle, s') := run
        have stuck : ¬WritesAll machine i outcomes looked := by
          rw [writesAll_written there, writes]
          rintro ⟨targets, s', eq⟩
          cases eq
        rw [run_bind_of run]
        exact .of_outDir there (.inr ⟨fun h => stuck h.2, rfl⟩) rfl (by rw [writes]; rfl)
      · have writes : (writeOutputs machine dir outcomes).run.run looked = (.ok targets, s') := run
        rw [run_bind_of run]
        exact .of_outDir there (tells_isFailed ((writesAll_written there).mpr ⟨targets, s', writes⟩)) rfl
          (by rw [writes]; rfl)

/-- The options and the files that an invocation starts with, or why it does not start. -/
def starting (machine : Machine (StateM σ)) (i : Invocation) :
    StateM σ (Except String (Options × List String)) := do
  match ← resolveOptions machine i with
  | .error message => return .error message
  | .ok options =>
    match ← expandInputs machine i.files with
    | .error obstacle => return .error obstacle.display
    | .ok [] => return .error "no input files matched"
    | .ok files => return .ok (options, files)

/-- An invocation goes on from where it started, or stops there. -/
theorem run_invoke (machine : Machine (StateM σ)) (i : Invocation) (s : σ) :
    (∃ message between, (starting machine i).run s = (.error message, between) ∧
        (invoke machine i).run s = (.stopped [] message, between)) ∨
      ∃ options files between, (starting machine i).run s = (.ok (options, files), between) ∧
        (invoke machine i).run s = (compile machine i options files).run between := by
  unfold starting invoke
  rcases resolved : StateT.run (resolveOptions machine i) s with ⟨message | options, resolving⟩
  · rw [run_bind_of resolved, run_bind_of resolved]
    exact .inl ⟨message, resolving, rfl, rfl⟩
  · rw [run_bind_of resolved, run_bind_of resolved]
    dsimp only
    rcases found : StateT.run (expandInputs machine i.files) resolving with ⟨obstacle | files, between⟩
    · rw [run_bind_of found, run_bind_of found]
      exact .inl ⟨obstacle.display, between, rfl, rfl⟩
    · rw [run_bind_of found, run_bind_of found]
      cases files with
      | nil => exact .inl ⟨_, between, rfl, rfl⟩
      | cons file rest => exact .inr ⟨options, file :: rest, between, rfl, rfl⟩

/-- A command that starts lowers all its files; any other one fails and shows nothing. -/
theorem run_concludes (asked : Request.ofArguments arguments = .ok (.run i)) (machine : Machine (StateM σ))
    (s : σ) :
    (∃ message between, (starting machine i).run s = (.error message, between) ∧
        (run machine arguments).run s = (.stopped [] message, between)) ∨
      ∃ options files between, (starting machine i).run s = (.ok (options, files), between) ∧
        Concludes machine i (outcomesOf options files ((readAll machine files).run between).1)
          ((readAll machine files).run between).2 ((run machine arguments).run s).1
          ((run machine arguments).run s).2 := by
  unfold run
  rw [asked]
  dsimp only
  rcases run_invoke machine i s with ⟨message, between, stopped, eq⟩ | ⟨options, files, between, started, eq⟩
  · exact .inl ⟨message, between, stopped, eq⟩
  · rw [eq]
    exact .inr ⟨options, files, between, started, compile_concludes machine i options files between⟩

/-! ### Results on a snapshot -/

/-- Whether a file of a snapshot is lowered to an output, on its own. -/
def LowersTo (v : Snapshot) (options : Options) (path : String) (output : Output) : Prop :=
  ∃ source, (v.read path).run = .ok source ∧ (runLowering options path source).1 = .ok output

theorem mapError_ok {α ε ε' : Type} {x : Except ε α} {f : ε → ε'} {a : α} :
    x.mapError f = .ok a ↔ x = .ok a := by
  cases x <;> simp [Except.mapError]

theorem outcomeOn_ok : (outcomeOn v options path).result = .ok output ↔ LowersTo v options path output := by
  unfold outcomeOn outcomeOf LowersTo
  cases (v.read path).run with
  | error fault => simp
  | ok source => simp [mapError_ok]

theorem result?_outcomeOn {other : String} : result? (outcomeOn v options other) = some (path, output) ↔
    other = path ∧ LowersTo v options path output := by
  rw [result?_eq_some, ← outcomeOn_ok]
  exact and_congr_right fun same : other = path => by rw [same]

/-- The results of some files of a snapshot. -/
def resultsOn (v : Snapshot) (options : Options) (files : List String) : List (String × Output) :=
  (files.map (outcomeOn v options)).filterMap result?

theorem mem_resultsOn :
    (path, output) ∈ resultsOn v options files ↔ path ∈ files ∧ LowersTo v options path output := by
  unfold resultsOn
  simp only [List.mem_filterMap, List.mem_map, exists_exists_and_eq_and, result?_outcomeOn]
  constructor
  · rintro ⟨other, mem, rfl, lowers⟩
    exact ⟨mem, lowers⟩
  · rintro ⟨mem, lowers⟩
    exact ⟨path, mem, rfl, lowers⟩

/-- Results are related in the way of their files. -/
theorem pairwise_resultsOn {r : String → String → Prop} (related : files.Pairwise r) :
    (resultsOn v options files).Pairwise fun a b => r a.1 b.1 := by
  unfold resultsOn
  rw [List.pairwise_filterMap, List.pairwise_map]
  refine related.imp fun here => ?_
  rintro ⟨path, output⟩ first ⟨path', output'⟩ second
  rwa [← (result?_outcomeOn.mp first).1, ← (result?_outcomeOn.mp second).1]

/-- Whether all files are lowered without an error. -/
def AllLower (v : Snapshot) (options : Options) (files : List String) : Prop :=
  ∀ path ∈ files, ∃ output, LowersTo v options path output ∧
    ∀ d ∈ output.report.diagnostics, d.category ≠ .error

theorem forall_isFine :
    (∀ o ∈ files.map (outcomeOn v options), IsFine o) ↔ AllLower v options files := by
  rw [List.forall_mem_map]
  simp only [AllLower, IsFine, outcomeOn_ok]

/-- Whether an invocation has options and files to start with.  An input that leads to no file keeps it from
starting, whatever the others lead to. -/
structure Starts (v : Snapshot) (i : Invocation) (options : Options) (files : List String) : Prop where
  resolved : answer (resolveOptions v i) = .ok options
  found : filesOn v i.files = .ok files
  nonempty : files ≠ []

theorem isSome_file? {w : Volume File} {inputs : List String} (sound : w.IsSound)
    (found : filesOn w.seen inputs = .ok files) : ∀ path ∈ files, (w.file? path).isSome :=
  fun path mem => (sound.kind path).mp (hasFile_of_filesOn found path mem)

/-- The results of a run are those of files with names. -/
theorem isSome_fileName {w : Volume File} {inputs : List String} (sound : w.IsSound) (options : Options)
    (found : filesOn w.seen inputs = .ok files) :
    ∀ r ∈ resultsOn w.seen options files, (fileName? r.1).isSome :=
  fun _ mem => sound.named _ (isSome_file? sound found _ (mem_resultsOn.mp mem).1)

/-! ### Commands on file systems -/

section FileSystems

variable {store : σ → φ} {seen : φ → Snapshot}

theorem agrees_mk {α ε : Type} {question : StateM σ (Except ε α)} {answers : φ → Except ε α} {y : ExceptT ε Id α}
    {stored : φ} (h : IsAnswered store question answers) (same : answer y = answers stored) :
    Agrees store stored (ExceptT.mk question) y := by
  intro s here
  obtain ⟨eq, kept⟩ := h s
  refine ⟨(question.run s).2, ?_, kept.trans here⟩
  rw [same, ← here, ← eq]
  rfl

theorem agrees_resolveOptions (h : CanBeSeen machine store seen) (stored : φ) (i : Invocation) :
    Agrees store stored (resolveOptions machine i) (resolveOptions (seen stored) i) := by
  unfold resolveOptions
  split
  · exact agrees_pure _
  · rename_i path _
    refine (agrees_mk (h.read path) rfl).bind fun text => ?_
    exact Agrees.bind (fun s here => ⟨s, rfl, here⟩) fun config => agrees_pure _

/-- What an invocation starts with is what there is on the snapshot of the machine. -/
theorem run_starting (h : CanBeSeen machine store seen) (i : Invocation) (s : σ) :
    store ((starting machine i).run s).2 = store s ∧ ∀ options files,
      ((starting machine i).run s).1 = .ok (options, files) ↔ Starts (seen (store s)) i options files := by
  obtain ⟨resolving, resolved, kept⟩ := agrees_resolveOptions h (store s) i s rfl
  have resolved : StateT.run (resolveOptions machine i) s = _ := resolved
  unfold starting
  rw [run_bind_of resolved]
  cases set : answer (resolveOptions (seen (store s)) i) with
  | error message =>
      refine ⟨kept, fun options' files => ⟨nofun, fun starts => ?_⟩⟩
      rw [starts.resolved] at set
      cases set
  | ok options =>
      dsimp only
      obtain ⟨between, found, kept'⟩ := h.agrees_expandInputs (store s) i.files resolving kept
      have found : StateT.run (expandInputs machine i.files) resolving =
        (filesOn (seen (store s)) i.files, between) := found
      rw [run_bind_of found]
      cases named : filesOn (seen (store s)) i.files with
      | error obstacle =>
          refine ⟨kept', fun options' files' => ⟨nofun, fun starts => ?_⟩⟩
          rw [starts.found] at named
          cases named
      | ok files =>
          cases files with
          | nil =>
              refine ⟨kept', fun options' files' => ⟨nofun, fun starts => ?_⟩⟩
              have none := starts.found
              rw [named] at none
              exact absurd (Except.ok.inj none).symm starts.nonempty
          | cons file rest =>
              refine ⟨kept', fun options' files' => ⟨fun eq => ?_, fun starts => ?_⟩⟩
              · obtain ⟨rfl, rfl⟩ := Prod.mk.inj (Except.ok.inj eq)
                exact ⟨set, named, List.cons_ne_nil _ _⟩
              · have same := set.symm.trans starts.resolved
                have same' := named.symm.trans starts.found
                cases same
                cases same'
                rfl

end FileSystems

/-- Whether nothing goes wrong: all files are lowered without an error and the results, if they are to be written,
are written without a failure. -/
structure GoesThrough (machine : Machine (StateM σ)) (v : Snapshot) (i : Invocation) (options : Options)
    (files : List String) (s : σ) : Prop where
  lowers : AllLower v options files
  writes : WritesAll machine i (files.map (outcomeOn v options)) s

/-- How a command with options and files ends that reads its files in a state, where `volumeIn` gives what there is
on the file system. -/
structure Completes (machine : Machine (StateM σ)) (volumeIn : σ → Volume File) (i : Invocation)
    (options : Options) (files : List String) (looked : σ) (result : Result) (s' : σ) : Prop where
  inOrder : files.Pairwise IsBefore
  /-- The results are those of the files that are lowered. -/
  results : ∀ path output, (path, output) ∈ resultsOn (volumeIn looked).seen options files ↔
    path ∈ files ∧ LowersTo (volumeIn looked).seen options path output
  resultsInOrder : (resultsOn (volumeIn looked).seen options files).Pairwise fun a b => IsBefore a.1 b.1
  exit : Tells result.exit (GoesThrough machine (volumeIn looked).seen i options files looked)
  /-- Without an output directory all results are shown, and nothing else is done. -/
  shown : i.outDir = none → s' = looked ∧ result.output =
    String.join ((resultsOn (volumeIn looked).seen options files).map (shownResult (files.length > 1)))
  /-- With an output directory nothing is shown, and all results are written.  If that succeeds, a result whose
  target is a file of its own is left there. -/
  written : ∀ dir, i.outDir = some dir → result.output = "" ∧
    s' = ((writeOutputs machine dir (files.map (outcomeOn (volumeIn looked).seen options))).run.run looked).2 ∧
    (WritesAll machine i (files.map (outcomeOn (volumeIn looked).seen options)) looked →
      ∀ path ∈ files, ∀ output, LowersTo (volumeIn looked).seen options path output →
        HasOwnFile (volumeIn s') dir (resultsOn (volumeIn looked).seen options files) (path, output) →
        (volumeIn s').Holds (outputPath dir path) output.code)

section Completion

variable {store : σ → φ} {volume : φ → Volume File} (system : IsFileSystem machine store volume)
include system

/-- What the results of some files leave behind, if they are written without a failure. -/
theorem wroteAll_writeOutputs (there : i.outDir = some dir)
    (writes : WritesAll machine i (files.map (outcomeOn v options)) looked) :
    WroteAll dir (resultsOn v options files) (volume (store looked))
      (volume (store ((writeOutputs machine dir (files.map (outcomeOn v options))).run.run looked).2)) := by
  obtain ⟨targets, s', run⟩ := writes dir there
  rw [run]
  exact system.wroteAll_mapM run

theorem completes_of_concludes (inOrder : files.Pairwise IsBefore)
    (concludes : Concludes machine i (files.map (outcomeOn (volume (store looked)).seen options)) looked
      result s') :
    Completes machine (fun s => volume (store s)) i options files looked result s' where
  inOrder := inOrder
  results := fun _ _ => mem_resultsOn
  resultsInOrder := pairwise_resultsOn inOrder
  exit := by
    have through : GoesThrough machine (volume (store looked)).seen i options files looked ↔ _ ∧ _ :=
      ⟨fun h => ⟨forall_isFine.mpr h.lowers, h.writes⟩, fun h => ⟨forall_isFine.mp h.1, h.2⟩⟩
    rw [through]
    exact concludes.exit
  shown := fun there => by
    have shown := concludes.shown there
    rwa [List.length_map] at shown
  written := fun dir there => by
    obtain ⟨silent, left⟩ := concludes.written dir there
    refine ⟨silent, left, fun writes path mem output lowers own => ?_⟩
    have wrote := wroteAll_writeOutputs system there writes
    rw [← left] at wrote
    exact wrote.holds (r := (path, output)) (mem_resultsOn.mpr ⟨mem, lowers⟩) own

/-- A command that starts reads its files as they are on the file system, and completes. -/
theorem run_completes (asked : Request.ofArguments arguments = .ok (.run i))
    (starts : Starts (volume (store s)).seen i options files) :
    ∃ looked, store looked = store s ∧ Completes machine (fun s => volume (store s)) i options files looked
      ((run machine arguments).run s).1 ((run machine arguments).run s).2 := by
  obtain ⟨kept, started_iff⟩ := run_starting system.seen i s
  have started := (started_iff options files).mpr starts
  rcases run_concludes asked machine s with ⟨message, between, stopped, -⟩ | ⟨_, _, between, started', concludes⟩
  · rw [stopped] at started
    cases started
  · rw [started'] at started kept
    cases started
    obtain ⟨contents, kept'⟩ := system.seen.isAnswered_readAll files between
    refine ⟨((readAll machine files).run between).2, kept'.trans kept,
      completes_of_concludes system (pairwise_filesOn starts.found) ?_⟩
    rwa [contents, outcomesOf_map, ← kept'] at concludes

end Completion

/-- On a file system a command that starts lowers all its files; any other one fails, shows nothing and writes
nothing. -/
theorem run_ends {store : σ → φ} {volume : φ → Volume File} (system : IsFileSystem machine store volume)
    (asked : Request.ofArguments arguments = .ok (.run i)) (s : σ) :
    ∃ result s', (run machine arguments).run s = (result, s') ∧
      (∀ options files, Starts (volume (store s)).seen i options files → ∃ looked, store looked = store s ∧
        Completes machine (fun s => volume (store s)) i options files looked result s') ∧
      ((∀ options files, ¬Starts (volume (store s)).seen i options files) →
        result.exit = 1 ∧ result.output = "" ∧ store s' = store s) := by
  refine ⟨((run machine arguments).run s).1, ((run machine arguments).run s).2, rfl,
    fun options files starts => run_completes system asked starts, fun stuck => ?stopped⟩
  case stopped =>
    obtain ⟨kept, started_iff⟩ := run_starting system.seen i s
    rcases run_concludes asked machine s with ⟨message, between, stopped, run⟩ | ⟨options, files, between, started, -⟩
    · rw [stopped] at kept
      rw [run]
      exact ⟨rfl, rfl, kept⟩
    · rw [started] at started_iff
      exact absurd ((started_iff options files).mp rfl) (stuck options files)

/-! ### A command with a file that cannot be read -/

/-- A component, a module without one, and a file that holds no text. -/
def threeFiles : FileTree where
  entries := [(["a.ts".toList], .file "@Component(\x7b tag: 'a-a' \x7d) class A \x7b\x7d".toUTF8),
    (["b.ts".toList], .file "let b = 1;".toUTF8), (["c.ts".toList], .file ⟨#[0xff]⟩)]

/-- Lowers three files into a directory that is not there. -/
def intoDirectory : Invocation := { files := ["a.ts", "b.ts", "c.ts"], outDir := some "out" }

theorem threeFiles_starts : Starts threeFiles.seen intoDirectory {} ["a.ts", "b.ts", "c.ts"] where
  resolved := by decide +kernel
  found := by
    have names : (intoDirectory.files.mapM fun input => answer (filesOf threeFiles.seen input)) =
        .ok [["a.ts"], ["b.ts"], ["c.ts"]] := by decide +kernel
    exact filesOn_of_pairwise names (by decide +kernel)
  nonempty := List.cons_ne_nil _ _

theorem writesAll_of_isOk (there : i.outDir = some dir)
    (ok : ((writeOutputs machine dir outcomes).run.run s).1.isOk = true) : WritesAll machine i outcomes s := by
  rw [writesAll_written there]
  rcases run : (writeOutputs machine dir outcomes).run.run s with ⟨obstacle | targets, s'⟩
  · rw [run] at ok
    cases ok
  · exact ⟨targets, s', rfl⟩

/-- The file without a text makes the command fail, and the others are written all the same. -/
theorem threeFiles_ends : ∃ result t',
    (run FileTree.machine ["--out-dir", "out", "a.ts", "b.ts", "c.ts"]).run threeFiles = (result, t') ∧
      Completes FileTree.machine FileTree.volume intoDirectory {} ["a.ts", "b.ts", "c.ts"] threeFiles result t' ∧
      result.exit = 1 ∧
      ∀ path ∈ ["a.ts", "b.ts"], ∃ output, LowersTo threeFiles.seen {} path output ∧
        t'.volume.Holds (outputPath "out" path) output.code := by
  have asked : Request.ofArguments ["--out-dir", "out", "a.ts", "b.ts", "c.ts"] =
      .ok (.run intoDirectory) := by decide +kernel
  obtain ⟨result, t', run, completes, -⟩ := run_ends FileTree.isFileSystem asked threeFiles
  obtain ⟨looked, rfl, ends⟩ := completes _ _ threeFiles_starts
  refine ⟨result, t', run, ends, ?exit, fun path mem => ?written⟩
  case exit =>
    have unread : ¬IsFine (outcomeOn threeFiles.seen {} "c.ts") := by decide +kernel
    refine ends.exit.eq_one fun through => unread ?_
    exact forall_isFine.mpr through.lowers _ (List.mem_map_of_mem (by simp))
  case written =>
    have lower : ∀ path ∈ ["a.ts", "b.ts"], IsFine (outcomeOn threeFiles.seen {} path) := by decide +kernel
    obtain ⟨output, lowers, -⟩ := lower path mem
    have inside : path ∈ ["a.ts", "b.ts", "c.ts"] := List.mem_append_left ["c.ts"] mem
    have writes : WritesAll FileTree.machine intoDirectory
        (["a.ts", "b.ts", "c.ts"].map (outcomeOn threeFiles.seen {})) threeFiles :=
      writesAll_of_isOk rfl (by decide +kernel)
    have wrote := wroteAll_writeOutputs FileTree.isFileSystem rfl writes
    obtain ⟨-, left, holds⟩ := ends.written "out" rfl
    have differ : ["a.ts", "b.ts", "c.ts"].Pairwise fun a b =>
        samePath (outputPath "out" a) (outputPath "out" b) = false := by decide
    have named := isSome_fileName (FileTree.isSound_volume threeFiles) {} threeFiles_starts.found
    have own := FileTree.hasOwnFile_of_differ wrote named (by decide) (pairwise_resultsOn differ)
    have lowers := outcomeOn_ok.mp lowers
    refine ⟨output, lowers, holds writes path inside output lowers ?_⟩
    rw [left]
    exact own (path, output) (mem_resultsOn.mpr ⟨inside, lowers⟩)

/-! ### Two spellings of one target -/

/-- Two files of the same name, one of them in a directory. -/
def sameNames : FileTree where
  entries := [(["a.ts".toList], .file "let a = 1;".toUTF8), (["d".toList], .directory),
    (["d".toList, "a.ts".toList], .file "let b = 2;".toUTF8)]

/-- Lowers two files, the second one along a step upwards, into a directory without a text. -/
def intoNothing : Invocation := { files := ["./a.ts", "d/../d/a.ts"], outDir := some "" }

theorem sameNames_starts : Starts sameNames.seen intoNothing {} ["./a.ts", "d/../d/a.ts"] where
  resolved := by decide +kernel
  found := by
    have names : (intoNothing.files.mapM fun input => answer (filesOf sameNames.seen input)) =
        .ok [["./a.ts"], ["d/../d/a.ts"]] := by decide +kernel
    exact filesOn_of_pairwise names (by decide +kernel)
  nonempty := List.cons_ne_nil _ _

theorem exists_lowersTo_code {code : String}
    (h : (outcomeOn v options path).result.toOption.map (·.code) = some code) :
    ∃ output, LowersTo v options path output ∧ output.code = code := by
  obtain ⟨output, result, eq⟩ := Option.map_eq_some_iff.mp h
  refine ⟨output, outcomeOn_ok.mp ?_, eq⟩
  cases ok : (outcomeOn v options path).result with
  | error failure =>
      rw [ok] at result
      cases result
  | ok o =>
      rw [ok] at result
      rw [Option.some.inj result]

/-- The output paths differ in a dot at the front and no write fails, but one result takes the place of the
other. -/
theorem sameNames_losesOne :
    Request.ofArguments ["--out-dir", "", "./a.ts", "d/../d/a.ts"] = .ok (.run intoNothing) ∧
      Starts sameNames.seen intoNothing {} ["./a.ts", "d/../d/a.ts"] ∧
      samePath (outputPath "" "./a.ts") (outputPath "" "d/../d/a.ts") = false ∧
      ∃ result t', (run FileTree.machine ["--out-dir", "", "./a.ts", "d/../d/a.ts"]).run sameNames =
          (result, t') ∧ result.exit = 0 ∧
        ∃ output, LowersTo sameNames.seen {} "./a.ts" output ∧
          ¬t'.volume.Holds (outputPath "" "./a.ts") output.code := by
  have asked : Request.ofArguments ["--out-dir", "", "./a.ts", "d/../d/a.ts"] = .ok (.run intoNothing) := by
    decide +kernel
  obtain ⟨looked, same, ends⟩ := run_completes (s := sameNames) FileTree.isFileSystem asked sameNames_starts
  obtain rfl : looked = sameNames := same
  rcases run : (run FileTree.machine ["--out-dir", "", "./a.ts", "d/../d/a.ts"]).run sameNames with ⟨result, t'⟩
  rw [run] at ends
  refine ⟨asked, sameNames_starts, by decide, result, t', rfl, ?exit, ?lost⟩
  case exit =>
    refine ends.exit.eq_zero ⟨forall_isFine.mp ?_, writesAll_of_isOk rfl ?_⟩
    · decide +kernel
    · decide +kernel
  case lost =>
    obtain ⟨output, lowers, code⟩ : ∃ output, LowersTo sameNames.seen {} "./a.ts" output ∧
        output.code = "let a = 1;" := exists_lowersTo_code (by decide +kernel)
    refine ⟨output, lowers, fun holds => ?_⟩
    have left : t' = _ := (ends.written "" rfl).2.1
    rw [left, code] at holds
    have kept := Option.map_eq_some_iff.mpr holds
    revert kept
    decide +kernel

end ComponentLowering.CommandLine
