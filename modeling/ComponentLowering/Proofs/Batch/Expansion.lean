/-
# Expanded inputs

The files of a run do not depend on the order in which the inputs are given, nor on how often: they are the plain
inputs and the regular files among the matches of the patterns, in the order of their paths, each path once.
Where a path is given in several spellings, which of them is kept may depend on the order; the path does not.
-/
import ComponentLowering.Proofs.Batch.Snapshots
import ComponentLowering.Proofs.Batch.SortedPaths
import ComponentLowering.Proofs.Batch.SpelledPaths
import Mathlib.Data.List.Sort

namespace ComponentLowering.Batch

open ComponentLowering.Report

variable {α β ε : Type} {s : Snapshot} {input path : String} {inputs paths files files' : List String}

/-! ### One input -/

/-- What an input names: itself if it is plain, else the regular files among its matches. -/
inductive Names (s : Snapshot) (input path : String) : Prop
  | plain (isPlain : isPattern input = false) (same : path = input)
  | matched {parts : List PatternPart} {found : List String} (isPattern : isPattern input = true)
      (wellFormed : patternParts input = .ok parts) (readable : matchesOn s input parts = .ok found)
      (mem : path ∈ found) (isFile : HasFile s path)

/-- Whether there are no files because of an input. -/
inductive Blocks (s : Snapshot) (input : String) : Prop
  | missing (isPlain : isPattern input = false) (isNoFile : ¬HasFile s input)
  | malformed {e : PatternError} (isPattern : isPattern input = true)
      (malformed : patternParts input = .error e)
  | unreadable {parts : List PatternPart} {o : Obstacle} (isPattern : isPattern input = true)
      (wellFormed : patternParts input = .ok parts) (unreadable : matchesOn s input parts = .error o)

/-- The files of a pattern. -/
theorem answer_filesOf_pattern {parts : List PatternPart} (pattern : isPattern input = true)
    (wellFormed : patternParts input = .ok parts) :
    answer (filesOf s input) =
      match matchesOn s input parts with
      | .ok found => .ok (found.filter fun path => HasFile s path)
      | .error o => .error ⟨"failed to read a match of '" ++ input ++ "'", some o.display⟩ := by
  unfold filesOf matchesOn
  rw [if_pos pattern, wellFormed]
  dsimp only
  rw [answer_bind, answer_tryCatch]
  cases answer (matchesOf s input parts) with
  | error o => rfl
  | ok found =>
      change answer (found.filterM fun path => liftM (s.isFile path)) = _
      rw [answer_filterM]
      simp only [run_isFile]

/-- The file of a plain input. -/
theorem answer_filesOf_plain (plain : isPattern input = false) :
    answer (filesOf s input) =
      if HasFile s input then .ok [input] else .error ⟨"input file not found: " ++ input, none⟩ := by
  unfold filesOf
  rw [if_neg (by simp [plain]), answer_bind]
  change answer (if (s.isFile input).run = true then _ else _) = _
  rw [run_isFile]
  by_cases isFile : HasFile s input
  · rw [if_pos isFile, if_pos (decide_eq_true isFile)]
    rfl
  · rw [if_neg isFile, if_neg (by simpa using isFile)]
    rfl

theorem names_iff_of_plain (plain : isPattern input = false) : Names s input path ↔ path = input := by
  constructor
  · intro names
    cases names with
    | plain _ same => exact same
    | matched pattern _ _ _ _ =>
        rw [plain] at pattern
        cases pattern
  · exact .plain plain

theorem blocks_iff_of_plain (plain : isPattern input = false) : Blocks s input ↔ ¬HasFile s input := by
  constructor
  · intro blocks
    cases blocks with
    | missing _ isNoFile => exact isNoFile
    | malformed pattern _ | unreadable pattern _ _ =>
        rw [plain] at pattern
        cases pattern
  · exact .missing plain

section Patterns

variable {parts : List PatternPart} {found : List String} (pattern : isPattern input = true)
  (wellFormed : patternParts input = .ok parts) (readable : matchesOn s input parts = .ok found)
include pattern wellFormed readable

theorem names_iff_of_pattern : Names s input path ↔ path ∈ found ∧ HasFile s path := by
  constructor
  · intro names
    cases names with
    | plain plain _ =>
        rw [pattern] at plain
        cases plain
    | matched _ wellFormed' readable' mem isFile =>
        rw [wellFormed] at wellFormed'
        cases wellFormed'
        rw [readable] at readable'
        cases readable'
        exact ⟨mem, isFile⟩
  · rintro ⟨mem, isFile⟩
    exact .matched pattern wellFormed readable mem isFile

theorem not_blocks_of_pattern : ¬Blocks s input := by
  intro blocks
  cases blocks with
  | missing plain _ =>
      rw [pattern] at plain
      cases plain
  | malformed _ malformed =>
      rw [wellFormed] at malformed
      cases malformed
  | unreadable _ wellFormed' unreadable =>
      rw [wellFormed] at wellFormed'
      cases wellFormed'
      rw [readable] at unreadable
      cases unreadable

end Patterns

/-- An input either leads to the files that it names or keeps the run from having any. -/
theorem filesOf_cases (s : Snapshot) (input : String) :
    (∃ found, answer (filesOf s input) = .ok found ∧ (∀ path, path ∈ found ↔ Names s input path) ∧
        ¬Blocks s input) ∨
      (∃ o, answer (filesOf s input) = .error o) ∧ Blocks s input := by
  cases pattern : isPattern input with
  | false =>
      rw [answer_filesOf_plain pattern]
      by_cases isFile : HasFile s input
      · rw [if_pos isFile]
        refine .inl ⟨[input], rfl, fun path => ?_, fun blocks => ?_⟩
        · rw [List.mem_singleton, names_iff_of_plain pattern]
        · exact (blocks_iff_of_plain pattern).mp blocks isFile
      · rw [if_neg isFile]
        exact .inr ⟨⟨_, rfl⟩, (blocks_iff_of_plain pattern).mpr isFile⟩
  | true =>
      cases wellFormed : patternParts input with
      | error e =>
          refine .inr ⟨⟨⟨"invalid glob pattern '" ++ input ++ "'", some e.display⟩, ?_⟩,
            .malformed pattern wellFormed⟩
          unfold filesOf
          rw [if_pos pattern, wellFormed]
          rfl
      | ok parts =>
          rw [answer_filesOf_pattern pattern wellFormed]
          cases readable : matchesOn s input parts with
          | error o => exact .inr ⟨⟨_, rfl⟩, .unreadable pattern wellFormed readable⟩
          | ok found =>
              refine .inl ⟨_, rfl, fun path => ?_, not_blocks_of_pattern pattern wellFormed readable⟩
              rw [List.mem_filter, decide_eq_true_iff, names_iff_of_pattern pattern wellFormed readable]

/-! ### All inputs -/

/-- Computations that are done one after the other fail exactly if one of them does. -/
theorem mapM_cases (f : α → Except ε (List β)) (l : List α) :
    (∃ found, l.mapM f = .ok found ∧ (∀ a ∈ l, ∃ here, f a = .ok here) ∧
        ∀ b, b ∈ found.flatten ↔ ∃ a ∈ l, ∃ here, f a = .ok here ∧ b ∈ here) ∨
      (∃ e, l.mapM f = .error e) ∧ ∃ a ∈ l, ∃ e, f a = .error e := by
  induction l with
  | nil => exact .inl ⟨[], rfl, List.forall_mem_nil _, by simp⟩
  | cons a rest ih =>
      rw [List.mapM_cons]
      cases first : f a with
      | error e => exact .inr ⟨⟨e, rfl⟩, a, List.mem_cons_self .., e, first⟩
      | ok here =>
          rcases ih with ⟨found, later, succeed, mem⟩ | ⟨⟨e, later⟩, b, mem, fails⟩
          · rw [later]
            refine .inl ⟨here :: found, rfl, ?_, fun b => ?_⟩
            · exact List.forall_mem_cons.mpr ⟨⟨here, first⟩, succeed⟩
            · rw [List.flatten_cons, List.mem_append, mem, List.exists_mem_cons_iff]
              exact or_congr_left (by simp [first])
          · rw [later]
            exact .inr ⟨⟨e, rfl⟩, b, List.mem_cons_of_mem a mem, fails⟩

/-- The files of a run are those of all inputs, arranged. -/
theorem filesOn_eq (s : Snapshot) (inputs : List String) :
    filesOn s inputs =
      (inputs.mapM fun input => answer (filesOf s input)) >>= fun found => .ok (arrange found.flatten) := by
  unfold filesOn expandInputs
  rw [answer_bind, answer_mapM]
  rfl

/-- Files that are found in order are the files of a run as they are. -/
theorem filesOn_of_pairwise {found : List (List String)}
    (names : (inputs.mapM fun input => answer (filesOf s input)) = .ok found)
    (increasing : found.flatten.Pairwise IsBefore) : filesOn s inputs = .ok found.flatten := by
  rw [filesOn_eq, names]
  exact congrArg Except.ok (arrange_of_pairwise increasing)

/-- Either no input is in the way, and the paths that are named are arranged, or there are no files. -/
theorem filesOn_cases (s : Snapshot) (inputs : List String) :
    (∃ found, filesOn s inputs = .ok (arrange found) ∧
        (∀ path, path ∈ found ↔ ∃ input ∈ inputs, Names s input path) ∧
        ¬∃ input ∈ inputs, Blocks s input) ∨
      (∃ o, filesOn s inputs = .error o) ∧ ∃ input ∈ inputs, Blocks s input := by
  rw [filesOn_eq]
  rcases mapM_cases (fun input => answer (filesOf s input)) inputs with
    ⟨found, all, succeed, mem⟩ | ⟨⟨o, all⟩, input, isInput, o', fails⟩
  · rw [all]
    refine .inl ⟨found.flatten, rfl, fun path => ?_, ?_⟩
    · rw [mem]
      refine exists_congr fun input => and_congr_right fun isInput => ?_
      obtain ⟨here, eq⟩ := succeed input isInput
      rcases filesOf_cases s input with ⟨here', eq', names, -⟩ | ⟨⟨o, eq'⟩, -⟩
      · rw [eq] at eq'
        cases eq'
        simp [eq, names]
      · rw [eq] at eq'
        cases eq'
    · rintro ⟨input, isInput, blocks⟩
      obtain ⟨here, eq⟩ := succeed input isInput
      rcases filesOf_cases s input with ⟨-, -, -, free⟩ | ⟨⟨o, eq'⟩, -⟩
      · exact free blocks
      · rw [eq] at eq'
        cases eq'
  · rw [all]
    refine .inr ⟨⟨o, rfl⟩, input, isInput, ?_⟩
    rcases filesOf_cases s input with ⟨here, eq, -, -⟩ | ⟨-, blocks⟩
    · rw [fails] at eq
      cases eq
    · exact blocks

/-! ### Arranged paths -/

/-- Of paths that are repeated the first one is left. -/
theorem exists_mem_eraseRepsBy {a : String} (mem : path ∈ a :: paths) :
    ∃ kept ∈ (a :: paths).eraseRepsBy samePath, samePath kept path = true := by
  induction paths generalizing a path with
  | nil =>
      rw [List.mem_singleton.mp mem]
      exact ⟨a, List.mem_singleton_self a, samePath_iff.mpr rfl⟩
  | cons b rest ih =>
      rw [eraseRepsBy_cons_cons]
      cases same : samePath a b with
      | true =>
          rw [if_pos rfl]
          rcases List.mem_cons.mp mem with rfl | mem
          · exact ih (List.mem_cons_self ..)
          · rcases List.mem_cons.mp mem with rfl | mem
            · obtain ⟨kept, isKept, eq⟩ := ih (List.mem_cons_self (a := a))
              rw [samePath_iff] at eq same
              exact ⟨kept, isKept, samePath_iff.mpr (eq.trans same)⟩
            · exact ih (List.mem_cons_of_mem a mem)
      | false =>
          rw [if_neg Bool.false_ne_true]
          rcases List.mem_cons.mp mem with rfl | mem
          · exact ⟨path, List.mem_cons_self .., samePath_iff.mpr rfl⟩
          · obtain ⟨kept, isKept, eq⟩ := ih mem
            exact ⟨kept, List.mem_cons_of_mem a isKept, eq⟩

theorem exists_mem_arrange (mem : path ∈ paths) : ∃ kept ∈ arrange paths, samePath kept path = true := by
  rw [← @List.mem_mergeSort _ pathLe] at mem
  unfold arrange
  generalize paths.mergeSort pathLe = inOrder at mem
  cases inOrder with
  | nil => cases mem
  | cons a rest => exact exists_mem_eraseRepsBy mem

/-! ### Lists of paths in their order -/

/-- The order of paths by their parts. -/
def PartsBefore (a b : List PathPart) : Prop := List.compareLex PathPart.compare a b = .lt

instance : Std.Irrefl PartsBefore where
  irrefl a before := by
    rw [PartsBefore, @Std.ReflCmp.compare_self _ (List.compareLex PathPart.compare) _ a] at before
    cases before

instance : Std.Antisymm PartsBefore where
  antisymm a b before after := by
    rw [PartsBefore] at before after
    rw [@Std.OrientedCmp.eq_swap _ (List.compareLex PathPart.compare) _, after] at before
    cases before

/-- Strictly increasing lists that hold the same paths are equal path by path. -/
theorem forall₂_samePath (increasing : files.Pairwise IsBefore) (increasing' : files'.Pairwise IsBefore)
    (same : ∀ path, (∃ file ∈ files, samePath file path = true) ↔
      ∃ file ∈ files', samePath file path = true) :
    List.Forall₂ (fun file file' => samePath file file' = true) files files' := by
  have mem (l : List String) (p : List PathPart) : p ∈ l.map parts ↔ ∃ file ∈ l, parts file = p :=
    List.mem_map
  have eq : files.map parts = files'.map parts := by
    refine List.Pairwise.eq_of_mem_iff (r := PartsBefore) (List.pairwise_map.mpr increasing)
      (List.pairwise_map.mpr increasing') fun p => ?_
    simp only [samePath_iff] at same
    rw [mem, mem]
    constructor
    · rintro ⟨file, isFile, rfl⟩
      exact (same file).mp ⟨file, isFile, rfl⟩
    · rintro ⟨file, isFile, rfl⟩
      exact (same file).mpr ⟨file, isFile, rfl⟩
  have whole : List.Forall₂ (· = ·) (files.map parts) (files'.map parts) := by
    rw [List.forall₂_eq_eq_eq]
    exact eq
  rw [List.forall₂_map_left_iff, List.forall₂_map_right_iff] at whole
  simpa only [samePath_iff] using whole

/-! ### The files of a run -/

/-- How the files of a run follow from its inputs. -/
structure ExpandsTo (s : Snapshot) (inputs files : List String) : Prop where
  /-- They come in the order of their paths, each path once. -/
  increasing : files.Pairwise IsBefore
  /-- Each of them is named by an input as it is spelled. -/
  named : ∀ file ∈ files, ∃ input ∈ inputs, Names s input file
  /-- They are, as paths, exactly the ones that the inputs name. -/
  paths : ∀ path, (∃ file ∈ files, samePath file path = true) ↔
    ∃ input ∈ inputs, ∃ named, Names s input named ∧ samePath named path = true

theorem expandsTo_arrange (mem : ∀ path, path ∈ paths ↔ ∃ input ∈ inputs, Names s input path) :
    ExpandsTo s inputs (arrange paths) where
  increasing := pairwise_arrange paths
  named := fun file isFile => (mem file).mp (mem_of_mem_arrange isFile)
  paths := fun path => by
    constructor
    · rintro ⟨file, isFile, same⟩
      obtain ⟨input, isInput, names⟩ := (mem file).mp (mem_of_mem_arrange isFile)
      exact ⟨input, isInput, file, names, same⟩
    · rintro ⟨input, isInput, named, names, same⟩
      obtain ⟨kept, isKept, same'⟩ := exists_mem_arrange ((mem named).mpr ⟨input, isInput, names⟩)
      rw [samePath_iff] at same same'
      exact ⟨kept, isKept, samePath_iff.mpr (same'.trans same)⟩

/-- Inputs that are the same but for their order and for repetitions lead to the same paths. -/
theorem ExpandsTo.forall₂ {others : List String} (h : ExpandsTo s inputs files)
    (h' : ExpandsTo s others files') (same : ∀ input, input ∈ others ↔ input ∈ inputs) :
    List.Forall₂ (fun file file' => samePath file file' = true) files files' :=
  forall₂_samePath h.increasing h'.increasing fun path => by
    rw [h.paths, h'.paths]
    simp only [same]

/-- How inputs are expanded, on any snapshot. -/
structure IsOrderFree (s : Snapshot) (inputs : List String) : Prop where
  expands : ∀ files, filesOn s inputs = .ok files → ExpandsTo s inputs files
  /-- Neither the order of the inputs nor how often they are given changes the paths. -/
  reordered : ∀ files, filesOn s inputs = .ok files →
    ∀ others : List String, (∀ input, input ∈ others ↔ input ∈ inputs) →
      ∃ files', filesOn s others = .ok files' ∧
        List.Forall₂ (fun file file' => samePath file file' = true) files files'
  /-- There are no files exactly if an input is in the way. -/
  fails : (∃ o, filesOn s inputs = .error o) ↔ ∃ input ∈ inputs, Blocks s input

theorem filesOn_ok (found : filesOn s inputs = .ok files) :
    ExpandsTo s inputs files ∧ ¬∃ input ∈ inputs, Blocks s input := by
  rcases filesOn_cases s inputs with ⟨paths, eq, mem, free⟩ | ⟨⟨o, eq⟩, -⟩
  · rw [found] at eq
    cases eq
    exact ⟨expandsTo_arrange mem, free⟩
  · rw [found] at eq
    cases eq

theorem Names.hasFile (names : Names s input path) (free : ¬Blocks s input) : HasFile s path := by
  cases names with
  | plain isPlain same =>
      rw [blocks_iff_of_plain isPlain, not_not] at free
      rwa [same]
  | matched _ _ _ _ isFile => exact isFile

theorem pairwise_filesOn (found : filesOn s inputs = .ok files) : files.Pairwise IsBefore :=
  (filesOn_ok found).1.increasing

/-- The files of a run are files. -/
theorem hasFile_of_filesOn (found : filesOn s inputs = .ok files) : ∀ path ∈ files, HasFile s path := by
  obtain ⟨expands, free⟩ := filesOn_ok found
  intro path mem
  obtain ⟨input, isInput, names⟩ := expands.named path mem
  exact names.hasFile fun blocks => free ⟨input, isInput, blocks⟩

theorem filesOn_fails : (∃ o, filesOn s inputs = .error o) ↔ ∃ input ∈ inputs, Blocks s input := by
  rcases filesOn_cases s inputs with ⟨paths, eq, -, free⟩ | ⟨fails, blocks⟩
  · rw [eq]
    exact ⟨nofun, fun blocks => absurd blocks free⟩
  · exact iff_of_true fails blocks

theorem filesOn_isOrderFree (s : Snapshot) (inputs : List String) : IsOrderFree s inputs where
  expands := fun _ found => (filesOn_ok found).1
  reordered := fun files found others same => by
    obtain ⟨expands, free⟩ := filesOn_ok found
    cases found' : filesOn s others with
    | ok files' => exact ⟨files', rfl, expands.forall₂ (filesOn_ok found').1 same⟩
    | error o =>
        obtain ⟨input, isInput, blocks⟩ := filesOn_fails.mp ⟨o, found'⟩
        exact absurd ⟨input, (same input).mp isInput, blocks⟩ free
  fails := filesOn_fails

/-! ### Readable directories -/

/-- Whether each directory of a snapshot can be listed. -/
def IsReadable (s : Snapshot) : Prop :=
  ∀ dir, (s.isDirectory dir).run = true → ∃ names, (s.names dir).run = .ok names

/-- Whether a computation on a snapshot comes to a result. -/
def Succeeds (x : ExceptT ε Id α) : Prop := ∃ a, answer x = .ok a

theorem succeeds_pure (a : α) : Succeeds (pure a : ExceptT ε Id α) := ⟨a, rfl⟩

theorem succeeds_ask (x : Id α) : Succeeds (liftM x : ExceptT ε Id α) := ⟨x.run, rfl⟩

theorem Succeeds.bind {x : ExceptT ε Id α} {f : α → ExceptT ε Id β} (h : Succeeds x)
    (h' : ∀ a, Succeeds (f a)) : Succeeds (x >>= f) := by
  obtain ⟨a, first⟩ := h
  unfold Succeeds
  rw [answer_bind, first]
  exact h' a

theorem Succeeds.mapM {f : α → ExceptT ε Id β} (h : ∀ a, Succeeds (f a)) (l : List α) :
    Succeeds (l.mapM f) := by
  induction l with
  | nil => exact succeeds_pure []
  | cons a rest ih =>
      rw [List.mapM_cons]
      exact (h a).bind fun b => ih.bind fun bs => succeeds_pure _

section Readable

variable (readable : IsReadable s)
include readable

theorem succeeds_sortedNames (dir : String) : Succeeds (sortedNames s dir) := by
  unfold Succeeds sortedNames
  rw [answer_bind]
  change ∃ names, answer (if (!(s.isDirectory dir).run) = true then _ else _) = .ok names
  cases directory : (s.isDirectory dir).run with
  | false => exact ⟨[], rfl⟩
  | true =>
      obtain ⟨names, listed⟩ := readable dir directory
      rw [if_neg (by decide), answer_bind]
      change ∃ all, (Except.ok (s.names dir).run >>= _) = .ok all
      rw [listed]
      exact ⟨_, rfl⟩

theorem succeeds_visitBelow {visit : String → String → ExceptT Obstacle Id (List String)}
    (h : ∀ name path, Succeeds (visit name path)) (depth : Nat) (dir : String) :
    Succeeds (visitBelow s visit depth dir) := by
  induction depth generalizing dir with
  | zero => exact succeeds_pure []
  | succ depth ih =>
      unfold visitBelow
      refine (succeeds_sortedNames readable dir).bind fun names => ?_
      refine (Succeeds.mapM (fun name => ?_) names).bind fun found => succeeds_pure _
      exact (h _ _).bind fun here => (ih _).bind fun below => succeeds_pure _

theorem succeeds_pathsFrom (parts : List PatternPart) (path : String) : Succeeds (pathsFrom s parts path) := by
  fun_induction pathsFrom s parts path with
  | case1 path => exact succeeds_pure _
  | case2 name rest directory path choose dots ih =>
      refine (succeeds_ask _).bind fun found => ?_
      unfold choose
      split
      · exact ih
      · exact succeeds_pure _
  | case3 name rest directory path choose dots ih =>
      refine (succeeds_ask _).bind fun found => ?_
      unfold choose
      split
      · exact ih
      · exact succeeds_pure _
  | case4 tokens rest directory outside inside =>
      refine (succeeds_sortedNames readable directory).bind fun names => ?_
      refine (succeeds_ask _).bind fun isDirectory => ?_
      exact (Succeeds.mapM outside _).bind fun _ => (Succeeds.mapM inside _).bind fun _ => succeeds_pure _
  | case5 directory =>
      exact succeeds_visitBelow readable (fun _ path => (succeeds_ask _).bind fun _ => succeeds_pure _) _ _
  | case6 part rest directory ih =>
      refine succeeds_visitBelow readable (fun name path => ?_) _ _
      split
      · exact ih path
      · exact succeeds_pure _

theorem exists_matchesOn (pattern : String) (parts : List PatternPart) :
    ∃ found, matchesOn s pattern parts = .ok found := by
  refine (succeeds_pathsFrom readable parts _).bind fun found => ?_
  split
  · exact ⟨_, answer_filterM (fun path => s.isDirectory path) found⟩
  · exact succeeds_pure _

/-- Where all directories can be listed, files are found if each pattern is well formed and each plain input leads
to a file. -/
theorem exists_filesOn (wellFormed : ∀ input ∈ inputs, isPattern input = true → (patternParts input).isOk = true)
    (areFiles : ∀ input ∈ inputs, isPattern input = false → HasFile s input) :
    ∃ files, filesOn s inputs = .ok files := by
  cases run : filesOn s inputs with
  | ok files => exact ⟨files, rfl⟩
  | error o =>
      obtain ⟨input, mem, blocks⟩ := filesOn_fails.mp ⟨o, run⟩
      cases blocks with
      | missing isPlain isNoFile => exact absurd (areFiles input mem isPlain) isNoFile
      | malformed isPattern malformed =>
          have isOk := wellFormed input mem isPattern
          rw [malformed] at isOk
          cases isOk
      | unreadable isPattern wellFormed unreadable =>
          obtain ⟨found, run⟩ := exists_matchesOn readable input _
          rw [unreadable] at run
          cases run

end Readable

end ComponentLowering.Batch
