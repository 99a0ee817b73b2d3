/-
# Named files

Whether an input is a path or a pattern is decided by its characters, without a look at the disk.  A plain input
that leads to a regular file is among the files of the run.  One that is read as a pattern leads to its own file
exactly if it stands for itself, and then the path found for it has no dot at its front, even where the input has.
A pattern stands for itself unless it has brackets, parts for any directories or a doubled slash right behind the
dots at its front; with one of these it may or may not.
-/
import ComponentLowering.Proofs.Batch.FoundSpellings
import ComponentLowering.Proofs.Batch.PatternTexts
import ComponentLowering.Proofs.Batch.TreeDisks

namespace ComponentLowering.Batch

open ComponentLowering.Report

variable {s : Snapshot} {disk : Disk} {target : disk.Entry} {a b input path : String}
  {inputs files found : List String} {parts : List PatternPart} {piece : List Char}

/-! ### Where paths lead -/

/-- A path that leads somewhere leads there by what it says. -/
theorem walk_spoken (leads : disk.locate path = some target) :
    disk.walk (spoken path) (disk.start path) = some target := by
  unfold Disk.locate at leads
  split at leads
  · cases leads
  · exact Disk.walk_filter leads

/-- Of two paths that differ in a dot at the front each leads where the other one leads. -/
theorem SameButDot.locate_eq (same : SameButDot a b) {target' : disk.Entry}
    (leads : disk.locate a = some target) (leads' : disk.locate b = some target') : target = target' := by
  have here := walk_spoken leads
  have there := walk_spoken leads'
  unfold Disk.start at here there
  rw [same.absolute, same.spoken, there] at here
  exact (Option.some.inj here).symm

/-- A path that leads to a file says something at its end. -/
theorem speaks_last (leads : disk.locate path = some target) (isFile : disk.kind target ≠ .directory)
    (last : (segments path.toList).getLast? = some piece) : isSilent piece = false := by
  obtain ⟨front, eq⟩ := List.getLast?_eq_some_iff.mp last
  unfold Disk.locate at leads
  split at leads
  · cases leads
  · rw [eq, Disk.walk_append] at leads
    obtain ⟨e, -, leads⟩ := Option.bind_eq_some_iff.mp leads
    obtain ⟨next, step, leads⟩ := Option.bind_eq_some_iff.mp leads
    cases leads
    rw [Bool.eq_false_iff]
    intro silent
    rw [Disk.step_silent silent] at step
    split at step <;> cases step
    exact isFile ‹_›

/-- A path that leads to a file has no slash at its end. -/
theorem unended (leads : disk.locate path = some target) (isFile : disk.kind target ≠ .directory) :
    path.toList.getLast? ≠ some '/' := by
  intro ended
  obtain ⟨front, eq⟩ := List.getLast?_eq_some_iff.mp ended
  have last : (segments path.toList).getLast? = some [] := by
    rw [eq, segments_append]
    exact List.getLast?_concat
  cases speaks_last leads isFile last

/-! ### Patterns for their own file -/

/-- The path that a pattern is looked for from. -/
def lookFrom (input : String) : String := if isAbsolute input.toList then "/" else "."

theorem isAbsolute_lookFrom (input : String) :
    isAbsolute (lookFrom input).toList = isAbsolute input.toList := by
  unfold lookFrom
  cases isAbsolute input.toList <;> rfl

theorem spoken_lookFrom (input : String) : spoken (lookFrom input) = [] := by
  unfold lookFrom
  split <;> rfl

theorem samePath_lookFrom (input : String) : samePath (lookFrom input) "." = !isAbsolute input.toList := by
  unfold lookFrom
  cases isAbsolute input.toList <;> rfl

/-- An input that leads somewhere leads there from where its matches are looked for. -/
theorem leadsTo_lookFrom (leads : disk.locate input = some target) :
    LeadsTo disk target (lookFrom input) (spoken input) := by
  have directory : disk.kind (disk.start input) = .directory := by
    unfold Disk.locate at leads
    split at leads
    · cases leads
    · exact Disk.directory_of_walk (segments_ne_nil _) leads
  have here : disk.locate (lookFrom input) = some (disk.start input) := by
    rw [Disk.locate_of_ne (by unfold lookFrom; split <;> decide),
      Disk.walk_silent _ (segments_ne_nil _)]
    · unfold Disk.start at directory ⊢
      rw [isAbsolute_lookFrom, if_pos directory]
    · unfold lookFrom
      split <;> decide
  unfold LeadsTo
  rw [here]
  exact walk_spoken leads

/-- What is found from there with the pieces of an input is the input, but for a dot at its front. -/
theorem isFound_lookFrom :
    IsFound disk target (lookFrom input) (spoken input) path ↔
      SameButDot path input ∧ disk.locate path = some target := by
  constructor
  · intro found
    refine ⟨⟨found.absolute.trans (isAbsolute_lookFrom input), ?_⟩, found.leads⟩
    rw [found.spoken, spoken_lookFrom, List.nil_append]
  · rintro ⟨same, leads⟩
    refine ⟨same.absolute.trans (isAbsolute_lookFrom input).symm, ?_, leads⟩
    rw [same.spoken, spoken_lookFrom, List.nil_append]

/-- Whether an input that is read as a pattern covers itself as a path. -/
def StandsForItself (input : String) : Prop :=
  ∃ parts, patternParts input = .ok parts ∧ Covers (!isAbsolute input.toList) parts (spoken input)

theorem hasFile_iff (shows : Shows s disk) :
    HasFile s path ↔ ∃ e, disk.locate path = some e ∧ disk.kind e = .file := by
  unfold HasFile
  rw [shows.kind, Option.map_eq_some_iff]

/-- What a pattern finds for a file is what its parts find from there. -/
theorem run_pathsFrom_lookFrom (leads : disk.locate input = some target) (isFile : disk.kind target ≠ .directory)
    (readable : matchesOn s input parts = .ok found) : answer (pathsFrom s parts (lookFrom input)) = .ok found := by
  unfold matchesOn matchesOf at readable
  obtain ⟨found', run, readable⟩ := answer_bind_ok readable
  rw [if_neg (by simpa using unended leads isFile)] at readable
  cases readable
  exact run

/-- A pattern finds its own file exactly if it stands for itself. -/
theorem mem_matchesOn_iff (shows : Shows s disk) (isFile : HasFile s input)
    (wellFormed : patternParts input = .ok parts) (readable : matchesOn s input parts = .ok found) :
    (∃ path ∈ found, HasFile s path ∧ SameButDot path input) ↔ StandsForItself input := by
  obtain ⟨target, leads, kind⟩ := (hasFile_iff shows).mp isFile
  have other : disk.kind target ≠ .directory := by rw [kind]; decide
  have run := run_pathsFrom_lookFrom leads other readable
  have exact : IsExact disk target parts (lookFrom input) found :=
    isExact_pathsFrom shows other parts (lookFrom input) (by unfold lookFrom; split <;> decide)
      (fun name mem => not_mem_of_literal wellFormed mem) run
  have whole : StandsForItself input ↔ Covers (samePath (lookFrom input) ".") parts (spoken input) := by
    rw [samePath_lookFrom]
    constructor
    · rintro ⟨parts', wellFormed', covers⟩
      rw [wellFormed] at wellFormed'
      cases wellFormed'
      exact covers
    · exact fun covers => ⟨parts, wellFormed, covers⟩
  rw [whole]
  constructor
  · rintro ⟨path, mem, isFile', same⟩
    obtain ⟨target', leads', -⟩ := (hasFile_iff shows).mp isFile'
    obtain rfl := same.locate_eq leads' leads
    obtain ⟨pieces, isFound, covers, -⟩ := exact.sound path mem leads'
    have eq := isFound.spoken
    rw [spoken_lookFrom, List.nil_append, same.spoken] at eq
    rwa [eq]
  · intro covers
    obtain ⟨path, mem, isFound⟩ := exact.complete _ covers (leadsTo_lookFrom leads)
    obtain ⟨same, leads'⟩ := isFound_lookFrom.mp isFound
    exact ⟨path, mem, (hasFile_iff shows).mpr ⟨target, leads', kind⟩, same⟩

/-! ### Patterns that stand for themselves -/

/-- Whether a pattern has no brackets, no part for any directories and, in front of its first name, no doubled
slash behind a dot. -/
structure IsUsual (input : String) : Prop where
  brackets : '[' ∉ input.toList
  directories : ['*', '*'] ∉ segments input.toList
  slashes : isAbsolute input.toList = true ∨ [] ∉ (segments input.toList).takeWhile isSilent

instance (input : String) : Decidable (IsUsual input) :=
  decidable_of_iff (_ ∧ _ ∧ _) ⟨fun h => ⟨h.1, h.2.1, h.2.2⟩, fun h => ⟨h.brackets, h.directories, h.slashes⟩⟩

/-- The characters of a piece are those of its path. -/
theorem mem_of_mem_segments {text : List Char} {c : Char} (mem : piece ∈ segments text) (mem' : c ∈ piece) :
    c ∈ text := by
  have whole : ['/'].intercalate (segments text) = text := List.intercalate_splitOn '/'
  rw [← whole]
  rw [List.intercalate]
  refine List.mem_flatten_of_mem ?_ mem'
  generalize segments text = pieces at mem
  fun_induction List.intersperse ['/'] pieces with
  | case1 => cases mem
  | case2 => exact mem
  | case3 first second rest ih =>
      rcases List.mem_cons.mp mem with rfl | mem
      · exact List.mem_cons_self ..
      · exact List.mem_cons_of_mem _ (List.mem_cons_of_mem _ (ih mem))

/-- A piece without brackets, other than the one for any directories, is a part that it is covered by. -/
theorem ofTokens_plain {tokens : List PatternToken} (brackets : '[' ∉ piece) (slashes : '/' ∉ piece)
    (directories : piece ≠ ['*', '*']) (read : Pattern.tokens piece = .ok tokens) :
    PatternPart.ofTokens tokens = .literal piece ∨
      IsEntryName piece ∧ Pattern.fits tokens piece = true ∧ PatternPart.ofTokens tokens = .wildcard tokens := by
  have atFront : (none : Option Char) ≠ some '/' := nofun
  have plain : tokens = piece.map Pattern.plainToken :=
    Pattern.tokensFrom_plain (Nat.le_refl _) brackets slashes atFront (fun _ => directories) read
  have single : tokens.contains .anyDirectories = false := by
    rw [plain, Bool.eq_false_iff, ne_eq, List.contains_iff_mem, List.mem_map]
    rintro ⟨c, -, eq⟩
    unfold Pattern.plainToken at eq
    split at eq
    · cases eq
    · split at eq <;> cases eq
  unfold PatternPart.ofTokens
  rw [single, if_neg Bool.false_ne_true]
  cases literal : PatternPart.literal? tokens with
  | some name =>
      rw [PatternPart.eq_of_literal? (Nat.le_refl _) read literal]
      exact .inl rfl
  | none =>
      have wild (text : List Char) (known : PatternPart.literal? (text.map Pattern.plainToken) ≠ none) :
          piece ≠ text := by
        rintro rfl
        rw [← plain] at known
        exact known literal
      have fits : Pattern.fits tokens piece = true := plain ▸ Pattern.fits_plain piece
      refine .inr ⟨⟨⟨?_, wild ['.', '.'] (by decide)⟩, slashes⟩, fits, rfl⟩
      unfold isSilent
      simp [wild [] (by decide), wild ['.'] (by decide)]

/-- Pieces without brackets, none of which is the part for any directories, are covered by what is read from
them. -/
theorem covers_pieces {pieces : List (List Char)} {tokens : List (List PatternToken)} {atDot : Bool}
    (read : List.Forall₂ (fun piece tokens => Pattern.tokens piece = .ok tokens) pieces tokens)
    (plain : ∀ piece ∈ pieces, '[' ∉ piece ∧ '/' ∉ piece ∧ piece ≠ ['*', '*'])
    (last : ∀ piece, pieces.getLast? = some piece → isSilent piece = false)
    (dots : atDot = true → [] ∉ pieces.takeWhile isSilent) :
    .directories ∉ tokens.map PatternPart.ofTokens ∧
      Covers atDot (tokens.map PatternPart.ofTokens) (pieces.filter fun s => !isSilent s) := by
  -- Dots at the front stay at the place where they are; with the first name that place is left for good.
  induction read generalizing atDot with
  | nil => exact ⟨List.not_mem_nil, .done⟩
  | @cons piece these pieces tokens first _ ih =>
      obtain ⟨⟨brackets, slashes, directories⟩, plain⟩ := List.forall_mem_cons.mp plain
      have last' : ∀ piece, pieces.getLast? = some piece → isSilent piece = false := by
        intro piece' eq
        refine last piece' ?_
        rw [List.getLast?_cons, eq]
        rfl
      rw [List.map_cons]
      cases silent : isSilent piece with
      | true =>
          rw [List.takeWhile_cons_of_pos silent] at dots
          obtain ⟨none, covers⟩ := @ih atDot plain last'
            fun dot mem => dots dot (List.mem_cons_of_mem _ mem)
          rw [List.filter_cons_of_neg (by simp [silent])]
          rcases ofTokens_plain brackets slashes directories first with eq | ⟨isName, -, -⟩
          · rw [eq]
            refine ⟨List.not_mem_cons_of_ne_of_not_mem nofun none, .silent silent ?_ ?_ covers⟩
            · rintro dot rfl
              exact dots dot (List.mem_cons_self ..)
            · intro quiet
              cases end' : pieces.getLast? with
              | none =>
                  rw [List.getLast?_eq_none_iff.mp end'] at last
                  rw [last piece rfl] at silent
                  cases silent
              | some piece' =>
                  have speaks := List.filter_eq_nil_iff.mp quiet piece' (List.mem_of_getLast? end')
                  rw [last' piece' end'] at speaks
                  exact speaks rfl
          · rw [isName.speaks] at silent
            cases silent
      | false =>
          obtain ⟨none, covers⟩ := @ih false plain last' nofun
          rw [List.filter_cons_of_pos (by simp [silent])]
          rcases ofTokens_plain brackets slashes directories first with eq | ⟨isName, fits, eq⟩
          · rw [eq]
            exact ⟨List.not_mem_cons_of_ne_of_not_mem nofun none, .literal silent covers⟩
          · rw [eq]
            exact ⟨List.not_mem_cons_of_ne_of_not_mem nofun none, .wildcard isName fits covers⟩

/-- The pieces of a pattern that leads to a file: those of its path, without the empty one in front of the slash
that an absolute path begins with. -/
theorem patternPieces_eq (leads : disk.locate input = some target) (isFile : disk.kind target ≠ .directory) :
    ∃ front, segments input.toList = front ++ patternPieces input ∧ (front = [] ∨ front = [[]]) ∧
      (isAbsolute input.toList = false → front = []) ∧
      ∀ piece, (patternPieces input).getLast? = some piece → isSilent piece = false := by
  have whole : ∃ front, segments input.toList =
      front ++ segments (if isAbsolute input.toList then input.toList.drop 1 else input.toList) ∧
      (front = [] ∨ front = [[]]) ∧ (isAbsolute input.toList = false → front = []) := by
    cases absolute : isAbsolute input.toList with
    | false => exact ⟨[], rfl, .inl rfl, fun _ => rfl⟩
    | true =>
        obtain ⟨rest, eq⟩ := List.head?_eq_some_iff.mp (beq_iff_eq.mp absolute)
        refine ⟨[[]], ?_, .inr rfl, nofun⟩
        rw [eq]
        exact segments_append [] rest
  obtain ⟨front, eq, edge, relative⟩ := whole
  have last : ∀ piece, (segments (if isAbsolute input.toList then input.toList.drop 1
      else input.toList)).getLast? = some piece → isSilent piece = false := by
    intro piece last
    have atEnd : (segments input.toList).getLast? = some piece := by
      rw [eq, List.getLast?_append, last]
      rfl
    exact speaks_last leads isFile atEnd
  have kept : patternPieces input =
      segments (if isAbsolute input.toList then input.toList.drop 1 else input.toList) := by
    unfold patternPieces
    dsimp only
    rw [if_neg]
    intro ended
    cases last [] (beq_iff_eq.mp ended)
  rw [kept]
  exact ⟨front, eq, edge, relative, last⟩

/-- Dots and steps upwards are parts without wildcards. -/
theorem ofTokens_dots {tokens : List PatternToken} (dots : piece = [] ∨ piece = ['.'] ∨ piece = ['.', '.'])
    (read : Pattern.tokens piece = .ok tokens) : PatternPart.ofTokens tokens = .literal piece := by
  rcases dots with rfl | rfl | rfl <;> cases read <;> rfl

/-- Pieces that begin with a step upwards are read as parts that do so. -/
theorem climbs_pieces {pieces : List (List Char)} {tokens : List (List PatternToken)}
    (read : List.Forall₂ (fun piece tokens => Pattern.tokens piece = .ok tokens) pieces tokens)
    (head : (pieces.filter fun s => !isSilent s).head? = some ['.', '.']) :
    Climbs (PatternPart.collapse (tokens.map PatternPart.ofTokens)) := by
  have literal (name : List Char) (rest : List PatternPart) :
      PatternPart.collapse (.literal name :: rest) = .literal name :: PatternPart.collapse rest := by
    rw [PatternPart.collapse]
    nofun
  induction read with
  | nil => cases head
  | @cons piece these pieces tokens first _ ih =>
      rw [List.map_cons]
      cases silent : isSilent piece with
      | true =>
          have dots : piece = [] ∨ piece = ['.'] := by simpa [isSilent] using silent
          rw [List.filter_cons_of_neg (by simp [silent])] at head
          rw [ofTokens_dots (dots.imp_right .inl) first, literal]
          exact .silent silent (ih head)
      | false =>
          rw [List.filter_cons_of_pos (by simp [silent])] at head
          have up : piece = ['.', '.'] := Option.some.inj head
          rw [ofTokens_dots (.inr (.inr up)) first, literal, up]
          exact .up

/-- An input that begins with a step upwards is read as parts that do so. -/
theorem climbs_of_spoken (leads : disk.locate input = some target) (isFile : disk.kind target ≠ .directory)
    (relative : isAbsolute input.toList = false) (wellFormed : patternParts input = .ok parts)
    (head : (spoken input).head? = some ['.', '.']) : Climbs parts := by
  obtain ⟨tokens, read, rfl⟩ := exists_tokens wellFormed
  obtain ⟨front, eq, -, whole, -⟩ := patternPieces_eq leads isFile
  rw [whole relative, List.nil_append] at eq
  unfold spoken at head
  rw [eq] at head
  exact climbs_pieces read head

/-- The own file of a pattern is found under a path without a dot at the front. -/
theorem undotted_of_mem_matchesOn (shows : Shows s disk) (isFile : HasFile s input)
    (wellFormed : patternParts input = .ok parts) (readable : matchesOn s input parts = .ok found)
    (mem : path ∈ found) (leadsThere : HasFile s path) (same : SameButDot path input) : Undotted path := by
  obtain ⟨target, leads, kind⟩ := (hasFile_iff shows).mp isFile
  have other : disk.kind target ≠ .directory := by rw [kind]; decide
  obtain ⟨target', leads', -⟩ := (hasFile_iff shows).mp leadsThere
  obtain rfl := same.locate_eq leads' leads
  have text : lookFrom input ≠ "" := by unfold lookFrom; split <;> decide
  have undotted : IsUndotted disk target' parts (lookFrom input) found :=
    isUndotted_pathsFrom shows other parts (lookFrom input) text (fun name mem => not_mem_of_literal wellFormed mem)
      (run_pathsFrom_lookFrom leads other readable)
  refine undotted ?front path mem leads' fun dot head => ?climbs
  case front =>
    unfold lookFrom
    split
    · exact .inr (by decide)
    · exact .inl rfl
  case climbs =>
    have relative : isAbsolute input.toList = false := by
      have start := samePath_lookFrom input
      rwa [dot, eq_comm, Bool.not_eq_true'] at start
    rw [same.spoken] at head
    exact climbs_of_spoken leads other relative wellFormed head

/-- The usual patterns that lead to a file stand for themselves. -/
theorem standsForItself_of_isUsual (leads : disk.locate input = some target)
    (isFile : disk.kind target ≠ .directory) (usual : IsUsual input)
    (wellFormed : patternParts input = .ok parts) : StandsForItself input := by
  obtain ⟨tokens, read, rfl⟩ := exists_tokens wellFormed
  obtain ⟨front, eq, edge, relative, last⟩ := patternPieces_eq leads isFile
  have plain : ∀ piece ∈ patternPieces input, '[' ∉ piece ∧ '/' ∉ piece ∧ piece ≠ ['*', '*'] := by
    intro piece mem
    have isPiece : piece ∈ segments input.toList := by
      rw [eq]
      exact List.mem_append_right front mem
    refine ⟨fun bracket => usual.brackets (mem_of_mem_segments isPiece bracket),
      not_mem_of_mem_segments isPiece, ?_⟩
    rintro rfl
    exact usual.directories isPiece
  have dots : (!isAbsolute input.toList) = true → [] ∉ (patternPieces input).takeWhile isSilent := by
    intro dot
    rw [Bool.not_eq_true'] at dot
    have slashes := usual.slashes.resolve_left (by simp [dot])
    rwa [eq, relative dot, List.nil_append] at slashes
  obtain ⟨none, covers⟩ := covers_pieces read plain last dots
  refine ⟨_, wellFormed, ?_⟩
  have quiet : front.filter (fun s => !isSilent s) = [] := by rcases edge with rfl | rfl <;> rfl
  rw [PatternPart.collapse_of_not_mem none]
  unfold spoken
  rwa [eq, List.filter_append, quiet, List.nil_append]

/-! ### All inputs -/

/-- How a file that is named by an input is kept among the files of a run. -/
structure KeepsNamed (s : Snapshot) (disk : Disk) (inputs : List String) (input : String)
    (files : List String) : Prop where
  plain : isPattern input = false → ∃ file ∈ files, samePath file input = true
  /-- The path that is kept has no dot at its front, is the same otherwise and leads to the same entry. -/
  pattern : isPattern input = true → StandsForItself input →
    ∃ file ∈ files, .current ∉ Batch.parts file ∧ SameButDot file input ∧ disk.locate file = disk.locate input
  usual : isPattern input = true → IsUsual input → StandsForItself input
  /-- A pattern that does not stand for itself does not lead to its own file: where that is kept, another input
  leads to it. -/
  missed : isPattern input = true → ¬StandsForItself input →
    ∀ file ∈ files, SameButDot file input → ∃ other ∈ inputs, other ≠ input ∧ Names s other file

/-- A pattern that leads to its own file stands for itself. -/
theorem Names.standsForItself (names : Names s input path) (shows : Shows s disk) (isFile : HasFile s input)
    (pattern : isPattern input = true) (same : SameButDot path input) : StandsForItself input := by
  cases names with
  | plain isPlain _ =>
      rw [pattern] at isPlain
      cases isPlain
  | matched _ wellFormed readable mem isFile' =>
      exact (mem_matchesOn_iff shows isFile wellFormed readable).mp ⟨path, mem, isFile', same⟩

theorem filesOn_keepsNamed (shows : Shows s disk) (run : filesOn s inputs = .ok files) (mem : input ∈ inputs)
    (isFile : HasFile s input) : KeepsNamed s disk inputs input files := by
  obtain ⟨expands, free⟩ := filesOn_ok run
  obtain ⟨target, leads, kind⟩ := (hasFile_iff shows).mp isFile
  have other : disk.kind target ≠ .directory := by rw [kind]; decide
  have readable (isPattern : isPattern input = true) : ∃ parts found, patternParts input = .ok parts ∧
      matchesOn s input parts = .ok found := by
    cases wellFormed : patternParts input with
    | error e => exact absurd ⟨input, mem, .malformed isPattern wellFormed⟩ free
    | ok parts =>
        cases run : matchesOn s input parts with
        | error o => exact absurd ⟨input, mem, .unreadable isPattern wellFormed run⟩ free
        | ok found => exact ⟨parts, found, rfl, run⟩
  constructor
  case plain =>
    intro isPlain
    exact (expands.paths input).mpr ⟨input, mem, input, .plain isPlain rfl, samePath_iff.mpr rfl⟩
  case pattern =>
    intro isPattern stands
    obtain ⟨parts, found, wellFormed, looked⟩ := readable isPattern
    obtain ⟨path, isFound, isFile', same⟩ := (mem_matchesOn_iff shows isFile wellFormed looked).mpr stands
    obtain ⟨file, isKept, eq⟩ := (expands.paths path).mpr
      ⟨input, mem, path, .matched isPattern wellFormed looked isFound isFile', samePath_iff.mpr rfl⟩
    have undotted := undotted_of_mem_matchesOn shows isFile wellFormed looked isFound isFile' same
    have same := (sameButDot_of_samePath eq).trans same
    refine ⟨file, isKept, ?_, same, ?_⟩
    · rw [samePath_iff.mp eq]
      exact undotted.not_mem
    obtain ⟨target', leads', -⟩ := (hasFile_iff shows).mp (hasFile_of_filesOn run file isKept)
    rw [leads', leads, same.locate_eq leads' leads]
  case usual =>
    intro isPattern usual
    obtain ⟨parts, -, wellFormed, -⟩ := readable isPattern
    exact standsForItself_of_isUsual leads other usual wellFormed
  case missed =>
    -- If it was the input itself that led to the file, it would stand for itself.
    intro isPattern missed file isKept same
    obtain ⟨source, isInput, names⟩ := expands.named file isKept
    refine ⟨source, isInput, ?_, names⟩
    rintro rfl
    exact missed (names.standsForItself shows isFile isPattern same)

/-! ### A tree with names that read as patterns -/

/-- A plain name, a name with brackets, and in a directory a name with a star. -/
def oddNames : FileTree where
  entries := [
    (["a[1].ts".toList], .file "let a = 1;".toUTF8),
    (["b.ts".toList], .file "let b = 2;".toUTF8),
    (["d".toList], .directory),
    (["d".toList, "x*.ts".toList], .file "let x = 3;".toUTF8)]

theorem isSound_oddNames : oddNames.IsSound := by decide +kernel

theorem Shows.isReadable (shows : Shows s disk) (listed : ∀ e, ∃ names, disk.listing e = .ok names) :
    IsReadable s := by
  intro dir isDirectory
  obtain ⟨e, leads, directory⟩ := (run_isDirectory shows dir).mp isDirectory
  rw [shows.names dir e leads directory]
  exact listed e

theorem isReadable_oddNames : IsReadable oddNames.seen :=
  (FileTree.shows_seen isSound_oddNames).isReadable fun _ => ⟨_, rfl⟩

theorem patternParts_bracketed : patternParts "a[1].ts" =
    .ok [.wildcard [.char 'a', .oneOf [⟨'1', '1'⟩], .char '.', .char 't', .char 's']] := by
  rfl

/-- Brackets with one character stand for that character, not for themselves. -/
theorem not_standsForItself_bracketed : ¬StandsForItself "a[1].ts" := by
  rintro ⟨parts, wellFormed, covers⟩
  rw [patternParts_bracketed] at wellFormed
  cases wellFormed
  have pieces : spoken "a[1].ts" = ["a[1].ts".toList] := by decide +kernel
  rw [pieces] at covers
  cases covers with
  | wildcard _ fits _ => exact absurd fits (by decide)
  | dot fits _ _ => exact absurd fits (by decide)

/-- The plain input and the one with a star are kept; the one with brackets is found by another pattern only. -/
theorem oddNames_keepsNamed :
    ∃ files, filesOn oddNames.seen ["b.ts", "./d/x*.ts", "a[1].ts", "a*"] = .ok files ∧
      (∀ input ∈ ["b.ts", "./d/x*.ts", "a[1].ts"], HasFile oddNames.seen input ∧
        KeepsNamed oddNames.seen (oddNames.disk isSound_oddNames) ["b.ts", "./d/x*.ts", "a[1].ts", "a*"]
          input files) ∧
      IsUsual "./d/x*.ts" ∧ ¬StandsForItself "a[1].ts" := by
  obtain ⟨files, run⟩ : ∃ files, filesOn oddNames.seen ["b.ts", "./d/x*.ts", "a[1].ts", "a*"] = .ok files :=
    exists_filesOn isReadable_oddNames (by decide +kernel) (by decide +kernel)
  refine ⟨files, run, fun input mem => ?_, by decide +kernel, not_standsForItself_bracketed⟩
  have isFile : HasFile oddNames.seen input := by
    revert input
    decide +kernel
  refine ⟨isFile, filesOn_keepsNamed (FileTree.shows_seen isSound_oddNames) run ?_ isFile⟩
  exact List.mem_of_mem_dropLast (l := ["b.ts", "./d/x*.ts", "a[1].ts", "a*"]) mem

/-- The name with brackets is the path of a regular file, but it is not among the files of the run. -/
theorem bracketedName_isDropped :
    ∃ files, filesOn oddNames.seen ["a[1].ts", "b.ts"] = .ok files ∧ HasFile oddNames.seen "a[1].ts" ∧
      ¬∃ file ∈ files, samePath file "a[1].ts" = true := by
  obtain ⟨files, run⟩ : ∃ files, filesOn oddNames.seen ["a[1].ts", "b.ts"] = .ok files :=
    exists_filesOn isReadable_oddNames (by decide +kernel) (by decide +kernel)
  have isFile : HasFile oddNames.seen "a[1].ts" := by decide +kernel
  refine ⟨files, run, isFile, ?_⟩
  rintro ⟨file, isKept, same⟩
  obtain ⟨source, mem, names⟩ := (filesOn_ok run).1.named file isKept
  rcases List.mem_cons.mp mem with rfl | mem
  · exact not_standsForItself_bracketed (names.standsForItself (FileTree.shows_seen isSound_oddNames) isFile
      (by decide) (sameButDot_of_samePath same))
  · obtain rfl := List.mem_singleton.mp mem
    rw [(names_iff_of_plain (by decide)).mp names] at same
    exact absurd same (by decide +kernel)

end ComponentLowering.Batch
