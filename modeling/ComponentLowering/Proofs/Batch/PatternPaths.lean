/-
# Paths that a pattern names

A pattern names the regular files whose pieces it covers: a part without wildcards stands for itself, one with
wildcards for the names of its form, and the part for any directories for the names in front of what fits the
next part.  That part never stands for a file.  The steps `.` and `..` are only taken where a part asks for them.
-/
import ComponentLowering.Proofs.Batch.Disks
import ComponentLowering.Proofs.Batch.Expansion

namespace ComponentLowering.Batch

open ComponentLowering.Report

variable {α β ε : Type} {s : Snapshot} {disk : Disk} {target : disk.Entry} {found : List String}
  {dir path : String} {name : List Char} {pieces more : List (List Char)}

/-! ### What a pattern covers -/

/-- Whether the parts of a pattern cover some pieces of a path, seen from a place.  From the working directory
itself, as long as only dots have been passed, there is nothing for a part without characters. -/
inductive Covers : (atDot : Bool) → List PatternPart → List (List Char) → Prop
  | done {atDot : Bool} : Covers atDot [] []
  | silent {atDot : Bool} {name : List Char} {rest : List PatternPart} {pieces : List (List Char)} :
      isSilent name = true → (atDot = true → name ≠ []) → pieces ≠ [] → Covers atDot rest pieces →
      Covers atDot (.literal name :: rest) pieces
  | literal {atDot : Bool} {name : List Char} {rest : List PatternPart} {pieces : List (List Char)} :
      isSilent name = false → Covers false rest pieces →
      Covers atDot (.literal name :: rest) (name :: pieces)
  | wildcard {atDot : Bool} {tokens : List PatternToken} {name : List Char} {rest : List PatternPart}
      {pieces : List (List Char)} :
      IsEntryName name → Pattern.fits tokens name = true → Covers false rest pieces →
      Covers atDot (.wildcard tokens :: rest) (name :: pieces)
  | dot {atDot : Bool} {tokens : List PatternToken} {rest : List PatternPart}
      {pieces : List (List Char)} :
      fitsSpecial tokens ['.'] = true → pieces ≠ [] → Covers atDot rest pieces →
      Covers atDot (.wildcard tokens :: rest) pieces
  | up {atDot : Bool} {tokens : List PatternToken} {rest : List PatternPart}
      {pieces : List (List Char)} :
      fitsSpecial tokens ['.', '.'] = true → Covers false rest pieces →
      Covers atDot (.wildcard tokens :: rest) (['.', '.'] :: pieces)
  | directories {atDot : Bool} {dirs : List (List Char)} {name : List Char} {part : PatternPart}
      {rest : List PatternPart} {pieces : List (List Char)} :
      dirs.length < depthBound → (∀ dir ∈ dirs, IsEntryName dir) → IsEntryName name →
      part.fitsName name = true → Covers false rest pieces →
      Covers atDot (.directories :: part :: rest) (dirs ++ name :: pieces)

/-! ### Questions -/

theorem answer_bind_ok {x : ExceptT ε Id α} {f : α → ExceptT ε Id β} {b : β}
    (h : answer (x >>= f) = .ok b) : ∃ a, answer x = .ok a ∧ answer (f a) = .ok b := by
  rw [answer_bind] at h
  cases first : answer x with
  | error e =>
      rw [first] at h
      cases h
  | ok a =>
      rw [first] at h
      exact ⟨a, rfl, h⟩

theorem mem_flatten_mapM {f : α → Except ε (List β)} {l : List α} {found : List (List β)} {b : β}
    (run : l.mapM f = .ok found) : b ∈ found.flatten ↔ ∃ a ∈ l, ∃ here, f a = .ok here ∧ b ∈ here := by
  rcases mapM_cases f l with ⟨found', run', -, mem⟩ | ⟨⟨e, run'⟩, -⟩
  · rw [run] at run'
    cases run'
    exact mem b
  · rw [run] at run'
    cases run'

theorem exists_of_mapM {f : α → Except ε (List β)} {l : List α} {found : List (List β)} {a : α}
    (run : l.mapM f = .ok found) (mem : a ∈ l) : ∃ here, f a = .ok here := by
  rcases mapM_cases f l with ⟨found', run', all, -⟩ | ⟨⟨e, run'⟩, -⟩
  · exact all a mem
  · rw [run] at run'
    cases run'

theorem run_isDirectory (shows : Shows s disk) (path : String) :
    (s.isDirectory path).run = true ↔ ∃ e, disk.locate path = some e ∧ disk.kind e = .directory := by
  have kind : (s.isDirectory path).run = ((s.kind? path).run == some .directory) := rfl
  rw [kind, shows.kind, beq_iff_eq, Option.map_eq_some_iff]

theorem run_isThere (shows : Shows s disk) (path : String) :
    (s.isThere path).run = (disk.locate path).isSome := by
  have kind : (s.isThere path).run = (s.kind? path).run.isSome := rfl
  rw [kind, shows.kind, Option.isSome_map]

/-- What is listed of a directory: names of entries, and each name that leads somewhere. -/
theorem sortedNames_ok (shows : Shows s disk) {names : List String}
    (run : answer (sortedNames s dir) = .ok names) :
    (∀ name ∈ names, IsEntryName name.toList) ∧
      ∀ e name, disk.locate dir = some e → IsName name → (disk.step e name).isSome →
        String.ofList name ∈ names := by
  unfold sortedNames at run
  obtain ⟨isDirectory, asked, run⟩ := answer_bind_ok run
  have asked : (s.isDirectory dir).run = isDirectory := Except.ok.inj asked
  cases isDirectory with
  | false =>
      cases run
      refine ⟨List.forall_mem_nil _, fun e name leads _ next => ?_⟩
      obtain ⟨next, step⟩ := Option.isSome_iff_exists.mp next
      rw [(run_isDirectory shows dir).mpr ⟨e, leads, Disk.directory_of_step step⟩] at asked
      cases asked
  | true =>
      obtain ⟨e, leads, directory⟩ := (run_isDirectory shows dir).mp asked
      obtain ⟨listing, asked', run⟩ := answer_bind_ok run
      have listed : disk.listing e = listing :=
        (shows.names dir e leads directory).symm.trans (Except.ok.inj asked')
      cases listing with
      | error fault => cases run
      | ok all =>
          cases run
          simp only [List.mem_mergeSort]
          refine ⟨fun name mem => disk.isEntryName listed mem, fun e' name leads' isName next => ?_⟩
          rw [leads] at leads'
          cases leads'
          rw [Disk.step_name isName, if_pos directory] at next
          exact disk.mem_listing listed next

/-! ### Directories below a directory -/

/-- What the path of an entry below a directory says, and where it leads. -/
structure IsBelow (disk : Disk) (dir : String) (pieces : List (List Char)) (path : String) : Prop where
  text : path ≠ ""
  absolute : isAbsolute path.toList = isAbsolute dir.toList
  spoken : spoken path = Batch.spoken dir ++ pieces
  notDot : samePath path "." = false
  undotted : IsDot dir ∨ Undotted dir → Undotted path
  leads : disk.locate path = (disk.locate dir).bind (disk.walk pieces)

theorem IsEntryName.spoken (isName : IsEntryName name) : spoken (String.ofList name) = [name] := by
  rw [spoken_of_solid (by simpa using isName.solid), String.toList_ofList, isName.speaks]
  rfl

theorem IsEntryName.canFollow (isName : IsEntryName name) : CanFollow dir (String.ofList name) := by
  rintro - empty
  have speaks := isName.speaks
  rw [← String.toList_ofList (l := name), empty] at speaks
  cases speaks

/-- The path of an entry has no dot at its front, if its directory has none or is that dot. -/
theorem undotted_entryPath (text : dir ≠ "") (solid : '/' ∉ name) (speaks : isSilent name = false)
    (front : IsDot dir ∨ Undotted dir) : Undotted (entryPath dir (String.ofList name)) := by
  have solid' : '/' ∉ (String.ofList name).toList := by simpa using solid
  by_cases dot : IsDot dir
  · rw [entryPath_of_isDot dot, Undotted, segments_of_solid solid', String.toList_ofList]
    rintro ⟨⟩
    cases speaks
  · rw [entryPath_of_not_isDot dot]
    exact (undotted_join text (isAbsolute_of_solid solid')).mpr (front.resolve_left dot)

theorem isBelow_entryPath (disk : Disk) (text : dir ≠ "") (isName : IsEntryName name) :
    IsBelow disk dir [name] (entryPath dir (String.ofList name)) := by
  have solid : '/' ∉ (String.ofList name).toList := by simpa using isName.solid
  have path := extends_entryPath text solid isName.canFollow
  refine ⟨path.text, path.absolute, by rw [path.spoken, isName.spoken], ?_,
    undotted_entryPath text isName.solid isName.speaks, ?_⟩
  · rw [Bool.eq_false_iff]
    intro dot
    have silent := (path.isDot.mp dot).2
    rw [String.toList_ofList, isName.speaks] at silent
    cases silent
  · rw [Disk.locate_entryPath text solid isName.canFollow, String.toList_ofList]
    exact congrArg _ (funext fun e => (Option.bind_fun_some _).symm)

theorem IsBelow.trans (h : IsBelow disk dir pieces path) {last : String} (h' : IsBelow disk path more last) :
    IsBelow disk dir (pieces ++ more) last where
  text := h'.text
  absolute := h'.absolute.trans h.absolute
  spoken := by rw [h'.spoken, h.spoken, List.append_assoc]
  notDot := h'.notDot
  undotted := fun front => h'.undotted (.inr (h.undotted front))
  leads := by
    rw [h'.leads, h.leads, Option.bind_assoc]
    exact congrArg _ (funext fun e => Disk.walk_append.symm)

/-- An entry that is visited below a directory: the directories on the way, its name and its path. -/
structure IsVisited (disk : Disk) (depth : Nat) (dir : String) (dirs : List (List Char)) (name : List Char)
    (path : String) : Prop where
  shallow : dirs.length < depth
  names : ∀ dir ∈ dirs, IsEntryName dir
  isName : IsEntryName name
  below : IsBelow disk dir (dirs ++ [name]) path

section Visiting

variable {visit : String → String → ExceptT Obstacle Id (List String)} {depth : Nat} {here : List String}

theorem answer_visitBelow_ok (run : answer (visitBelow s visit (depth + 1) dir) = .ok found) :
    ∃ names, answer (sortedNames s dir) = .ok names ∧
      (∀ p, p ∈ found ↔ ∃ name ∈ names, ∃ here below, answer (visit name (entryPath dir name)) = .ok here ∧
        answer (visitBelow s visit depth (entryPath dir name)) = .ok below ∧ (p ∈ here ∨ p ∈ below)) ∧
      ∀ name ∈ names, ∃ here below, answer (visit name (entryPath dir name)) = .ok here ∧
        answer (visitBelow s visit depth (entryPath dir name)) = .ok below := by
  unfold visitBelow at run
  obtain ⟨names, listed, run⟩ := answer_bind_ok run
  obtain ⟨collected, visited, run⟩ := answer_bind_ok run
  cases run
  rw [answer_mapM] at visited
  have one (name : String) (all : List String)
      (eq : answer (do
        let here ← visit name (entryPath dir name)
        let below ← visitBelow s visit depth (entryPath dir name)
        return here ++ below) = .ok all) :
      ∃ here below, answer (visit name (entryPath dir name)) = .ok here ∧
        answer (visitBelow s visit depth (entryPath dir name)) = .ok below ∧ all = here ++ below := by
    obtain ⟨here, first, eq⟩ := answer_bind_ok eq
    obtain ⟨below, second, eq⟩ := answer_bind_ok eq
    cases eq
    exact ⟨here, below, first, second, rfl⟩
  refine ⟨names, listed, fun p => ?_, fun name mem => ?_⟩
  · rw [mem_flatten_mapM visited]
    refine exists_congr fun name => and_congr_right fun _ => ?_
    constructor
    · rintro ⟨all, eq, mem⟩
      obtain ⟨here, below, first, second, rfl⟩ := one name all eq
      exact ⟨here, below, first, second, List.mem_append.mp mem⟩
    · rintro ⟨here, below, first, second, mem⟩
      refine ⟨here ++ below, ?_, List.mem_append.mpr mem⟩
      rw [answer_bind, first]
      change answer (visitBelow s visit depth (entryPath dir name) >>= _) = _
      rw [answer_bind, second]
      rfl
  · obtain ⟨all, eq⟩ := exists_of_mapM visited mem
    obtain ⟨here, below, first, second, -⟩ := one name all eq
    exact ⟨here, below, first, second⟩

/-- What is found below a directory is found at an entry there. -/
theorem exists_of_mem_visitBelow (shows : Shows s disk) (text : dir ≠ "")
    (run : answer (visitBelow s visit depth dir) = .ok found) (mem : path ∈ found) :
    ∃ dirs name entry here, IsVisited disk depth dir dirs name entry ∧
      answer (visit (String.ofList name) entry) = .ok here ∧ path ∈ here := by
  induction depth generalizing dir found with
  | zero =>
      cases run
      cases mem
  | succ depth ih =>
      obtain ⟨names, listed, mem', -⟩ := answer_visitBelow_ok run
      obtain ⟨name, isListed, here, below, first, second, mem⟩ := (mem' path).mp mem
      have isName := (sortedNames_ok shows listed).1 name isListed
      have entry := isBelow_entryPath disk text isName
      rw [String.ofList_toList] at entry
      rcases mem with mem | mem
      · refine ⟨[], name.toList, _, here, ⟨Nat.succ_pos _, List.forall_mem_nil _, isName, entry⟩, ?_, mem⟩
        rwa [String.ofList_toList]
      · obtain ⟨dirs, last, path', here', visited, run', mem'⟩ := ih entry.text second mem
        refine ⟨name.toList :: dirs, last, path', here', ⟨?_, ?_, visited.isName, ?_⟩, run', mem'⟩
        · exact Nat.succ_lt_succ visited.shallow
        · exact List.forall_mem_cons.mpr ⟨isName, visited.names⟩
        · exact entry.trans visited.below

/-- Each entry below a directory is visited, if it is not too deep. -/
theorem exists_visited (shows : Shows s disk) (text : dir ≠ "")
    (run : answer (visitBelow s visit depth dir) = .ok found) {dirs : List (List Char)}
    (shallow : dirs.length < depth) (names : ∀ dir ∈ dirs, IsEntryName dir) (isName : IsEntryName name)
    (leads : ((disk.locate dir).bind (disk.walk (dirs ++ [name]))).isSome) :
    ∃ entry here, IsVisited disk depth dir dirs name entry ∧
      answer (visit (String.ofList name) entry) = .ok here ∧ ∀ path ∈ here, path ∈ found := by
  -- The directories in between are listed one in the other, so the entry is visited where they end.
  induction dirs generalizing depth dir found with
  | nil =>
      obtain ⟨depth, rfl⟩ := Nat.exists_eq_add_one.mpr shallow
      obtain ⟨all, listed, mem, run'⟩ := answer_visitBelow_ok run
      obtain ⟨last, leads⟩ := Option.isSome_iff_exists.mp leads
      obtain ⟨e, here, walked⟩ := Option.bind_eq_some_iff.mp leads
      obtain ⟨next, step, -⟩ := Option.bind_eq_some_iff.mp walked
      have isListed := (sortedNames_ok shows listed).2 e name here isName.toIsName (by rw [step]; rfl)
      obtain ⟨found', below, first, second⟩ := run' _ isListed
      refine ⟨_, found', ⟨shallow, names, isName, isBelow_entryPath disk text isName⟩, first, fun p mem' => ?_⟩
      exact (mem p).mpr ⟨_, isListed, found', below, first, second, .inl mem'⟩
  | cons first' rest ih =>
      obtain ⟨depth, rfl⟩ := Nat.exists_eq_add_one.mpr (Nat.zero_lt_of_lt shallow)
      obtain ⟨isName', names'⟩ := List.forall_mem_cons.mp names
      obtain ⟨all, listed, mem, run'⟩ := answer_visitBelow_ok run
      have entry := isBelow_entryPath disk text isName'
      have onward : ((disk.locate (entryPath dir (String.ofList first'))).bind
          (disk.walk (rest ++ [name]))).isSome := by
        rw [entry.leads, Option.bind_assoc]
        rw [List.cons_append] at leads
        have walked (e : disk.Entry) : (disk.walk [first'] e).bind (disk.walk (rest ++ [name])) =
            disk.walk (first' :: (rest ++ [name])) e := Disk.walk_append.symm
        simpa only [walked] using leads
      obtain ⟨next, leads'⟩ := Option.isSome_iff_exists.mp onward
      obtain ⟨e', here', -⟩ := Option.bind_eq_some_iff.mp leads'
      rw [entry.leads] at here'
      obtain ⟨e, here, walked⟩ := Option.bind_eq_some_iff.mp here'
      obtain ⟨next', step, -⟩ := Option.bind_eq_some_iff.mp walked
      have isListed := (sortedNames_ok shows listed).2 e first' here isName'.toIsName (by rw [step]; rfl)
      obtain ⟨found', below, first, second⟩ := run' _ isListed
      obtain ⟨path, here'', visited, ran, mem'⟩ :=
        ih entry.text second (Nat.lt_of_succ_lt_succ shallow) names' onward
      refine ⟨path, here'', ⟨shallow, names, isName, entry.trans visited.below⟩, ran, fun p isHere => ?_⟩
      exact (mem p).mpr ⟨_, isListed, found', below, first, second, .inr (mem' p isHere)⟩

end Visiting

/-! ### One piece of a path -/

/-- Whether pieces lead from a path to an entry. -/
def LeadsTo (disk : Disk) (target : disk.Entry) (dir : String) (pieces : List (List Char)) : Prop :=
  (disk.locate dir).bind (disk.walk pieces) = some target

/-- Whether a path goes on from another one by some pieces and leads to an entry. -/
structure IsFound (disk : Disk) (target : disk.Entry) (dir : String) (pieces : List (List Char))
    (path : String) : Prop where
  absolute : isAbsolute path.toList = isAbsolute dir.toList
  spoken : spoken path = Batch.spoken dir ++ pieces
  leads : disk.locate path = some target

/-- Whether a path goes on from another one by one piece, and leads where the piece leads. -/
structure IsEntry (disk : Disk) (dir : String) (name : List Char) (entry : String) : Prop
    extends Extends dir (String.ofList name) entry where
  solid : '/' ∉ name
  leads : disk.locate entry = (disk.locate dir).bind fun e => disk.step e name

theorem isEntry_join (text : dir ≠ "") (solid : '/' ∉ name) :
    IsEntry disk dir name (join dir (String.ofList name)) := by
  have solid' : '/' ∉ (String.ofList name).toList := by simpa using solid
  refine ⟨extends_join text solid', solid, ?_⟩
  rw [Disk.locate_join text solid', String.toList_ofList]

theorem isEntry_entryPath (disk : Disk) (text : dir ≠ "") (solid : '/' ∉ name)
    (follow : CanFollow dir (String.ofList name)) :
    IsEntry disk dir name (entryPath dir (String.ofList name)) := by
  have solid' : '/' ∉ (String.ofList name).toList := by simpa using solid
  refine ⟨extends_entryPath text solid' follow, solid, ?_⟩
  rw [Disk.locate_entryPath text solid' follow, String.toList_ofList]

namespace IsEntry

variable {entry : String}

theorem spoken_eq (h : IsEntry disk dir name entry) :
    Batch.spoken entry = Batch.spoken dir ++ if isSilent name then [] else [name] := by
  have solid : '/' ∉ (String.ofList name).toList := by simpa using h.solid
  rw [h.spoken, spoken_of_solid solid, String.toList_ofList]

theorem samePath_dot (h : IsEntry disk dir name entry) :
    samePath entry "." = (samePath dir "." && isSilent name) := by
  have dot := h.isDot
  rw [String.toList_ofList] at dot
  rw [Bool.eq_iff_iff, Bool.and_eq_true]
  exact dot

theorem isFound_silent (h : IsEntry disk dir name entry) (silent : isSilent name = true) :
    IsFound disk target entry pieces path ↔ IsFound disk target dir pieces path := by
  have spoken := h.spoken_eq
  rw [if_pos silent, List.append_nil] at spoken
  constructor
  · exact fun found => ⟨found.absolute.trans h.absolute, spoken ▸ found.spoken, found.leads⟩
  · exact fun found => ⟨found.absolute.trans h.absolute.symm, spoken ▸ found.spoken, found.leads⟩

theorem isFound_speaks (h : IsEntry disk dir name entry) (speaks : isSilent name = false) :
    IsFound disk target entry pieces path ↔ IsFound disk target dir (name :: pieces) path := by
  have spoken : Batch.spoken entry ++ pieces = Batch.spoken dir ++ name :: pieces := by
    rw [h.spoken_eq, speaks, if_neg Bool.false_ne_true, List.append_assoc, List.singleton_append]
  constructor
  · exact fun found => ⟨found.absolute.trans h.absolute, found.spoken.trans spoken, found.leads⟩
  · exact fun found => ⟨found.absolute.trans h.absolute.symm, found.spoken.trans spoken.symm, found.leads⟩

/-- Behind a silent piece a file is only reached by going on. -/
theorem leadsTo_silent (h : IsEntry disk dir name entry) (silent : isSilent name = true)
    (isFile : disk.kind target ≠ .directory) :
    LeadsTo disk target entry pieces ↔ LeadsTo disk target dir pieces ∧ pieces ≠ [] := by
  unfold LeadsTo
  rw [h.leads, Option.bind_assoc]
  cases disk.locate dir with
  | none => simp
  | some e =>
      simp only [Option.bind_some]
      rw [Disk.step_silent silent]
      constructor
      · intro leads
        obtain ⟨next, step, leads⟩ := Option.bind_eq_some_iff.mp leads
        split at step <;> cases step
        rename_i directory
        refine ⟨leads, ?_⟩
        rintro rfl
        cases leads
        exact isFile directory
      · rintro ⟨leads, nonempty⟩
        rw [if_pos (Disk.directory_of_walk nonempty leads)]
        exact leads

theorem leadsTo_speaks (h : IsEntry disk dir name entry) :
    LeadsTo disk target entry pieces ↔ LeadsTo disk target dir (name :: pieces) := by
  unfold LeadsTo
  rw [h.leads, Option.bind_assoc]
  exact Iff.rfl

end IsEntry

theorem IsBelow.isFound {more : List (List Char)} {last : String} (h : IsBelow disk dir pieces path) :
    IsFound disk target path more last ↔ IsFound disk target dir (pieces ++ more) last := by
  have spoken : Batch.spoken path ++ more = Batch.spoken dir ++ (pieces ++ more) := by
    rw [h.spoken, List.append_assoc]
  constructor
  · exact fun found => ⟨found.absolute.trans h.absolute, found.spoken.trans spoken, found.leads⟩
  · exact fun found => ⟨found.absolute.trans h.absolute.symm, found.spoken.trans spoken.symm, found.leads⟩

theorem IsBelow.leadsTo {more : List (List Char)} (h : IsBelow disk dir pieces path) :
    LeadsTo disk target path more ↔ LeadsTo disk target dir (pieces ++ more) := by
  unfold LeadsTo
  rw [h.leads, Option.bind_assoc]
  have walked (e : disk.Entry) : (disk.walk pieces e).bind (disk.walk more) = disk.walk (pieces ++ more) e :=
    Disk.walk_append.symm
  simp only [walked]

/-! ### All parts of a pattern -/

/-- Whether the paths that are found from a path lead to a file exactly as far as the parts of a pattern cover
the pieces that lead there. -/
structure IsExact (disk : Disk) (target : disk.Entry) (parts : List PatternPart) (dir : String)
    (found : List String) : Prop where
  sound : ∀ path ∈ found, disk.locate path = some target →
    ∃ pieces, IsFound disk target dir pieces path ∧ Covers (samePath dir ".") parts pieces ∧
      LeadsTo disk target dir pieces
  complete : ∀ pieces, Covers (samePath dir ".") parts pieces → LeadsTo disk target dir pieces →
    ∃ path ∈ found, IsFound disk target dir pieces path

theorem isExact_nil (dir : String) : IsExact disk target [] dir [dir] where
  sound := by
    intro path mem leads
    obtain rfl := List.mem_singleton.mp mem
    exact ⟨[], ⟨rfl, (List.append_nil _).symm, leads⟩, .done, by simp [LeadsTo, leads]⟩
  complete := by
    intro pieces covers leads
    cases covers
    refine ⟨dir, List.mem_singleton_self dir, rfl, (List.append_nil _).symm, ?_⟩
    exact (Option.bind_fun_some _).symm.trans leads

/-- A part without wildcards is looked for by its name. -/
theorem answer_pathsFrom_literal (shows : Shows s disk) (text : dir ≠ "") (solid : '/' ∉ name)
    (rest : List PatternPart) :
    answer (pathsFrom s (.literal name :: rest) dir) =
      if (disk.locate (entryPath dir (String.ofList name))).isSome then
        answer (pathsFrom s rest (entryPath dir (String.ofList name)))
      else .ok [] := by
  by_cases dots : (name == ['.'] || name == ['.', '.']) = true
  · have known : (s.isDirectory dir).run = (disk.locate (entryPath dir (String.ofList name))).isSome := by
      have follow : CanFollow dir (String.ofList name) := by
        rintro - empty
        rw [← String.toList_ofList (l := name), empty] at dots
        cases dots
      rw [(isEntry_entryPath disk text solid follow).leads, Bool.eq_iff_iff, run_isDirectory shows]
      cases disk.locate dir with
      | none => simp
      | some e =>
          rw [Bool.or_eq_true_iff, beq_iff_eq, beq_iff_eq] at dots
          by_cases directory : disk.kind e = .directory
          · rcases dots with rfl | rfl <;> simp [Disk.step, directory, isSilent]
          · simp [Disk.step_of_not_directory directory, directory]
    rw [← known]
    rw [pathsFrom, if_pos dots, answer_bind]
    change answer (if (s.isDirectory dir).run = true then _ else _) = _
    split <;> rfl
  · rw [← run_isThere shows, pathsFrom, if_neg dots, answer_bind]
    change answer (if (s.isThere _).run = true then _ else _) = _
    split <;> rfl

section BehindPiece

variable {rest : List PatternPart} {entry : String} {here : List String} (h : IsExact disk target rest entry here)
  (isEntry : IsEntry disk dir name entry)
include h isEntry

/-- What is found behind a silent piece is found without it. -/
theorem IsExact.sound_silent (silent : isSilent name = true) (isFile : disk.kind target ≠ .directory)
    (mem : path ∈ here) (leads : disk.locate path = some target) :
    ∃ pieces, IsFound disk target dir pieces path ∧ pieces ≠ [] ∧ Covers (samePath dir ".") rest pieces ∧
      LeadsTo disk target dir pieces := by
  obtain ⟨pieces, isFound, covers, leadsTo⟩ := h.sound path mem leads
  obtain ⟨leadsTo, nonempty⟩ := (isEntry.leadsTo_silent silent isFile).mp leadsTo
  rw [isEntry.samePath_dot, silent, Bool.and_true] at covers
  exact ⟨pieces, (isEntry.isFound_silent silent).mp isFound, nonempty, covers, leadsTo⟩

/-- What is found behind any other piece is found with it. -/
theorem IsExact.sound_speaks (speaks : isSilent name = false) (mem : path ∈ here)
    (leads : disk.locate path = some target) :
    ∃ pieces, IsFound disk target dir (name :: pieces) path ∧ Covers false rest pieces ∧
      LeadsTo disk target dir (name :: pieces) := by
  obtain ⟨pieces, isFound, covers, leadsTo⟩ := h.sound path mem leads
  rw [isEntry.samePath_dot, speaks, Bool.and_false] at covers
  exact ⟨pieces, (isEntry.isFound_speaks speaks).mp isFound, covers, isEntry.leadsTo_speaks.mp leadsTo⟩

theorem IsExact.complete_silent (silent : isSilent name = true) (isFile : disk.kind target ≠ .directory)
    (nonempty : pieces ≠ []) (covers : Covers (samePath dir ".") rest pieces)
    (leadsTo : LeadsTo disk target dir pieces) : ∃ path ∈ here, IsFound disk target dir pieces path := by
  rw [← Bool.and_true (samePath dir "."), ← silent, ← isEntry.samePath_dot] at covers
  obtain ⟨path, mem, isFound⟩ :=
    h.complete pieces covers ((isEntry.leadsTo_silent silent isFile).mpr ⟨leadsTo, nonempty⟩)
  exact ⟨path, mem, (isEntry.isFound_silent silent).mp isFound⟩

theorem IsExact.complete_speaks (speaks : isSilent name = false) (covers : Covers false rest pieces)
    (leadsTo : LeadsTo disk target dir (name :: pieces)) :
    ∃ path ∈ here, IsFound disk target dir (name :: pieces) path := by
  rw [← Bool.and_false (samePath dir "."), ← speaks, ← isEntry.samePath_dot] at covers
  obtain ⟨path, mem, isFound⟩ := h.complete pieces covers (isEntry.leadsTo_speaks.mpr leadsTo)
  exact ⟨path, mem, (isEntry.isFound_speaks speaks).mp isFound⟩

end BehindPiece

/-- Paths that are found behind one piece. -/
theorem IsExact.literal {rest : List PatternPart} {entry : String}
    (h : IsExact disk target rest entry found) (isEntry : IsEntry disk dir name entry)
    (follow : samePath dir "." = true → name ≠ []) (isFile : disk.kind target ≠ .directory) :
    IsExact disk target (.literal name :: rest) dir found where
  sound := by
    intro path mem leads
    cases silent : isSilent name with
    | true =>
        obtain ⟨pieces, isFound, nonempty, covers, leadsTo⟩ := h.sound_silent isEntry silent isFile mem leads
        exact ⟨pieces, isFound, .silent silent follow nonempty covers, leadsTo⟩
    | false =>
        obtain ⟨pieces, isFound, covers, leadsTo⟩ := h.sound_speaks isEntry silent mem leads
        exact ⟨name :: pieces, isFound, .literal silent covers, leadsTo⟩
  complete := by
    intro pieces covers leadsTo
    cases covers with
    | silent silent _ nonempty covers => exact h.complete_silent isEntry silent isFile nonempty covers leadsTo
    | literal speaks covers => exact h.complete_speaks isEntry speaks covers leadsTo

/-- Where a part without wildcards leads nowhere there is nothing. -/
theorem isExact_literal_none {rest : List PatternPart} (text : dir ≠ "") (solid : '/' ∉ name)
    (none : disk.locate (entryPath dir (String.ofList name)) = none)
    (isFile : disk.kind target ≠ .directory) : IsExact disk target (.literal name :: rest) dir [] where
  sound := fun path mem => absurd mem List.not_mem_nil
  complete := by
    have nowhere (follow : CanFollow dir (String.ofList name)) {pieces : List (List Char)} :
        ¬LeadsTo disk target (entryPath dir (String.ofList name)) pieces := by
      unfold LeadsTo
      rw [none]
      nofun
    intro pieces covers leadsTo
    cases covers with
    | silent silent follow nonempty covers =>
        have follow : CanFollow dir (String.ofList name) := fun dot empty =>
          follow dot (by simpa using congrArg String.toList empty)
        have isEntry := isEntry_entryPath disk text solid follow
        exact absurd ((isEntry.leadsTo_silent silent isFile).mpr ⟨leadsTo, nonempty⟩) (nowhere follow)
    | literal speaks covers =>
        have follow : CanFollow dir (String.ofList name) := by
          rintro - empty
          rw [← String.toList_ofList (l := name), empty] at speaks
          cases speaks
        have isEntry := isEntry_entryPath disk text solid follow
        exact absurd (isEntry.leadsTo_speaks.mpr leadsTo) (nowhere follow)

/-- The names that a part with wildcards is followed through, each with the path of its entry: the names in a
directory that are of its form, and the steps `.` and `..` of a directory if it asks for them. -/
inductive Follows (s : Snapshot) (dir : String) (tokens : List PatternToken) : List Char → String → Prop
  | step {name : List Char} : name = ['.', '.'] ∨ name = ['.'] → fitsSpecial tokens name = true →
      (s.isDirectory dir).run = true → Follows s dir tokens name (join dir (String.ofList name))
  | name {names : List String} {name : String} : answer (sortedNames s dir) = .ok names → name ∈ names →
      Pattern.fits tokens name.toList = true → Follows s dir tokens name.toList (entryPath dir name)

section Wildcards

variable {tokens : List PatternToken} {rest : List PatternPart} {entry : String}

theorem Follows.isEntry (h : Follows s dir tokens name entry) (shows : Shows s disk) (text : dir ≠ "") :
    IsEntry disk dir name entry := by
  cases h with
  | step isStep _ _ => exact isEntry_join text (by rcases isStep with rfl | rfl <;> decide)
  | @name names name listed mem _ =>
      have isName := (sortedNames_ok shows listed).1 name mem
      have isEntry := isEntry_entryPath disk text isName.solid isName.canFollow
      rwa [String.ofList_toList] at isEntry

theorem answer_pathsFrom_wildcard_ok (run : answer (pathsFrom s (.wildcard tokens :: rest) dir) = .ok found) :
    (∃ names, answer (sortedNames s dir) = .ok names) ∧
      (∀ path, path ∈ found ↔ ∃ name entry here, Follows s dir tokens name entry ∧
        answer (pathsFrom s rest entry) = .ok here ∧ path ∈ here) ∧
      ∀ name entry, Follows s dir tokens name entry → ∃ here, answer (pathsFrom s rest entry) = .ok here := by
  rw [pathsFrom] at run
  obtain ⟨names, listed, run⟩ := answer_bind_ok run
  obtain ⟨isDirectory, asked, run⟩ := answer_bind_ok run
  obtain ⟨outside, ranOutside, run⟩ := answer_bind_ok run
  obtain ⟨inside, ranInside, run⟩ := answer_bind_ok run
  cases run
  rw [answer_mapM] at ranOutside ranInside
  obtain rfl : (s.isDirectory dir).run = isDirectory := Except.ok.inj asked
  have mem_steps (name : List Char) :
      name ∈ (if (s.isDirectory dir).run = true then [['.', '.'], ['.']].filter (fitsSpecial tokens) else []) ↔
        (name = ['.', '.'] ∨ name = ['.']) ∧ fitsSpecial tokens name = true ∧
          (s.isDirectory dir).run = true := by
    split
    · rename_i directory
      simp [directory]
    · rename_i other
      simp [other]
  refine ⟨⟨names, listed⟩, fun path => ?_, fun name entry follows => ?_⟩
  · rw [List.mem_append, mem_flatten_mapM ranOutside, mem_flatten_mapM ranInside]
    constructor
    · rintro (⟨name, mem, here, ran, mem'⟩ | ⟨name, mem, here, ran, mem'⟩)
      · obtain ⟨isStep, fits, directory⟩ := (mem_steps name).mp mem
        exact ⟨name, _, here, .step isStep fits directory, ran, mem'⟩
      · obtain ⟨mem, fits⟩ := List.mem_filter.mp mem
        exact ⟨_, _, here, .name listed mem fits, ran, mem'⟩
    · rintro ⟨name, entry, here, follows, ran, mem'⟩
      cases follows with
      | step isStep fits directory =>
          exact .inl ⟨name, (mem_steps name).mpr ⟨isStep, fits, directory⟩, here, ran, mem'⟩
      | name listed' mem fits =>
          rw [listed] at listed'
          cases listed'
          exact .inr ⟨_, List.mem_filter.mpr ⟨mem, fits⟩, here, ran, mem'⟩
  · cases follows with
    | step isStep fits directory =>
        obtain ⟨here, ran⟩ := exists_of_mapM ranOutside ((mem_steps name).mpr ⟨isStep, fits, directory⟩)
        exact ⟨here, ran⟩
    | name listed' mem fits =>
        rw [listed] at listed'
        cases listed'
        obtain ⟨here, ran⟩ := exists_of_mapM ranInside (List.mem_filter.mpr ⟨mem, fits⟩)
        exact ⟨here, ran⟩

/-- A part with wildcards is looked for among the names in a directory, and as one of the steps `.` and `..`. -/
theorem isExact_wildcard (shows : Shows s disk) (isFile : disk.kind target ≠ .directory) (text : dir ≠ "")
    (ih : ∀ entry found, entry ≠ "" → answer (pathsFrom s rest entry) = .ok found →
      IsExact disk target rest entry found)
    (run : answer (pathsFrom s (.wildcard tokens :: rest) dir) = .ok found) :
    IsExact disk target (.wildcard tokens :: rest) dir found := by
  obtain ⟨⟨names, listed⟩, mem_found, runs⟩ := answer_pathsFrom_wildcard_ok run
  obtain ⟨areNames, isListed⟩ := sortedNames_ok shows listed
  constructor
  case sound =>
    intro path mem leads
    obtain ⟨name, entry, here, follows, ran, mem⟩ := (mem_found path).mp mem
    have isEntry : IsEntry disk dir name entry := follows.isEntry shows text
    have exact := ih entry here isEntry.text ran
    cases follows with
    | step isStep fits _ =>
        rcases isStep with rfl | rfl
        · obtain ⟨pieces, isFound, covers, leadsTo⟩ := exact.sound_speaks isEntry rfl mem leads
          exact ⟨_, isFound, .up fits covers, leadsTo⟩
        · obtain ⟨pieces, isFound, nonempty, covers, leadsTo⟩ := exact.sound_silent isEntry rfl isFile mem leads
          exact ⟨pieces, isFound, .dot fits nonempty covers, leadsTo⟩
    | name listed' mem' fits =>
        have isName := (sortedNames_ok shows listed').1 _ mem'
        obtain ⟨pieces, isFound, covers, leadsTo⟩ := exact.sound_speaks isEntry isName.speaks mem leads
        exact ⟨_, isFound, .wildcard isName fits covers, leadsTo⟩
  case complete =>
    intro pieces covers leadsTo
    -- The steps are only looked at in a directory, which it is if pieces go on from it.
    have directory (nonempty : pieces ≠ []) : (s.isDirectory dir).run = true := by
      obtain ⟨e, here, walked⟩ := Option.bind_eq_some_iff.mp leadsTo
      exact (run_isDirectory shows dir).mpr ⟨e, here, Disk.directory_of_walk nonempty walked⟩
    have reaches {name : List Char} {entry : String} (follows : Follows s dir tokens name entry)
        (complete : ∀ here, IsExact disk target rest entry here → IsEntry disk dir name entry →
          ∃ path ∈ here, IsFound disk target dir pieces path) :
        ∃ path ∈ found, IsFound disk target dir pieces path := by
      obtain ⟨here, ran⟩ := runs name entry follows
      have isEntry : IsEntry disk dir name entry := follows.isEntry shows text
      obtain ⟨path, mem, isFound⟩ := complete here (ih entry here isEntry.text ran) isEntry
      exact ⟨path, (mem_found path).mpr ⟨name, entry, here, follows, ran, mem⟩, isFound⟩
    cases covers with
    | wildcard isName fits covers =>
        rename_i name pieces
        obtain ⟨e, here, walked⟩ := Option.bind_eq_some_iff.mp leadsTo
        obtain ⟨next, step, -⟩ := Option.bind_eq_some_iff.mp walked
        have mem := isListed e name here isName.toIsName (by rw [step]; rfl)
        have follows : Follows s dir tokens (String.ofList name).toList (entryPath dir (String.ofList name)) :=
          .name listed mem (by rwa [String.toList_ofList])
        rw [String.toList_ofList] at follows
        exact reaches follows fun here exact isEntry => exact.complete_speaks isEntry isName.speaks covers leadsTo
    | dot fits nonempty covers =>
        exact reaches (.step (.inr rfl) fits (directory nonempty)) fun here exact isEntry =>
          exact.complete_silent isEntry rfl isFile nonempty covers leadsTo
    | up fits covers =>
        exact reaches (.step (.inl rfl) fits (directory (List.cons_ne_nil _ _))) fun here exact isEntry =>
          exact.complete_speaks isEntry rfl covers leadsTo

end Wildcards

/-- The part for any directories, in front of another part, is looked for below a directory. -/
theorem isExact_directories (shows : Shows s disk) (text : dir ≠ "") {part : PatternPart}
    {rest : List PatternPart}
    (ih : ∀ entry found, entry ≠ "" → answer (pathsFrom s rest entry) = .ok found →
      IsExact disk target rest entry found)
    (run : answer (pathsFrom s (.directories :: part :: rest) dir) = .ok found) :
    IsExact disk target (.directories :: part :: rest) dir found := by
  rw [pathsFrom] at run
  constructor
  case sound =>
    intro path mem leads
    obtain ⟨dirs, name, entry, here, visited, ran, mem⟩ := exists_of_mem_visitBelow shows text run mem
    rw [String.toList_ofList] at ran
    split at ran
    · rename_i fits
      obtain ⟨pieces, isFound, covers, leadsTo⟩ := (ih entry here visited.below.text ran).sound path mem leads
      rw [visited.below.notDot] at covers
      have isFound := visited.below.isFound.mp isFound
      have leadsTo := visited.below.leadsTo.mp leadsTo
      rw [List.append_assoc] at isFound leadsTo
      exact ⟨_, isFound, .directories visited.shallow visited.names visited.isName fits covers, leadsTo⟩
    · cases ran
      cases mem
  case complete =>
    intro pieces covers leadsTo
    cases covers with
    | directories shallow names isName fits covers =>
        rename_i dirs name pieces
        have leads : ((disk.locate dir).bind (disk.walk (dirs ++ [name]))).isSome := by
          obtain ⟨e, here, walked⟩ := Option.bind_eq_some_iff.mp leadsTo
          rw [← List.singleton_append, ← List.append_assoc, Disk.walk_append] at walked
          obtain ⟨next, walked, -⟩ := Option.bind_eq_some_iff.mp walked
          rw [here, Option.bind_some, walked]
          rfl
        obtain ⟨entry, here, visited, ran, mem⟩ := exists_visited shows text run shallow names isName leads
        rw [String.toList_ofList, if_pos fits] at ran
        rw [← List.singleton_append, ← List.append_assoc] at leadsTo ⊢
        rw [← visited.below.notDot] at covers
        obtain ⟨path, mem', isFound⟩ :=
          (ih entry here visited.below.text ran).complete _ covers (visited.below.leadsTo.mpr leadsTo)
        exact ⟨path, mem path mem', visited.below.isFound.mp isFound⟩

/-- A pattern that ends with the part for any directories names directories only. -/
theorem isExact_onlyDirectories (shows : Shows s disk) (isFile : disk.kind target ≠ .directory)
    (text : dir ≠ "") (run : answer (pathsFrom s [.directories] dir) = .ok found) :
    IsExact disk target [.directories] dir found where
  sound := by
    intro path mem leads
    rw [pathsFrom] at run
    obtain ⟨dirs, name, entry, here, visited, ran, mem⟩ := exists_of_mem_visitBelow shows text run mem
    obtain ⟨isDirectory, asked, ran⟩ := answer_bind_ok ran
    have asked : (s.isDirectory entry).run = isDirectory := Except.ok.inj asked
    cases isDirectory with
    | false =>
        cases ran
        cases mem
    | true =>
        cases ran
        obtain rfl := List.mem_singleton.mp mem
        obtain ⟨e, there, directory⟩ := (run_isDirectory shows _).mp asked
        rw [leads] at there
        cases there
        exact absurd directory isFile
  complete := nofun

/-- The parts of a pattern find the files whose pieces they cover. -/
theorem isExact_pathsFrom (shows : Shows s disk) (isFile : disk.kind target ≠ .directory)
    (parts : List PatternPart) (dir : String) (text : dir ≠ "")
    (solid : ∀ name, .literal name ∈ parts → '/' ∉ name) {found : List String}
    (run : answer (pathsFrom s parts dir) = .ok found) : IsExact disk target parts dir found := by
  match parts with
  | [] =>
      rw [pathsFrom] at run
      cases run
      exact isExact_nil dir
  | .literal name :: rest =>
      have isSolid := solid name (List.mem_cons_self ..)
      rw [answer_pathsFrom_literal shows text isSolid] at run
      cases leads : disk.locate (entryPath dir (String.ofList name)) with
      | none =>
          rw [leads] at run
          cases run
          exact isExact_literal_none text isSolid leads isFile
      | some e =>
          rw [leads, if_pos (by rfl)] at run
          have follow : CanFollow dir (String.ofList name) := by
            intro dot empty
            rw [entryPath_of_isDot dot, empty] at leads
            cases leads
          have isEntry := isEntry_entryPath disk text isSolid follow
          have follow : samePath dir "." = true → name ≠ [] := by
            rintro dot rfl
            exact follow dot rfl
          exact (isExact_pathsFrom shows isFile rest _ isEntry.text
            (fun name mem => solid name (List.mem_cons_of_mem _ mem)) run).literal isEntry follow isFile
  | .wildcard tokens :: rest =>
      exact isExact_wildcard shows isFile text (fun entry found text run =>
        isExact_pathsFrom shows isFile rest entry text
          (fun name mem => solid name (List.mem_cons_of_mem _ mem)) run) run
  | [.directories] => exact isExact_onlyDirectories shows isFile text run
  | .directories :: part :: rest =>
      exact isExact_directories shows text (fun entry found text run =>
        isExact_pathsFrom shows isFile rest entry text
          (fun name mem => solid name (List.mem_cons_of_mem _ (List.mem_cons_of_mem _ mem))) run) run

end ComponentLowering.Batch
