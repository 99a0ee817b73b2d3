/-
# Trees as file systems

A file tree in memory is a file system whose files are their locations.  Directories are made where nothing is and
files are put where no directory is, so what was there stays.  There are no links: where a path leads can be told
from its text and from the working directory alone.
-/
import ComponentLowering.Proofs.Batch.FileSystems
import ComponentLowering.Proofs.Lowering.Emission
import Mathlib.Data.List.Induction

namespace ComponentLowering.Batch

open ComponentLowering.Lowering

namespace FileTree

variable {t between t' : FileTree} {home place : Location} {path content : String} {segment : List Char}
  {rewritten more : Location → Prop}

/-! ### Entries -/

theorem lookup_cons_eq (entries : List (Location × TreeEntry)) (key place : Location)
    (entry : TreeEntry) :
    ((key, entry) :: entries).lookup place = if place = key then some entry else entries.lookup place := by
  by_cases same : place = key
  · simp [same]
  · have differ : (place == key) = false := by simpa using same
    rw [List.lookup_cons, differ, if_neg same]

theorem lookup_filter_ne {place other : Location} (entries : List (Location × TreeEntry))
    (differ : other ≠ place) :
    (entries.filter fun e => e.1 != place).lookup other = entries.lookup other := by
  induction entries with
  | nil => rfl
  | cons e rest ih =>
      obtain ⟨key, entry⟩ := e
      rw [lookup_cons_eq]
      by_cases gone : key = place
      · subst gone
        rw [List.filter_cons_of_neg (by simp), ih, if_neg differ]
      · rw [List.filter_cons_of_pos (by simpa using gone), lookup_cons_eq, ih]

/-- Putting an entry somewhere changes what is there, unless the working directory is. -/
theorem find?_put_self (entry : TreeEntry) (free : t.find? place ≠ some .directory) :
    (t.put place entry).find? place = some entry := by
  unfold find? put at *
  dsimp only at *
  split at free
  · exact absurd rfl free
  · rename_i outside
    rw [if_neg outside, lookup_cons_eq, if_pos rfl]

theorem find?_put_of_ne {other : Location} (entry : TreeEntry) (differ : other ≠ place) :
    (t.put place entry).find? other = t.find? other := by
  unfold find? put
  dsimp only
  split
  · rfl
  · rw [lookup_cons_eq, if_neg differ, lookup_filter_ne _ differ]

/-! ### Trees that keep what was there -/

/-- Whether a tree keeps the entries of another one, but for what some files hold. -/
structure Keeps (rewritten : Location → Prop) (t t' : FileTree) : Prop where
  home : t'.home = t.home
  kinds : ∀ place kind, t.kindAt place = some kind → t'.kindAt place = some kind
  files : ∀ place, ¬rewritten place → (t.find? place).isSome → t'.find? place = t.find? place

theorem Keeps.refl (t : FileTree) : Keeps (fun _ => False) t t := ⟨rfl, fun _ _ h => h, fun _ _ _ => rfl⟩

theorem Keeps.trans (h : Keeps rewritten t between) (h' : Keeps more between t') :
    Keeps (fun place => rewritten place ∨ more place) t t' where
  home := h'.home.trans h.home
  kinds := fun place kind here => h'.kinds place kind (h.kinds place kind here)
  files := fun place away here => by
    rw [not_or] at away
    have same := h.files place away.1 here
    rw [← same] at here ⊢
    exact h'.files place away.2 here

theorem Keeps.mono (h : Keeps rewritten t t') (le : ∀ place, rewritten place → more place) : Keeps more t t' :=
  ⟨h.home, h.kinds, fun place away here => h.files place (mt (le place) away) here⟩

theorem Keeps.directory (h : Keeps rewritten t t') (here : t.find? place = some .directory) :
    t'.find? place = some .directory :=
  kindAt_eq_directory.mp (h.kinds place .directory (kindAt_eq_directory.mpr here))

/-- An entry is put where nothing is, or a file where a file is. -/
theorem keeps_put {entry : TreeEntry} (fits : ∀ kind, t.kindAt place = some kind → entry.kind = kind)
    (free : t.find? place ≠ some .directory) : Keeps (· = place) t (t.put place entry) where
  home := rfl
  kinds := fun other kind here => by
    by_cases same : other = place
    · subst same
      rw [kindAt, find?_put_self entry free, Option.map_some, fits kind here]
    · rwa [kindAt, find?_put_of_ne entry same]
  files := fun other away _ => find?_put_of_ne entry away

/-- Making directories keeps what is there. -/
theorem keeps_makeFrom {pieces : List (List Char)} (h : t.makeFrom pieces place = .ok t') :
    Keeps (fun _ => False) t t' := by
  induction pieces generalizing t place with
  | nil =>
      cases h
      exact .refl _
  | cons segment rest ih =>
      unfold makeFrom at h
      split at h
      · exact ih h
      · obtain ⟨next, -, h⟩ := ok_of_bind h
        split at h
        · exact ih h
        · cases h
        · rename_i nothing
          have made : Keeps (· = next) t (t.put next .directory) :=
            keeps_put (by simp [kindAt, nothing]) (by simp [nothing])
          have keeps := made.trans (ih h)
          refine ⟨keeps.home, keeps.kinds, fun place _ here => keeps.files place ?_ here⟩
          rintro (rfl | none)
          · rw [nothing] at here
            cases here
          · exact none

theorem keeps_makeDirectories (h : t.makeDirectories path = .ok t') : Keeps (fun _ => False) t t' :=
  keeps_makeFrom h

/-! ### Paths -/

/-- The location that a piece of a path leads to from a directory. -/
def onward (place : Location) (segment : List Char) : Location :=
  if isSilent segment then place
  else if segment == ['.', '.'] then place.dropLast
  else place ++ [segment]

/-- Where a path leads from a working directory, if it leads anywhere. -/
def placeFrom (home : Location) (path : String) : Location :=
  (segments path.toList).foldl onward (if isAbsolute path.toList then [] else home)

theorem step_eq {segment : List Char} {next : Location} (h : t.step place segment = .ok next) :
    t.find? place = some .directory ∧ next = onward place segment := by
  unfold step at h
  split at h
  · cases h
  · cases h
  · rename_i here
    refine ⟨here, ?_⟩
    unfold onward
    split at h
    · rename_i silent
      cases h
      rw [if_pos silent]
    · rename_i speaks
      rw [if_neg speaks]
      split at h <;> cases h
      · rename_i up
        rw [if_pos up]
      · rename_i down
        rw [if_neg down]

/-- Where a path leads does not depend on what is there, as long as it leads anywhere. -/
theorem locate_eq (h : t.locate path = .ok place) : place = placeFrom t.home path := by
  have along (segments : List (List Char)) (from' : Location)
      (h : segments.foldlM t.step from' = .ok place) : place = segments.foldl onward from' := by
    induction segments generalizing from' with
    | nil =>
        cases h
        rfl
    | cons segment rest ih =>
        rw [List.foldlM_cons] at h
        obtain ⟨next, here, h⟩ := ok_of_bind h
        rw [List.foldl_cons, ← (step_eq here).2]
        exact ih next h
  unfold locate at h
  split at h
  · cases h
  · exact along _ _ h

theorem onward_silent (silent : isSilent segment = true) : onward place segment = place := if_pos silent

theorem onward_name (isName : IsName segment) : onward place segment = place ++ [segment] := by
  unfold onward
  rw [isName.speaks, if_neg Bool.false_ne_true, if_neg (by simpa using isName.down)]

/-- A path leads where the pieces lead that say something. -/
theorem placeFrom_eq (home : Location) (path : String) :
    placeFrom home path = (spoken path).foldl onward (if isAbsolute path.toList then [] else home) := by
  unfold placeFrom spoken
  generalize (if isAbsolute path.toList then [] else home) = place
  induction segments path.toList generalizing place with
  | nil => rfl
  | cons segment rest ih =>
      rw [List.foldl_cons, List.filter_cons]
      cases silent : isSilent segment with
      | true => rw [onward_silent silent]; exact ih place
      | false => exact ih _

/-- A tree that keeps what was there is walked in the same way. -/
theorem Keeps.locate (h : Keeps rewritten t t') (leads : t.locate path = .ok place) :
    t'.locate path = .ok place := by
  have step {segment : List Char} {from' next : Location} (here : t.step from' segment = .ok next) :
      t'.step from' segment = .ok next := by
    have there := h.directory (step_eq here).1
    unfold FileTree.step at here ⊢
    rw [(step_eq here).1] at here
    rw [there]
    exact here
  have along (segments : List (List Char)) (from' : Location)
      (here : segments.foldlM t.step from' = .ok place) :
      segments.foldlM t'.step from' = .ok place := by
    induction segments generalizing from' with
    | nil => exact here
    | cons segment rest ih =>
        rw [List.foldlM_cons] at here ⊢
        obtain ⟨next, first, later⟩ := ok_of_bind here
        rw [step first]
        exact ih next later
  unfold FileTree.locate at leads ⊢
  split at leads
  · cases leads
  · rename_i nonempty
    rw [if_neg nonempty]
    unfold start at leads ⊢
    rw [h.home]
    exact along _ _ leads

/-! ### Files have names -/

/-- Whether all directories above a location are there. -/
def IsBelowDirectories (t : FileTree) (place : Location) : Prop :=
  ∀ above, above <+: place → above ≠ place → t.find? above = some .directory

theorem isBelowDirectories_append (here : t.find? place = some .directory)
    (above : IsBelowDirectories t place) : IsBelowDirectories t (place ++ [segment]) := by
  intro other isPrefix differ
  rcases List.prefix_concat_iff.mp isPrefix with rfl | isPrefix
  · exact absurd rfl differ
  · by_cases same : other = place
    · rwa [same]
    · exact above other isPrefix same

theorem find?_dropLast (here : t.find? place = some .directory) (above : IsBelowDirectories t place) :
    t.find? place.dropLast = some .directory := by
  by_cases top : place = []
  · subst top
    exact here
  · refine above _ place.dropLast_prefix fun same => ?_
    have shorter := congrArg List.length same
    have nonempty := List.length_pos_iff.mpr top
    rw [List.length_dropLast] at shorter
    omega

/-- What a walk leads to is a directory, unless its last piece is a name. -/
theorem isBelowDirectories_walk {l : List (List Char)} {from' : Location}
    (h : l.foldlM t.step from' = .ok place) (here : t.find? from' = some .directory)
    (above : IsBelowDirectories t from') :
    IsBelowDirectories t place ∧
      (t.find? place = some .directory ∨ ∃ segment, l.getLast? = some segment ∧ IsName segment) := by
  induction l using List.reverseRecOn generalizing place with
  | nil =>
      cases h
      exact ⟨above, .inl here⟩
  | append_singleton front segment ih =>
      rw [List.foldlM_append] at h
      obtain ⟨before, walked, h⟩ := ok_of_bind h
      have stepped : t.step before segment = .ok place := by simpa using h
      obtain ⟨there, rfl⟩ := step_eq stepped
      obtain ⟨above', -⟩ := ih walked
      cases speaks : isSilent segment with
      | true =>
          rw [onward_silent speaks]
          exact ⟨above', .inl there⟩
      | false =>
          by_cases up : segment = ['.', '.']
          · subst up
            refine ⟨fun other isPrefix _ => ?_, .inl (find?_dropLast there above')⟩
            by_cases same : other = before
            · rwa [same]
            · exact above' other (isPrefix.trans before.dropLast_prefix) same
          · have isName : IsName segment := ⟨speaks, up⟩
            rw [onward_name isName]
            exact ⟨isBelowDirectories_append there above', .inr ⟨segment, by simp, isName⟩⟩

/-- A path that does not end with a name leads to a directory. -/
theorem find?_of_locate (leads : t.locate path = .ok place) (unnamed : fileName? path = none) :
    t.find? place = some .directory := by
  have upwards (above : Location) (isPrefix : above <+: t.start path.toList) :
      t.find? above = some .directory := by
    have below : above <+: t.home := by
      unfold start at isPrefix
      split at isPrefix
      · rw [List.prefix_nil.mp isPrefix]
        exact List.nil_prefix
      · exact isPrefix
    exact find?_of_isPrefix below
  unfold FileTree.locate at leads
  split at leads
  · cases leads
  · obtain ⟨-, here | ⟨segment, last, isName⟩⟩ :=
      isBelowDirectories_walk leads (upwards _ List.prefix_rfl) fun above isPrefix _ => upwards above isPrefix
    · exact here
    · obtain ⟨front, eq⟩ := List.getLast?_eq_some_iff.mp last
      obtain ⟨lead, -, eq'⟩ := exists_lead path
      unfold fileName? at unnamed
      rw [eq', eq, List.filterMap_append, List.filterMap_cons, isName.partOf, List.filterMap_nil,
        ← List.append_assoc, List.getLast?_concat] at unnamed
      cases unnamed

/-! ### Files -/

/-- What is written to a file is what is found where its path leads. -/
theorem write_eq (h : t.write path content = .ok t') :
    ∃ place, t.locate path = .ok place ∧ t.find? place ≠ some .directory ∧
      t' = t.put place (.file content.toUTF8) := by
  unfold write at h
  obtain ⟨place, leads, h⟩ := ok_of_bind h
  split at h
  · cases h
  · rename_i free
    cases h
    exact ⟨place, leads, free, rfl⟩

/-- The file that a path leads to. -/
def fileAt? (t : FileTree) (path : String) : Option Location :=
  (t.locate path).toOption.filter fun place => t.kindAt place == some .file

/-- What the file at a location holds. -/
def contentAt (t : FileTree) (place : Location) : ByteArray :=
  match t.find? place with
  | some (.file content) => content
  | _ => .empty

/-- A tree as a volume. -/
def volume (t : FileTree) : Volume Location where
  seen := t.seen
  file? := t.fileAt?
  content := t.contentAt

theorem fileAt?_eq_some : t.fileAt? path = some place ↔ t.locate path = .ok place ∧ t.kindAt place = some .file := by
  unfold fileAt?
  rw [Option.filter_eq_some_iff, beq_iff_eq]
  cases t.locate path <;> simp [Except.toOption]

/-- The kind of what a path leads to. -/
theorem kind_seen (t : FileTree) (path : String) :
    (t.seen.kind? path).run = (t.locate path).toOption.bind t.kindAt := by
  change (t.entryAt path).toOption.map TreeEntry.kind = _
  unfold entryAt kindAt
  cases t.locate path with
  | error fault => rfl
  | ok place =>
      dsimp only [bind, Except.bind, Except.toOption, Option.bind_some]
      cases t.find? place <;> rfl

theorem kind_seen_eq_some {kind : EntryKind} :
    (t.seen.kind? path).run = some kind ↔ ∃ place, t.locate path = .ok place ∧ t.kindAt place = some kind := by
  rw [kind_seen]
  cases t.locate path <;> simp [Except.toOption]

theorem hasFile_seen_iff : HasFile t.seen path ↔ (t.fileAt? path).isSome := by
  unfold HasFile
  rw [kind_seen_eq_some, Option.isSome_iff_exists]
  simp only [fileAt?_eq_some]

theorem toUTF8_of_fromUTF8? {bytes : ByteArray} {text : String} (h : String.fromUTF8? bytes = some text) :
    bytes = text.toUTF8 := by
  unfold String.fromUTF8? at h
  split at h <;> cases h
  rfl

/-- A file that can be read as a text holds it. -/
theorem contentAt_of_read {text : String} (leads : t.locate path = .ok place)
    (read : t.read path = .ok text) : t.contentAt place = text.toUTF8 := by
  unfold FileTree.read entryAt contentAt at *
  rw [leads] at read
  dsimp only [bind, Except.bind] at read
  cases found : t.find? place with
  | none =>
      rw [found] at read
      cases read
  | some entry =>
      rw [found] at read
      cases entry with
      | directory => cases read
      | file content =>
          dsimp only [pure, Except.pure] at read
          cases decoded : String.fromUTF8? content with
          | none =>
              rw [decoded] at read
              cases read
          | some text' =>
              rw [decoded] at read
              cases read
              exact toUTF8_of_fromUTF8? decoded

theorem isSound_volume (t : FileTree) : t.volume.IsSound where
  kind := fun path => hasFile_seen_iff
  named := by
    intro path there
    obtain ⟨place, isFile⟩ := Option.isSome_iff_exists.mp there
    obtain ⟨leads, kind⟩ := fileAt?_eq_some.mp isFile
    rw [Option.isSome_iff_ne_none]
    intro unnamed
    rw [kindAt_eq_directory.mpr (find?_of_locate leads unnamed)] at kind
    cases kind
  spelled := by
    intro a b place place' same isFile isFile'
    have leads := locate_eq (fileAt?_eq_some.mp isFile).1
    have leads' := locate_eq (fileAt?_eq_some.mp isFile').1
    rw [leads, leads', placeFrom_eq, placeFrom_eq, same.absolute, same.spoken]
  read := by
    intro path place text isFile read
    have read : told (t.read path) = .ok text := read
    cases own : t.read path with
    | error fault =>
        rw [own] at read
        cases read
    | ok text' =>
        rw [own] at read
        cases read
        exact contentAt_of_read (fileAt?_eq_some.mp isFile).1 own

/-- A tree that keeps the entries of another one keeps its files. -/
theorem Keeps.volume (h : Keeps rewritten t t') : t.volume.Keeps rewritten t'.volume where
  kinds := by
    intro path kind here
    obtain ⟨place, leads, here⟩ := kind_seen_eq_some.mp here
    exact kind_seen_eq_some.mpr ⟨place, h.locate leads, h.kinds place kind here⟩
  files := by
    intro path place here
    obtain ⟨leads, here⟩ := fileAt?_eq_some.mp here
    exact fileAt?_eq_some.mpr ⟨h.locate leads, h.kinds place .file here⟩
  contents := by
    intro path place here away
    obtain ⟨leads, here⟩ := fileAt?_eq_some.mp here
    have there : (t.find? place).isSome := by
      unfold kindAt at here
      rw [← Option.isSome_map, here]
      rfl
    change t'.contentAt place = t.contentAt place
    unfold contentAt
    rw [h.files place away there]

theorem wrote_of_write (h : t.write path content = .ok t') : Volume.Wrote path content t.volume t'.volume := by
  obtain ⟨place, leads, free, rfl⟩ := write_eq h
  have here := find?_put_self (.file content.toUTF8) free
  have keeps : Keeps (· = place) t (t.put place (.file content.toUTF8)) := by
    refine keeps_put (fun kind there => ?_) free
    obtain ⟨entry, found, rfl⟩ := Option.map_eq_some_iff.mp there
    cases entry with
    | file _ => rfl
    | directory => exact absurd found free
  have leads' := keeps.locate leads
  have isFile : (t.put place (.file content.toUTF8)).kindAt place = some .file := by
    rw [kindAt, here]
    rfl
  refine ⟨keeps.volume.mono fun f same => ?_, ?_, fun f leads'' => ?_⟩
  · rw [same]
    exact fileAt?_eq_some.mpr ⟨leads', isFile⟩
  · exact ⟨.file, kind_seen_eq_some.mpr ⟨place, leads', isFile⟩, nofun⟩
  · have same := (fileAt?_eq_some.mp leads'').1
    rw [leads'] at same
    cases same
    change contentAt _ place = _
    unfold contentAt
    rw [here]

theorem run_update_ok {change : FileTree → Except FileFault FileTree}
    (h : (update change).run t = (.ok ⟨⟩, t')) : change t = .ok t' := by
  have run : (update change).run t = update change t := rfl
  rw [run] at h
  unfold update at h
  split at h <;> cases h
  assumption

/-- A tree is a file system. -/
theorem isFileSystem : IsFileSystem FileTree.machine id FileTree.volume where
  sound := isSound_volume
  seen := ⟨fun _ _ => ⟨rfl, rfl⟩, fun _ _ => ⟨rfl, rfl⟩, fun _ _ => ⟨rfl, rfl⟩, fun _ => rfl⟩
  makes := fun _ _ _ h => (keeps_makeDirectories (run_update_ok h)).volume
  writes := fun _ _ _ _ h => wrote_of_write (run_update_ok h)

end FileTree

end ComponentLowering.Batch
