/-
# Snapshots

A snapshot is a machine that is looked at while nothing changes: each question about a path has one answer.
Nothing is assumed of the answers, so links, unreadable directories and entries that are neither files nor
directories are covered.  Finding the files of a run only asks such questions.
-/
import ComponentLowering.Batch.FileTree
import ComponentLowering.Batch.Inputs

namespace ComponentLowering.Batch

open ComponentLowering.Report

variable {α β ε : Type}

/-- A machine whose answers depend on the question only. -/
abbrev Snapshot := Machine Id

/-- What a computation on a snapshot comes to. -/
def answer (x : ExceptT ε Id α) : Except ε α := x.run

/-! ### Computations on a snapshot -/

theorem answer_bind (x : ExceptT ε Id α) (f : α → ExceptT ε Id β) :
    answer (x >>= f) = answer x >>= fun a => answer (f a) := by
  unfold answer
  rw [ExceptT.run_bind]
  cases x.run <;> rfl

theorem answer_mapM (f : α → ExceptT ε Id β) (l : List α) :
    answer (l.mapM f) = l.mapM fun a => answer (f a) := by
  induction l with
  | nil => rfl
  | cons a rest ih =>
      simp only [List.mapM_cons, answer_bind, ih]
      rfl

theorem answer_filterAuxM (check : α → Id Bool) (l kept : List α) :
    answer (List.filterAuxM (fun a => (liftM (check a) : ExceptT ε Id Bool)) l kept) =
      .ok ((l.filter fun a => (check a).run).reverse ++ kept) := by
  induction l generalizing kept with
  | nil => rfl
  | cons a rest ih =>
      unfold List.filterAuxM
      rw [answer_bind]
      change answer (List.filterAuxM _ rest (bif (check a).run then a :: kept else kept)) = _
      rw [ih, List.filter_cons]
      cases (check a).run <;> simp

/-- Checks that are made one after the other keep what passes them. -/
theorem answer_filterM (check : α → Id Bool) (l : List α) :
    answer (l.filterM fun a => (liftM (check a) : ExceptT ε Id Bool)) =
      .ok (l.filter fun a => (check a).run) := by
  unfold List.filterM
  rw [answer_bind, answer_filterAuxM]
  change Except.ok (List.reverse _) = _
  rw [List.append_nil, List.reverse_reverse]

theorem answer_tryCatch (x : ExceptT ε Id α) (f : ε → ExceptT ε Id α) :
    answer (tryCatchThe ε x f) =
      match answer x with
      | .ok a => .ok a
      | .error e => answer (f e) := by
  have either : ∀ y : Except ε α, answer (ExceptT.tryCatch (y : ExceptT ε Id α) f) =
      match y with
      | .ok a => .ok a
      | .error e => answer (f e) := fun y => by cases y <;> rfl
  exact either x

/-- The files that some inputs name on a snapshot. -/
def filesOn (s : Snapshot) (inputs : List String) : Except Obstacle (List String) :=
  answer (expandInputs s inputs)

/-- The paths that a pattern names on a snapshot. -/
def matchesOn (s : Snapshot) (pattern : String) (parts : List PatternPart) :
    Except Obstacle (List String) :=
  answer (matchesOf s pattern parts)

/-- Whether a path leads to a regular file. -/
def HasFile (s : Snapshot) (path : String) : Prop := (s.kind? path).run = some .file

instance (s : Snapshot) (path : String) : Decidable (HasFile s path) :=
  inferInstanceAs (Decidable (_ = _))

theorem run_isFile (s : Snapshot) (path : String) : (s.isFile path).run = decide (HasFile s path) := by
  rw [Bool.eq_iff_iff, decide_eq_true_iff]
  exact beq_iff_eq

/-! ### The snapshot of a tree -/

namespace FileTree

/-- What there is to see on a tree. -/
def seen (t : FileTree) : Snapshot where
  kind? path := ((FileTree.machine.kind? path).run t).1
  names path := ((FileTree.machine.names path).run t).1
  read path := ((FileTree.machine.read path).run t).1
  makeDirectories path := ((FileTree.machine.makeDirectories path).run t).1
  write path content := ((FileTree.machine.write path content).run t).1
  now := ((FileTree.machine.now).run t).1

/-- The kind of what is at a location. -/
def kindAt (t : FileTree) (place : Location) : Option EntryKind := (t.find? place).map TreeEntry.kind

variable {t : FileTree} {place : Location}

theorem find?_of_isPrefix (above : place <+: t.home) : t.find? place = some .directory :=
  if_pos (List.isPrefixOf_iff_prefix.mpr above)

theorem kindAt_eq_directory : t.kindAt place = some .directory ↔ t.find? place = some .directory := by
  unfold kindAt
  cases t.find? place with
  | none => simp
  | some entry => cases entry <;> simp [TreeEntry.kind]

end FileTree

end ComponentLowering.Batch
