/-
# File systems

What is assumed of the files of a machine.  A path leads to a regular file or to none; different paths may lead to
one file, by their spelling or by links, and what is no regular file may do anything.  Looking changes nothing.
Making directories and writing may fail in any way, but where they succeed every path that led somewhere still
leads there, and only the file that was written to holds something else, namely what was written.  Nothing is
assumed of an operation that fails, and nothing of what another program does to the files in the meantime.
-/
import ComponentLowering.Proofs.Batch.Looking
import ComponentLowering.Proofs.Batch.SpelledPaths

namespace ComponentLowering.Batch

open ComponentLowering.Lowering ComponentLowering.Report

variable {σ φ File : Type}

/-! ### Files -/

/-- What there is on a file system at a time: what is seen of it, the regular file that a path leads to, however
that is reached, and what a file holds. -/
structure Volume (File : Type) where
  seen : Snapshot
  file? : String → Option File
  content : File → ByteArray

namespace Volume

variable {v between v' : Volume File} {path text : String} {f : File} {rewritten more : File → Prop}

/-- What is taken for granted about files and the paths that lead to them. -/
structure IsSound (v : Volume File) : Prop where
  kind : ∀ path, HasFile v.seen path ↔ (v.file? path).isSome
  /-- The path of a file ends with a name. -/
  named : ∀ path, (v.file? path).isSome → (fileName? path).isSome
  /-- Doubled slashes and single dots say nothing. -/
  spelled : ∀ a b f g, SameButDot a b → v.file? a = some f → v.file? b = some g → f = g
  /-- A file that can be read as a text holds it. -/
  read : ∀ path f text, v.file? path = some f → (v.seen.read path).run = .ok text → v.content f = text.toUTF8

/-- What files keep when some of them are written anew: paths lead where they led, and the other files hold what
they held. -/
structure Keeps (rewritten : File → Prop) (v v' : Volume File) : Prop where
  kinds : ∀ path kind, (v.seen.kind? path).run = some kind → (v'.seen.kind? path).run = some kind
  files : ∀ path f, v.file? path = some f → v'.file? path = some f
  contents : ∀ path f, v.file? path = some f → ¬rewritten f → v'.content f = v.content f

theorem Keeps.refl (v : Volume File) : Keeps (fun _ => False) v v :=
  ⟨fun _ _ h => h, fun _ _ h => h, fun _ _ _ _ => rfl⟩

theorem Keeps.trans (h : Keeps rewritten v between) (h' : Keeps more between v') :
    Keeps (fun f => rewritten f ∨ more f) v v' where
  kinds := fun path kind here => h'.kinds path kind (h.kinds path kind here)
  files := fun path f here => h'.files path f (h.files path f here)
  contents := fun path f here away => by
    rw [not_or] at away
    rw [h'.contents path f (h.files path f here) away.2, h.contents path f here away.1]

theorem Keeps.mono (h : Keeps rewritten v v') (le : ∀ f, rewritten f → more f) : Keeps more v v' :=
  ⟨h.kinds, h.files, fun path f here away => h.contents path f here (mt (le f) away)⟩

/-- Whether a path leads somewhere, and not to a directory. -/
def IsWritten (v : Volume File) (path : String) : Prop :=
  ∃ kind, (v.seen.kind? path).run = some kind ∧ kind ≠ .directory

theorem Keeps.isWritten (h : Keeps rewritten v v') (there : v.IsWritten path) : v'.IsWritten path := by
  obtain ⟨kind, there, other⟩ := there
  exact ⟨kind, h.kinds path kind there, other⟩

/-- What a write leaves behind: the path leads to no directory, and if it is a regular file, it holds the text. -/
structure Wrote (path text : String) (v v' : Volume File) : Prop where
  keeps : Keeps (fun f => v'.file? path = some f) v v'
  there : v'.IsWritten path
  content : ∀ f, v'.file? path = some f → v'.content f = text.toUTF8

end Volume

/-- Whether a machine has a file system: it stores volumes, which can be looked at and written to. -/
structure IsFileSystem (machine : Machine (StateM σ)) (store : σ → φ) (volume : φ → Volume File) : Prop where
  sound : ∀ v, (volume v).IsSound
  seen : CanBeSeen machine store fun v => (volume v).seen
  makes : ∀ path s s', (machine.makeDirectories path).run s = (.ok ⟨⟩, s') →
    Volume.Keeps (fun _ => False) (volume (store s)) (volume (store s'))
  writes : ∀ path text s s', (machine.write path text).run s = (.ok ⟨⟩, s') →
    Volume.Wrote path text (volume (store s)) (volume (store s'))

/-! ### Results -/

/-- Whether a path leads to a regular file that holds a text. -/
def Volume.Holds (v : Volume File) (path text : String) : Prop :=
  ∃ f, v.file? path = some f ∧ v.content f = text.toUTF8

section Results

variable {v between v' : Volume File} {dir : String} {results rest : List (String × Output)}
  {r : String × Output} {f : File}

/-- Whether the target of each result holds the code of this result. -/
def HoldOwn (v : Volume File) (dir : String) (results : List (String × Output)) : Prop :=
  ∀ r ∈ results, v.Holds (outputPath dir r.1) r.2.code

/-- Whether all targets are regular files, and results whose targets are one file have the same code. -/
structure AgreeOnFiles (v : Volume File) (dir : String) (results : List (String × Output)) : Prop where
  areFiles : ∀ r ∈ results, (v.file? (outputPath dir r.1)).isSome
  agree : ∀ r ∈ results, ∀ r' ∈ results, v.file? (outputPath dir r.1) = v.file? (outputPath dir r'.1) →
    r.2.code = r'.2.code

/-- What is left behind by writes that all succeeded, one after the other. -/
structure WroteAll (dir : String) (results : List (String × Output)) (v v' : Volume File) : Prop where
  keeps : v.Keeps (fun f => ∃ r ∈ results, v'.file? (outputPath dir r.1) = some f) v'
  there : ∀ r ∈ results, v'.IsWritten (outputPath dir r.1)
  /-- A file that targets lead to holds the code of one of their results. -/
  content : ∀ r ∈ results, ∀ f, v'.file? (outputPath dir r.1) = some f →
    ∃ r' ∈ results, v'.file? (outputPath dir r'.1) = some f ∧ v'.content f = r'.2.code.toUTF8

theorem WroteAll.nil (v : Volume File) : WroteAll dir [] v v where
  keeps := (Volume.Keeps.refl v).mono fun _ => False.elim
  there := List.forall_mem_nil _
  content := List.forall_mem_nil _

/-- What leads to a regular file in the end led to it already when it was written to. -/
theorem Volume.Wrote.file?_eq {path text : String} (h : Volume.Wrote path text v between) (sound : between.IsSound)
    (sound' : v'.IsSound) {rewritten : File → Prop} (keeps : between.Keeps rewritten v')
    (leads : v'.file? path = some f) : between.file? path = some f := by
  obtain ⟨kind, there, -⟩ := h.there
  have isFile : HasFile v'.seen path := (sound'.kind path).mpr (by rw [leads]; rfl)
  have same := keeps.kinds path kind there
  rw [isFile] at same
  cases same
  obtain ⟨g, here⟩ := Option.isSome_iff_exists.mp ((sound.kind path).mp there)
  have stays := keeps.files path g here
  rw [leads] at stays
  rwa [Option.some.inj stays]

/-- A write comes in front of others: of the results whose targets are one file, the last one is left there. -/
theorem Volume.Wrote.cons (h : Volume.Wrote (outputPath dir r.1) r.2.code v between)
    (h' : WroteAll dir rest between v') (sound : between.IsSound) (sound' : v'.IsSound) :
    WroteAll dir (r :: rest) v v' := by
  refine ⟨(h.keeps.trans h'.keeps).mono fun f either => ?keeps,
    List.forall_mem_cons.mpr ⟨h'.keeps.isWritten h.there, h'.there⟩, ?content⟩
  case keeps =>
    rcases either with here | ⟨r', mem, later⟩
    · exact ⟨r, List.mem_cons_self .., h'.keeps.files _ f here⟩
    · exact ⟨r', List.mem_cons_of_mem r mem, later⟩
  case content =>
    have others (r' : String × Output) (mem : r' ∈ rest) (f : File)
        (leads : v'.file? (outputPath dir r'.1) = some f) :
        ∃ last ∈ r :: rest, v'.file? (outputPath dir last.1) = some f ∧ v'.content f = last.2.code.toUTF8 := by
      obtain ⟨last, mem', same, content⟩ := h'.content r' mem f leads
      exact ⟨last, List.mem_cons_of_mem r mem', same, content⟩
    refine List.forall_mem_cons.mpr ⟨fun f leads => ?_, others⟩
    by_cases again : ∃ r' ∈ rest, v'.file? (outputPath dir r'.1) = some f
    · obtain ⟨r', mem, leads'⟩ := again
      exact others r' mem f leads'
    · have here := h.file?_eq sound sound' h'.keeps leads
      exact ⟨r, List.mem_cons_self .., leads, (h'.keeps.contents _ f here again).trans (h.content f here)⟩

theorem toUTF8_inj {a b : String} (same : a.toUTF8 = b.toUTF8) : a = b := String.toByteArray_inj.mp same

/-- After all results were written their targets hold their own exactly if the targets are regular files and
results with one file have the same code. -/
theorem WroteAll.holdOwn_iff (h : WroteAll dir results v v') :
    HoldOwn v' dir results ↔ AgreeOnFiles v' dir results := by
  constructor
  · intro own
    refine ⟨fun r mem => ?_, fun r mem r' mem' same => ?_⟩
    · obtain ⟨f, leads, -⟩ := own r mem
      rw [leads]
      rfl
    · obtain ⟨f, leads, content⟩ := own r mem
      obtain ⟨f', leads', content'⟩ := own r' mem'
      rw [same, leads'] at leads
      cases leads
      exact toUTF8_inj (content.symm.trans content')
  · intro agree r mem
    obtain ⟨f, leads⟩ := Option.isSome_iff_exists.mp (agree.areFiles r mem)
    obtain ⟨last, mem', leads', content⟩ := h.content r mem f leads
    have code := agree.agree last mem' r mem (leads'.trans leads.symm)
    exact ⟨f, leads, by rw [content, code]⟩

/-- Whether the target of a result is a regular file that no other target leads to. -/
structure HasOwnFile (v : Volume File) (dir : String) (results : List (String × Output)) (r : String × Output) :
    Prop where
  isFile : (v.file? (outputPath dir r.1)).isSome
  alone : ∀ r' ∈ results, v.file? (outputPath dir r'.1) = v.file? (outputPath dir r.1) → r' = r

/-- A result with a file of its own is found there, whatever becomes of the others. -/
theorem WroteAll.holds (h : WroteAll dir results v v') (mem : r ∈ results) (own : HasOwnFile v' dir results r) :
    v'.Holds (outputPath dir r.1) r.2.code := by
  obtain ⟨f, leads⟩ := Option.isSome_iff_exists.mp own.isFile
  obtain ⟨last, mem', leads', content⟩ := h.content r mem f leads
  obtain rfl := own.alone last mem' (leads'.trans leads.symm)
  exact ⟨f, leads, content⟩

end Results

/-! ### Runs that write -/

namespace IsFileSystem

variable {machine : Machine (StateM σ)} {store : σ → φ} {volume : φ → Volume File}
  (system : IsFileSystem machine store volume) {dir path target : String} {output : Output} {s s' : σ}
include system

/-- The result for an input is written to its output path. -/
theorem wrote_writeOutput (run : (writeOutput machine dir path output).run.run s = (.ok target, s')) :
    Volume.Wrote (outputPath dir path) output.code (volume (store s)) (volume (store s')) := by
  unfold writeOutput at run
  dsimp only at run
  split at run
  · obtain ⟨made, between, makes, run⟩ := run_bind_ok run
    cases made with
    | error fault => cases run
    | ok _ =>
        obtain ⟨wrote, after, writes, run⟩ := run_bind_ok run
        cases wrote with
        | error fault => cases run
        | ok _ =>
            cases run
            have keeps := system.makes _ _ _ (run_lift_ok makes)
            obtain ⟨keeps', there, content⟩ := system.writes _ _ _ _ (run_lift_ok writes)
            exact ⟨(keeps.trans keeps').mono fun f either => either.resolve_left id, there, content⟩
  · obtain ⟨wrote, after, writes, run⟩ := run_bind_ok run
    cases wrote with
    | error fault => cases run
    | ok _ =>
        cases run
        exact system.writes _ _ _ _ (run_lift_ok writes)

/-- Results are written one after the other. -/
theorem wroteAll_mapM {results : List (String × Output)} {targets : List String}
    (run : (results.mapM fun r => writeOutput machine dir r.1 r.2).run.run s = (.ok targets, s')) :
    WroteAll dir results (volume (store s)) (volume (store s')) := by
  induction results generalizing s targets with
  | nil =>
      cases run
      exact .nil _
  | cons r rest ih =>
      rw [List.mapM_cons] at run
      obtain ⟨target, between, first, run⟩ := run_bind_ok run
      obtain ⟨others, s'', later, run⟩ := run_bind_ok run
      cases run
      exact (system.wrote_writeOutput first).cons (ih later) (system.sound _) (system.sound _)

end IsFileSystem

end ComponentLowering.Batch
