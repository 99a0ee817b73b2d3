/-
# Looking at a machine

A machine is run from state to state.  It can be looked at if its questions are answered by what it has stored and
leave that as it is; what else there is to a state, such as the time, may change.  Then whatever only asks
questions comes to what it comes to on a snapshot: finding the files of a run does, and so does lowering them.
-/
import ComponentLowering.Batch.Outcome
import ComponentLowering.Proofs.Batch.Snapshots

namespace ComponentLowering.Batch

open ComponentLowering.Lowering ComponentLowering.Report ComponentLowering.Settings

variable {α β ε σ φ : Type}

/-! ### Runs from state to state -/

theorem run_bind_of {x : StateM σ α} {a : α} {s s' : σ} (h : x.run s = (a, s')) (f : α → StateM σ β) :
    (x >>= f).run s = (f a).run s' := by
  rw [StateT.run_bind, h]
  rfl

theorem run_lift_ok {x : StateM σ α} {a : α} {s s' : σ}
    (h : (liftM x : ExceptT ε (StateM σ) α).run.run s = (.ok a, s')) : x.run s = (a, s') := by
  rw [ExceptT.run_liftM, StateT.run_map] at h
  cases h
  rfl

/-- A run that succeeds does so in all its parts. -/
theorem run_bind_ok {x : ExceptT ε (StateM σ) α} {f : α → ExceptT ε (StateM σ) β} {b : β} {s s' : σ}
    (h : (x >>= f).run.run s = (.ok b, s')) :
    ∃ a between, x.run.run s = (.ok a, between) ∧ (f a).run.run between = (.ok b, s') := by
  rw [ExceptT.run_bind, StateT.run_bind] at h
  rcases first : x.run.run s with ⟨failure | a, between⟩
  · rw [first] at h
    cases h
  · rw [first] at h
    exact ⟨a, between, rfl, h⟩

/-! ### Questions -/

/-- Whether a question is answered by what a state has stored, and leaves that as it is. -/
def IsAnswered (store : σ → φ) (question : StateM σ α) (answer : φ → α) : Prop :=
  ∀ s, (question.run s).1 = answer (store s) ∧ store (question.run s).2 = store s

/-- Whether a machine can be looked at: what it has stored decides what is seen.  A look at the clock may come to
anything. -/
structure CanBeSeen (machine : Machine (StateM σ)) (store : σ → φ) (seen : φ → Snapshot) : Prop where
  kind : ∀ path, IsAnswered store (machine.kind? path) fun v => ((seen v).kind? path).run
  names : ∀ path, IsAnswered store (machine.names path) fun v => ((seen v).names path).run
  read : ∀ path, IsAnswered store (machine.read path) fun v => ((seen v).read path).run
  now : ∀ s, store (machine.now.run s).2 = store s

/-- Whether a run comes to what a computation on a snapshot comes to, and leaves what is stored as it is. -/
def Agrees (store : σ → φ) (v : φ) (x : ExceptT ε (StateM σ) α) (y : ExceptT ε Id α) : Prop :=
  ∀ s, store s = v → ∃ s', x.run.run s = (answer y, s') ∧ store s' = v

section Agreement

variable {store : σ → φ} {v : φ} {x : ExceptT ε (StateM σ) α} {y : ExceptT ε Id α}

theorem agrees_pure (a : α) : Agrees store v (pure a : ExceptT ε (StateM σ) α) (pure a) :=
  fun s same => ⟨s, rfl, same⟩

theorem agrees_throw (e : ε) : Agrees store v (throw e : ExceptT ε (StateM σ) α) (throw e) :=
  fun s same => ⟨s, rfl, same⟩

/-- What a question is asked for can be a part of its answer only. -/
theorem IsAnswered.map {question : StateM σ α} {told : φ → α} (h : IsAnswered store question told) (f : α → β) :
    IsAnswered store (do return f (← question)) fun v => f (told v) := by
  intro s
  obtain ⟨eq, kept⟩ := h s
  rw [StateT.run_bind]
  exact ⟨congrArg f eq, kept⟩

/-- A question agrees with its answer. -/
theorem IsAnswered.agrees {question : StateM σ α} {told : φ → α} (h : IsAnswered store question told)
    {y : Id α} (same : told v = y.run) :
    Agrees store v (liftM question : ExceptT ε (StateM σ) α) (liftM y) := by
  intro s here
  obtain ⟨eq, kept⟩ := h s
  refine ⟨(question.run s).2, ?_, kept.trans here⟩
  rw [ExceptT.run_liftM, StateT.run_map]
  change (Except.ok (question.run s).1, (question.run s).2) = (.ok y.run, _)
  rw [eq, here, same]

theorem Agrees.bind {f : α → ExceptT ε (StateM σ) β} {g : α → ExceptT ε Id β} (h : Agrees store v x y)
    (h' : ∀ a, Agrees store v (f a) (g a)) : Agrees store v (x >>= f) (y >>= g) := by
  intro s here
  obtain ⟨between, run, kept⟩ := h s here
  rw [ExceptT.run_bind, run_bind_of run, answer_bind]
  cases answer y with
  | error e => exact ⟨between, rfl, kept⟩
  | ok a => exact h' a between kept

theorem Agrees.mapM {f : α → ExceptT ε (StateM σ) β} {g : α → ExceptT ε Id β}
    (h : ∀ a, Agrees store v (f a) (g a)) (l : List α) : Agrees store v (l.mapM f) (l.mapM g) := by
  induction l with
  | nil => exact agrees_pure []
  | cons a rest ih =>
      rw [List.mapM_cons, List.mapM_cons]
      exact (h a).bind fun b => ih.bind fun bs => agrees_pure _

theorem Agrees.filterAuxM {f : α → ExceptT ε (StateM σ) Bool} {g : α → ExceptT ε Id Bool}
    (h : ∀ a, Agrees store v (f a) (g a)) (l kept : List α) :
    Agrees store v (List.filterAuxM f l kept) (List.filterAuxM g l kept) := by
  induction l generalizing kept with
  | nil => exact agrees_pure kept
  | cons a rest ih =>
      unfold List.filterAuxM
      exact (h a).bind fun keeps => ih _

theorem Agrees.filterM {f : α → ExceptT ε (StateM σ) Bool} {g : α → ExceptT ε Id Bool}
    (h : ∀ a, Agrees store v (f a) (g a)) (l : List α) : Agrees store v (l.filterM f) (l.filterM g) :=
  (Agrees.filterAuxM h l []).bind fun _ => agrees_pure _

theorem Agrees.tryCatch {f : ε → ExceptT ε (StateM σ) α} {g : ε → ExceptT ε Id α} (h : Agrees store v x y)
    (h' : ∀ e, Agrees store v (f e) (g e)) :
    Agrees store v (tryCatchThe ε x f) (tryCatchThe ε y g) := by
  intro s here
  obtain ⟨between, run, kept⟩ := h s here
  rw [answer_tryCatch]
  change ∃ s', StateT.run (ExceptT.tryCatch x f).run s = _ ∧ _
  have caught : StateT.run (ExceptT.tryCatch x f).run s = _ := run_bind_of run _
  rw [caught]
  cases answer y with
  | error e => exact h' e between kept
  | ok a => exact ⟨between, rfl, kept⟩

end Agreement

/-! ### Finding files -/

namespace CanBeSeen

variable {machine : Machine (StateM σ)} {store : σ → φ} {seen : φ → Snapshot}
  (h : CanBeSeen machine store seen) (v : φ)
include h

theorem agrees_isFile (path : String) :
    Agrees store v (liftM (machine.isFile path) : ExceptT ε (StateM σ) Bool)
      (liftM ((seen v).isFile path)) :=
  ((h.kind path).map (· == some .file)).agrees rfl

theorem agrees_isDirectory (path : String) :
    Agrees store v (liftM (machine.isDirectory path) : ExceptT ε (StateM σ) Bool)
      (liftM ((seen v).isDirectory path)) :=
  ((h.kind path).map (· == some .directory)).agrees rfl

theorem agrees_isThere (path : String) :
    Agrees store v (liftM (machine.isThere path) : ExceptT ε (StateM σ) Bool)
      (liftM ((seen v).isThere path)) :=
  ((h.kind path).map Option.isSome).agrees rfl

theorem agrees_sortedNames (directory : String) :
    Agrees store v (sortedNames machine directory) (sortedNames (seen v) directory) := by
  unfold sortedNames
  refine (h.agrees_isDirectory v directory).bind fun isDirectory => ?_
  split
  · exact agrees_pure []
  · refine ((h.names directory).agrees rfl).bind fun names => ?_
    split
    · exact agrees_pure _
    · exact agrees_throw _

theorem agrees_visitBelow {visit : String → String → ExceptT Obstacle (StateM σ) (List String)}
    {visit' : String → String → ExceptT Obstacle Id (List String)}
    (visited : ∀ name path, Agrees store v (visit name path) (visit' name path)) (depth : Nat)
    (directory : String) :
    Agrees store v (visitBelow machine visit depth directory)
      (visitBelow (seen v) visit' depth directory) := by
  induction depth generalizing directory with
  | zero => exact agrees_pure []
  | succ depth ih =>
      unfold visitBelow
      refine (h.agrees_sortedNames v directory).bind fun names => ?_
      refine (Agrees.mapM (fun name => ?_) names).bind fun found => agrees_pure _
      exact (visited _ _).bind fun here => (ih _).bind fun below => agrees_pure _

theorem agrees_pathsFrom (parts : List PatternPart) (path : String) :
    Agrees store v (pathsFrom machine parts path) (pathsFrom (seen v) parts path) := by
  fun_induction pathsFrom machine parts path with
  | case1 path => exact agrees_pure _
  | case2 name rest directory path choose dots ih =>
      rw [pathsFrom, if_pos dots]
      refine (h.agrees_isDirectory v directory).bind fun found => ?_
      unfold choose
      dsimp only
      split
      · exact ih
      · exact agrees_pure _
  | case3 name rest directory path choose dots ih =>
      rw [pathsFrom, if_neg dots]
      refine (h.agrees_isThere v path).bind fun found => ?_
      unfold choose
      dsimp only
      split
      · exact ih
      · exact agrees_pure _
  | case4 tokens rest directory outside inside =>
      rw [pathsFrom]
      refine (h.agrees_sortedNames v directory).bind fun names => ?_
      refine (h.agrees_isDirectory v directory).bind fun isDirectory => ?_
      exact (Agrees.mapM outside _).bind fun _ => (Agrees.mapM inside _).bind fun _ => agrees_pure _
  | case5 directory =>
      rw [pathsFrom]
      exact h.agrees_visitBelow v (fun _ path =>
        (h.agrees_isDirectory v path).bind fun _ => agrees_pure _) _ _
  | case6 part rest directory ih =>
      rw [pathsFrom]
      refine h.agrees_visitBelow v (fun name path => ?_) _ _
      split
      · exact ih path
      · exact agrees_pure _

theorem agrees_matchesOf (pattern : String) (parts : List PatternPart) :
    Agrees store v (matchesOf machine pattern parts) (matchesOf (seen v) pattern parts) := by
  unfold matchesOf
  refine (h.agrees_pathsFrom v parts _).bind fun found => ?_
  split
  · exact Agrees.filterM (fun path => h.agrees_isDirectory v path) found
  · exact agrees_pure _

theorem agrees_filesOf (input : String) :
    Agrees store v (filesOf machine input) (filesOf (seen v) input) := by
  unfold filesOf
  split
  · split
    · exact agrees_throw _
    · refine Agrees.bind ?_ fun found => Agrees.filterM (fun path => h.agrees_isFile v path) found
      exact (h.agrees_matchesOf v input _).tryCatch fun o => agrees_throw _
  · refine (h.agrees_isFile v input).bind fun isFile => ?_
    split
    · exact agrees_pure _
    · exact agrees_throw _

/-- The files of a run are those that its inputs name on the snapshot of the machine. -/
theorem agrees_expandInputs (inputs : List String) :
    Agrees store v (expandInputs machine inputs) (expandInputs (seen v) inputs) :=
  (Agrees.mapM (h.agrees_filesOf v) inputs).bind fun _ => agrees_pure _

end CanBeSeen

/-! ### Lowering files -/

/-- What becomes of a file of which a machine gave the text or a fault. -/
def outcomeOf (options : Options) (path : String) (content : Except String String) : Outcome where
  path := path
  result :=
    match content with
    | .error fault => .error (.unread ⟨"failed to read " ++ path, some fault⟩)
    | .ok source => (runLowering options path source).1.mapError .failed

/-- What becomes of files, each of them by what was read of it alone. -/
def outcomesOf (options : Options) (paths : List String) (contents : List (Except String String)) :
    List Outcome :=
  List.zipWith (outcomeOf options) paths contents

/-- Reads files one after the other, between two looks at the clock. -/
def readAll {m : Type → Type} [Monad m] (machine : Machine m) (paths : List String) :
    m (List (Except String String)) := do
  let _ ← machine.now
  let contents ← paths.mapM machine.read
  let _ ← machine.now
  return contents

section Lowering

variable (machine : Machine (StateM σ)) (options : Options) (path : String) (paths : List String) (s : σ)

theorem run_transformFile :
    ∃ log, (transformFile machine options path).run s =
      ((outcomeOf options path ((machine.read path).run s).1, log), ((machine.read path).run s).2) := by
  have read : (machine.read path).run s = (((machine.read path).run s).1, ((machine.read path).run s).2) := rfl
  unfold transformFile outcomeOf
  rw [run_bind_of read]
  cases ((machine.read path).run s).1 with
  | error fault => exact ⟨_, rfl⟩
  | ok source => exact ⟨_, rfl⟩

theorem run_mapM_transformFile :
    ∃ outcomes, (paths.mapM (transformFile machine options)).run s =
        (outcomes, ((paths.mapM machine.read).run s).2) ∧
      outcomes.map (·.1) = outcomesOf options paths ((paths.mapM machine.read).run s).1 := by
  induction paths generalizing s with
  | nil => exact ⟨[], rfl, rfl⟩
  | cons path rest ih =>
      obtain ⟨log, here⟩ := run_transformFile machine options path s
      obtain ⟨outcomes, later, eq⟩ := ih ((machine.read path).run s).2
      rw [List.mapM_cons, List.mapM_cons, run_bind_of here, run_bind_of later]
      refine ⟨_, rfl, ?_⟩
      rw [List.map_cons, eq]
      rfl

/-- Files are lowered each on its own, in their order, whatever becomes of the others. -/
theorem run_transformFiles :
    ∃ log, (transformFiles machine options paths).run s =
      ((outcomesOf options paths ((readAll machine paths).run s).1, log),
        ((readAll machine paths).run s).2) := by
  obtain ⟨outcomes, run, eq⟩ := run_mapM_transformFile machine options paths (machine.now.run s).2
  have now (s : σ) : machine.now.run s = ((machine.now.run s).1, (machine.now.run s).2) := rfl
  unfold transformFiles
  rw [run_bind_of (now s), run_bind_of run, run_bind_of (now _)]
  refine ⟨_, Prod.ext (Prod.ext ?outcomes rfl) rfl⟩
  case outcomes => exact eq

end Lowering

/-- What becomes of a file of a snapshot, on its own. -/
def outcomeOn (s : Snapshot) (options : Options) (path : String) : Outcome :=
  outcomeOf options path (s.read path).run

theorem outcomesOf_map (s : Snapshot) (options : Options) (paths : List String) :
    outcomesOf options paths (paths.map fun path => (s.read path).run) = paths.map (outcomeOn s options) := by
  unfold outcomesOf outcomeOn
  rw [List.zipWith_map_right, List.zipWith_self]

namespace CanBeSeen

variable {machine : Machine (StateM σ)} {store : σ → φ} {seen : φ → Snapshot}
  (h : CanBeSeen machine store seen)
include h

/-- Files are read as they are on the snapshot of the machine. -/
theorem isAnswered_readAll (paths : List String) :
    IsAnswered store (readAll machine paths) fun v => paths.map fun path => ((seen v).read path).run := by
  have one (paths : List String) :
      IsAnswered store (paths.mapM machine.read) fun v => paths.map fun path => ((seen v).read path).run := by
    induction paths with
    | nil => exact fun s => ⟨rfl, rfl⟩
    | cons path rest ih =>
        intro s
        obtain ⟨first, kept⟩ := h.read path s
        obtain ⟨later, kept'⟩ := ih ((machine.read path).run s).2
        rw [kept] at later kept'
        rw [List.mapM_cons, StateT.run_bind]
        exact ⟨congr (congrArg List.cons first) later, kept'⟩
  intro s
  obtain ⟨contents, kept⟩ := one paths (machine.now.run s).2
  rw [h.now] at contents kept
  exact ⟨contents, (h.now _).trans kept⟩

end CanBeSeen

end ComponentLowering.Batch
