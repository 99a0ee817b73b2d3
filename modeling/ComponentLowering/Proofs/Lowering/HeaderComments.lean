/-
# Comments at the top of a module

Lowering puts statements in front of a module, and what it takes away may be the first thing in it: the
decorator of a class, which may stand ahead of `export`, or an import.  The comments ahead of the first
statement are kept above all of that.  Every other comment goes where the first move that starts at its
anchor leads, and so does every comment of a module that opens with an interpreter line or a directive,
since these are written first anyway.

That the printer writes the comments anchored at the top ahead of everything else is not claimed here.
-/
import ComponentLowering.Proofs.Lowering.MoveChains

namespace ComponentLowering.Lowering

open ComponentLowering.Component ComponentLowering.Report ComponentLowering.Settings
open ComponentLowering.Style ComponentLowering.Syntax

variable {options : Options} {m out : Module} {report : LoweringReport} {log log' : Log}

/-! ### The first move -/

/-- Where the comments at an anchor go: with the first move that starts there, or nowhere if none does. -/
inductive GoesTo (moves : List CommentMove) (a : Nat) : Nat → Prop
  | first {before after : List CommentMove} {move : CommentMove}
      (split : moves = before ++ move :: after) (earlier : ∀ other ∈ before, other.source ≠ a)
      (here : move.source = a) : GoesTo moves a move.target
  | stays (others : ∀ move ∈ moves, move.source ≠ a) : GoesTo moves a a

theorem goesTo_iff {moves : List CommentMove} {c : Comment} {b : Nat} :
    GoesTo moves c.anchor b ↔ (relocate moves c).anchor = b := by
  constructor
  · intro goes
    unfold relocate
    cases goes with
    | @first before after move split earlier here =>
        have found : moves.find? (·.source == c.anchor) = some move :=
          List.find?_eq_some_iff_append.mpr
            ⟨by simpa using here, before, after, split, by simpa using earlier⟩
        rw [found]
    | stays others =>
        have found : moves.find? (·.source == c.anchor) = none :=
          List.find?_eq_none.mpr (by simpa using others)
        rw [found]
  · rintro rfl
    unfold relocate
    cases found : moves.find? (·.source == c.anchor) with
    | some move =>
        obtain ⟨here, before, after, split, earlier⟩ := List.find?_eq_some_iff_append.mp found
        exact .first split (by simpa using earlier) (by simpa using here)
    | none => exact .stays (by simpa using found)

/-! ### Headers -/

theorem leadingOffset_le (statement : Stmt) : leadingOffset statement ≤ statement.span.start := by
  unfold leadingOffset
  split
  · exact le_refl _
  · split
    · exact le_refl _
    · exact min_le_right ..

theorem leadingOffset_le_decorator {statement : Stmt} {decl : ClassDef} {d : Decorator}
    (cls : class? statement = some decl) (first : decl.decorators.head? = some d) :
    leadingOffset statement ≤ d.span.start := by
  obtain ⟨rest, decorators⟩ := List.head?_eq_some_iff.mp first
  unfold leadingOffset
  rw [cls]
  dsimp only
  rw [decorators]
  exact min_le_left ..

/-- Whether a comment ends ahead of a statement and of the first decorator of its class. -/
structure EndsAhead (c : Comment) (statement : Stmt) : Prop where
  start : c.span.stop ≤ statement.span.start
  decorator : ∀ decl d, class? statement = some decl → decl.decorators.head? = some d →
    c.span.stop ≤ d.span.start

/-- The earlier of the two is the first token of the statement. -/
theorem endsAhead_iff {c : Comment} {statement : Stmt} :
    EndsAhead c statement ↔ c.span.stop ≤ leadingOffset statement := by
  constructor
  · rintro ⟨start, decorator⟩
    obtain own | ⟨decl, d, rest, cls, decorators, first⟩ := leadingOffset_cases statement
    · rwa [own]
    · rw [first]
      exact decorator decl d cls (by rw [decorators, List.head?_cons])
  · intro ahead
    refine ⟨ahead.trans (leadingOffset_le statement), fun decl d cls first => ?_⟩
    exact ahead.trans (leadingOffset_le_decorator cls first)

/-- Whether a comment is in the header of a module that starts with some statement. -/
structure IsHeader (m : Module) (first : Stmt) (c : Comment) : Prop where
  hashbang : m.hashbang = none
  directives : m.directives = []
  ahead : EndsAhead c first

theorem isPinned_iff {first : Stmt} {rest : List Stmt} {c : Comment} (body : m.body = first :: rest) :
    isPinned m c = true ↔ IsHeader m first c := by
  unfold isPinned
  rw [body, List.head?_cons, Option.any_some, Bool.and_eq_true, Bool.and_eq_true,
    Option.isNone_iff_eq_none, List.isEmpty_iff, decide_eq_true_iff, ← endsAhead_iff]
  exact ⟨fun ⟨⟨hashbang, directives⟩, ahead⟩ => ⟨hashbang, directives, ahead⟩,
    fun ⟨hashbang, directives, ahead⟩ => ⟨⟨hashbang, directives⟩, ahead⟩⟩

/-! ### The first statement -/

/-- The statements that lowering makes up: they bind the core functions that the classes of a module call
and the style sheets that were hoisted. -/
inductive IsMade (options : Options) (m : Module) (sheets : List Sheet) : Stmt → Prop
  | core : IsMade options m sheets (coreBinding options.convention options.corePath
      (coreFunctions (m.body.filterMap (component? m.source))))
  | sheet {s : Sheet} (mem : s ∈ sheets) :
      IsMade options m sheets (sheetImport options.convention s.name s.path)

/-- What is made up starts at the top. -/
theorem IsMade.start {sheets : List Sheet} {top : Stmt} (h : IsMade options m sheets top) :
    top.span.start = 0 := by
  cases h <;> cases options.convention <;> rfl

theorem LaidOut.exists_top {core : Stmt} {styles body laid : List Stmt} {convention : Convention}
    (h : LaidOut core styles body convention laid) :
    ∃ top more, laid = top :: more ∧ (top = core ∨ top ∈ styles) := by
  cases h with
  | esm behind => exact ⟨core, _, rfl, .inl rfl⟩
  | cjs =>
      cases styles with
      | nil => exact ⟨core, body, rfl, .inl rfl⟩
      | cons s more => exact ⟨s, _, rfl, .inr (List.mem_cons_self ..)⟩

/-- The imports that lowered statements need come first, one of them at least. -/
theorem exists_isMade {lowered : LoweredBody} {body laid : List Stmt}
    (lowers : Gives (lowerStatements m.source options m.body (initialState m.body)) lowered)
    (nonempty : lowered.report.components ≠ []) (needs : importNeeded options lowered body = .ok laid) :
    ∃ top more, laid = top :: more ∧ IsMade options m lowered.state.styles.sheets top := by
  rw [importNeeded_lowerStatements lowers nonempty] at needs
  obtain rfl := Except.ok.inj needs
  obtain ⟨top, more, starts, made⟩ := (laidOut_withImports ..).exists_top
  refine ⟨top, more, starts, ?_⟩
  rcases made with rfl | sheet
  · exact .core
  · obtain ⟨s, mem, rfl⟩ := List.mem_map.mp sheet
    exact .sheet mem

/-! ### Modules -/

/-- What becomes of a comment of a module that starts with some statement, when comments move. -/
structure Resettles (m out : Module) (first : Stmt) (moves : List CommentMove) (c c' : Comment) :
    Prop where
  /-- Only the anchor of the comment changes. -/
  rest : c' = { c with anchor := c'.anchor }
  text : c'.span.text out.source = c.span.text m.source
  /-- In the header of the module it is kept at the top. -/
  header : IsHeader m first c → c'.anchor = 0
  /-- Elsewhere it goes with the first move. -/
  others : ¬ IsHeader m first c → GoesTo moves c.anchor c'.anchor

theorem resettles_anchored {first : Stmt} {rest : List Stmt} (body : m.body = first :: rest)
    (source : out.source = m.source) (moves : List CommentMove) (c : Comment) :
    Resettles m out first moves c (anchored m moves c) := by
  rw [anchored_eq]
  split
  · rename_i pinned
    exact ⟨rfl, by rw [source], fun _ => rfl, fun other => absurd ((isPinned_iff body).mp pinned) other⟩
  · rename_i unpinned
    refine ⟨?_, by rw [source, relocate_span], fun header => ?_, fun _ => goesTo_iff.mpr rfl⟩
    · obtain ⟨move, -, -, eq⟩ | ⟨-, eq⟩ := relocate_cases moves c <;> rw [eq]
    · exact absurd ((isPinned_iff body).mpr header) unpinned

/-- The header of a module with components stays on top.  The lowered module starts with a statement that
is made up and stands at offset zero.  The comments are those of the module in their order, with their
text.  Those that end ahead of the first statement and its decorators are anchored at the top, unless
there is an interpreter line or a directive, and all others where the first move leads. -/
theorem lowerModule_resettles (run : (lowerModule options m).run.run log = (.ok (report, out), log'))
    (nonempty : report.components ≠ []) :
    ∃ lowered first rest top more,
      Gives (lowerStatements m.source options m.body (initialState m.body)) lowered ∧
      lowered.report = report ∧ m.body = first :: rest ∧ out.body = top :: more ∧
      IsMade options m lowered.state.styles.sheets top ∧ top.span.start = 0 ∧
      List.Forall₂ (Resettles m out first lowered.state.moves) m.comments out.comments := by
  have gives : Gives (lowerModule options m) (report, out) := ⟨log, log', run⟩
  obtain ⟨lowered, lowers, same, -, needed⟩ := lowerModule_ok gives
  obtain ⟨frame, needs⟩ := needed nonempty
  obtain ⟨top, more, starts, made⟩ := exists_isMade lowers (same ▸ nonempty) needs
  -- A module without statements has no components.
  obtain ⟨first, rest, body⟩ : ∃ first rest, m.body = first :: rest := by
    apply List.exists_cons_of_ne_nil
    intro empty
    rw [components_lowerModule gives, empty] at nonempty
    exact nonempty rfl
  have source : out.source = m.source := by rw [frame, anchoredComments_eq]
  have comments : out.comments = m.comments.map (anchored m lowered.state.moves) := by
    rw [frame, anchoredComments_eq]
  refine ⟨lowered, first, rest, top, more, lowers, same, body, starts, made, made.start, ?_⟩
  rw [comments, List.forall₂_map_right_iff, List.forall₂_same]
  intro c _
  exact resettles_anchored body source _ c

/-! ### A title and a field -/

/-- A module with a title ahead of the decorator of an exported class, which is taken away, and a comment
in front of a field, which is taken away too. -/
def titled : String :=
  "// title\n@Component(\x7b tag: 'a-a' \x7d)\nexport class A \x7b\n  // host\n  @Element() el;\n" ++
    "  run() \x7b\x7d\n\x7d\n"

/-- Whether a module with components is lowered, and its comments move between some anchors. -/
def movesBetween (pairs : List (Nat × Nat)) (options : Options) (m : Module) : Bool :=
  match (lowerModule options m).run.run [] with
  | (.ok (report, out), _) =>
    !report.components.isEmpty &&
      (m.comments.zip out.comments).map (fun p => (p.1.anchor, p.2.anchor)) == pairs
  | _ => false

theorem of_movesBetween {pairs : List (Nat × Nat)} (h : movesBetween pairs options m = true) :
    ∃ report out log, (lowerModule options m).run.run [] = (.ok (report, out), log) ∧
      report.components ≠ [] ∧
      (m.comments.zip out.comments).map (fun p => (p.1.anchor, p.2.anchor)) = pairs := by
  unfold movesBetween at h
  split at h
  · rename_i report out log run
    simp only [Bool.and_eq_true, Bool.not_eq_true', List.isEmpty_eq_false_iff, beq_iff_eq] at h
    exact ⟨report, out, log, run, h⟩
  · cases h

theorem titled_read :
    ∃ m, Module.read (.ofPath "a.ts") titled.toList = .ok m ∧
      movesBetween [(9, 0), (65, 82)] defaults m = true :=
  exists_of_read (by decide +kernel)

/-- The title is kept at the top, and the other comment moves to the method behind the field. -/
theorem titled_resettles :
    ∃ m report out log lowered first rest top more,
      Module.read (.ofPath "a.ts") titled.toList = .ok m ∧
      (lowerModule defaults m).run.run [] = (.ok (report, out), log) ∧ report.components ≠ [] ∧
      (m.comments.zip out.comments).map (fun p => (p.1.anchor, p.2.anchor)) = [(9, 0), (65, 82)] ∧
      Gives (lowerStatements m.source defaults m.body (initialState m.body)) lowered ∧
      lowered.report = report ∧ m.body = first :: rest ∧ out.body = top :: more ∧
      IsMade defaults m lowered.state.styles.sheets top ∧ top.span.start = 0 ∧
      List.Forall₂ (Resettles m out first lowered.state.moves) m.comments out.comments := by
  obtain ⟨m, read, moved⟩ := titled_read
  obtain ⟨report, out, log, run, nonempty, anchors⟩ := of_movesBetween moved
  obtain ⟨lowered, first, rest, top, more, resettles⟩ := lowerModule_resettles run nonempty
  exact ⟨m, report, out, log, lowered, first, rest, top, more, read, run, nonempty, anchors, resettles⟩

/-- Behind a directive a title moves from the decorator to `export`. -/
example : ∃ m, Module.read (.ofPath "a.ts")
      "'use strict';\n// title\n@Component(\x7b tag: 'a-a' \x7d)\nexport class A \x7b\x7d".toList = .ok m ∧
    movesBetween [(23, 50)] defaults m = true :=
  exists_of_read (by decide +kernel)

end ComponentLowering.Lowering
