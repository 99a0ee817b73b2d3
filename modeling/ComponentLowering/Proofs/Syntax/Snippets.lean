/-
# Reading snippets

A text is read as some statements when its tokens are taken by the rule for statements one
statement after the other.
-/
import ComponentLowering.Code.Snippet
import ComponentLowering.Proofs.Syntax.MadeStatements
import ComponentLowering.Proofs.Syntax.MadeTexts

namespace ComponentLowering.Syntax

open ComponentLowering.Code

/-! ### Exported names -/

mutual

/-- Names do not depend on places. -/
theorem Pattern.boundNames_detach (withRest : Bool) :
    (p : Pattern) → p.detach.boundNames withRest = p.boundNames withRest
  | .ident _ _ => by simp only [Pattern.detach, Pattern.boundNames]
  | .object _ properties => by
      simp only [Pattern.detach, Pattern.boundNames,
        patternsBoundNames_detach withRest properties]
  | .property _ _ value _ => by
      simp only [Pattern.detach, Pattern.boundNames, Pattern.boundNames_detach withRest value]
  | .array _ elements => by
      simp only [Pattern.detach, Pattern.boundNames, patternsBoundNames_detach withRest elements]
  | .hole _ => by simp only [Pattern.detach, Pattern.boundNames]
  | .withDefault _ target _ => by
      simp only [Pattern.detach, Pattern.boundNames, Pattern.boundNames_detach withRest target]
  | .rest _ target => by
      simp only [Pattern.detach, Pattern.boundNames, Pattern.boundNames_detach withRest target]
  | .annotated target _ _ => by
      simp only [Pattern.detach, Pattern.boundNames, Pattern.boundNames_detach withRest target]
  | .place _ => by simp only [Pattern.detach, Pattern.boundNames]

theorem patternsBoundNames_detach (withRest : Bool) :
    (ps : List Pattern) → patternsBoundNames withRest (detachPatterns ps) =
      patternsBoundNames withRest ps
  | [] => by simp only [detachPatterns]
  | p :: rest => by
      simp only [detachPatterns, patternsBoundNames, Pattern.boundNames_detach withRest p,
        patternsBoundNames_detach withRest rest]

end

theorem detachItems_boundNames (items : List Declarator) :
    (detachItems items).flatMap (fun d => d.target.boundNames true) =
      items.flatMap fun d => d.target.boundNames true := by
  induction items with
  | nil => rfl
  | cons d rest ih =>
      obtain ⟨span, target, definite, optional, type, value⟩ := d
      simp only [detachItems, Declarator.detach, List.flatMap_cons,
        Pattern.boundNames_detach true target, ih]

theorem ModuleName.text_detach (n : ModuleName) : n.detach.text = n.text := by
  cases n <;> rfl

theorem Stmt.exportedNames_detach (s : Stmt) : s.detach.exportedNames = s.exportedNames := by
  cases s with
  | exportDecl span decl =>
      cases decl with
      | variableDecl span declared kind items => exact detachItems_boundNames items
      | function fn =>
          rcases fn with ⟨_, _ | _, _, _, _, _, _, _, _, _, _, _⟩ <;> rfl
      | classDecl decl =>
          rcases decl with ⟨_, _, _, _, _ | _, _, _, _, _, _, _⟩ <;> rfl
      | _ => rfl
  | exportList exports =>
      simp only [Stmt.detach, ExportList.detach, Stmt.exportedNames, List.map_map]
      exact List.map_congr_left fun x _ => ModuleName.text_detach x.exposed
  | exportAll exports =>
      rcases exports with ⟨_, _, _ | name, _, _, _⟩
      · rfl
      · simp [Stmt.detach, ExportAll.detach, Stmt.exportedNames, ModuleName.text_detach]
  | _ => rfl

theorem exportsOnce_detach (body : List Stmt) :
    exportsOnce (detachStmts body) = exportsOnce body := by
  have names : (detachStmts body).flatMap Stmt.exportedNames = body.flatMap Stmt.exportedNames := by
    induction body with
    | nil => rfl
    | cons s rest ih =>
        simp only [detachStmts, List.flatMap_cons, Stmt.exportedNames_detach, ih]
  simp only [exportsOnce, names]

namespace Parser

variable {c : Surroundings} {s : Reading} {r : Rules} {ls rest : List Lexeme} {trees : List Stmt}

/-! ### Bodies -/

/-- Whether the rule for statements takes some lexemes to their end. -/
inductive ReadsAll (r : Rules) (c : Surroundings) : List Lexeme → List Stmt → Prop where
  | done : ReadsAll r c [] []
  | more {ls rest : List Lexeme} {tree : Stmt} {trees : List Stmt}
      (head : (∃ n, ls.head? = some (.word n false)) ∨ ls.head? = some (.mark ";"))
      (shorter : rest.length < ls.length) (first : Takes r.statement c ls rest (·.detach = tree))
      (others : ReadsAll r c rest trees) : ReadsAll r c ls (tree :: trees)

/-- One statement of a body with its raw text if a string begins it. -/
def bodyItem (r : Rules) (isEnd : Token → Bool) : Parser (Option (Option (List Char) × Stmt)) := do
  let t ← peek
  if isEnd t then return none
  ensure (t.lexeme != .endOfText)
  let raw ← match t.lexeme with
    | .string _ => some <$> tokenText
    | _ => pure none
  return some (raw, ← r.statement)

theorem bodyUpTo_eq (isEnd : Token → Bool) :
    bodyUpTo r isEnd = splitDirectives <$> collect (bodyItem r isEnd) := rfl

/-- No statement of a body begins with a string, so none is a directive. -/
theorem splitDirectives_map_none (more : List Stmt) :
    splitDirectives (more.map (none, ·)) = ([], more) := by
  cases more with
  | nil => rfl
  | cons s rest => simp [splitDirectives]

theorem takes_bodyItem {tree : Stmt}
    (head : (∃ n, ls.head? = some (.word n false)) ∨ ls.head? = some (.mark ";"))
    (first : Takes r.statement c ls rest (·.detach = tree)) :
    Takes (bodyItem r fun t => t.lexeme == .endOfText) c ls rest fun item =>
      ∃ s : Stmt, item = some (none, s) ∧ s.detach = tree := by
  intro s before
  have lexeme : (∃ n, s.token.lexeme = .word n false) ∨ s.token.lexeme = .mark ";" := by
    rw [before.lexeme, List.headD_eq_head?_getD]
    rcases head with ⟨n, head⟩ | head
    · exact .inl ⟨n, by rw [head]; rfl⟩
    · exact .inr (by rw [head]; rfl)
  have here : Reaches r.statement c s fun a s' => Before rest s' ∧
      ∃ b : Stmt, some (none, a) = some ((none : Option (List Char)), b) ∧ b.detach = tree := by
    refine (first s before).imp ?_
    rintro a s' ⟨behind, ha⟩
    exact ⟨behind, a, rfl, ha⟩
  unfold bodyItem
  simp only [reaches_bind, reaches_peek]
  rcases lexeme with ⟨n, eq⟩ | eq
  · simpa [eq, reaches_bind, reaches_map, reaches_ensure, reaches_pure] using here
  · simpa [eq, reaches_bind, reaches_map, reaches_ensure, reaches_pure] using here

theorem takes_repeatFrom_statements (h : ReadsAll r c ls trees) {fuel : Nat}
    (hfuel : ls.length < fuel) (acc : List (Option (List Char) × Stmt)) :
    Takes (repeatFrom (bodyItem r fun t => t.lexeme == .endOfText) fuel acc) c ls []
      fun items => ∃ more : List Stmt, items = acc.reverse ++ more.map (none, ·) ∧
        detachStmts more = trees := by
  induction h generalizing fuel acc with
  | done =>
      obtain ⟨fuel, rfl⟩ := Nat.exists_eq_add_one.mpr hfuel
      intro s before
      have ended : (s.token.lexeme == .endOfText) = true := by simp [before.atEnd]
      unfold repeatFrom bodyItem
      simp only [reaches_bind, reaches_peek, ended, ↓reduceIte, reaches_pure]
      exact ⟨before, [], by simp, rfl⟩
  | more head shorter first others ih =>
      obtain ⟨fuel, rfl⟩ := Nat.exists_eq_add_one.mpr (Nat.zero_lt_of_lt hfuel)
      intro s before
      unfold repeatFrom
      rw [reaches_bind]
      refine (takes_bodyItem head first s before).imp ?_
      rintro _ s1 ⟨h1, tree', rfl, htree⟩
      refine (ih (by omega) ((none, tree') :: acc) s1 h1).imp ?_
      rintro items s2 ⟨h2, more, rfl, hmore⟩
      exact ⟨h2, tree' :: more, by simp, by simp [detachStmts, htree, hmore]⟩

/-- A whole module that begins with no string. -/
theorem takes_topLevel (h : ReadsAll r c ls trees) (once : exportsOnce trees = true) :
    Takes (Module.topLevel r) c ls [] fun (_, body) => detachStmts body = trees := by
  intro s before
  unfold Module.topLevel
  simp only [bodyUpTo_eq, collect, reaches_bind, reaches_map, reaches_bound]
  have long := before.bound
  refine (takes_repeatFrom_statements h (Nat.lt_succ_of_le long) [] s before).imp ?_
  rintro items s1 ⟨h1, more, rfl, hmore⟩
  have once' : exportsOnce more = true := by rw [← exportsOnce_detach, hmore, once]
  simp only [List.reverse_nil, List.nil_append, splitDirectives_map_none, reaches_get,
    h1.noDefaults, List.isEmpty_nil, reaches_ensure, reaches_dialect, once', Bool.or_true,
    reaches_pure, true_and]
  exact ⟨h1, hmore⟩

/-- No module begins with a statement that cannot be read. -/
theorem not_reaches_topLevel {n : String} {Q : List Directive × List Stmt → Reading → Prop}
    (before : Before (.word n false :: ls) s)
    (refused : ∀ Q, ¬ Reaches r.statement c s Q) : ¬ Reaches (Module.topLevel r) c s Q := by
  unfold Module.topLevel
  simp only [bodyUpTo_eq, collect, reaches_bind, reaches_map, reaches_bound]
  unfold repeatFrom bodyItem
  simp [reaches_bind, reaches_peek, before.cons, reaches_ensure, reaches_map, refused]

end Parser

/-! ### Texts -/

/-- Whether a text begins neither with a byte-order mark nor with an interpreter line. -/
def BeginsPlainly (text : List Char) : Prop :=
  text.head? ≠ some '\uFEFF' ∧ text.head? ≠ some '#'

theorem beginsPlainly_nil : BeginsPlainly [] := by simp [BeginsPlainly]

theorem beginsPlainly_word {n : String} (word : isWordText n = true) (rest : List Char) :
    BeginsPlainly (n.toList ++ rest) := by
  unfold isWordText at word
  split at word
  · contradiction
  · rename_i c w eq
    have start := (Bool.and_eq_true_iff.mp word).1
    have space := isSpace_of_start start
    rw [eq]
    constructor
    · rintro head
      obtain rfl : c = '\uFEFF' := by simpa using head
      revert space
      decide
    · simpa using ne_of_start start (by decide)

/-- Items with commas and blanks between them, if a word may end each of them. -/
theorem spells_commaItems {ι : Type} {piece : ι → String} {toks : ι → List Lexeme} {items : List ι}
    (each : ∀ x ∈ items, ∀ rest lexemes, EndsWord rest → Spells rest lexemes →
      Spells ((piece x).toList ++ rest) (toks x ++ lexemes))
    {rest : List Char} {lexemes : List Lexeme} (ends : EndsWord rest) (h : Spells rest lexemes) :
    Spells ((", ".intercalate (items.map piece)).toList ++ rest)
      (Parser.commaJoined (items.map toks) ++ lexemes) := by
  induction items with
  | nil => simpa [Parser.commaJoined] using h
  | cons x items ih =>
      obtain ⟨here, others⟩ := List.forall_mem_cons.mp each
      cases items with
      | nil => simpa [Parser.commaJoined] using here rest lexemes ends h
      | cons y items =>
          have comma : EndsWord (',' :: ' ' ::
              ((", ".intercalate ((y :: items).map piece)).toList ++ rest)) :=
            endsWord_cons (by decide) (by decide) _
          have spelled := here _ _ comma ((ih others).space.mark (m := ",") (by decide))
          simpa [String.intercalate_cons_cons, Parser.commaJoined] using spelled

namespace Module

/-- The state in front of the first token of a text. -/
theorem before_initial {text : List Char} {lexemes : List Lexeme} (h : Spells text lexemes)
    (plainly : BeginsPlainly text) :
    Before lexemes (initial .plain text).2 := by
  have unmarked : afterMark ⟨text, 0⟩ = ⟨text, 0⟩ := by
    cases text with
    | nil => rfl
    | cons c rest =>
        have : c ≠ '\uFEFF' := by simpa using plainly.1
        simp [afterMark, this]
  have noHash : hashbangOf (text.length + 2) ⟨text, 0⟩ = (none, ⟨text, 0⟩) := by
    unfold hashbangOf
    split
    · rename_i rest eq
      simp only at eq
      rw [eq] at plainly
      simp [BeginsPlainly] at plainly
    · rfl
  obtain ⟨token, here, after, read, lexeme, call, function, spells, shorter, line⟩ :=
    h.tokenAfter (show text.length < text.length + 2 by omega) CommentGap.isQuiet_atStart 0
  have long := h.length_le
  simp only [initial, unmarked, noHash, Parser.readFrom, Option.isSome_none, Bool.false_eq_true,
    ↓reduceIte, show Dialect.plain.script = false from rfl, read]
  exact
    { dialect := rfl
      lexeme := lexeme
      spells := spells
      room := by simpa using by omega
      bound := by simpa using by omega
      callNote := call
      functionNote := function
      noDefaults := rfl
      line := line }

theorem read_ok {text : List Char} {directives : List Directive} {body : List Stmt} {s : Reading}
    (h : topLevel (Parser.rules (text.length + 4)) (surroundings .plain) (initial .plain text).2 =
      (.ok (directives, body), s)) : ∃ m, read .plain text = .ok m ∧ m.body = body := by
  have fuel : (initial .plain text).2.fuel + 2 = text.length + 4 := rfl
  unfold read
  rw [← fuel] at h
  generalize initial .plain text = start at h
  obtain ⟨hashbang, start⟩ := start
  simp only at h ⊢
  rw [h]
  exact ⟨_, rfl, rfl⟩

theorem read_error {text : List Char} {e : SyntaxError} {s : Reading}
    (h : topLevel (Parser.rules (text.length + 4)) (surroundings .plain) (initial .plain text).2 =
      (.error e, s)) : read .plain text = .error e := by
  have fuel : (initial .plain text).2.fuel + 2 = text.length + 4 := rfl
  unfold read
  rw [← fuel] at h
  generalize initial .plain text = start at h
  obtain ⟨hashbang, start⟩ := start
  simp only at h ⊢
  rw [h]

end Module

end ComponentLowering.Syntax

namespace ComponentLowering.Code

open ComponentLowering.Syntax ComponentLowering.Syntax.Parser

/-- The statements of a text whose tokens are known. -/
theorem statements_eq {text : String} {lexemes : List Lexeme} {trees : List Stmt}
    (h : Spells text.toList lexemes) (plainly : BeginsPlainly text.toList) (once : exportsOnce trees = true)
    (reads : ReadsAll (rules (text.toList.length + 4)) (Module.surroundings .plain) lexemes trees) :
    statements text = .ok trees := by
  have before := Module.before_initial h plainly
  obtain ⟨⟨directives, body⟩, s, eq, _, hbody⟩ := takes_topLevel reads once _ before
  obtain ⟨m, read, rfl⟩ := Module.read_ok eq
  unfold statements
  rw [read]
  exact congrArg Except.ok hbody

/-- A text that begins with a statement that cannot be read is no snippet. -/
theorem statements_error {text n : String} {lexemes : List Lexeme}
    (h : Spells text.toList (.word n false :: lexemes)) (plainly : BeginsPlainly text.toList)
    (refused : ∀ s Q, Before (.word n false :: lexemes) s →
      ¬ Reaches (rules (text.toList.length + 4)).statement (Module.surroundings .plain) s Q) :
    ∃ failure, statements text = .error failure := by
  have before := Module.before_initial h plainly
  rcases eq : Module.topLevel (rules (text.toList.length + 4)) (Module.surroundings .plain)
    (Module.initial .plain text.toList).2 with ⟨e | ⟨directives, body⟩, s⟩
  · unfold statements
    rw [Module.read_error eq]
    exact ⟨_, rfl⟩
  · exact absurd ⟨_, _, eq, trivial⟩
      (not_reaches_topLevel (Q := fun _ _ => True) before fun Q => refused _ Q before)

end ComponentLowering.Code
