/-
# Reading made-up statements

The statements that lowering makes up outside of classes: imports, constants and assignments.  Each
has a rule that says from which tokens it is read.
-/
import ComponentLowering.Proofs.Syntax.Phrases

namespace ComponentLowering.Syntax

namespace Parser

variable {α β : Type} {c : Surroundings} {s : Reading} {r : Rules} {l m : Lexeme}
  {ls mid rest tail : List Lexeme} {post : α → Prop}

/-! ### Parts of statements -/

theorem IsPlainName.isNameWord {n : String} (plain : IsPlainName n) {t : Token}
    (h : t.lexeme = .word n false) : isNameWord t = true := by
  simp only [Parser.isNameWord, h, plain.notReserved, Bool.not_false]

theorem reaches_ahead {p : Parser Bool} {Q : Bool → Reading → Prop} (h : ∀ b, Q b s) :
    Reaches (ahead p) c s Q := by
  unfold Reaches ahead foresee
  rcases p c s with ⟨e | a, s'⟩
  · exact ⟨false, s, rfl, h false⟩
  · exact ⟨a, s, rfl, h a⟩

theorem takes_semicolon : Takes semicolon c (.mark ";" :: ls) ls fun _ => True := by
  intro s h
  have escaped : s.token.isEscaped = false := by simp [Token.isEscaped, h.cons]
  unfold semicolon
  simp only [reaches_bind, reaches_peek, isMark_of_eq h.cons, ↓reduceIte, reaches_advance, escaped,
    true_and]
  exact ⟨h.next, trivial⟩

theorem takes_stringLiteral {v : Text.StringValue} :
    Takes stringLiteral c (.string v :: ls) ls (·.detach = ⟨.detached, v⟩) := by
  intro s h
  unfold stringLiteral
  simp only [reaches_bind, reaches_peek, h.cons, reaches_advance, Token.isEscaped, reaches_pure]
  exact ⟨trivial, h.next, rfl⟩

theorem takes_name {n : String} (plain : IsPlainName n) (hc : c.isYield = false) :
    Takes name c (.word n false :: ls) ls (·.name = n) := by
  intro s h
  rw [reaches_name plain hc h]
  exact ⟨h.next, rfl⟩

theorem takes_anyWord {n : String} : Takes anyWord c (.word n false :: ls) ls (·.name = n) := by
  intro s h
  rw [reaches_anyWord h]
  exact ⟨h.next, rfl⟩

/-- No attributes stand in front of a semicolon. -/
theorem takes_attributes :
    Takes attributes c (.mark ";" :: ls) (.mark ";" :: ls) (· = ("with", none)) := by
  intro s h
  have withWord : s.token.isWord "with" = false := by simp [Token.isWord, h.cons]
  have assertWord : s.token.isWord "assert" = false := by simp [Token.isWord, h.cons]
  unfold attributes
  simp only [reaches_bind, reaches_peek, withWord, assertWord, Bool.false_and, Bool.or_false,
    Bool.false_eq_true, ↓reduceIte, reaches_pure]
  exact ⟨h, trivial⟩

theorem takes_eatWord {word : String} :
    Takes (eatWord word) c (.word word false :: ls) ls (· = true) := by
  intro s h
  have escaped : s.token.isEscaped = false := by simp [Token.isEscaped, h.cons]
  simp only [reaches_eatWord, isWord_of_word h.cons, beq_self_eq_true, ↓reduceIte, escaped,
    true_and]
  exact ⟨h.next, trivial⟩

theorem takes_expectWord {word : String} :
    Takes (expectWord word) c (.word word false :: ls) ls fun _ => True := by
  intro s h
  have escaped : s.token.isEscaped = false := by simp [Token.isEscaped, h.cons]
  simp only [reaches_expectWord, isWord_of_word h.cons, beq_self_eq_true, escaped, true_and]
  exact ⟨h.next, trivial⟩

/-! ### Imports -/

/-- The source of an import and the end of the declaration. -/
def importTail (v : Text.StringValue) (ls : List Lexeme) : List Lexeme :=
  .string v :: .mark ";" :: ls

/-- An import declaration as it is made up. -/
def madeImport (specifiers : List ImportSpecifier) (v : Text.StringValue) : Stmt :=
  .importDecl ⟨.detached, false, none, some specifiers, ⟨.detached, v⟩, "with", none⟩

theorem takes_importSpecifiers_default {spec : ImportSpecifier} :
    Takes (importSpecifiers [spec]) c (.word "from" false :: ls) ls (· = [spec]) := by
  intro s h
  have comma : s.token.isMark "," = false := by simp [Token.isMark, h.cons]
  unfold importSpecifiers
  simp only [List.isEmpty_cons, Bool.not_false, ↓reduceIte, reaches_bind, reaches_eatMark, comma,
    Bool.false_eq_true]
  refine (takes_expectWord s h).imp ?_
  rintro _ s' ⟨behind, _⟩
  simp only [reaches_pure]
  exact ⟨behind, trivial⟩

/-- The rest of an import declaration with a default binding. -/
theorem takes_importFrom_default {start : Nat} {n : String} {v : Text.StringValue}
    (plain : IsPlainName n) (hc : c.isYield = false) :
    Takes (importFrom start false none) c
      (.word n false :: .word "from" false :: importTail v ls) ls
      (·.detach = madeImport [.default .detached ⟨.detached, n⟩] v) := by
  intro s h
  have nameWord : isNameWord s.token = true := plain.isNameWord h.cons
  unfold importFrom
  simp only [reaches_bind, reaches_peek, nameWord, ↓reduceIte]
  refine (takes_name plain hc s h).imp ?_
  rintro n' s1 ⟨h1, hn⟩
  simp only [reaches_pure, h1.cons, reaches_bind, reaches_map]
  refine (takes_importSpecifiers_default s1 h1).imp ?_
  rintro _ s2 ⟨h2, rfl⟩
  simp only [reaches_ensure, Bool.false_and, Bool.not_false, true_and]
  refine (takes_stringLiteral s2 h2).imp ?_
  rintro source s3 ⟨h3, hsource⟩
  refine (takes_attributes s3 h3).imp ?_
  rintro _ s4 ⟨h4, rfl⟩
  refine (takes_semicolon s4 h4).imp ?_
  rintro _ s5 ⟨h5, _⟩
  simp only [reaches_spanFrom]
  refine ⟨h5, ?_⟩
  simp [Stmt.detach, ImportDecl.detach, madeImport, ImportSpecifier.detach, hsource, Ident.detach,
    hn]

/-- A binding of an import under a name of its own, as lexemes. -/
def namedLexemes (b : String × String) : List Lexeme :=
  [.word b.1 false, .word "as" false, .word b.2 false]

/-- A binding of an import under a name of its own. -/
def madeSpecifier (b : String × String) : ImportSpecifier :=
  .named .detached (.ident ⟨.detached, b.1⟩) ⟨.detached, b.2⟩ false

theorem takes_moduleName {n : String} :
    Takes moduleName c (.word n false :: ls) ls (·.detach = .ident ⟨.detached, n⟩) := by
  intro s h
  unfold moduleName wordOrString
  simp only [reaches_bind, reaches_peek, h.cons, reaches_map]
  refine (takes_anyWord s h).imp ?_
  rintro a s' ⟨behind, ha⟩
  refine ⟨behind, ?_⟩
  simp [ModuleName.detach, Ident.detach, ha]

theorem takes_importSpecifier {b : String × String}
    (notReserved : reservedWords.contains b.2 = false) :
    Takes importSpecifier c (namedLexemes b ++ ls) ls (·.detach = madeSpecifier b) := by
  intro s h
  have types : s.dialect.types = false := by rw [h.dialect]; rfl
  unfold importSpecifier moduleSpecifier
  simp only [reaches_bind, reaches_startOffset, reaches_dialect, types, reaches_atWord,
    Bool.false_and, Bool.false_eq_true, ↓reduceIte, reaches_pure]
  refine (takes_moduleName s h).imp ?_
  rintro a s1 ⟨h1, ha⟩
  refine (takes_eatWord s1 h1).imp ?_
  rintro _ s2 ⟨h2, rfl⟩
  simp only [↓reduceIte, reaches_bind]
  refine (takes_moduleName s2 h2).imp ?_
  rintro b' s3 ⟨h3, hb⟩
  simp only [reaches_pure]
  cases b' with
  | string literal => cases hb
  | ident name =>
      have eq : name.name = b.2 := by
        simpa [ModuleName.detach, Ident.detach] using hb
      simp only [reaches_bind, reaches_ensure, eq, notReserved, Bool.not_false, reaches_spanFrom,
        reaches_pure, true_and]
      exact ⟨h3, by simp [ImportSpecifier.detach, madeSpecifier, ha, Ident.detach, eq]⟩

/-- The rest of an import declaration with named bindings. -/
theorem takes_importFrom_named {start : Nat} {bindings : List (String × String)}
    {v : Text.StringValue} (notReserved : ∀ b ∈ bindings, reservedWords.contains b.2 = false) :
    Takes (importFrom start false none) c
      (.mark "\x7b" :: (commaJoined (bindings.map namedLexemes) ++
        .mark "\x7d" :: .word "from" false :: importTail v ls)) ls
      (·.detach = madeImport (bindings.map madeSpecifier) v) := by
  intro s h
  have nameWord : isNameWord s.token = false := by simp [isNameWord, h.cons]
  have star : s.token.isMark "*" = false := by simp [Token.isMark, h.cons]
  have items : TakesItems importSpecifier c "\x7d" namedLexemes
      (fun b spec => spec.detach = madeSpecifier b) bindings :=
    ⟨fun b _ => ⟨_, _, rfl, by simp⟩, fun b hb tail _ => takes_importSpecifier (notReserved b hb)⟩
  unfold importFrom importSpecifiers
  simp only [reaches_bind, reaches_peek, nameWord, Bool.false_eq_true, ↓reduceIte, reaches_pure,
    h.cons, reaches_map, List.isEmpty_nil, Bool.not_true, reaches_startOffset, reaches_eatMark,
    star, reaches_expectMark, isMark_of_eq h.cons, true_and]
  refine (takes_commaItems (by decide) items s.next h.next).imp ?_
  rintro specs s1 ⟨h1, all⟩
  simp only [isMark_of_eq h1.cons, true_and]
  refine (takes_expectWord s1.next h1.next).imp ?_
  rintro _ s2 ⟨h2, _⟩
  simp only [reaches_ensure, Bool.false_and, Bool.not_false, true_and, List.nil_append]
  refine (takes_stringLiteral s2 h2).imp ?_
  rintro source s3 ⟨h3, hsource⟩
  refine (takes_attributes s3 h3).imp ?_
  rintro _ s4 ⟨h4, rfl⟩
  refine (takes_semicolon s4 h4).imp ?_
  rintro _ s5 ⟨h5, _⟩
  simp only [reaches_spanFrom]
  have specifiers := map_eq_map_of_forall₂ all
  refine ⟨h5, ?_⟩
  simp [Stmt.detach, ImportDecl.detach, madeImport, hsource, specifiers]

/-- Whether some lexemes may stand behind the word `import`: bindings, and no phase. -/
inductive OpensBindings : List Lexeme → Prop where
  | name {n : String} {ls : List Lexeme} (notDefer : n ≠ "defer") (notSource : n ≠ "source") :
      OpensBindings (.word n false :: ls)
  | brace {ls : List Lexeme} : OpensBindings (.mark "\x7b" :: ls)

theorem takes_importStatement {post : Stmt → Prop} (opens : OpensBindings ls)
    (from' : ∀ start, Takes (importFrom start false none) c ls rest post) :
    Takes importStatement c (.word "import" false :: ls) rest post := by
  intro s h
  unfold importStatement importRest
  simp only [reaches_bind, reaches_startOffset]
  refine (takes_expectWord s h).imp ?_
  rintro _ s' ⟨behind, _⟩
  have types : s'.dialect.types = false := by rw [behind.dialect]; rfl
  simp only [reaches_dialect, types, Bool.false_and, Bool.false_eq_true, ↓reduceIte]
  unfold atAlias atTypeOnly atPhase
  simp only [reaches_bind]
  refine reaches_ahead fun _ => reaches_ahead fun _ => ?_
  simp only [reaches_atWord]
  cases opens with
  | @name n ls notDefer notSource =>
      have defer : (n == "defer") = false := by simpa using notDefer
      have source : (n == "source") = false := by simpa using notSource
      simp only [isWord_of_word behind.cons, defer, source, Bool.false_eq_true, ↓reduceIte,
        reaches_bind, reaches_atWord, reaches_pure]
      exact from' _ s' behind
  | brace =>
      have word (w : String) : s'.token.isWord w = false := by simp [Token.isWord, behind.cons]
      simp only [word, Bool.false_eq_true, ↓reduceIte, reaches_bind, reaches_atWord, reaches_pure]
      exact from' _ s' behind

/-! ### Constants -/

/-- A binding of a constant that takes an object apart, as lexemes. -/
def propertyLexemes (b : String × String) : List Lexeme :=
  [.word b.1 false, .mark ":", .word b.2 false]

/-- A binding of a constant that takes an object apart. -/
def madeProperty (b : String × String) : Pattern :=
  .property .detached (.name .detached b.1) (.ident .detached b.2) false

theorem pattern_rules (depth : Nat) :
    (rules (depth + 1)).pattern = bindingPattern (rules depth) := by
  funext c s
  rw [rules]

theorem statement_rules (depth : Nat) :
    (rules (depth + 1)).statement = statementRule (rules depth) := by
  funext c s
  rw [rules]

theorem takes_bindingPattern_name {n : String} (plain : IsPlainName n) (hc : c.isYield = false) :
    Takes (bindingPattern r) c (.word n false :: ls) ls (·.detach = .ident .detached n) := by
  intro s h
  have mark (m : String) : s.token.isMark m = false := by simp [Token.isMark, h.cons]
  unfold bindingPattern
  simp only [reaches_bind, reaches_startOffset, reaches_eatMark, mark, Bool.false_eq_true,
    ↓reduceIte]
  refine (takes_name plain hc s h).imp ?_
  rintro a s' ⟨behind, ha⟩
  simp only [reaches_pure]
  exact ⟨behind, by simp [Pattern.detach, ha]⟩

/-- A nested pattern without a type and a default value. -/
theorem takes_patternElement_name {n : String} (plain : IsPlainName n) (hc : c.isYield = false)
    {r' : Rules} (hr : r.pattern = bindingPattern r') (ends : BeginsWith [",", "\x7d"] ls) :
    Takes (patternElement r) c (.word n false :: ls) ls (·.detach = .ident .detached n) := by
  intro s h
  unfold patternElement typeAnnotation eatTypeColon withInitializer
  simp only [reaches_bind, reaches_startOffset, hr]
  refine (takes_bindingPattern_name plain hc s h).imp ?_
  rintro a s' ⟨behind, ha⟩
  have types : s'.dialect.types = false := by rw [behind.dialect]; rfl
  obtain ⟨m, mem, lexeme⟩ := ends.lexeme behind
  have equals : s'.token.isMark "=" = false := by
    apply isMark_of_ne
    rw [lexeme]
    simp only [ne_eq, Lexeme.mark.injEq]
    rintro rfl
    revert mem
    decide
  simp only [reaches_dialect, types, Bool.false_eq_true, ↓reduceIte, reaches_bind, reaches_pure,
    reaches_eatMark, equals, Option.isSome_none, Bool.or_false]
  exact ⟨behind, ha⟩

theorem takes_patternProperty {b : String × String} (plain : IsPlainName b.2)
    (hc : c.isYield = false) {r' : Rules} (hr : r.pattern = bindingPattern r')
    (ends : BeginsWith [",", "\x7d"] ls) :
    Takes (patternProperty r) c (propertyLexemes b ++ ls) ls (·.detach = madeProperty b) := by
  intro s h
  have spread : s.token.isMark "..." = false := by
    simp [Token.isMark, h.lexeme, propertyLexemes]
  have colon : s.next.token.isMarkOf [",", "\x7d", "="] = false := by
    simp [Token.isMarkOf, h.next.cons]
  unfold patternProperty
  simp only [reaches_bind, reaches_startOffset, reaches_peek, spread, Bool.false_eq_true,
    ↓reduceIte, reaches_ite, reaches_nextIs, colon, reaches_pure, ite_self]
  refine (takes_propertyKey (.word b.1) s h).imp ?_
  rintro k s1 ⟨h1, hk⟩
  simp only [reaches_expectMark, isMark_of_eq h1.cons, true_and]
  refine (takes_patternElement_name plain hc hr ends s1.next h1.next).imp ?_
  rintro p s2 ⟨h2, hp⟩
  simp only [reaches_spanFrom]
  exact ⟨h2, by simp [Pattern.detach, madeProperty, hk, hp]⟩

theorem detachPatterns_eq {ι : Type} {tree : ι → Pattern} {items : List ι} {ps : List Pattern}
    (h : List.Forall₂ (fun x p => p.detach = tree x) items ps) :
    detachPatterns ps = items.map tree := by
  induction h with
  | nil => rfl
  | cons here _ ih => rw [detachPatterns, here, ih, List.map_cons]

theorem takes_bindingPattern_object {bindings : List (String × String)}
    (plain : ∀ b ∈ bindings, IsPlainName b.2) (hc : c.isYield = false) {r' : Rules}
    (hr : r.pattern = bindingPattern r') :
    Takes (bindingPattern r) c
      (.mark "\x7b" :: (commaJoined (bindings.map propertyLexemes) ++ .mark "\x7d" :: ls)) ls
      (·.detach = .object .detached (bindings.map madeProperty)) := by
  intro s h
  have items : TakesItems (patternProperty r) c "\x7d" propertyLexemes
      (fun b p => p.detach = madeProperty b) bindings :=
    ⟨fun b _ => ⟨_, _, rfl, by simp⟩,
      fun b hb tail ends => takes_patternProperty (plain b hb) hc hr ends⟩
  unfold bindingPattern
  simp only [reaches_bind, reaches_startOffset, reaches_eatMark, isMark_of_eq h.cons, ↓reduceIte]
  refine (takes_commaItems (by decide) items s.next h.next).imp ?_
  rintro ps s1 ⟨h1, all⟩
  simp only [reaches_expectMark, isMark_of_eq h1.cons, true_and, reaches_spanFrom, reaches_pure]
  exact ⟨h1.next, by simp [Pattern.detach, detachPatterns_eq all]⟩

/-- A constant as it is made up. -/
def madeConstant (target : Pattern) (value : Expr) : Stmt :=
  .variableDecl .detached false .const [⟨.detached, target, false, false, none, some value⟩]

/-- A variable with a value. -/
theorem takes_declarator {target : Pattern} {value : Expr}
    (pattern : Takes r.pattern c ls (.mark "=" :: mid) (·.detach = target))
    (assignment : Takes r.assignment c mid rest (·.detach = value)) :
    Takes (declarator r) c ls rest fun d =>
      d.detach = ⟨.detached, target, false, false, none, some value⟩ ∧ d.value.isSome := by
  intro s h
  unfold declarator typeAnnotation eatTypeColon
  simp only [reaches_bind, reaches_startOffset]
  refine (pattern s h).imp ?_
  rintro p s1 ⟨h1, hp⟩
  have types : s1.dialect.types = false := by rw [h1.dialect]; rfl
  simp only [reaches_dialect, types, reaches_peek, Bool.false_and, Bool.false_eq_true, ↓reduceIte,
    reaches_pure, reaches_bind, reaches_eatMark, isMark_of_eq h1.cons, reaches_map]
  refine (assignment s1.next h1.next).imp ?_
  rintro e s2 ⟨h2, he⟩
  simp only [reaches_ensure, Bool.not_false, reaches_spanFrom, true_and]
  exact ⟨h2, by simp [Declarator.detach, hp, he, detachType?, detachExpr?], rfl⟩

/-- A declaration of one constant, from its keyword on. -/
theorem takes_variableStatement {start : Nat} {target : Pattern} {value : Expr}
    (pattern : Takes r.pattern c ls (.mark "=" :: mid) (·.detach = target))
    (assignment : Takes r.assignment c mid (.mark ";" :: rest) (·.detach = value)) :
    Takes (variableStatement r start false .const) c (.word "const" false :: ls) rest
      (·.detach = madeConstant target value) := by
  intro s h
  have escaped : s.token.isEscaped = false := by simp [Token.isEscaped, h.cons]
  unfold variableStatement variableList separated collect
  simp only [reaches_bind, reaches_advance, escaped, true_and]
  simp only [show (VariableKind.const == VariableKind.awaitUsing) = false from rfl,
    Bool.false_eq_true, ↓reduceIte, reaches_bind]
  refine (takes_declarator pattern assignment s.next h.next).imp ?_
  rintro d s1 ⟨h1, hd, hv⟩
  have comma : s1.token.isMark "," = false := by simp [Token.isMark, h1.cons]
  unfold repeatFrom
  simp only [reaches_bound, reaches_bind, reaches_eatMark, comma, Bool.false_eq_true, ↓reduceIte,
    reaches_pure, List.reverse_nil]
  have initialized : Declarator.isInitialized .const d = true := by
    simp [Declarator.isInitialized, hv]
  simp only [reaches_ensure, VariableKind.isUsing, Bool.not_false, Bool.true_or, reaches_read,
    List.all_cons, List.all_nil, initialized, Bool.and_self, Bool.or_true, true_and]
  refine (takes_semicolon s1 h1).imp ?_
  rintro _ s2 ⟨h2, _⟩
  simp only [reaches_spanFrom]
  exact ⟨h2, by simp [Stmt.detach, detachItems, madeConstant, hd]⟩

/-! ### Statements that begin with a word -/

theorem single_isOrdinary {c : Surroundings} (hc : Surroundings.IsOrdinary c) :
    Surroundings.IsOrdinary { c with isSingle := false } := ⟨hc.isYield, hc.isDecorator⟩

/-- A statement that begins with a word and that no comment notes as pure. -/
theorem takes_statementRule_word {n : String} {post : Stmt → Prop} (single : c.isSingle = false)
    (h : Takes (wordStatement r false n) { c with isSingle := false } (.word n false :: ls) rest
      post) :
    Takes (statementRule r) c (.word n false :: ls) rest post := by
  intro s before
  unfold statementRule
  simp only [reaches_bind, reaches_peek, reaches_get, reaches_read, reaches_within, before.cons,
    Bool.false_and, Bool.false_eq_true, ↓reduceIte, single, before.functionNote, reaches_pure]
  exact h s before

theorem takes_statement_import {post : Stmt → Prop} (single : c.isSingle = false)
    (hc : Surroundings.IsOrdinary c) (opens : OpensBindings ls)
    (from' : ∀ c start, Surroundings.IsOrdinary c →
      Takes (importFrom start false none) c ls rest post) :
    Takes (statementRule r) c (.word "import" false :: ls) rest post := by
  apply takes_statementRule_word single
  intro s h
  have bracket : s.next.token.isMarkOf ["(", "."] = false := by
    cases opens <;> simp [Token.isMarkOf, h.next.cons]
  unfold wordStatement
  simp only [reaches_bind, reaches_probeNext, bracket, Bool.false_eq_true, ↓reduceIte]
  exact takes_importStatement opens (fun start => from' _ start (single_isOrdinary hc)) s.noticed
    h.noticed

theorem takes_statement_const {target : Pattern} {value : Expr} (single : c.isSingle = false)
    (hc : Surroundings.IsOrdinary c)
    (pattern : ∀ c, Surroundings.IsOrdinary c →
      Takes r.pattern c ls (.mark "=" :: mid) (·.detach = target))
    (assignment : ∀ c, Surroundings.IsOrdinary c →
      Takes r.assignment c mid (.mark ";" :: rest) (·.detach = value)) :
    Takes (statementRule r) c (.word "const" false :: ls) rest
      (·.detach = madeConstant target value) := by
  apply takes_statementRule_word single
  have inner := single_isOrdinary hc
  intro s h
  have types : s.dialect.types = false := by rw [h.dialect]; rfl
  have var : s.token.isWord "var" = false := by simp [Token.isWord, h.cons]
  have const : s.token.isWord "const" = true := by simp [Token.isWord, h.cons]
  unfold wordStatement variableOr variableKind?
  simp only [reaches_bind, reaches_dialect, types, reaches_nextIs, Bool.false_and,
    Bool.false_eq_true, ↓reduceIte, reaches_startOffset, reaches_peek, var, const, reaches_pure,
    reaches_ensure, Bool.not_false, Bool.or_true, true_and]
  exact takes_variableStatement (pattern _ inner) (assignment _ inner) s h

/-! ### Assignments -/

/-- Whether a tree is the access to a member, to which a value can be assigned. -/
inductive IsMemberAccess : Expr → Prop where
  | member (object : Expr) (property : Ident) :
      IsMemberAccess (.member .detached object property false)
  | index (object key : Expr) : IsMemberAccess (.index .detached object key false)

theorem assignTarget_eq {e target : Expr} (access : IsMemberAccess target)
    (he : e.detach = target) (commas : List Nat) (fuel : Nat) :
    assignTarget commas (fuel + 2) e = some (.place e, []) := by
  cases access with
  | member object property =>
      cases e <;> simp [Expr.detach] at he
      obtain ⟨_, _, rfl⟩ := he
      rfl
  | index object key =>
      cases e <;> simp [Expr.detach] at he
      obtain ⟨_, _, rfl⟩ := he
      rfl

/-- The assignment to a member as it is made up. -/
def madeAssignment (target value : Expr) : Expr := .assign .detached .plain (.place target) value

theorem takes_assignmentFrom_member {start depth : Nat} {target value : Expr}
    (access : IsMemberAccess target) (forms : Forms .operand ls target)
    (hdepth : ls.length ≤ depth) (hc : Surroundings.IsOrdinary c)
    (assignment : Takes (rules depth).assignment c mid rest (·.detach = value)) :
    Takes (assignmentFrom (rules depth) start false) c (ls ++ .mark "=" :: mid) rest
      (·.detach = madeAssignment target value) := by
  have sum := readsAs_single forms (forms.readsAs depth hdepth) forms.ne_nil
  intro s h
  unfold assignmentFrom
  simp only [reaches_bind]
  refine (sum.choice hc ⟨"=", by decide, rfl⟩ s h).imp ?_
  rintro e s1 ⟨h1, he⟩
  have equals : assignOp? s1.token = some .plain := by simp [assignOp?, h1.cons]
  have bound := h1.bound
  obtain ⟨fuel, hfuel⟩ := Nat.exists_eq_add_one.mpr (Nat.zero_lt_of_lt bound)
  have made : assignTarget s1.commaAfterRest (s1.fuel + 1) e = some (.place e, []) := by
    rw [hfuel]
    exact assignTarget_eq access he _ fuel
  have escaped : s1.token.isEscaped = false := by simp [Token.isEscaped, h1.cons]
  have kept : Before (.mark "=" :: mid)
      { s1 with openDefaults := s1.openDefaults.filter fun d => !([] : List Nat).contains d } :=
    { h1 with noDefaults := by rw [h1.noDefaults]; rfl }
  unfold toTarget
  simp only [reaches_peek, equals, reaches_bind, reaches_get, reaches_bound, made,
    reaches_modify, reaches_pure, reaches_advance, escaped, true_and]
  refine (assignment _ kept.next).imp ?_
  rintro v s2 ⟨h2, hv⟩
  simp only [reaches_spanFrom]
  exact ⟨h2, by simp [Expr.detach, Pattern.detach, madeAssignment, he, hv]⟩

/-- An expression as a statement. -/
theorem takes_expressionStatement {e : Expr} (opens : Opens ls) (hc : Surroundings.IsOrdinary c)
    (value : ∀ c, Surroundings.IsOrdinary c →
      Takes r.assignment c ls (.mark ";" :: rest) (·.detach = e)) :
    Takes (expressionStatement r) c ls rest (·.detach = .expression .detached e) := by
  intro s h
  have label : (isNameWord s.token && s.next.token.isMark ":") = false := by
    cases opens with
    | name plain notArrow notLabel async =>
        simp [isMark_of_ne (h.next.cons.trans_ne (by simpa using notLabel))]
    | keyword word => rcases mem_openers word with rfl | rfl | rfl <;> simp [isNameWord, h.cons, reservedWords]
    | string => simp [isNameWord, h.cons]
    | brace => simp [isNameWord, h.cons]
  have ends : BeginsWith [";"] (.mark ";" :: rest) := ⟨";", by decide, rfl⟩
  unfold expressionStatement
  simp only [reaches_bind, reaches_startOffset, reaches_peek, reaches_nextIs, label,
    Bool.false_eq_true, ↓reduceIte]
  refine (takes_expression (by decide) ends hc value s h).imp ?_
  rintro a s1 ⟨h1, ha⟩
  refine (takes_semicolon s1 h1).imp ?_
  rintro _ s2 ⟨h2, _⟩
  simp only [reaches_spanFrom, reaches_pure]
  exact ⟨h2, by simp [Stmt.detach, ha]⟩

/-- Looking for a declaration of a typed module goes at most one token ahead. -/
theorem reaches_atTypedDeclaration {n m : String} {fuel : Nat} (hfuel : 0 < fuel)
    (h : Before (.word n false :: .mark m :: ls) s) :
    Reaches (atTypedDeclaration (fuel + 1)) c s fun _ s' => s' = s ∨ s' = s.next := by
  obtain ⟨fuel, rfl⟩ := Nat.exists_eq_add_one.mpr hfuel
  have isWord (word : String) : s.next.token.isWord word = false := by
    simp [Token.isWord, h.next.cons]
  have isWordOf (words : List String) : s.next.token.isWordOf words = false := by
    simp [Token.isWordOf, h.next.cons]
  unfold atTypedDeclaration
  simp only [reaches_bind, reaches_peek, reaches_ite, reaches_pure, reaches_skip]
  have stop : Reaches (atTypedDeclaration (fuel + 1)) c s.next fun _ s' => s' = s ∨ s' = s.next := by
    unfold atTypedDeclaration
    simp only [reaches_bind, reaches_peek, isWord, isWordOf, Bool.false_eq_true, ↓reduceIte,
      reaches_pure, or_true]
  split_ifs <;> first | exact stop | simp

/-- A word in front of a mark begins no declaration of a typed module. -/
theorem takes_typedStatement {n m : String} {post : Stmt → Prop}
    (h : Takes (expressionStatement r) c (.word n false :: .mark m :: ls) rest post) :
    Takes (typedStatement r) c (.word n false :: .mark m :: ls) rest post := by
  intro s before
  have types : s.dialect.types = false := by rw [before.dialect]; rfl
  unfold typedStatement
  simp only [reaches_bind, reaches_dialect, reaches_bound, types, Bool.false_and,
    Bool.false_eq_true, ↓reduceIte]
  apply reaches_probe
  refine (reaches_atTypedDeclaration (Nat.zero_lt_of_lt before.bound) before).imp ?_
  rintro b _ (rfl | rfl)
  · exact h _ { before with }
  · exact h _ before.noticed

/-- A statement that begins with a member of a plain name. -/
theorem takes_statement_member {n : String} {e : Expr} (plain : IsPlainName n)
    (single : c.isSingle = false) (hc : Surroundings.IsOrdinary c) (notLet : n ≠ "let")
    (value : ∀ c, Surroundings.IsOrdinary c → Takes r.assignment c
      (.word n false :: .mark "." :: ls) (.mark ";" :: rest) (·.detach = e)) :
    Takes (statementRule r) c (.word n false :: .mark "." :: ls) rest
      (·.detach = .expression .detached e) := by
  apply takes_statementRule_word single
  have opens : Opens (.word n false :: .mark "." :: ls) :=
    .name plain.notReserved (by decide) (by decide) (by simp)
  have hc' := single_isOrdinary hc
  have expression := takes_expressionStatement opens hc' value
  intro s h
  have word (w : String) : s.token.isWord w = (n == w) := isWord_of_word h.cons w
  have nextWord (w : String) : s.next.token.isWord w = false := by simp [Token.isWord, h.next.cons]
  unfold wordStatement
  split
  case h_17 => exact absurd rfl notLet
  case h_18 =>
      simp only [atFunction, reaches_bind, reaches_atWord, word, reaches_ite, reaches_probeNext,
        nextWord, Bool.false_and, reaches_pure]
      simp only [show ("async" == "function") = false by decide, Bool.false_eq_true, ↓reduceIte,
        beq_self_eq_true]
      exact takes_typedStatement expression s.noticed h.noticed
  case h_21 =>
      have namesUsed : namesUsed s.next.token = false := by
        simp [namesUsed, isNameWord, h.next.cons]
      simp only [variableOr, variableKind?, atUsing, reaches_bind, reaches_startOffset,
        reaches_peek, word, reaches_ite, reaches_probeNext, namesUsed, reaches_pure]
      simp
      exact expression s.noticed h.noticed
  -- every other word is reserved, begins a declaration of types, or is no keyword at all
  all_goals first
    | exact absurd plain.notReserved (by decide)
    | exact absurd rfl plain.notAwait
    | exact takes_typedStatement expression s h
    | exact expression s h

/-- A statement that begins with a member of `let` ends in front of its semicolon. -/
theorem takes_statement_let {e : Expr} (single : c.isSingle = false)
    (hc : Surroundings.IsOrdinary c)
    (value : ∀ c, Surroundings.IsOrdinary c → Takes r.assignment c
      (.word "let" false :: .mark "." :: ls) (.mark ";" :: rest) (·.detach = e)) :
    Takes (statementRule r) c (.word "let" false :: .mark "." :: ls) (.mark ";" :: rest)
      (·.detach = .expression .detached e) := by
  apply takes_statementRule_word single
  have ends : BeginsWith [";"] (.mark ";" :: rest) := ⟨";", by decide, rfl⟩
  intro s h
  have dot : s.next.token.isMarkOf ["(", "."] = true := by simp [Token.isMarkOf, h.next.cons]
  unfold wordStatement letStatement
  simp only [reaches_bind, reaches_startOffset, reaches_probeNext, dot, ↓reduceIte]
  refine (takes_expression (by decide) ends (single_isOrdinary hc) value s.noticed h.noticed).imp ?_
  rintro a s1 ⟨h1, ha⟩
  simp only [reaches_spanFrom, reaches_pure]
  exact ⟨h1, by simp [Stmt.detach, ha]⟩

/-- A semicolon alone is a statement. -/
theorem takes_statement_empty :
    Takes (statementRule r) c (.mark ";" :: ls) ls (·.detach = .empty .detached) := by
  intro s h
  have escaped : s.token.isEscaped = false := by simp [Token.isEscaped, h.cons]
  unfold statementRule
  simp only [reaches_bind, reaches_peek, reaches_get, reaches_read, reaches_within, h.cons,
    reaches_advance, escaped, h.functionNote, Bool.false_eq_true, ↓reduceIte, reaches_pure,
    true_and]
  exact ⟨h.next, by simp [Stmt.detach]⟩

end Parser

end ComponentLowering.Syntax
