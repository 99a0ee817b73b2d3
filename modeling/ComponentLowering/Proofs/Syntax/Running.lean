/-
# What parsers do

`Reaches p c s Q` says that a parser succeeds with a value and a state of which `Q` holds.  Each
of the small parsers from which the grammar is built has one rule that says what it reaches, so a
rule of the grammar is run by rewriting.  `Before lexemes s` holds of the states of a plain module
in front of the given tokens and of no others.
-/
import ComponentLowering.Proofs.Syntax.Spelling
import ComponentLowering.Syntax.Grammar.Binding

namespace ComponentLowering.Syntax

open ComponentLowering.Text

/-! ### States -/

namespace Reading

/-- The state behind the current token. -/
def next (s : Reading) : Reading :=
  { Parser.readFrom s (Parser.gapAfter s.token) s.after with lastEnd := s.token.span.stop }

/-- The state once the token behind the current one has been looked at. -/
def noticed (s : Reading) : Reading := { s with newest := s.next.newest }

end Reading

/-- A state in front of the last lexemes of a spelled text in a plain module. -/
structure Before (lexemes : List Lexeme) (s : Reading) : Prop where
  dialect : s.dialect = .plain
  lexeme : s.token.lexeme = lexemes.headD .endOfText
  spells : Spells s.after.rest lexemes.tail
  room : s.after.rest.length < s.fuel
  bound : lexemes.length ≤ s.fuel
  callNote : s.newest.notesPureCall = false
  functionNote : s.newest.notesPureFunction = false
  noDefaults : s.openDefaults = []
  line : s.token.afterNewline = true → BeginsLine lexemes

namespace Before

variable {l m : Lexeme} {ls : List Lexeme} {s : Reading}

theorem cons (h : Before (l :: ls) s) : s.token.lexeme = l := h.lexeme

theorem atEnd (h : Before [] s) : s.token.lexeme = .endOfText := h.lexeme

/-- Behind a token stand those that follow it. -/
theorem next (h : Before (l :: ls) s) : Before ls s.next := by
  obtain ⟨token, here, after, read, lexeme, call, function, spells, shorter, line⟩ :=
    h.spells.tokenAfter h.room (CommentGap.isQuiet_after _) s.after.offset
  have script : s.dialect.script = false := by rw [h.dialect]; rfl
  have eq : s.next =
      { s with token, newest := token, text := here, after, lastEnd := s.token.span.stop } := by
    simp only [Reading.next, Parser.readFrom, Parser.gapAfter, script]
    rw [read]
    rfl
  have bound := h.bound
  rw [List.length_cons] at bound
  rw [eq]
  exact
    { dialect := h.dialect
      lexeme := lexeme
      spells := spells
      room := Nat.lt_of_le_of_lt shorter h.room
      bound := Nat.le_of_succ_le bound
      callNote := call
      functionNote := function
      noDefaults := h.noDefaults
      line := line }

/-- Looking at the next token moves nothing. -/
theorem noticed (h : Before (l :: ls) s) : Before (l :: ls) s.noticed :=
  { h with callNote := h.next.callNote, functionNote := h.next.functionNote }

end Before

namespace Parser

variable {α β : Type} {c : Surroundings} {s : Reading}

/-! ### Results -/

/-- Whether a parser succeeds with a value and a state with some property. -/
def Reaches (p : Parser α) (c : Surroundings) (s : Reading) (Q : α → Reading → Prop) : Prop :=
  ∃ a s', p c s = (.ok a, s') ∧ Q a s'

theorem Reaches.imp {p : Parser α} {Q Q' : α → Reading → Prop} (h : Reaches p c s Q)
    (imp : ∀ a s', Q a s' → Q' a s') : Reaches p c s Q' := by
  obtain ⟨a, s', eq, q⟩ := h
  exact ⟨a, s', eq, imp a s' q⟩

variable {Q : α → Reading → Prop} {R : β → Reading → Prop}

/-- What a parser does is determined. -/
theorem Reaches.both {p : Parser α} {Q' : α → Reading → Prop} (h : Reaches p c s Q)
    (h' : Reaches p c s Q') : Reaches p c s fun a s' => Q a s' ∧ Q' a s' := by
  obtain ⟨a, s', eq, q⟩ := h
  obtain ⟨a', s'', eq', q'⟩ := h'
  rw [eq] at eq'
  obtain ⟨rfl, rfl⟩ := Prod.mk.inj eq' |>.imp_left Except.ok.inj
  exact ⟨a, s', eq, q, q'⟩

theorem reaches_of_ok {p : Parser α} {a : α} {s' : Reading} (h : p c s = (.ok a, s')) :
    Reaches p c s Q ↔ Q a s' := by
  constructor
  · rintro ⟨b, t, eq, q⟩
    rw [h] at eq
    obtain ⟨rfl, rfl⟩ := Prod.mk.inj eq |>.imp_left Except.ok.inj
    exact q
  · exact fun q => ⟨a, s', h, q⟩

theorem bind_apply (p : Parser α) (f : α → Parser β) (c : Surroundings) (s : Reading) :
    (p >>= f) c s = match p c s with
      | (.ok a, s') => f a c s'
      | (.error e, s') => (.error e, s') := by
  show (ExceptT.bind (p c) fun a => f a c) s = _
  simp only [ExceptT.bind, ExceptT.mk, bind, StateT.bind, ExceptT.bindCont]
  rcases p c s with ⟨a | a, s'⟩ <;> rfl

theorem reaches_bind (p : Parser α) (f : α → Parser β) :
    Reaches (p >>= f) c s R ↔ Reaches p c s fun a s' => Reaches (f a) c s' R := by
  constructor
  · rintro ⟨b, t, eq, r⟩
    rw [bind_apply] at eq
    rcases h : p c s with ⟨e | a, s'⟩
    · rw [h] at eq
      cases eq
    · rw [h] at eq
      exact ⟨a, s', h, b, t, eq, r⟩
  · rintro ⟨a, s', eq, b, t, eq', r⟩
    exact ⟨b, t, by rw [bind_apply, eq]; exact eq', r⟩

theorem reaches_pure (a : α) : Reaches (pure a : Parser α) c s Q ↔ Q a s := reaches_of_ok rfl

theorem reaches_map (f : α → β) (p : Parser α) :
    Reaches (f <$> p) c s R ↔ Reaches p c s fun a s' => R (f a) s' := by
  rw [show f <$> p = p >>= fun a => pure (f a) from rfl, reaches_bind]
  simp only [reaches_pure]

theorem reaches_failure : Reaches (failure : Parser α) c s Q ↔ False := by
  constructor
  · rintro ⟨_, _, eq, _⟩
    cases eq
  · exact False.elim

theorem reaches_ite (condition : Prop) [Decidable condition] (p q : Parser α) :
    Reaches (if condition then p else q) c s Q ↔
      if condition then Reaches p c s Q else Reaches q c s Q := by
  split <;> rfl

/-! ### Small parsers -/

theorem reaches_peek {Q : Token → Reading → Prop} : Reaches peek c s Q ↔ Q s.token s :=
  reaches_of_ok rfl

theorem reaches_dialect {Q : Dialect → Reading → Prop} : Reaches dialect c s Q ↔ Q s.dialect s :=
  reaches_of_ok rfl

theorem reaches_bound {Q : Nat → Reading → Prop} : Reaches bound c s Q ↔ Q s.fuel s :=
  reaches_of_ok rfl

theorem reaches_read {Q : Surroundings → Reading → Prop} :
    Reaches (read : Parser Surroundings) c s Q ↔ Q c s :=
  reaches_of_ok rfl

theorem reaches_get {Q : Reading → Reading → Prop} :
    Reaches (get : Parser Reading) c s Q ↔ Q s s :=
  reaches_of_ok rfl

theorem reaches_modify {Q : PUnit → Reading → Prop} (f : Reading → Reading) :
    Reaches (modify f : Parser PUnit) c s Q ↔ Q ⟨⟩ (f s) :=
  reaches_of_ok rfl

theorem reaches_ensure {Q : PUnit → Reading → Prop} (condition : Bool) :
    Reaches (ensure condition) c s Q ↔ condition = true ∧ Q ⟨⟩ s := by
  cases condition with
  | false =>
      constructor
      · rintro ⟨_, _, eq, _⟩
        cases eq
      · rintro ⟨h, _⟩
        cases h
  | true => exact (reaches_of_ok rfl).trans (by simp)

theorem reaches_within (change : Surroundings → Surroundings) (p : Parser α) :
    Reaches (within change p) c s Q ↔ Reaches p (change c) s Q := Iff.rfl

theorem reaches_skip {Q : PUnit → Reading → Prop} : Reaches skip c s Q ↔ Q ⟨⟩ s.next :=
  reaches_of_ok rfl

theorem reaches_advance {Q : PUnit → Reading → Prop} :
    Reaches advance c s Q ↔ s.token.isEscaped = false ∧ Q ⟨⟩ s.next := by
  simp only [advance, reaches_bind, reaches_peek, reaches_ensure, reaches_skip,
    Bool.not_eq_true']

theorem isEscaped_of_isMark {t : Token} {mark : String} (h : t.isMark mark = true) :
    t.isEscaped = false := by
  rcases t with ⟨lexeme, _, _, _, _⟩
  cases lexeme <;> first | rfl | cases h

theorem reaches_atMark {Q : Bool → Reading → Prop} (mark : String) :
    Reaches (atMark mark) c s Q ↔ Q (s.token.isMark mark) s :=
  reaches_of_ok rfl

theorem reaches_atWord {Q : Bool → Reading → Prop} (word : String) :
    Reaches (atWord word) c s Q ↔ Q (s.token.isWord word) s :=
  reaches_of_ok rfl

theorem reaches_eatMark {Q : Bool → Reading → Prop} (mark : String) :
    Reaches (eatMark mark) c s Q ↔ if s.token.isMark mark then Q true s.next else Q false s := by
  simp only [eatMark, reaches_bind, reaches_atMark, reaches_ite, reaches_advance, reaches_pure]
  split
  · simp [isEscaped_of_isMark ‹_›]
  · rfl

theorem reaches_eatWord {Q : Bool → Reading → Prop} (word : String) :
    Reaches (eatWord word) c s Q ↔
      if s.token.isWord word then s.token.isEscaped = false ∧ Q true s.next else Q false s := by
  simp only [eatWord, reaches_bind, reaches_atWord, reaches_ite, reaches_advance, reaches_pure]

theorem reaches_expectMark {Q : PUnit → Reading → Prop} (mark : String) :
    Reaches (expectMark mark) c s Q ↔ s.token.isMark mark = true ∧ Q ⟨⟩ s.next := by
  simp only [expectMark, reaches_bind, reaches_eatMark, reaches_ensure]
  split <;> simp_all

theorem reaches_expectWord {Q : PUnit → Reading → Prop} (word : String) :
    Reaches (expectWord word) c s Q ↔
      s.token.isWord word = true ∧ s.token.isEscaped = false ∧ Q ⟨⟩ s.next := by
  simp only [expectWord, reaches_bind, reaches_eatWord, reaches_ensure]
  split <;> simp_all

theorem reaches_startOffset {Q : Nat → Reading → Prop} :
    Reaches startOffset c s Q ↔ Q s.token.span.start s :=
  reaches_of_ok rfl

theorem reaches_spanFrom {Q : Span → Reading → Prop} (start : Nat) :
    Reaches (spanFrom start) c s Q ↔ Q ⟨start, s.lastEnd⟩ s :=
  reaches_of_ok rfl

theorem reaches_nextIs {Q : Bool → Reading → Prop} (condition : Token → Bool) :
    Reaches (nextIs condition) c s Q ↔ Q (condition s.next.token) s :=
  reaches_of_ok rfl

theorem reaches_probeNext {Q : Bool → Reading → Prop} (condition : Token → Bool) :
    Reaches (probeNext condition) c s Q ↔ Q (condition s.next.token) s.noticed :=
  reaches_of_ok rfl

/-- What a parser that is run in advance finds out. -/
theorem reaches_probe {p : Parser α} {fallback : α}
    (h : Reaches p c s fun a s' => Q a { s with newest := s'.newest }) :
    Reaches (probe fallback p) c s Q := by
  obtain ⟨a, s', eq, q⟩ := h
  refine ⟨a, _, ?_, q⟩
  simp only [probe, eq]

end Parser

end ComponentLowering.Syntax
