/-
# Texts as patterns

A part of a pattern that has no wildcards is its own text.  A part without brackets, other than the one for any
directories, is of its own form: a question mark stands for a question mark as well, and a star for a star.  A
part with brackets need not be, since brackets stand for one character of their set.
-/
import ComponentLowering.Batch.Pattern
import ComponentLowering.Proofs.Batch.JoinedPaths
import ComponentLowering.Proofs.Lowering.Emission

namespace ComponentLowering.Batch

open ComponentLowering.Lowering

variable {α β ε : Type} {input : String} {text name : List Char} {tokens : List PatternToken}
  {fuel position : Nat} {before : Option Char} {parts : List PatternPart}

theorem forall₂_of_mapM {f : α → Except ε β} {l : List α} {found : List β} (run : l.mapM f = .ok found) :
    List.Forall₂ (fun a b => f a = .ok b) l found := by
  induction l generalizing found with
  | nil =>
      cases run
      exact .nil
  | cons a rest ih =>
      rw [List.mapM_cons] at run
      obtain ⟨b, first, run⟩ := ok_of_bind run
      obtain ⟨bs, later, run⟩ := ok_of_bind run
      cases run
      exact .cons first (ih later)

theorem exists_of_mem_forall₂ {r : α → β → Prop} {l : List α} {l' : List β} {b : β}
    (h : List.Forall₂ r l l') (mem : b ∈ l') : ∃ a ∈ l, r a b := by
  induction h with
  | nil => cases mem
  | cons first _ ih =>
      rcases List.mem_cons.mp mem with rfl | mem
      · exact ⟨_, List.mem_cons_self .., first⟩
      · obtain ⟨a, mem, later⟩ := ih mem
        exact ⟨a, List.mem_cons_of_mem _ mem, later⟩

namespace Pattern

/-! ### Tokens -/

/-- How the first token of a text is read. -/
inductive FirstToken (position : Nat) (before : Option Char) :
    List Char → PatternToken → List Char → Prop
  | char {c : Char} {rest : List Char} : c ≠ '?' → c ≠ '*' → c ≠ '[' →
      FirstToken position before (c :: rest) (.char c) rest
  | anyChar {rest : List Char} : FirstToken position before ('?' :: rest) .anyChar rest
  | anyText {rest : List Char} : rest.head? ≠ some '*' →
      FirstToken position before ('*' :: rest) .anyText rest
  | anyDirectories {rest : List Char} : position = 0 ∨ before = some '/' →
      FirstToken position before ('*' :: '*' :: '/' :: rest) .anyDirectories rest
  | lastDirectories : position = 0 ∨ before = some '/' →
      FirstToken position before ['*', '*'] .anyDirectories []
  | oneOf {rest more : List Char} {set : List CharRange} :
      FirstToken position before ('[' :: rest) (.oneOf set) more
  | noneOf {rest more : List Char} {set : List CharRange} :
      FirstToken position before ('[' :: rest) (.noneOf set) more

theorem takeWhile_stars {rest : List Char} (none : (rest.takeWhile (· == '*')).length = 0) :
    rest.head? ≠ some '*' := by
  intro star
  obtain ⟨more, rfl⟩ := List.head?_eq_some_iff.mp star
  simp at none

theorem exists_star {rest : List Char} (one : (rest.takeWhile (· == '*')).length = 1) :
    ∃ more, rest = '*' :: more := by
  cases rest with
  | nil => cases one
  | cons c more =>
      by_cases star : c = '*'
      · exact ⟨more, by rw [star]⟩
      · simp [star] at one

theorem bracket?_cases {rest : List Char} {token : PatternToken} {taken : Nat}
    (found : bracket? rest = some (token, taken)) : (∃ set, token = .oneOf set) ∨ ∃ set, token = .noneOf set := by
  unfold bracket? at found
  dsimp only at found
  split at found
  · split at found <;> cases found
    exact .inr ⟨_, rfl⟩
  · cases found
  · split at found <;> cases found
    exact .inl ⟨_, rfl⟩
  · cases found

/-- How the tokens of a text are read: the first one, then those of a rest, which is not the beginning of a pattern
and is only behind a slash if the text has one. -/
inductive ReadsOn (fuel position : Nat) (before : Option Char) (text : List Char) : List PatternToken → Prop
  | token {token : PatternToken} {more : List Char} {later : List PatternToken} {position' : Nat}
      {before' : Option Char} : FirstToken position before text token more →
      tokensFrom fuel position' before' more = .ok later → position' ≠ 0 → (before' = some '/' → '/' ∈ text) →
      ReadsOn fuel position before text (token :: later)

/-- A star is the token for any text, unless it begins the part for any directories. -/
theorem tokensFrom_star {rest : List Char}
    (read : tokensFrom (fuel + 1) position before ('*' :: rest) = .ok tokens) :
    ReadsOn fuel position before ('*' :: rest) tokens := by
  rw [tokensFrom] at read
  dsimp only at read
  split at read
  · rename_i none
    obtain ⟨later, next, done⟩ := ok_of_bind read
    cases done
    rw [none, List.drop_zero] at next
    exact .token (.anyText (takeWhile_stars none)) next (Nat.succ_ne_zero _) nofun
  · rename_i one
    obtain ⟨rest, rfl⟩ := exists_star one
    rw [one, List.drop_succ_cons, List.drop_zero] at read
    have atStart : position = 0 ∨ before = some '/' := by
      by_contra inside
      rw [not_or] at inside
      rw [if_pos inside] at read
      cases read
    rw [if_neg (by tauto)] at read
    split at read
    · cases read
      have ended : tokensFrom fuel 1 none [] = .ok [] := by cases fuel <;> rfl
      exact .token (.lastDirectories atStart) ended Nat.one_ne_zero nofun
    · obtain ⟨later, next, done⟩ := ok_of_bind read
      cases done
      exact .token (.anyDirectories atStart) next (Nat.succ_ne_zero _) fun _ => by simp
    · cases read
  · cases read

/-- A bracket begins a set of characters. -/
theorem tokensFrom_bracket {rest : List Char}
    (read : tokensFrom (fuel + 1) position before ('[' :: rest) = .ok tokens) :
    ReadsOn fuel position before ('[' :: rest) tokens := by
  rw [tokensFrom] at read
  split at read
  · cases read
  · rename_i token taken found
    obtain ⟨later, next, done⟩ := ok_of_bind read
    cases done
    rcases bracket?_cases found with ⟨set, rfl⟩ | ⟨set, rfl⟩
    · exact .token .oneOf next (by omega) nofun
    · exact .token .noneOf next (by omega) nofun

theorem tokensFrom_cons {c : Char} {rest : List Char}
    (read : tokensFrom (fuel + 1) position before (c :: rest) = .ok tokens) :
    ReadsOn fuel position before (c :: rest) tokens := by
  by_cases star : c = '*'
  · subst star
    exact tokensFrom_star read
  by_cases bracket : c = '['
  · subst bracket
    exact tokensFrom_bracket read
  by_cases question : c = '?'
  · subst question
    rw [tokensFrom] at read
    obtain ⟨later, next, done⟩ := ok_of_bind read
    cases done
    exact .token .anyChar next (Nat.succ_ne_zero _) nofun
  · rw [tokensFrom] at read
    · obtain ⟨later, next, done⟩ := ok_of_bind read
      cases done
      refine .token (.char question star bracket) next (Nat.succ_ne_zero _) fun slash => ?_
      rw [Option.some.inj slash]
      exact List.mem_cons_self ..
    · exact question
    · exact star
    · exact bracket

/-- The tokens of a text that is read completely. -/
theorem tokensFrom_nil (read : tokensFrom fuel position before [] = .ok tokens) : tokens = [] := by
  cases fuel <;> cases read <;> rfl

/-! ### Texts without brackets -/

/-- The token that a character stands for outside of brackets. -/
def plainToken (c : Char) : PatternToken :=
  if c = '?' then .anyChar else if c = '*' then .anyText else .char c

/-- Without brackets and slashes each character is a token, unless the text is the part for any directories. -/
theorem tokensFrom_plain (enough : text.length ≤ fuel) (brackets : '[' ∉ text) (slashes : '/' ∉ text)
    (behind : before ≠ some '/') (whole : position = 0 → text ≠ ['*', '*'])
    (read : tokensFrom fuel position before text = .ok tokens) : tokens = text.map plainToken := by
  induction fuel generalizing position before text tokens with
  | zero =>
      obtain rfl := List.length_eq_zero_iff.mp (Nat.le_zero.mp enough)
      exact tokensFrom_nil read
  | succ fuel ih =>
      cases text with
      | nil => exact tokensFrom_nil read
      | cons c rest =>
          obtain @⟨token, more, later, position', before', first, later', onward, behind'⟩ := tokensFrom_cons read
          have next (eq : more = rest) : later = rest.map plainToken := by
            subst eq
            exact ih (Nat.le_of_succ_le_succ enough) (fun mem => brackets (List.mem_cons_of_mem c mem))
              (fun mem => slashes (List.mem_cons_of_mem c mem)) (fun slash => slashes (behind' slash))
              (fun start => absurd start onward) later'
          cases first with
          | char question star bracket =>
              rw [List.map_cons, plainToken, if_neg question, if_neg star, next rfl]
          | anyChar => rw [List.map_cons, next rfl]; rfl
          | anyText _ => rw [List.map_cons, next rfl]; rfl
          | anyDirectories _ => simp at slashes
          | lastDirectories start => exact absurd rfl (whole (start.resolve_right behind))
          | oneOf => simp at brackets
          | noneOf => simp at brackets

theorem someEnd_self {condition : List Char → Bool} (h : condition text = true) :
    someEnd condition text = true := by
  cases text with
  | nil => exact h
  | cons c rest => rw [someEnd, h, Bool.true_or]

/-- A text without brackets is of its own form. -/
theorem fits_plain (text : List Char) : fits (text.map plainToken) text = true := by
  induction text with
  | nil => rfl
  | cons c rest ih =>
      rw [List.map_cons, plainToken]
      split
      · exact ih
      · split
        · rw [fits, someEnd, someEnd_self ih, Bool.or_true]
        · rw [fits, beq_self_eq_true, ih, Bool.and_true]

end Pattern

/-! ### Parts -/

namespace PatternPart

theorem literal?_char (c : Char) : literal? (.char c :: tokens) = (literal? tokens).map (c :: ·) := by
  unfold literal?
  rw [List.mapM_cons]
  exact Option.map_eq_bind.symm

/-- A part without wildcards is its own text. -/
theorem eq_of_literal? (enough : text.length ≤ fuel)
    (read : Pattern.tokensFrom fuel position before text = .ok tokens)
    (literal : literal? tokens = some name) : name = text := by
  induction fuel generalizing position before text tokens name with
  | zero =>
      obtain rfl := List.length_eq_zero_iff.mp (Nat.le_zero.mp enough)
      obtain rfl := Pattern.tokensFrom_nil read
      cases literal
      rfl
  | succ fuel ih =>
      cases text with
      | nil =>
          obtain rfl := Pattern.tokensFrom_nil read
          cases literal
          rfl
      | cons c rest =>
          obtain @⟨token, more, later, _, _, first, later', -, -⟩ := Pattern.tokensFrom_cons read
          cases first with
          | char question star bracket =>
              rw [literal?_char] at literal
              obtain ⟨name', literal', rfl⟩ := Option.map_eq_some_iff.mp literal
              rw [ih (Nat.le_of_succ_le_succ enough) later' literal']
          | anyChar | anyText _ | anyDirectories _ | lastDirectories _ | oneOf | noneOf => cases literal

theorem mem_of_mem_collapse {part : PatternPart} (mem : part ∈ collapse parts) : part ∈ parts := by
  fun_induction collapse parts with
  | case1 rest ih => exact List.mem_cons_of_mem _ (ih mem)
  | case2 first rest _ ih =>
      rcases List.mem_cons.mp mem with rfl | mem
      · exact List.mem_cons_self ..
      · exact List.mem_cons_of_mem _ (ih mem)
  | case3 => cases mem

theorem collapse_of_not_mem (none : .directories ∉ parts) : collapse parts = parts := by
  fun_induction collapse parts with
  | case1 rest ih => exact absurd (List.mem_cons_self ..) none
  | case2 first rest _ ih => rw [ih fun mem => none (List.mem_cons_of_mem _ mem)]
  | case3 => rfl

end PatternPart

/-! ### Patterns -/

/-- The pieces of a pattern between its slashes. -/
def patternPieces (input : String) : List (List Char) :=
  let pieces := segments (if isAbsolute input.toList then input.toList.drop 1 else input.toList)
  if pieces.getLast? == some [] then pieces.dropLast else pieces

/-- Each part of a pattern is read from a piece of it. -/
theorem exists_tokens (wellFormed : patternParts input = .ok parts) :
    ∃ tokens, List.Forall₂ (fun piece tokens => Pattern.tokens piece = .ok tokens) (patternPieces input) tokens ∧
      parts = PatternPart.collapse (tokens.map PatternPart.ofTokens) := by
  unfold patternParts at wellFormed
  obtain ⟨-, -, wellFormed⟩ := ok_of_bind wellFormed
  obtain ⟨tokens, read, wellFormed⟩ := ok_of_bind wellFormed
  cases wellFormed
  exact ⟨tokens, forall₂_of_mapM read, rfl⟩

theorem not_mem_of_mem_patternPieces {piece : List Char} (mem : piece ∈ patternPieces input) : '/' ∉ piece := by
  unfold patternPieces at mem
  generalize (if isAbsolute input.toList then input.toList.drop 1 else input.toList) = text at mem
  dsimp only at mem
  split at mem
  · exact not_mem_of_mem_segments (List.dropLast_subset _ mem)
  · exact not_mem_of_mem_segments mem

/-- A part without wildcards is a piece of a path. -/
theorem not_mem_of_literal (wellFormed : patternParts input = .ok parts)
    (mem : .literal name ∈ parts) : '/' ∉ name := by
  obtain ⟨tokens, read, rfl⟩ := exists_tokens wellFormed
  obtain ⟨these, isTokens, eq⟩ := List.mem_map.mp (PatternPart.mem_of_mem_collapse mem)
  obtain ⟨piece, isPiece, read⟩ := exists_of_mem_forall₂ read isTokens
  unfold PatternPart.ofTokens at eq
  split at eq
  · cases eq
  · split at eq <;> cases eq
    rename_i literal
    rw [PatternPart.eq_of_literal? (Nat.le_refl _) read literal]
    exact not_mem_of_mem_patternPieces isPiece

end ComponentLowering.Batch
