/-
# Forms of class statements

A lowered class becomes a constant or a declaration.  Either is made from a text with an empty
class, which the lowered class then fills.
-/
import ComponentLowering.Lowering.ClassStatement
import ComponentLowering.Proofs.Syntax.Refused
import ComponentLowering.Proofs.Syntax.Snippets

namespace ComponentLowering.Lowering

open ComponentLowering.Code ComponentLowering.Report ComponentLowering.Settings
open ComponentLowering.Syntax ComponentLowering.Syntax.Parser

variable {rest : List Char} {lexemes : List Lexeme}

/-! ### Frames as text -/

/-- The declaration of a constant that holds an empty class. -/
def constantFrame (className : String) : Stmt :=
  madeConstant (.ident .detached className) (.classExpr (madeClass none rfl))

/-- The frame of a form. -/
def frame (className : String) (named : isBindingName className = true) : ClassShape → Option Stmt
  | .constant false => some (constantFrame className)
  | .constant true => some (.exportDecl .detached (constantFrame className))
  | .declaration => some (.classDecl (madeClass (some className) named))
  | .unchanged => none

/-- The lexemes of the frame of a form. -/
def frameLexemes (className : String) : ClassShape → List Lexeme
  | .constant exported =>
    (if exported then [.word "export" false] else []) ++ .word "const" false ::
      .word className false :: .mark "=" :: (classLexemes none ++ [.mark ";"])
  | .declaration => classLexemes (some className)
  | .unchanged => []

theorem spells_shapeText {className text : String} {shape : ClassShape}
    (word : isWordText className = true) (h : shapeText className shape = some text) :
    Spells text.toList (frameLexemes className shape) := by
  cases shape with
  | constant exported =>
      obtain rfl := Option.some.inj h
      have body := ((Spells.done.mark (c := ';') (m := ";") (by decide)).mark (c := '\x7d')
        (m := "\x7d") (by decide)).mark (c := '\x7b') (m := "\x7b") (by decide)
      have value := body.space.word (n := "class") (by decide) endsWord_space
      have constant := (value.equals.space.word word endsWord_space).space.word (n := "const")
        (by decide) endsWord_space
      cases exported with
      | false => simpa [frameLexemes, classLexemes] using constant
      | true =>
          have export' := constant.space.word (n := "export") (by decide) endsWord_space
          simpa [frameLexemes, classLexemes] using export'
  | declaration =>
      obtain rfl := Option.some.inj h
      have body := (Spells.done.mark (c := '\x7d') (m := "\x7d") (by decide)).mark (c := '\x7b')
        (m := "\x7b") (by decide)
      have declaration := (body.space.word word endsWord_space).space.word (n := "class")
        (by decide) endsWord_space
      simpa [frameLexemes, classLexemes] using declaration
  | unchanged => cases h

theorem beginsPlainly_shapeText {className text : String} {shape : ClassShape}
    (h : shapeText className shape = some text) : BeginsPlainly text.toList := by
  cases shape with
  | constant exported =>
      obtain rfl := Option.some.inj h
      cases exported with
      | false => simpa using beginsPlainly_word (n := "const") (by decide) _
      | true => simpa using beginsPlainly_word (n := "export") (by decide) _
  | declaration =>
      obtain rfl := Option.some.inj h
      simpa using beginsPlainly_word (n := "class") (by decide) _
  | unchanged => cases h

/-! ### Frames as syntax -/

theorem takes_constantFrame {className : String} {c : Surroundings} {depth : Nat}
    (plain : IsPlainName className) (single : c.isSingle = false)
    (hc : Surroundings.IsOrdinary c) (hdepth : 3 ≤ depth) (exported : Bool) :
    Takes (statementRule (rules (depth + 1))) c (frameLexemes className (.constant exported)) []
      (·.detach = if exported then .exportDecl .detached (constantFrame className)
        else constantFrame className) := by
  have pattern (c : Surroundings) (hc : Surroundings.IsOrdinary c) (ls : List Lexeme) :
      Takes (rules (depth + 1)).pattern c (.word className false :: ls) ls
        (·.detach = .ident .detached className) := by
    rw [pattern_rules]
    exact takes_bindingPattern_name plain hc.isYield
  have value (c : Surroundings) (hc : Surroundings.IsOrdinary c) :
      Takes (rules (depth + 1)).assignment c (classLexemes none ++ [.mark ";"]) [.mark ";"]
        (·.detach = .classExpr (madeClass none rfl)) :=
    (Forms.single .emptyClass).takes hdepth hc ⟨";", by decide, rfl⟩
  cases exported with
  | false => exact takes_statement_const single hc (fun c hc => pattern c hc _) value
  | true => exact takes_statement_exportConst single hc (fun c hc => pattern c hc _) value

/-- The names that no frame of a form can hold. -/
def refusesName (className : String) : ClassShape → Prop
  | .constant _ => className = "await"
  | .declaration => className = "await" ∨ className = "implements"
  | .unchanged => False

theorem takes_frame {className : String} {shape : ClassShape} {tree : Stmt} {c : Surroundings}
    {depth : Nat} (binding : isBindingName className = true)
    (allowed : ¬ refusesName className shape) (h : frame className binding shape = some tree)
    (single : c.isSingle = false) (hc : Surroundings.IsOrdinary c) (hdepth : 3 ≤ depth) :
    Takes (statementRule (rules (depth + 1))) c (frameLexemes className shape) []
      (·.detach = tree) := by
  have notReserved := not_mem_reservedWords_of_isBindingName binding
  cases shape with
  | constant exported =>
      have all := takes_constantFrame ⟨notReserved, allowed⟩ single hc hdepth exported
      cases exported <;> exact (Option.some.inj h) ▸ all
  | declaration =>
      obtain ⟨notAwait, notImplements⟩ := not_or.mp allowed
      obtain rfl := Option.some.inj h
      have names : NamesClass (some className) := by
        rintro n ⟨⟩
        exact ⟨⟨notReserved, notAwait⟩, notImplements⟩
      have taken := @takes_statement_class c (rules (depth + 1)) [] className binding names single hc
      simpa [frameLexemes] using taken
  | unchanged => cases h

theorem not_reaches_frame {className : String} {shape : ClassShape} {c : Surroundings}
    {s : Reading} {depth : Nat} {Q : Stmt → Reading → Prop} (refused : refusesName className shape)
    (single : c.isSingle = false) (hc : c.isAwait = true)
    (before : Before (frameLexemes className shape) s) :
    ¬ Reaches (statementRule (rules (depth + 1))) c s Q := by
  cases shape with
  | constant exported =>
      obtain rfl : className = "await" := refused
      cases exported with
      | false => exact not_reaches_statement_constAwait hc single before
      | true => exact not_reaches_statement_exportConstAwait hc single before
  | declaration => exact not_reaches_statement_class refused hc single before
  | unchanged => exact refused.elim

theorem exportsOnce_frame {className : String} {shape : ClassShape} {tree : Stmt}
    {binding : isBindingName className = true} (h : frame className binding shape = some tree) :
    exportsOnce [tree] = true := by
  cases shape with
  | constant exported =>
      cases exported with
      | false =>
          obtain rfl := Option.some.inj h
          rfl
      | true =>
          obtain rfl := Option.some.inj h
          simp [exportsOnce, Stmt.exportedNames, constantFrame, madeConstant, Pattern.boundNames,
            List.eraseDups_cons]
  | declaration =>
      obtain rfl := Option.some.inj h
      rfl
  | unchanged => cases h

theorem exists_head_frameLexemes {className : String} {shape : ClassShape}
    (made : shape ≠ .unchanged) : ∃ n more, frameLexemes className shape = .word n false :: more := by
  cases shape with
  | constant exported => cases exported <;> exact ⟨_, _, rfl⟩
  | declaration => exact ⟨_, _, rfl⟩
  | unchanged => contradiction

/-- A frame is read as it is meant, unless the name of the class is refused. -/
theorem statement_frame {className text : String} {shape : ClassShape} {tree : Stmt}
    {binding : isBindingName className = true} (htext : shapeText className shape = some text)
    (htree : frame className binding shape = some tree) (allowed : ¬ refusesName className shape) :
    Code.statement text = .ok tree := by
  have spells := spells_shapeText (isWordText_of_isBindingName binding) htext
  have made : shape ≠ .unchanged := by
    rintro rfl
    cases htree
  obtain ⟨n, more, eq⟩ := @exists_head_frameLexemes className _ made
  have long := spells.length_le
  rw [eq, List.length_cons] at long
  have first : Takes (rules (text.toList.length + 4)).statement (Module.surroundings .plain)
      (frameLexemes className shape) [] (·.detach = tree) := by
    rw [statement_rules]
    exact takes_frame binding allowed htree rfl ⟨rfl, rfl⟩ (by omega)
  have all := statements_eq spells (beginsPlainly_shapeText htext) (exportsOnce_frame htree)
    (.more (.inl ⟨n, by rw [eq]; rfl⟩) (by simp [eq]) first .done)
  unfold Code.statement
  rw [all]
  rfl

theorem statement_frame_error {className text : String} {shape : ClassShape}
    (binding : isBindingName className = true) (htext : shapeText className shape = some text)
    (refused : refusesName className shape) :
    ∃ failure, Code.statement text = .error failure := by
  have spells := spells_shapeText (isWordText_of_isBindingName binding) htext
  have made : shape ≠ .unchanged := by
    rintro rfl
    exact refused
  obtain ⟨n, more, eq⟩ := @exists_head_frameLexemes className _ made
  rw [eq] at spells
  obtain ⟨failure, error⟩ := statements_error spells (beginsPlainly_shapeText htext)
    fun s Q before => by
      rw [statement_rules]
      exact not_reaches_frame refused rfl rfl (eq ▸ before)
  unfold Code.statement
  rw [error]
  exact ⟨failure, rfl⟩

/-! ### Shaped classes -/

/-- The statement that a class statement becomes when its class has been lowered. -/
def shaped (className : String) (named : isBindingName className = true) (content : ClassDef)
    (s : Stmt) : ClassShape → Stmt
  | .constant exported =>
    let items : List Declarator :=
      [⟨.detached, .ident .detached className, false, false, none,
        some (.classExpr (fillClass (madeClass none rfl) content))⟩]
    if exported then .exportDecl s.span (.variableDecl .detached false .const items)
    else .variableDecl s.span false .const items
  | .declaration =>
    .classDecl { fillClass (madeClass (some className) named) content with span := s.span }
  | .unchanged => s

/-- A class is given the form that is meant, unless its name is refused. -/
theorem shapeClass_eq {options : Options} {className : String} {content : ClassDef} {s : Stmt}
    (binding : isBindingName className = true) (cls : class? s = some content)
    (allowed : ¬ refusesName className (classShape options s)) :
    shapeClass options className s = .ok (shaped className binding content s (classShape options s)) := by
  unfold shapeClass
  generalize classShape options s = shape at *
  cases htext : shapeText className shape with
  | none =>
      cases shape with
      | unchanged => rfl
      | constant exported => cases htext
      | declaration => cases htext
  | some text =>
      cases shape with
      | constant exported =>
          -- the frame differs with the export, and so does the text
          cases exported
          all_goals
            have read := @statement_frame _ _ _ _ binding htext rfl allowed
            simp only [htext, read, cls]
            rfl
      | declaration =>
          have read := @statement_frame _ _ _ _ binding htext rfl allowed
          simp only [htext, read, cls]
          rfl
      | unchanged => cases htext

theorem shapeClass_error {options : Options} {className : String} {s : Stmt}
    (binding : isBindingName className = true)
    (refused : refusesName className (classShape options s)) :
    ∃ failure, shapeClass options className s = .error failure := by
  unfold shapeClass
  generalize classShape options s = shape at *
  cases htext : shapeText className shape with
  | none =>
      cases shape with
      | unchanged => exact refused.elim
      | constant exported => cases htext
      | declaration => cases htext
  | some text =>
      obtain ⟨failure, error⟩ := statement_frame_error binding htext refused
      simp only [htext, error]
      exact ⟨failure, rfl⟩

/-- Giving a class its form succeeds only with the statement that is meant. -/
theorem shapeClass_ok {options : Options} {className : String} {content : ClassDef} {s new : Stmt}
    (binding : isBindingName className = true) (cls : class? s = some content)
    (h : shapeClass options className s = .ok new) :
    new = shaped className binding content s (classShape options s) := by
  by_cases refused : refusesName className (classShape options s)
  · obtain ⟨failure, error⟩ := shapeClass_error binding refused
    rw [h] at error
    cases error
  · rw [shapeClass_eq binding cls refused] at h
    exact (Except.ok.inj h).symm

end ComponentLowering.Lowering
