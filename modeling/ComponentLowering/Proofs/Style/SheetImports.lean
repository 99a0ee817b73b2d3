/-
# Imports of style sheets

The statements that bind the style sheets of a module, as they are written and as they are read.
-/
import ComponentLowering.Proofs.Style.SheetNames
import ComponentLowering.Proofs.Syntax.Snippets
import ComponentLowering.Style.Plan

namespace ComponentLowering.Style

open ComponentLowering.Code ComponentLowering.Settings ComponentLowering.Syntax
open ComponentLowering.Syntax.Parser

variable {text rest : List Char} {lexemes : List Lexeme} {convention : Convention}

/-! ### Calls of `require` -/

/-- The call that asks for another module. -/
def requireCall (path : String) : Expr :=
  .call .detached (.ident .detached "require") [] [.string .detached (.ofString path)] false false

/-- The same call as lexemes. -/
def requireLexemes (path : String) : List Lexeme :=
  [.word "require" false, .mark "(", .string (.ofString path), .mark ")"]

theorem forms_requireCall (path : String) :
    Forms .sum (requireLexemes path) (requireCall path) :=
  .single (.call (.name ⟨by decide, by decide⟩) (by simp)
    [([.string (.ofString path)], .string .detached (.ofString path))]
    (by simpa using .single (.string _)))

theorem spells_requireCall (path : String) (h : Spells rest lexemes) :
    Spells ("require(".toList ++ ((quote path).toList ++ ')' :: rest))
      (requireLexemes path ++ lexemes) := by
  have eq : "require(".toList = "require".toList ++ ['('] := by decide
  have arguments := ((h.mark (c := ')') (m := ")") (by decide)).string path).mark (c := '(')
    (m := "(") (by decide)
  have call := arguments.word (n := "require") (by decide) (endsWord_cons (by decide) (by decide) _)
  rw [eq, List.append_assoc, List.singleton_append]
  exact call

/-! ### One sheet -/

/-- The statement that binds a style sheet. -/
def sheetImport (convention : Convention) (name path : String) : Stmt :=
  match convention with
  | .esm => madeImport [.default .detached ⟨.detached, name⟩] (.ofString path)
  | .cjs => madeConstant (.ident .detached name) (requireCall path)

/-- The same statement as lexemes. -/
def sheetLexemes (convention : Convention) (name path : String) : List Lexeme :=
  match convention with
  | .esm =>
    [.word "import" false, .word name false, .word "from" false, .string (.ofString path),
      .mark ";"]
  | .cjs =>
    .word "const" false :: .word name false :: .mark "=" :: (requireLexemes path ++ [.mark ";"])

theorem spells_importStatement {name : String} (word : isWordText name = true) (path : String)
    (h : Spells rest lexemes) :
    Spells ((importStatement convention name path).toList ++ rest)
      (sheetLexemes convention name path ++ lexemes) := by
  cases convention with
  | esm =>
      have eq : (importStatement .esm name path).toList ++ rest =
          "import".toList ++ ' ' :: (name.toList ++ ' ' ::
            ("from".toList ++ ' ' :: ((quote path).toList ++ ';' :: rest))) := by
        simp [importStatement]
      rw [eq]
      exact ((((((h.mark (by decide)).string path).space.word (by decide) endsWord_space).space).word
        word endsWord_space).space).word (by decide) endsWord_space
  | cjs =>
      have eq : (importStatement .cjs name path).toList ++ rest =
          "const".toList ++ ' ' :: (name.toList ++ ' ' :: '=' :: ' ' ::
            ("require(".toList ++ ((quote path).toList ++ ')' :: ';' :: rest))) := by
        simp [importStatement]
      rw [eq]
      have call := spells_requireCall path (h.mark (c := ';') (m := ";") (by decide))
      rw [sheetLexemes, List.cons_append, List.cons_append, List.cons_append, List.append_assoc]
      exact (call.equals.space.word word endsWord_space).space.word (by decide) endsWord_space

/-- A style sheet is bound by one statement. -/
theorem takes_sheetImport {name path : String} {c : Surroundings} {depth : Nat} {ls : List Lexeme}
    (h : IsSheetName name) (single : c.isSingle = false) (hc : Surroundings.IsOrdinary c)
    (hdepth : 4 ≤ depth) :
    Takes (statementRule (rules (depth + 1))) c (sheetLexemes convention name path ++ ls) ls
      (·.detach = sheetImport convention name path) := by
  cases convention with
  | esm =>
      exact takes_statement_import single hc
        (.name (h.ne_of_no_underscore (by decide)) (h.ne_of_no_underscore (by decide)))
        fun c start hc => takes_importFrom_default h.isPlainName hc.isYield
  | cjs =>
      have pattern (c : Surroundings) (hc : Surroundings.IsOrdinary c) (ls : List Lexeme) :
          Takes (rules (depth + 1)).pattern c (.word name false :: ls) ls
            (·.detach = .ident .detached name) := by
        rw [pattern_rules]
        exact takes_bindingPattern_name h.isPlainName hc.isYield
      exact takes_statement_const single hc (fun c hc => pattern c hc _) fun c hc =>
        (forms_requireCall path).takes hdepth hc ⟨";", by decide, rfl⟩

/-! ### All sheets -/

theorem readsAll_sheets {sheets : List Sheet} (names : ∀ s ∈ sheets, IsSheetName s.name)
    {c : Surroundings} {depth : Nat} (single : c.isSingle = false)
    (hc : Surroundings.IsOrdinary c)
    (hdepth : (sheets.flatMap fun s => sheetLexemes convention s.name s.path).length ≤ depth) :
    ReadsAll (rules (depth + 2)) c
      (sheets.flatMap fun s => sheetLexemes convention s.name s.path)
      (sheets.map fun s => sheetImport convention s.name s.path) := by
  induction sheets with
  | nil => exact .done
  | cons s sheets ih =>
      obtain ⟨name, names⟩ := List.forall_mem_cons.mp names
      rw [List.flatMap_cons, List.length_append] at hdepth
      have long : 5 ≤ (sheetLexemes convention s.name s.path).length := by
        cases convention <;> simp [sheetLexemes, requireLexemes]
      rw [List.flatMap_cons, List.map_cons]
      refine .more ?_ ?_ ?_ (ih names (by omega))
      · cases convention <;> exact .inl ⟨_, rfl⟩
      · rw [List.length_append]
        omega
      · rw [statement_rules]
        exact takes_sheetImport name single hc (by omega)

theorem spells_importStatements {sheets : List Sheet}
    (names : ∀ s ∈ sheets, IsSheetName s.name) :
    SpellsHere ("\n".intercalate (sheets.map fun s => importStatement convention s.name s.path))
      (sheets.flatMap fun s => sheetLexemes convention s.name s.path) := by
  have lines := @spells_lines
    (sheets.map fun s =>
      (importStatement convention s.name s.path, sheetLexemes convention s.name s.path))
    (by
      intro p hp
      obtain ⟨s, mem, rfl⟩ := List.mem_map.mp hp
      exact fun _ _ => spells_importStatement (names s mem).isWordText s.path)
    (by
      intro p hp
      obtain ⟨s, -, rfl⟩ := List.mem_map.mp (List.mem_of_mem_tail hp)
      cases convention
      · exact ⟨"import", by decide, rfl⟩
      · exact ⟨"const", by decide, rfl⟩)
  simpa [List.flatMap_map, Function.comp_def] using lines

theorem beginsPlainly_importStatements (sheets : List Sheet) :
    BeginsPlainly
      ("\n".intercalate (sheets.map fun s => importStatement convention s.name s.path)).toList := by
  have statement (s : Sheet) : ∃ word tail, isWordText word = true ∧
      (importStatement convention s.name s.path).toList = word.toList ++ tail := by
    cases convention with
    | esm => exact ⟨"import", _, by decide, by simp [importStatement]; rfl⟩
    | cjs => exact ⟨"const", _, by decide, by simp [importStatement]; rfl⟩
  cases sheets with
  | nil => exact beginsPlainly_nil
  | cons s sheets =>
      obtain ⟨word, tail, isWord, eq⟩ := statement s
      cases sheets with
      | nil => simpa [eq] using beginsPlainly_word isWord _
      | cons s' sheets =>
          simpa [String.intercalate_cons_cons, eq] using beginsPlainly_word isWord _

theorem exportsOnce_of_none {trees : List Stmt} (h : ∀ t ∈ trees, t.exportedNames = []) :
    exportsOnce trees = true := by
  have none : trees.flatMap Stmt.exportedNames = [] := List.flatMap_eq_nil_iff.mpr h
  simp [exportsOnce, none]

/-- The imports of style sheets are read as the statements that bind them. -/
theorem statements_sheetImports (convention : Convention) {sheets : List Sheet}
    (names : ∀ s ∈ sheets, IsSheetName s.name) :
    statements ("\n".intercalate (sheets.map fun s => importStatement convention s.name s.path)) =
      .ok (sheets.map fun s => sheetImport convention s.name s.path) := by
  have spells : Spells _ _ := @spells_importStatements convention sheets names [] [] .done
  rw [List.append_nil, List.append_nil] at spells
  have long := spells.length_le
  refine statements_eq spells (beginsPlainly_importStatements sheets) (exportsOnce_of_none ?_)
    (readsAll_sheets names rfl ⟨rfl, rfl⟩ (by omega))
  intro t ht
  obtain ⟨s, _, rfl⟩ := List.mem_map.mp ht
  cases convention <;> rfl

end ComponentLowering.Style
