/-
# Binding core functions

The statement that binds the functions of the core module, as it is written and as it is read.
-/
import ComponentLowering.Lowering.CoreImport
import ComponentLowering.Proofs.Style.SheetImports

namespace ComponentLowering.Lowering

open ComponentLowering.Code ComponentLowering.Settings ComponentLowering.Style
open ComponentLowering.Syntax ComponentLowering.Syntax.Parser

variable {rest : List Char} {lexemes : List Lexeme}

namespace CoreFunction

/-- The names of a function: the one it is exported under and the one it is bound to. -/
def names (f : CoreFunction) : String × String := (f.exportedName, f.localName)

theorem isWordText_names (f : CoreFunction) :
    isWordText f.names.1 = true ∧ isWordText f.names.2 = true := by
  cases f <;> decide

theorem isPlainName_local (f : CoreFunction) : IsPlainName f.names.2 := by
  cases f <;> exact ⟨by decide, by decide⟩

end CoreFunction

/-- The statement that binds some functions of the core module. -/
def coreBinding (convention : Convention) (corePath : String) (functions : List CoreFunction) :
    Stmt :=
  match convention with
  | .esm => madeImport (functions.map fun f => madeSpecifier f.names) (.ofString corePath)
  | .cjs =>
    madeConstant (.object .detached (functions.map fun f => madeProperty f.names))
      (requireCall corePath)

/-- The same statement as lexemes. -/
def coreLexemes (convention : Convention) (corePath : String) (functions : List CoreFunction) :
    List Lexeme :=
  match convention with
  | .esm =>
    .word "import" false :: .mark "\x7b" ::
      (commaJoined ((functions.map (·.names)).map namedLexemes) ++
        .mark "\x7d" :: .word "from" false :: importTail (.ofString corePath) [])
  | .cjs =>
    .word "const" false :: .mark "\x7b" ::
      (commaJoined ((functions.map (·.names)).map propertyLexemes) ++
        .mark "\x7d" :: .mark "=" :: (requireLexemes corePath ++ [.mark ";"]))

/-- The statement that binds core functions, as text. -/
def coreText (convention : Convention) (corePath : String) (functions : List CoreFunction) :
    String :=
  let bindings (separator : String) :=
    ", ".intercalate (functions.map fun f => f.exportedName ++ separator ++ f.localName)
  match convention with
  | .esm => "import \x7b " ++ bindings " as " ++ " \x7d from " ++ quote corePath ++ ";"
  | .cjs => "const \x7b " ++ bindings ": " ++ " \x7d = require(" ++ quote corePath ++ ");"

theorem coreStatement?_eq (convention : Convention) (corePath : String) {used : CoreUse}
    (nonempty : used.functions ≠ []) :
    coreStatement? convention corePath used = some (coreText convention corePath used.functions) := by
  unfold coreStatement? coreText
  cases convention <;> split <;> simp_all

theorem spells_namedBinding (f : CoreFunction) (ends : EndsWord rest) (h : Spells rest lexemes) :
    Spells ((f.exportedName ++ " as " ++ f.localName).toList ++ rest)
      (namedLexemes f.names ++ lexemes) := by
  obtain ⟨exported, local'⟩ := f.isWordText_names
  have spelled := ((((h.word local' ends).space).word (n := "as") (by decide) endsWord_space).space).word
    exported endsWord_space
  simpa [namedLexemes, CoreFunction.names] using spelled

theorem spells_property (f : CoreFunction) (ends : EndsWord rest) (h : Spells rest lexemes) :
    Spells ((f.exportedName ++ ": " ++ f.localName).toList ++ rest)
      (propertyLexemes f.names ++ lexemes) := by
  obtain ⟨exported, local'⟩ := f.isWordText_names
  have spelled := ((h.word local' ends).space.mark (c := ':') (m := ":") (by decide)).word
    exported (endsWord_cons (by decide) (by decide) _)
  simpa [propertyLexemes, CoreFunction.names] using spelled

theorem spells_coreText (convention : Convention) (corePath : String)
    (functions : List CoreFunction) :
    Spells (coreText convention corePath functions).toList
      (coreLexemes convention corePath functions) := by
  cases convention with
  | esm =>
      have source := ((Spells.done.mark (c := ';') (m := ";") (by decide)).string corePath).space.word
        (n := "from") (by decide) endsWord_space
      have bindings := spells_commaItems
        (fun f (_ : f ∈ functions) rest lexemes => @spells_namedBinding rest lexemes f)
        endsWord_space (source.space.mark (c := '\x7d') (m := "\x7d") (by decide)).space
      have all := (bindings.space.mark (c := '\x7b') (m := "\x7b") (by decide)).space.word
        (n := "import") (by decide) endsWord_space
      simpa [coreText, coreLexemes, importTail, Function.comp_def] using all
  | cjs =>
      have call := spells_requireCall corePath
        (Spells.done.mark (c := ';') (m := ";") (by decide))
      have bindings := spells_commaItems
        (fun f (_ : f ∈ functions) rest lexemes => @spells_property rest lexemes f)
        endsWord_space (call.equals.space.mark (c := '\x7d') (m := "\x7d") (by decide)).space
      have all := (bindings.space.mark (c := '\x7b') (m := "\x7b") (by decide)).space.word
        (n := "const") (by decide) endsWord_space
      simpa [coreText, coreLexemes, Function.comp_def] using all

theorem takes_coreBinding {convention : Convention} {corePath : String}
    {functions : List CoreFunction} {c : Surroundings} {depth : Nat} (single : c.isSingle = false)
    (hc : Surroundings.IsOrdinary c) (hdepth : 4 ≤ depth) :
    Takes (statementRule (rules (depth + 1))) c (coreLexemes convention corePath functions) []
      (·.detach = coreBinding convention corePath functions) := by
  have bindings : ∀ b ∈ functions.map (·.names), IsPlainName b.2 := by
    intro b hb
    obtain ⟨f, _, rfl⟩ := List.mem_map.mp hb
    exact f.isPlainName_local
  cases convention with
  | esm =>
      refine (takes_statement_import single hc .brace fun c start hc =>
        takes_importFrom_named fun b hb => (bindings b hb).notReserved).imp fun a ha => ?_
      rw [ha, List.map_map]
      rfl
  | cjs =>
      have pattern (c : Surroundings) (hc : Surroundings.IsOrdinary c) (ls : List Lexeme) :
          Takes (rules (depth + 1)).pattern c
            (.mark "\x7b" :: (commaJoined ((functions.map (·.names)).map propertyLexemes) ++
              .mark "\x7d" :: ls)) ls
            (·.detach = .object .detached ((functions.map (·.names)).map madeProperty)) := by
        obtain ⟨depth, rfl⟩ := Nat.exists_eq_add_one.mpr (Nat.zero_lt_of_lt hdepth)
        rw [pattern_rules]
        exact takes_bindingPattern_object bindings hc.isYield (pattern_rules _)
      refine (takes_statement_const single hc (fun c hc => pattern c hc _) fun c hc =>
        (forms_requireCall corePath).takes hdepth hc ⟨";", by decide, rfl⟩).imp fun a ha => ?_
      rw [ha, List.map_map]
      rfl

/-- The statement that binds core functions is read as it is meant. -/
theorem statement_coreText (convention : Convention) (corePath : String)
    (functions : List CoreFunction) :
    Code.statement (coreText convention corePath functions) =
      .ok (coreBinding convention corePath functions) := by
  have spells := spells_coreText convention corePath functions
  have long := spells.length_le
  have plainly : BeginsPlainly (coreText convention corePath functions).toList := by
    cases convention with
    | esm => simpa [coreText] using beginsPlainly_word (n := "import") (by decide) _
    | cjs => simpa [coreText] using beginsPlainly_word (n := "const") (by decide) _
  have four : 5 ≤ (coreLexemes convention corePath functions).length := by
    cases convention <;> simp [coreLexemes, importTail, requireLexemes]
  have first : Takes (rules ((coreText convention corePath functions).toList.length + 4)).statement
      (Module.surroundings .plain) (coreLexemes convention corePath functions) []
      (·.detach = coreBinding convention corePath functions) := by
    rw [statement_rules]
    exact takes_coreBinding rfl ⟨rfl, rfl⟩ (by omega)
  have head : ∃ n, (coreLexemes convention corePath functions).head? = some (.word n false) := by
    cases convention <;> exact ⟨_, rfl⟩
  have once : exportsOnce [coreBinding convention corePath functions] = true :=
    exportsOnce_of_none (by cases convention <;> simp [coreBinding, madeImport, madeConstant,
      Stmt.exportedNames])
  have read := statements_eq spells plainly once
    (.more (.inl head) (by simp; omega) first .done)
  unfold Code.statement
  rw [read]
  rfl

end ComponentLowering.Lowering
