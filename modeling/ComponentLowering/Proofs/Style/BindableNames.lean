/-
# Names that can be bound

A class name, a key and a path are texts of any characters.  The name that is made of them for a new style
sheet can be bound all the same, unless the class name begins with a digit, which the name of no class does.
It is none of the names that core functions are bound to either, although those are not taken; this needs a
class name that is not empty, since without one a path can spell such a name.
-/
import ComponentLowering.Proofs.Style.FreshSheets
import ComponentLowering.Proofs.Style.SheetImports

namespace ComponentLowering.Style

open ComponentLowering.Code ComponentLowering.Lowering ComponentLowering.Settings
open ComponentLowering.Syntax ComponentLowering.Text

variable {className name : String} {key : Option String} {path : String}

/-! ### Names of modules -/

/-- The words that no statement of a module binds: those that are reserved everywhere, and those that are
reserved, or must not be bound, in strict code. -/
def unbindableWords : List String :=
  reservedWords ++ ["arguments", "await", "eval", "implements", "interface", "let", "package", "private",
    "protected", "public", "static", "yield"]

/-- Whether a style sheet can be bound to a name: by either kind of statement, whatever its path is. -/
structure IsBindable (name : String) : Prop where
  isName : isIdentifierName name = true
  notReserved : name ∉ unbindableWords
  binds : ∀ convention path,
    Code.statements (importStatement convention name path) = .ok [sheetImport convention name path]

private theorem unbindableWords_no_underscore : ∀ word ∈ unbindableWords, '_' ∉ word.toList := by
  decide

theorem IsSheetName.isBindable (h : IsSheetName name) : IsBindable name where
  isName := h.isName
  notReserved := fun mem => unbindableWords_no_underscore name mem h.underscore
  binds := fun convention path => by
    have sheet : ∀ s ∈ [({ owner := "", key := none, path, name } : Sheet)], IsSheetName s.name :=
      List.forall_mem_singleton.mpr h
    simpa using statements_sheetImports convention sheet

/-! ### Fresh names -/

/-- Whether a fresh name is a name is decided by the first character of the class name. -/
theorem isIdentifierName_freshName_iff {taken : List String} :
    isIdentifierName (freshName taken (candidate className key path)) = true ↔
      ∀ c ∈ className.toList.head?, c.isDigit = false := by
  have nonempty : candidate className key path ≠ "" := by
    intro none
    have mem := underscore_mem_candidate className key path
    rw [none] at mem
    cases mem
  obtain ⟨tail, eq, parts⟩ := numbered_eq_append (candidate className key path)
    (((List.range (taken.length + 1)).find? fun n =>
      !taken.contains (numbered (candidate className key path) n)).getD 0)
  rw [freshName, eq, isIdentifierName_append_iff nonempty parts, isIdentifierName_candidate_iff]

theorem isBindable_freshName_iff {taken : List String} :
    IsBindable (freshName taken (candidate className key path)) ↔
      ∀ c ∈ className.toList.head?, c.isDigit = false := by
  constructor
  · intro bindable
    exact isIdentifierName_freshName_iff.mp bindable.isName
  · intro noDigit
    have sheet : IsSheetName (candidate className key path) :=
      ⟨isIdentifierName_candidate_iff.mpr noDigit, underscore_mem_candidate className key path⟩
    exact (isSheetName_freshName taken sheet).isBindable

theorem freshName_ne_localName {taken : List String} (nonempty : className ≠ "") (f : CoreFunction) :
    freshName taken (candidate className key path) ≠ f.localName := by
  intro same
  have parted := (isParted_candidate nonempty key path).freshName taken
  exact not_isParted_localName f (same ▸ parted)

end ComponentLowering.Style

namespace ComponentLowering.Lowering.StateCall

open ComponentLowering.Style

/-! ### Runs -/

/-- Behind any calls, the name that a new style sheet is given can be bound exactly if the class name does not
begin with a digit.  Unless the class name is empty, it is the name of no core function. -/
theorem run_hoists_bindable (calls : List StateCall) (className : String) (key : Option String)
    (path : String)
    (new : ∀ s ∈ (run calls).styles.sheets, ¬ (s.owner = className ∧ s.path = path)) :
    ∃ name, ((run calls).hoist className key path).1 = ⟨name, true⟩ ∧
      (IsBindable name ↔ ∀ c ∈ className.toList.head?, c.isDigit = false) ∧
      (className ≠ "" → ∀ f : CoreFunction, name ≠ f.localName) := by
  rw [ModuleState.hoist_eq, (run calls).styles.hoist_eq_of_new key new]
  exact ⟨_, rfl, isBindable_freshName_iff, fun nonempty f => freshName_ne_localName nonempty f⟩

/-- A class with a name beyond ASCII, a key that is a digit and a path with a blank; the name to which they
lead is reserved. -/
theorem accented_bindable :
    (∀ s ∈ (run [reserve "_CLAIR_9___a_css"]).styles.sheets,
      ¬ (s.owner = "éclair" ∧ s.path = "./ a.css")) ∧
    ((run [reserve "_CLAIR_9___a_css"]).hoist "éclair" (some "9") "./ a.css").1 =
      ⟨"_CLAIR_9___a_css_1", true⟩ ∧
    IsBindable "_CLAIR_9___a_css_1" ∧ ∀ f : CoreFunction, "_CLAIR_9___a_css_1" ≠ f.localName := by
  have found : ((run [reserve "_CLAIR_9___a_css"]).hoist "éclair" (some "9") "./ a.css").1 =
      ⟨"_CLAIR_9___a_css_1", true⟩ := by decide +kernel
  obtain ⟨name, eq, bindable, differs⟩ :=
    run_hoists_bindable [reserve "_CLAIR_9___a_css"] "éclair" (some "9") "./ a.css" (by decide)
  obtain rfl : "_CLAIR_9___a_css_1" = name := congrArg Hoisted.name (found.symm.trans eq)
  have noDigit : ∀ c ∈ "éclair".toList.head?, c.isDigit = false := by
    have first : "éclair".toList.head? = some 'é' := by decide
    rw [first]
    rintro c ⟨⟩
    decide
  exact ⟨by decide, found, bindable.mpr noDigit, differs (by decide)⟩

/-- Without a class name a path spells the name of a core function. -/
example : candidate "" none "stencil_registerInstance" = CoreFunction.registerInstance.localName := by
  decide

end ComponentLowering.Lowering.StateCall
