/-
# Remarks about a class

A class that claims to be a component is refused with one error, or it is accepted with warnings.  Either
way a remark carries the name of the class that it is about, so remarks about different classes of a module
can be told apart by their names.
-/
import ComponentLowering.Proofs.Component.RecordedMembers

namespace ComponentLowering.Component

open ComponentLowering.Report ComponentLowering.Style ComponentLowering.Syntax

variable {source : List Char} {className : String} {d : Diagnostic}

/-- Whether a diagnostic is a warning about the class with a name. -/
structure WarnsOf (className : String) (d : Diagnostic) : Prop where
  category : d.category = .warning
  named : d.className = some className

/-- Whether a diagnostic refuses the class with a name, or a class without one. -/
structure Refuses (className : Option String) (d : Diagnostic) : Prop where
  category : d.category = .error
  named : d.className = className

theorem WarnsOf.isError (h : WarnsOf className d) : d.isError = false := by
  simp [Diagnostic.isError, h.category]

theorem Refuses.isError {className : Option String} (h : Refuses className d) : d.isError = true := by
  simp [Diagnostic.isError, h.category]

theorem warnsOf_warn (code : DiagnosticCode) (message : String) :
    WarnsOf className (warn className code message) := ⟨rfl, rfl⟩

theorem refuses_refuse (code : DiagnosticCode) (message : String) :
    Refuses (some className) (refuse className code message) := ⟨rfl, rfl⟩

/-! ### Warnings -/

/-- Nothing but warnings about a class is in a list. -/
def OnlyWarns (className : String) (warnings : List Diagnostic) : Prop :=
  ∀ d ∈ warnings, WarnsOf className d

@[simp]
theorem onlyWarns_nil : OnlyWarns className [] := List.forall_mem_nil _

@[simp]
theorem onlyWarns_append {warnings more : List Diagnostic} :
    OnlyWarns className (warnings ++ more) ↔
      OnlyWarns className warnings ∧ OnlyWarns className more := List.forall_mem_append

@[simp]
theorem onlyWarns_cons {warnings : List Diagnostic} :
    OnlyWarns className (d :: warnings) ↔ WarnsOf className d ∧ OnlyWarns className warnings :=
  List.forall_mem_cons

theorem onlyWarns_warn (code : DiagnosticCode) (message : String) :
    OnlyWarns className [warn className code message] :=
  onlyWarns_cons.mpr ⟨warnsOf_warn code message, onlyWarns_nil⟩

theorem onlyWarns_readFormAssociated (config : List (String × Expr)) :
    OnlyWarns className (readFormAssociated source className config).warnings := by
  unfold readFormAssociated
  split
  · exact onlyWarns_nil
  · split
    · exact onlyWarns_nil
    · exact onlyWarns_warn _ _

theorem onlyWarns_stylePaths (elements : List Expr) :
    OnlyWarns className (stylePaths source className elements).warnings := by
  induction elements with
  | nil => exact onlyWarns_nil
  | cons e rest ih =>
      unfold stylePaths
      dsimp only
      split
      · exact ih
      · exact onlyWarns_cons.mpr ⟨warnsOf_warn _ _, ih⟩

theorem onlyWarns_repeatedKey (seen : List String) (key : String) :
    OnlyWarns className (repeatedKey className seen key) := by
  unfold repeatedKey
  split
  · exact onlyWarns_warn _ _
  · exact onlyWarns_nil

theorem onlyWarns_stylePairs (seen : List String) (pairs : List (String × String))
    (entries : List (String × Expr)) :
    OnlyWarns className (stylePairs source className seen pairs entries).warnings := by
  induction entries generalizing seen pairs with
  | nil => exact onlyWarns_nil
  | cons entry rest ih =>
      obtain ⟨key, value⟩ := entry
      have repeated := @onlyWarns_repeatedKey className seen key
      unfold stylePairs
      dsimp only
      split
      · exact onlyWarns_append.mpr ⟨repeated, ih _ _⟩
      · exact onlyWarns_append.mpr ⟨repeated, onlyWarns_cons.mpr ⟨warnsOf_warn _ _, ih _ _⟩⟩

theorem onlyWarns_styleUrls (node : Expr) :
    OnlyWarns className (styleUrls source className node).warnings := by
  unfold styleUrls
  dsimp only
  split
  · split
    · exact onlyWarns_warn _ _
    · exact onlyWarns_stylePaths _
  · split
    · split
      · exact onlyWarns_warn _ _
      · exact onlyWarns_stylePairs _ _ _
    · exact onlyWarns_warn _ _

theorem onlyWarns_styleRefs (config : List (String × Expr)) :
    OnlyWarns className (styleRefs source className config).warnings := by
  unfold styleRefs
  dsimp only
  split
  · exact onlyWarns_styleUrls _
  · split
    · exact onlyWarns_nil
    · split
      · exact onlyWarns_nil
      · exact onlyWarns_warn _ _

theorem onlyWarns_fieldRecord (f : Field) : OnlyWarns className (fieldRecord className f).warnings := by
  unfold fieldRecord readField
  split
  · exact onlyWarns_nil
  · dsimp only
    split
    · exact onlyWarns_nil
    · split
      · exact onlyWarns_nil
      · exact onlyWarns_warn _ _

theorem onlyWarns_readMembers (members : List Member) :
    OnlyWarns className (readMembers className members).warnings := by
  rw [readMembers_eq]
  intro d mem
  obtain ⟨f, -, mem⟩ := List.mem_flatMap.mp mem
  exact onlyWarns_fieldRecord f d mem

theorem onlyWarns_internalsWarning (forms : Bool) (members : List AnnotatedMember) :
    OnlyWarns className (internalsWarning className forms members) := by
  unfold internalsWarning
  split
  · exact onlyWarns_warn _ _
  · exact onlyWarns_nil

/-! ### Refusals -/

theorem refuses_configuration {call : Expr} (h : configuration source className call = .error d) :
    Refuses (some className) d := by
  unfold configuration at h
  dsimp only at h
  split at h
  · cases h
    exact refuses_refuse _ _
  · cases h
    exact refuses_refuse _ _
  · split at h
    · split at h <;> cases h
      exact refuses_refuse _ _
    · cases h
      exact refuses_refuse _ _

theorem refuses_readTag {config : List (String × Expr)} (h : readTag source className config = .error d) :
    Refuses (some className) d := by
  unfold readTag at h
  split at h
  · cases h
    exact refuses_refuse _ _
  · split at h
    · cases h
      exact refuses_refuse _ _
    · split at h <;> cases h
      exact refuses_refuse _ _

/-! ### Classes -/

theorem refuses_of_readNamed {decl : ClassDef} {decorator : Decorator}
    (h : readNamed source className decl decorator = .error d) : Refuses (some className) d := by
  unfold readNamed at h
  dsimp only at h
  split at h
  · cases h
    exact refuses_refuse _ _
  · cases config : configuration source className decorator.expr with
    | error reason =>
        rw [config] at h
        cases h
        exact refuses_configuration config
    | ok entries =>
        rw [config] at h
        cases tag : readTag source className entries with
        | error reason =>
            simp only [bind, Except.bind, tag] at h
            cases h
            exact refuses_readTag tag
        | ok text =>
            simp only [bind, Except.bind, tag] at h
            cases h

theorem onlyWarns_of_readNamed {decl : ClassDef} {decorator : Decorator} {c : Component}
    (h : readNamed source className decl decorator = .ok c) : OnlyWarns className c.warnings := by
  obtain ⟨config, -, built⟩ := readNamed_ok h
  rw [built.warnings]
  simp only [onlyWarns_append]
  exact ⟨⟨⟨onlyWarns_readFormAssociated _, onlyWarns_styleRefs _⟩, onlyWarns_readMembers _⟩,
    onlyWarns_internalsWarning _ _⟩

/-- A class that is refused is refused with an error that carries its name, if it has one. -/
theorem refuses_of_skipped {decl : ClassDef} (h : readClass source decl = .skipped d) :
    Refuses (decl.name.map (·.name)) d := by
  unfold readClass at h
  split at h
  · cases h
  · split at h
    · rename_i unnamed
      cases h
      exact ⟨rfl, by rw [unnamed]; rfl⟩
    · rename_i named
      split at h <;> cases h
      rename_i refused
      rw [named]
      exact refuses_of_readNamed refused

/-- A component comes with warnings that carry its name. -/
theorem onlyWarns_of_component {decl : ClassDef} {c : Component}
    (h : readClass source decl = .component c) : OnlyWarns c.className c.warnings := by
  obtain ⟨decorator, name, -, -, read⟩ := readClass_eq_component_iff.mp h
  rw [(isReadAs_of_readNamed read).1]
  exact onlyWarns_of_readNamed read

end ComponentLowering.Component
