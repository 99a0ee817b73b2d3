/-
# Names in the scope of a module

Lowering makes up names that differ from those of the module.  The names that are collected for that are
fewer than those that the scope of the module binds: of a pattern at the top the names of rest elements
are missing, and other statements than declarations are not looked into, so the variables that `var`
declares in them are missing as well.

Names that are collected without being bound in the scope, such as those of types, do no harm and are
not looked at.
-/
import ComponentLowering.Proofs.Lowering.Emission
import ComponentLowering.Proofs.Syntax.Scoping

namespace ComponentLowering.Lowering

open ComponentLowering.Syntax

variable {name : String} {body : List Stmt}

/-! ### Names that are missed -/

/-- The names that a statement at the top of a module binds and that are not collected for it. -/
def missedIn : Stmt → List String
  | .variableDecl _ false _ items | .exportDecl _ (.variableDecl _ false _ items) =>
    items.flatMap fun d => d.target.restNames
  | .labeled _ _ body => body.varNames ++ body.functionNames
  | s => s.varNames

/-- The names that statements at the top of a module bind and that are not collected for them. -/
def missedNames (body : List Stmt) : List String := body.flatMap missedIn

theorem mem_items_iff {items : List Declarator} :
    (∃ d ∈ items, name ∈ d.target.boundNames true) ↔
      name ∈ (items.flatMap fun d => d.target.boundNames false) ∨
        name ∈ items.flatMap fun d => d.target.restNames := by
  simp only [List.mem_flatMap, Pattern.mem_boundNames_iff, and_or_left, exists_or]

/-- What a declaration introduces is collected for it, except for the names of rest elements. -/
theorem mem_of_introduces {s : Stmt} (h : Introduces name s) :
    name ∈ declarationNames s ∨ name ∈ missedIn s := by
  cases h with
  | bindings mem bound => exact mem_items_iff.mp ⟨_, mem, bound⟩
  | function named same | classDef named same => exact .inl (mem_name_iff.mpr ⟨_, named, same⟩)

/-- What a statement binds is collected for it or missed. -/
theorem mem_of_binds {s : Stmt} (h : Binds name s) : name ∈ statementNames s ∨ name ∈ missedIn s := by
  cases h with
  | imported mem same => exact .inl (List.mem_map.mpr ⟨_, mem, same⟩)
  | declared h =>
      have found := mem_of_introduces h
      cases h <;> exact found
  | exported h =>
      have found := mem_of_introduces h
      cases h with
      | bindings mem bound => exact found
      | function named same | classDef named same => exact .inl (found.resolve_right List.not_mem_nil)
  | defaultFunction h | defaultClass h =>
      exact .inl ((mem_of_introduces h).resolve_right List.not_mem_nil)
  | labeled h => exact .inr (List.mem_append_right _ (mem_functionNames_iff.mpr h))
  | nested h =>
      have found := mem_varNames_iff.mpr h
      cases h with
      | here mem bound => exact mem_items_iff.mp ⟨_, mem, bound⟩
      | labeled h => exact .inr (List.mem_append_left _ (mem_varNames_iff.mpr h))
      | _ => exact .inr found

/-- What is missed of a statement is bound by it. -/
theorem binds_of_mem_missedIn {s : Stmt} (h : name ∈ missedIn s) : Binds name s := by
  have introduced {span : Span} {kind : VariableKind} {items : List Declarator}
      (mem : name ∈ items.flatMap fun d => d.target.restNames) :
      Introduces name (.variableDecl span false kind items) := by
    obtain ⟨d, item, bound⟩ := mem_items_iff.mpr (.inr mem)
    exact .bindings item bound
  unfold missedIn at h
  split at h
  · exact .declared (introduced h)
  · exact .exported (introduced h)
  · obtain nested | function := List.mem_append.mp h
    · exact .nested (.labeled (mem_varNames_iff.mp nested))
    · exact .labeled (mem_functionNames_iff.mp function)
  · exact .nested (mem_varNames_iff.mp h)

/-! ### Modules -/

/-- Names in the scope of a module.  Each of them is collected for the module or among those that are
missed, and all that are missed are in the scope.  So every name in the scope is collected if and only
if each missed name is collected for another reason. -/
theorem isInScope_collected_iff (body : List Stmt) :
    (∀ name, IsInScope body name → name ∈ moduleNames body ∨ name ∈ missedNames body) ∧
      (∀ name ∈ missedNames body, IsInScope body name) ∧
      ((∀ name, IsInScope body name → name ∈ moduleNames body) ↔
        ∀ name ∈ missedNames body, name ∈ moduleNames body) := by
  have covered : ∀ name, IsInScope body name → name ∈ moduleNames body ∨ name ∈ missedNames body := by
    rintro name ⟨s, mem, binds⟩
    exact (mem_of_binds binds).imp (fun found => List.mem_flatMap.mpr ⟨s, mem, found⟩)
      fun missed => List.mem_flatMap.mpr ⟨s, mem, missed⟩
  have bound : ∀ name ∈ missedNames body, IsInScope body name := by
    intro name missed
    obtain ⟨s, mem, here⟩ := List.mem_flatMap.mp missed
    exact ⟨s, mem, binds_of_mem_missedIn here⟩
  refine ⟨covered, bound, fun all name missed => all name (bound name missed), ?_⟩
  exact fun all name inScope => (covered name inScope).elim id (all name)

/-! ### A module with a rest element and a nested variable -/

/-- A module that binds a name by a rest element and another one in a nested statement. -/
def scattered : String := "const \x7b a, ...rest \x7d = \x7b\x7d;\nif (a) \x7b\n  var inner = 1;\n\x7d\n"

theorem scattered_read :
    ∃ m, Module.read (.ofPath "a.ts") scattered.toList = .ok m ∧
      (missedNames m.body == ["rest", "inner"] && moduleNames m.body == ["a"]) = true :=
  exists_of_read (by decide +kernel)

/-- Both names are in the scope of the module, and neither is collected. -/
theorem scattered_missesNames :
    ∃ m, Module.read (.ofPath "a.ts") scattered.toList = .ok m ∧
      (∀ name ∈ ["rest", "inner"], IsInScope m.body name ∧ name ∉ moduleNames m.body) ∧
      ¬ ∀ name, IsInScope m.body name → name ∈ moduleNames m.body := by
  obtain ⟨m, read, holds⟩ := scattered_read
  rw [Bool.and_eq_true, beq_iff_eq, beq_iff_eq] at holds
  have missed : ∀ name ∈ ["rest", "inner"], IsInScope m.body name ∧ name ∉ moduleNames m.body := by
    intro name mem
    rw [← holds.1] at mem
    obtain ⟨s, here, within⟩ := List.mem_flatMap.mp mem
    refine ⟨⟨s, here, binds_of_mem_missedIn within⟩, ?_⟩
    rw [holds.1] at mem
    rw [holds.2, List.mem_singleton]
    rintro rfl
    exact absurd mem (by decide)
  refine ⟨m, read, missed, fun all => ?_⟩
  obtain ⟨inScope, absent⟩ := missed "rest" List.mem_cons_self
  exact absent (all "rest" inScope)

end ComponentLowering.Lowering
