/-
# Pruned imports

What pruning leaves of a module, statement by statement.  A specifier is dropped exactly if it is a
named one for a lowered decorator, its declaration imports from the core module, and its name is not
among the decorators in use; a declaration is dropped exactly if it had specifiers and loses all of them.
Everything else stays as it is, so pruning once more drops nothing.

The same is reached in two passes over the module, of which the first takes out specifiers and remembers
where declarations lost their last one, and the second takes out the declarations found there.  That the
two agree needs declarations to have places of their own.  Whether a dropped name is used elsewhere is
not looked at.
-/
import ComponentLowering.Proofs.Lowering.KeptImports
import Mathlib.Data.List.Nodup

namespace ComponentLowering.Lowering

open ComponentLowering.Component ComponentLowering.Settings ComponentLowering.Syntax

variable {body : List Stmt} {corePath : String} {inUse : List String} {d : ImportDecl}

/-! ### Specifiers that are dropped -/

/-- A specifier that imports a lowered decorator under its exported name. -/
def ImportsDecorator : ImportSpecifier → Prop
  | .named _ imported _ _ => imported.text ∈ ["Component", "Element", "AttachInternals"]
  | .default _ _ | .allNames _ _ => False

instance : DecidablePred ImportsDecorator
  | .named _ imported _ _ =>
    inferInstanceAs (Decidable (imported.text ∈ ["Component", "Element", "AttachInternals"]))
  | .default _ _ | .allNames _ _ => inferInstanceAs (Decidable False)

/-- A specifier of a declaration that pruning drops, given the names of the decorators in use. -/
def IsErased (corePath : String) (inUse : List String) (d : ImportDecl) (s : ImportSpecifier) : Prop :=
  ImportsDecorator s ∧ (d.source.value.text = corePath ∨ d.source.value.text = "@stencil/core") ∧
    s.binding.name ∉ inUse

instance (corePath : String) (inUse : List String) (d : ImportDecl) :
    DecidablePred (IsErased corePath inUse d) :=
  fun _ => inferInstanceAs (Decidable (_ ∧ _))

/-- The specifiers of a declaration that are dropped. -/
def erased (corePath : String) (inUse : List String) (d : ImportDecl) : List ImportSpecifier :=
  (d.specifiers.getD []).filter (IsErased corePath inUse d)

/-- A declaration without the specifiers that are dropped. -/
def strip (corePath : String) (inUse : List String) (d : ImportDecl) : ImportDecl :=
  { d with specifiers := d.specifiers.map (·.filter fun s => ¬ IsErased corePath inUse d s) }

/-- Whether a declaration has specifiers, and none of them is left. -/
def isEmptied (corePath : String) (inUse : List String) (d : ImportDecl) : Bool :=
  !(d.specifiers.getD []).isEmpty && ((strip corePath inUse d).specifiers.getD []).isEmpty

theorem isErased_iff {s : ImportSpecifier} :
    IsErased corePath inUse d s ↔ isOfCore corePath d = true ∧ isStale inUse s = true := by
  unfold IsErased isOfCore
  rw [isStale_eq, Bool.or_eq_true, beq_iff_eq, beq_iff_eq, Bool.and_eq_true]
  have decorator : isDecoratorSpecifier s = true ↔ ImportsDecorator s := by
    cases s with
    | named span imported binding typeOnly => exact List.contains_iff_mem
    | _ => exact iff_of_false Bool.false_ne_true id
  rw [decorator, Bool.not_eq_true', List.contains_eq_mem, decide_eq_false_iff_not]
  exact and_left_comm

theorem strip_specifiers : (strip corePath inUse d).specifiers.getD [] =
    (d.specifiers.getD []).filter fun s => ¬ IsErased corePath inUse d s := by
  unfold strip
  cases d.specifiers <;> rfl

theorem isEmptied_iff : isEmptied corePath inUse d = true ↔
    d.specifiers.getD [] ≠ [] ∧ ∀ s ∈ d.specifiers.getD [], IsErased corePath inUse d s := by
  unfold isEmptied
  rw [strip_specifiers, Bool.and_eq_true, List.isEmpty_iff (l := List.filter _ _),
    List.filter_eq_nil_iff]
  simp

/-- A declaration that has nothing to drop stays as it is. -/
theorem strip_eq_self (none : ∀ s ∈ d.specifiers.getD [], ¬ IsErased corePath inUse d s) :
    strip corePath inUse d = d := by
  unfold strip
  cases eq : d.specifiers with
  | none =>
      cases d
      cases eq
      rfl
  | some specifiers =>
      rw [eq, Option.getD_some] at none
      rw [Option.map_some, List.filter_eq_self.mpr fun s mem => decide_eq_true (none s mem), ← eq]

/-- What pruning leaves of a declaration, and how many specifiers it counts. -/
theorem pruneImport_eq (corePath : String) (inUse : List String) (d : ImportDecl) :
    pruneImport corePath inUse d =
      (if isEmptied corePath inUse d then none else some (strip corePath inUse d),
        (erased corePath inUse d).length) := by
  cases core : isOfCore corePath d with
  | false =>
      have none : ∀ s, ¬ IsErased corePath inUse d s := fun s => by simp [isErased_iff, core]
      have nothing : erased corePath inUse d = [] :=
        List.filter_eq_nil_iff.mpr fun s _ => by simp [none s]
      have stays := strip_eq_self fun s _ => none s
      have emptied : isEmptied corePath inUse d = false := by
        unfold isEmptied
        rw [stays, Bool.not_and_self]
      rw [pruneImport_of_other core, nothing, stays, emptied]
      rfl
  | true =>
      have stale (s : ImportSpecifier) : decide (IsErased corePath inUse d s) = isStale inUse s := by
        rw [Bool.eq_iff_iff, decide_eq_true_iff, isErased_iff, core]
        exact and_iff_right rfl
      have counted : (pruneImport corePath inUse d).2 = _ := (pruneImport_of_core core).2
      refine Prod.ext ?_ (counted.trans ?_)
      · unfold isEmptied pruneImport
        rw [strip_specifiers]
        dsimp only
        rw [isOfCore, Bool.or_eq_true, beq_iff_eq, beq_iff_eq] at core
        rw [if_neg (by simpa [imp_iff_not_or] using core)]
        simp only [strip, decide_not, stale]
        split
        · rename_i eq
          rw [eq]
          cases d
          cases eq
          rfl
        · rename_i eq
          rw [eq]
          cases d
          cases eq
          rfl
        · rename_i specifiers nonempty eq
          rw [eq]
          simp only [Option.getD_some, Option.map_some]
          cases specifiers with
          | nil => exact absurd rfl nonempty
          | cons s rest => cases (List.filter (fun s => !isStale inUse s) (s :: rest)).isEmpty <;> rfl
      · unfold erased
        exact congrArg List.length (List.filter_congr fun s _ => (stale s).symm)

theorem pruneStatement_importDecl (corePath : String) (inUse : List String) (d : ImportDecl) :
    pruneStatement corePath inUse (.importDecl d) =
      (if isEmptied corePath inUse d then [] else [.importDecl (strip corePath inUse d)],
        (erased corePath inUse d).length) := by
  show ((pruneImport corePath inUse d).1.toList.map Stmt.importDecl,
    (pruneImport corePath inUse d).2) = _
  rw [pruneImport_eq]
  cases isEmptied corePath inUse d <;> rfl

/-- A declaration that has nothing to drop is left by pruning. -/
theorem pruneStatement_of_settled (none : ∀ s ∈ d.specifiers.getD [], ¬ IsErased corePath inUse d s) :
    pruneStatement corePath inUse (.importDecl d) = ([.importDecl d], 0) := by
  have nothing : erased corePath inUse d = [] :=
    List.filter_eq_nil_iff.mpr fun s mem => by simpa using none s mem
  have emptied : isEmptied corePath inUse d = false := by
    rw [isEmptied, strip_eq_self none, Bool.not_and_self]
  rw [pruneStatement_importDecl, strip_eq_self none, nothing, emptied]
  rfl

/-! ### Statement by statement -/

/-- What pruning makes of a statement, given the names of the decorators in use. -/
inductive IsPrunedTo (corePath : String) (inUse : List String) : Stmt → List Stmt → Prop
  /-- A statement that is no import stays. -/
  | other {s : Stmt} (noImport : isImport s = false) : IsPrunedTo corePath inUse s [s]
  /-- So does a declaration without specifiers, whether or not it has an empty list of them. -/
  | bare {d : ImportDecl} (none : d.specifiers.getD [] = []) :
      IsPrunedTo corePath inUse (.importDecl d) [.importDecl d]
  /-- A declaration goes if it has specifiers, and all of them are dropped. -/
  | emptied {d : ImportDecl} {specifiers : List ImportSpecifier}
      (has : d.specifiers = some specifiers) (nonempty : specifiers ≠ [])
      (all : ∀ s ∈ specifiers, IsErased corePath inUse d s) :
      IsPrunedTo corePath inUse (.importDecl d) []
  /-- Otherwise it keeps the specifiers that are not dropped, in their order. -/
  | left {d : ImportDecl} {specifiers : List ImportSpecifier}
      (has : d.specifiers = some specifiers)
      (kept : ∃ s ∈ specifiers, ¬ IsErased corePath inUse d s) :
      IsPrunedTo corePath inUse (.importDecl d)
        [.importDecl { d with
          specifiers := some (specifiers.filter fun s => ¬ IsErased corePath inUse d s) }]

/-- The specifiers of a statement that are dropped. -/
def erasedFrom (corePath : String) (inUse : List String) : Stmt → List ImportSpecifier
  | .importDecl d => erased corePath inUse d
  | _ => []

/-- One statement is pruned as described, and its dropped specifiers are counted. -/
theorem pruneStatement_isPrunedTo (corePath : String) (inUse : List String) (s : Stmt) :
    IsPrunedTo corePath inUse s (pruneStatement corePath inUse s).1 ∧
      (pruneStatement corePath inUse s).2 = (erasedFrom corePath inUse s).length := by
  cases s with
  | importDecl d =>
      cases has : d.specifiers.getD [] with
      | nil =>
          have none : ∀ s ∈ d.specifiers.getD [], ¬ IsErased corePath inUse d s := by simp [has]
          rw [pruneStatement_of_settled none]
          exact ⟨.bare has, by simp [erasedFrom, erased, has]⟩
      | cons first rest =>
          have specifiers : d.specifiers = some (first :: rest) := by
            cases eq : d.specifiers with
            | none => simp [eq] at has
            | some l => rw [← has, eq, Option.getD_some]
          rw [pruneStatement_importDecl]
          refine ⟨?_, rfl⟩
          cases emptied : isEmptied corePath inUse d with
          | true =>
              have all := (isEmptied_iff.mp emptied).2
              rw [has] at all
              exact .emptied specifiers (List.cons_ne_nil _ _) all
          | false =>
              have kept : ∃ s ∈ first :: rest, ¬ IsErased corePath inUse d s := by
                by_contra none
                push Not at none
                rw [isEmptied_iff.mpr ⟨by simp [has], by rwa [has]⟩] at emptied
                cases emptied
              rw [strip, specifiers]
              exact .left specifiers kept
  | _ => exact ⟨.other rfl, rfl⟩

/-- A statement that pruning has left has nothing more to drop. -/
theorem IsPrunedTo.settled {s : Stmt} {piece : List Stmt} (h : IsPrunedTo corePath inUse s piece) :
    ∀ t ∈ piece, pruneStatement corePath inUse t = ([t], 0) := by
  intro t mem
  cases h with
  | other noImport =>
      obtain rfl := List.mem_singleton.mp mem
      cases t <;> first | rfl | cases noImport
  | bare none =>
      obtain rfl := List.mem_singleton.mp mem
      exact pruneStatement_of_settled (by simp [none])
  | emptied has nonempty all => cases mem
  | left has kept =>
      obtain rfl := List.mem_singleton.mp mem
      exact pruneStatement_of_settled fun s left => of_decide_eq_true (List.mem_filter.mp left).2

/-! ### Two passes -/

/-- The first pass takes the specifiers that are dropped out of a statement. -/
def stripStatement (corePath : String) (inUse : List String) : Stmt → Stmt
  | .importDecl d => .importDecl (strip corePath inUse d)
  | s => s

/-- The places of the declarations that lost their last specifier. -/
def emptiedSpans (corePath : String) (inUse : List String) (body : List Stmt) : List Span :=
  ((imports body).filter (isEmptied corePath inUse)).map (·.span)

/-- Whether the second pass keeps a statement: it is no declaration at one of some places. -/
def isKept (emptied : List Span) : Stmt → Bool
  | .importDecl d => !emptied.contains d.span
  | _ => true

/-- Pruning in two passes: the specifiers go first, and then the declarations at the places where no
specifier was left. -/
def pruneInPasses (corePath : String) (body : List Stmt) : List Stmt × Nat :=
  let inUse := decoratorsInUse body
  ((body.map (stripStatement corePath inUse)).filter (isKept (emptiedSpans corePath inUse body)),
    (body.flatMap (erasedFrom corePath inUse)).length)

theorem mem_imports : d ∈ imports body ↔ .importDecl d ∈ body := by
  unfold imports
  rw [List.mem_filterMap]
  constructor
  · rintro ⟨s, mem, eq⟩
    cases s <;> cases eq
    exact mem
  · exact fun mem => ⟨_, mem, rfl⟩

/-- Where declarations have places of their own, the places tell which declarations are emptied. -/
theorem mem_emptiedSpans (distinct : ((imports body).map (·.span)).Nodup) (mem : .importDecl d ∈ body) :
    d.span ∈ emptiedSpans corePath inUse body ↔ isEmptied corePath inUse d = true := by
  unfold emptiedSpans
  constructor
  · intro found
    obtain ⟨other, there, same⟩ := List.mem_map.mp found
    obtain ⟨declared, emptied⟩ := List.mem_filter.mp there
    rwa [List.inj_on_of_nodup_map distinct declared (mem_imports.mpr mem) same] at emptied
  · exact fun emptied => List.mem_map_of_mem (List.mem_filter.mpr ⟨mem_imports.mpr mem, emptied⟩)

/-- Pruning in two passes is pruning statement by statement. -/
theorem pruneInPasses_eq (corePath : String) (distinct : ((imports body).map (·.span)).Nodup) :
    pruneInPasses corePath body = pruneImports corePath body := by
  unfold pruneInPasses pruneImports
  dsimp only
  generalize decoratorsInUse body = inUse
  refine Prod.ext ?_ ?_
  · have kept : ∀ s ∈ body,
        (Option.guard (isKept (emptiedSpans corePath inUse body))
          (stripStatement corePath inUse s)).toList = (pruneStatement corePath inUse s).1 := by
      intro s mem
      cases s with
      | importDecl d =>
          -- The second pass finds the declaration by its place, which the first has not changed.
          have found : d.span ∈ emptiedSpans corePath inUse body ↔ isEmptied corePath inUse d = true :=
            mem_emptiedSpans distinct mem
          have keeps : isKept (emptiedSpans corePath inUse body)
              (.importDecl (strip corePath inUse d)) = !isEmptied corePath inUse d := by
            exact congrArg (!·) (Bool.eq_iff_iff.mpr (List.contains_iff_mem.trans found))
          rw [pruneStatement_importDecl]
          show (Option.guard _ (Stmt.importDecl (strip corePath inUse d))).toList = _
          rw [Option.guard, keeps]
          cases isEmptied corePath inUse d <;> rfl
      | _ => rfl
    rw [← List.filterMap_eq_filter, List.filterMap_eq_flatMap_toList, List.flatMap_map,
      List.flatMap_map]
    exact List.flatMap_congr kept
  · have counted (s : Stmt) := (pruneStatement_isPrunedTo corePath inUse s).2
    clear distinct
    show (body.flatMap _).length = (body.map _).foldr _ 0
    induction body with
    | nil => rfl
    | cons s rest ih =>
        rw [List.flatMap_cons, List.length_append, ih, List.map_cons, List.foldr_cons, counted]

/-! ### Modules -/

/-- What pruning makes of the statements of a module, and the number that it gives. -/
structure IsPruned (corePath : String) (body result : List Stmt) (removed : Nat) : Prop where
  /-- Each statement is pruned by itself, and what is left keeps its order. -/
  pieces : ∃ pieces, List.Forall₂ (IsPrunedTo corePath (decoratorsInUse body)) body pieces ∧
    result = pieces.flatten
  /-- The number is that of the specifiers that are dropped. -/
  counted : removed = (body.flatMap (erasedFrom corePath (decoratorsInUse body))).length
  /-- Pruning what is left leaves it as it is. -/
  again : pruneImports corePath result = (result, 0)
  /-- The same comes out in two passes. -/
  passes : pruneInPasses corePath body = (result, removed)

theorem mem_pruneImports {t : Stmt} : t ∈ (pruneImports corePath body).1 ↔
    ∃ s ∈ body, t ∈ (pruneStatement corePath (decoratorsInUse body) s).1 := by
  unfold pruneImports
  dsimp only
  rw [List.flatMap_map]
  exact List.mem_flatMap

theorem pruneImports_pieces (corePath : String) (body : List Stmt) :
    ∃ pieces, List.Forall₂ (IsPrunedTo corePath (decoratorsInUse body)) body pieces ∧
      (pruneImports corePath body).1 = pieces.flatten := by
  unfold pruneImports
  dsimp only
  generalize decoratorsInUse body = inUse
  refine ⟨body.map fun s => (pruneStatement corePath inUse s).1, ?_, ?_⟩
  · exact List.forall₂_map_right_iff.mpr
      (List.forall₂_same.mpr fun s _ => (pruneStatement_isPrunedTo corePath inUse s).1)
  · rw [List.flatMap_map, List.flatMap_def]

/-- Pruning does not change which decorators are in use. -/
theorem decoratorsInUse_pruneImports (corePath : String) (body : List Stmt) :
    decoratorsInUse (pruneImports corePath body).1 = decoratorsInUse body := by
  show (classes _).flatMap _ = (classes _).flatMap _
  rw [classes_eq, classes_eq, flatMap_pruneImports fun _ => rfl]

/-- Statements that pruning leaves one by one are left together. -/
theorem pruneImports_of_settled
    (settled : ∀ s ∈ body, pruneStatement corePath (decoratorsInUse body) s = ([s], 0)) :
    pruneImports corePath body = (body, 0) := by
  unfold pruneImports
  dsimp only
  rw [List.map_congr_left settled]
  clear settled
  refine Prod.ext ?_ ?_
  · show (body.map _).flatMap _ = body
    rw [List.flatMap_map]
    exact List.flatMap_singleton' body
  · show (body.map _).foldr _ 0 = 0
    induction body with
    | nil => rfl
    | cons s rest ih => rw [List.map_cons, List.foldr_cons, ih]

/-- Pruning drops the specifiers that are described, and the declarations that they were all of, and
nothing else; and it is done after one time. -/
theorem pruneImports_isPruned (distinct : ((imports body).map (·.span)).Nodup) :
    IsPruned corePath body (pruneImports corePath body).1 (pruneImports corePath body).2 := by
  have passes := pruneInPasses_eq corePath distinct
  obtain ⟨pieces, pruned, result⟩ := pruneImports_pieces corePath body
  refine ⟨⟨pieces, pruned, result⟩, ?_, ?_, passes⟩
  · rw [← passes]
    rfl
  · refine pruneImports_of_settled fun t mem => ?_
    rw [decoratorsInUse_pruneImports]
    obtain ⟨s, -, left⟩ := mem_pruneImports.mp mem
    exact (pruneStatement_isPrunedTo corePath _ s).1.settled t left

/-! ### A module with three imports -/

/-- A module that imports decorators from the core module under its two paths, among other names and
alone, with one of them in use. -/
def importing : String :=
  "import core, \x7b Component, Element as E \x7d from '@stencil/core';\n" ++
    "import \x7b AttachInternals \x7d from '@my/core';\nimport \x7b\x7d from '@my/core';\n" ++
    "class A \x7b @E() el; \x7d\n"

theorem importing_read :
    ∃ m, Module.read (.ofPath "a.ts") importing.toList = .ok m ∧
      (decide ((imports m.body).map (·.span)).Nodup &&
        (pruneImports "@my/core" m.body).2 == 2) = true :=
  exists_of_read (by decide +kernel)

/-- Two specifiers are dropped, so pruning is seen at work. -/
theorem importing_isPruned :
    ∃ m, Module.read (.ofPath "a.ts") importing.toList = .ok m ∧
      ((imports m.body).map (·.span)).Nodup ∧
      IsPruned "@my/core" m.body (pruneImports "@my/core" m.body).1 2 := by
  obtain ⟨m, read, holds⟩ := importing_read
  rw [Bool.and_eq_true, decide_eq_true_eq, beq_iff_eq] at holds
  have pruned : IsPruned "@my/core" m.body _ _ := pruneImports_isPruned holds.1
  rw [holds.2] at pruned
  exact ⟨m, read, holds.1, pruned⟩

end ComponentLowering.Lowering
