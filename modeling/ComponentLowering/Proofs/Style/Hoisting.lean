/-
# Hoisting the sheets of a class

Each sheet that is hoisted for the first time is added to the ledger, and the statement that binds
it to the statements of the module.  The two lists stay in step.
-/
import ComponentLowering.Proofs.Style.SheetNames
import ComponentLowering.Style.Plan
import Mathlib.Logic.Relation

namespace ComponentLowering.Style

open ComponentLowering.Settings ComponentLowering.Syntax

/-- Whether the names of all sheets can be bound. -/
def Ledger.IsNamed (l : Ledger) : Prop := ∀ s ∈ l.sheets, IsSheetName s.name

/-- The statements that bind some sheets, as texts. -/
def importTexts (convention : Convention) (sheets : List Sheet) : List String :=
  sheets.map fun s => importStatement convention s.name s.path

@[simp]
theorem importTexts_append (convention : Convention) (sheets more : List Sheet) :
    importTexts convention (sheets ++ more) =
      importTexts convention sheets ++ importTexts convention more := List.map_append

/-- Whether a ledger is the one behind a single hoist for a class whose name is a word. -/
def Ledger.HoistsTo (l l' : Ledger) : Prop :=
  ∃ className key path, isWordText className = true ∧ l' = (l.hoist className key path).2

/-- What hoisting does: one hoist after the other adds sheets to a ledger, and those are bound. -/
structure Hoists (convention : Convention) (l l' : Ledger) (imports : List String) : Prop where
  named : l'.IsNamed
  added : ∃ added, l'.sheets = l.sheets ++ added ∧ imports = importTexts convention added
  reached : Relation.ReflTransGen Ledger.HoistsTo l l'

namespace Hoists

variable {convention : Convention} {l l' l'' : Ledger} {imports imports' : List String}

theorem refl (named : l.IsNamed) : Hoists convention l l [] :=
  ⟨named, ⟨[], by simp, rfl⟩, .refl⟩

theorem trans (first : Hoists convention l l' imports) (second : Hoists convention l' l'' imports') :
    Hoists convention l l'' (imports ++ imports') := by
  obtain ⟨added, eq, rfl⟩ := first.added
  obtain ⟨more, eq', rfl⟩ := second.added
  exact ⟨second.named, ⟨added ++ more, by rw [eq', eq, List.append_assoc], by simp⟩,
    first.reached.trans second.reached⟩

end Hoists

/-- One sheet: it is known, or it is added and has to be bound. -/
theorem Ledger.IsNamed.hoist {l : Ledger} (named : l.IsNamed) {className : String}
    (word : isWordText className = true) (convention : Convention) (key : Option String)
    (path : String) :
    Hoists convention l (l.hoist className key path).2
      (if (l.hoist className key path).1.isNew then
        [importStatement convention (l.hoist className key path).1.name path] else []) ∧
    IsSheetName (l.hoist className key path).1.name := by
  have once : Relation.ReflTransGen Ledger.HoistsTo l (l.hoist className key path).2 :=
    .single ⟨className, key, path, word, rfl⟩
  unfold Ledger.hoist at once ⊢
  split
  · rename_i known found
    exact ⟨.refl named, named known (List.mem_of_find?_eq_some found)⟩
  · rename_i found
    have fresh := isSheetName_freshName l.taken (isSheetName_candidate word key path)
    rw [found] at once
    refine ⟨⟨?_, ⟨_, rfl, rfl⟩, once⟩, fresh⟩
    intro s hs
    rcases List.mem_append.mp hs with old | new
    · exact named s old
    · rw [List.mem_singleton.mp new]
      exact fresh

/-- A sheet that is hoisted is in the ledger, under the name that is given for it. -/
theorem Ledger.exists_sheet_hoist (l : Ledger) (className : String) (key : Option String) (path : String) :
    ∃ s ∈ (l.hoist className key path).2.sheets,
      s.path = path ∧ s.name = (l.hoist className key path).1.name := by
  unfold Ledger.hoist
  split
  · rename_i known found
    have held := List.find?_some found
    rw [Ledger.holds, Bool.and_eq_true, beq_iff_eq, beq_iff_eq] at held
    exact ⟨known, List.mem_of_find?_eq_some found, held.2, rfl⟩
  · exact ⟨_, List.mem_append_right _ List.mem_cons_self, rfl, rfl⟩

/-- All sheets of a class. -/
theorem Ledger.IsNamed.hoistAll {l : Ledger} (named : l.IsNamed) {className : String}
    (word : isWordText className = true) (convention : Convention) (entries : List Entry) :
    Hoists convention l (Style.hoistAll convention className entries l).2.2
      (Style.hoistAll convention className entries l).1 ∧
    (∀ b ∈ (Style.hoistAll convention className entries l).2.1, IsSheetName b.name) ∧
    (Style.hoistAll convention className entries l).2.1.map (·.key) = entries.map (·.key) := by
  induction entries generalizing l with
  | nil => exact ⟨.refl named, by simp [Style.hoistAll], rfl⟩
  | cons e entries ih =>
      obtain ⟨here, name⟩ := named.hoist word convention e.key e.path
      obtain ⟨later, names, keys⟩ := ih here.named
      have all := here.trans later
      simp only [Style.hoistAll, List.map_cons, List.forall_mem_cons]
      refine ⟨?_, ⟨name, names⟩, by rw [keys]⟩
      split at all <;> simpa [*] using all

/-- Whether bindings give each of some entries the name of a sheet at its path. -/
def BindsEntries (entries : List Entry) (sheets : List Sheet) (bindings : List Binding) : Prop :=
  ∀ e ∈ entries, ∃ s ∈ sheets, s.path = e.path ∧ ⟨e.key, s.name⟩ ∈ bindings

theorem BindsEntries.mono {entries : List Entry} {sheets more : List Sheet} {bindings : List Binding}
    (binds : BindsEntries entries sheets bindings) (sub : sheets ⊆ more) :
    BindsEntries entries more bindings := by
  intro e mem
  obtain ⟨s, here, rest⟩ := binds e mem
  exact ⟨s, sub here, rest⟩

theorem Hoists.subset {convention : Convention} {l l' : Ledger} {imports : List String}
    (hoists : Hoists convention l l' imports) : l.sheets ⊆ l'.sheets := by
  obtain ⟨added, eq, -⟩ := hoists.added
  rw [eq]
  exact List.subset_append_left _ _

/-- The bindings of a class name the sheets at the paths that it refers to. -/
theorem Ledger.IsNamed.bindsEntries_hoistAll {l : Ledger} (named : l.IsNamed) {className : String}
    (word : isWordText className = true) (convention : Convention) (entries : List Entry) :
    BindsEntries entries (Style.hoistAll convention className entries l).2.2.sheets
      (Style.hoistAll convention className entries l).2.1 := by
  induction entries generalizing l with
  | nil => exact fun e mem => absurd mem List.not_mem_nil
  | cons first rest ih =>
      obtain ⟨here, -⟩ := named.hoist word convention first.key first.path
      obtain ⟨later, -⟩ := here.named.hoistAll word convention rest
      intro e mem
      rcases List.mem_cons.mp mem with rfl | inRest
      · obtain ⟨s, added, path, name⟩ := l.exists_sheet_hoist className e.key e.path
        exact ⟨s, later.subset added, path, name ▸ List.mem_cons_self⟩
      · obtain ⟨s, known, path, bound⟩ := ih here.named e inRest
        exact ⟨s, known, path, List.mem_cons_of_mem _ bound⟩

end ComponentLowering.Style
