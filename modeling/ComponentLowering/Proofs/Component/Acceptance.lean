/-
# Which classes are components

Whether a class is a component, and with what tag, can be told from how its annotations are written: from
its name, from its first component decorator, and from the last tag that is given there.  Any other class
with a component decorator is refused.  What is given besides the tag can be wrong, which only leads to
warnings.
-/
import ComponentLowering.Proofs.Component.Remarks
import ComponentLowering.Proofs.Style.LastValues
import Mathlib.Data.List.DropRight

namespace ComponentLowering.Component

open ComponentLowering.Report ComponentLowering.Style ComponentLowering.Syntax
open ComponentLowering.Text

variable {source : List Char} {decl : ClassDef} {c : Component} {text tag : String} {e : Expr}

/-! ### Blanks around a text -/

/-- Whether a text is what is left of another one without the blanks at both ends. -/
structure TrimsTo (text trimmed : String) : Prop where
  around : ∃ before after, text.toList = before ++ trimmed.toList ++ after ∧
    (∀ c ∈ before, isBlank c = true) ∧ ∀ c ∈ after, isBlank c = true
  first : ∀ c ∈ trimmed.toList.head?, isBlank c = false
  last : ∀ c ∈ trimmed.toList.getLast?, isBlank c = false

theorem trimBlanks_eq (cs : List Char) :
    trimBlanks cs = (cs.dropWhile isBlank).rdropWhile isBlank := rfl

theorem trimsTo_trim (text : String) : TrimsTo text (trim text) := by
  have inner : (trim text).toList = (text.toList.dropWhile isBlank).rdropWhile isBlank := by
    rw [trim, String.toList_ofList, trimBlanks_eq]
  refine ⟨⟨text.toList.takeWhile isBlank, (text.toList.dropWhile isBlank).rtakeWhile isBlank, ?_,
    fun c mem => List.mem_takeWhile_imp mem, fun c mem => List.mem_rtakeWhile_imp mem⟩, ?_, ?_⟩
  · rw [inner, List.append_assoc, List.rdropWhile_append_rtakeWhile, List.takeWhile_append_dropWhile]
  · intro c first
    obtain ⟨rest, eq⟩ := List.rdropWhile_prefix isBlank (l := text.toList.dropWhile isBlank)
    have stops := List.head?_dropWhile_not isBlank text.toList
    rw [← eq, List.head?_append, ← inner, Option.mem_def.mp first] at stops
    exact stops
  · intro c last
    rw [inner] at last
    obtain ⟨some, rfl⟩ := List.mem_getLast?_eq_getLast last
    simpa using List.rdropWhile_last_not isBlank _ some

/-- A text with a character that is no blank is not trimmed to nothing. -/
theorem TrimsTo.ne_empty (h : TrimsTo text tag) (solid : ∃ c ∈ text.toList, isBlank c = false) :
    tag ≠ "" := by
  obtain ⟨before, after, eq, blanks, blanks'⟩ := h.around
  obtain ⟨c, mem, solid⟩ := solid
  intro empty
  rw [eq, empty, List.append_assoc] at mem
  obtain mem | mem := List.mem_append.mp mem
  · rw [blanks c mem] at solid
    cases solid
  · rw [blanks' c (by simpa using mem)] at solid
    cases solid

theorem isBlankText_eq_false_iff :
    isBlankText text = false ↔ ∃ c ∈ text.toList, isBlank c = false := by
  simp [isBlankText]

/-! ### Annotated classes -/

/-- A decorator that is written as a name or as the call of a name. -/
inductive IsNamed (name : String) : Expr → Prop
  | bare {span : Span} : IsNamed name (.ident span name)
  | called {span place : Span} {typeArgs : List TypeNode} {args : List Expr}
      {optional isPure : Bool} :
      IsNamed name (.call span (.ident place name) typeArgs args optional isPure)

theorem decoratorName_eq_some_iff {d : Decorator} {name : String} :
    decoratorName d = some name ↔ IsNamed name d.expr := by
  obtain ⟨span, expr⟩ := d
  refine ⟨fun h => ?_, fun h => ?_⟩
  · rw [decoratorName] at h
    split at h
    · rename_i called
      cases h
      rw [called]
      exact .called
    · rename_i bare
      cases h
      rw [bare]
      exact .bare
    · cases h
  · cases h <;> rfl

theorem isComponentDecorator_iff {d : Decorator} :
    isComponentDecorator d = true ↔ IsNamed componentDecorator d.expr := by
  rw [isComponentDecorator, beq_iff_eq, decoratorName_eq_some_iff]

theorem isComponentDecorator_eq_false_iff {d : Decorator} :
    isComponentDecorator d = false ↔ ¬ IsNamed componentDecorator d.expr := by
  rw [← isComponentDecorator_iff, Bool.not_eq_true]

/-- Whether a class claims to be a component. -/
def ClaimsComponent (decl : ClassDef) : Prop :=
  ∃ d ∈ decl.decorators, IsNamed componentDecorator d.expr

/-- Whether an expression is that of the first component decorator of a class. -/
def IsFirstClaim (decl : ClassDef) (e : Expr) : Prop :=
  ∃ before d after, decl.decorators = before ++ d :: after ∧ d.expr = e ∧
    IsNamed componentDecorator e ∧ ∀ b ∈ before, ¬ IsNamed componentDecorator b.expr

/-- Whether the first component decorator of a class is called with an object literal, which has the given
entries. -/
def IsConfiguredBy (decl : ClassDef) (entries : List (String × Expr)) : Prop :=
  ∃ e, IsFirstClaim decl e ∧ IsConfiguredCall e entries

/-- Whether a class declares a component with a tag: it has a name, and the last tag that its configuration
gives is a text with a character that is no blank. -/
structure DeclaresTag (decl : ClassDef) (text : String) : Prop where
  named : decl.name ≠ none
  last : ∃ entries e, IsConfiguredBy decl entries ∧ IsLast entries "tag" e ∧ IsText e text
  solid : ∃ c ∈ text.toList, isBlank c = false

theorem isFirstClaim_iff :
    IsFirstClaim decl e ↔ ∃ d, decl.decorators.find? isComponentDecorator = some d ∧ d.expr = e := by
  simp only [List.find?_eq_some_iff_append, Bool.not_eq_true', isComponentDecorator_iff,
    isComponentDecorator_eq_false_iff]
  refine ⟨fun h => ?_, fun h => ?_⟩
  · obtain ⟨before, d, after, eq, rfl, claim, others⟩ := h
    exact ⟨d, ⟨claim, before, after, eq, others⟩, rfl⟩
  · obtain ⟨d, ⟨claim, before, after, eq, others⟩, rfl⟩ := h
    exact ⟨before, d, after, eq, rfl, claim, others⟩

theorem readClass_eq_plain_iff_not_claims : readClass source decl = .plain ↔ ¬ ClaimsComponent decl := by
  rw [readClass_eq_plain_iff]
  simp only [isComponentDecorator_eq_false_iff, ClaimsComponent, not_exists, not_and]

/-! ### Components -/

theorem exists_isConfiguredBy (h : readClass source decl = .component c) :
    ∃ entries, IsConfiguredBy decl entries := by
  obtain ⟨d, name, first, -, read⟩ := readClass_eq_component_iff.mp h
  obtain ⟨config, configured, -⟩ := readNamed_ok read
  obtain ⟨entries, call, -⟩ := configuration_eq_ok_iff.mp configured
  exact ⟨entries, d.expr, isFirstClaim_iff.mpr ⟨d, first, rfl⟩, call⟩

/-- A component is built from the entries of its configuration. -/
theorem isBuiltFrom_of_component {entries : List (String × Expr)}
    (h : readClass source decl = .component c) (configured : IsConfiguredBy decl entries) :
    IsBuiltFrom source c.className decl (ofPairs entries) c := by
  obtain ⟨d, name, first, -, read⟩ := readClass_eq_component_iff.mp h
  obtain ⟨config, given, built⟩ := readNamed_ok read
  obtain ⟨e, claim, call⟩ := configured
  obtain ⟨d', first', rfl⟩ := isFirstClaim_iff.mp claim
  obtain rfl := Option.some.inj (first.symm.trans first')
  rw [configuration_eq_ok_iff.mpr ⟨entries, call, rfl⟩] at given
  cases given
  rw [built.name]
  exact built

theorem declaresTag_of_component (h : readClass source decl = .component c) :
    ∃ text, DeclaresTag decl text := by
  obtain ⟨entries, configured⟩ := exists_isConfiguredBy h
  have built := isBuiltFrom_of_component h configured
  obtain ⟨e, text, found, isText, solid, -⟩ := readTag_eq_ok_iff.mp built.tag
  refine ⟨text, fun unnamed => ?_, ⟨entries, e, configured, ?_, isText⟩, ?_⟩
  · have named := (isReadAs_of_component h).name
    rw [unnamed] at named
    cases named
  · exact lookup_ofPairs_eq_some_iff.mp found
  · exact isBlankText_eq_false_iff.mp solid

theorem exists_component_of_declaresTag (h : DeclaresTag decl text) :
    ∃ c, readClass source decl = .component c ∧ c.tag = trim text := by
  obtain ⟨named, ⟨entries, e, ⟨call, claim, configured⟩, last, isText⟩, solid⟩ := h
  obtain ⟨d, first, rfl⟩ := isFirstClaim_iff.mp claim
  obtain ⟨name, named⟩ := Option.ne_none_iff_exists'.mp named
  have config : configuration source name.name d.expr = .ok (ofPairs entries) :=
    configuration_eq_ok_iff.mpr ⟨entries, configured, rfl⟩
  have tag : readTag source name.name (ofPairs entries) = .ok (trim text) :=
    readTag_eq_ok_iff.mpr ⟨e, text, lookup_ofPairs_eq_some_iff.mpr last, isText,
      isBlankText_eq_false_iff.mpr solid, rfl⟩
  obtain ⟨c, read, eq⟩ := exists_readNamed config tag
  exact ⟨c, readClass_eq_component_iff.mpr ⟨d, name, first, named, read⟩, eq⟩

/-- A class without a component decorator is left alone.  One with a component decorator is a component
exactly if it declares a tag: then the tag is the declared one without blanks around it, and there are only
warnings.  Otherwise it is refused with one error, which carries its name. -/
theorem readClass_accepts (source : List Char) (decl : ClassDef) :
    (readClass source decl = .plain ↔ ¬ ClaimsComponent decl) ∧
      ((∃ c, readClass source decl = .component c) ↔ ∃ text, DeclaresTag decl text) ∧
      (∀ c, readClass source decl = .component c → OnlyWarns c.className c.warnings ∧
        ∀ text, DeclaresTag decl text → TrimsTo text c.tag ∧ c.tag ≠ "") ∧
      (ClaimsComponent decl → (¬ ∃ text, DeclaresTag decl text) →
        ∃ d, readClass source decl = .skipped d ∧ Refuses (decl.name.map (·.name)) d) := by
  refine ⟨readClass_eq_plain_iff_not_claims, ⟨?_, ?_⟩, ?_, ?_⟩
  · intro ⟨c, read⟩
    exact declaresTag_of_component read
  · intro ⟨text, declares⟩
    obtain ⟨c, read, -⟩ := exists_component_of_declaresTag declares
    exact ⟨c, read⟩
  · intro c read
    refine ⟨onlyWarns_of_component read, fun text declares => ?_⟩
    obtain ⟨c', read', eq⟩ := exists_component_of_declaresTag declares
    obtain rfl := ClassReading.component.inj (read.symm.trans read')
    rw [eq]
    exact ⟨trimsTo_trim text, (trimsTo_trim text).ne_empty declares.solid⟩
  · intro claims none
    cases read : readClass source decl with
    | plain => exact absurd claims (readClass_eq_plain_iff_not_claims.mp read)
    | component c =>
        exact absurd (declaresTag_of_component read) none
    | skipped d => exact ⟨d, rfl, refuses_of_skipped read⟩

/-! ### Two classes with component decorators -/

/-- The arguments `({ tag: null, 'tag': ' my-cmp ' }, this)`: the first tag is no text, the second one
has blanks around it. -/
def retagged : List Expr :=
  [.object .detached
    [.property .detached (.name .detached "tag") (.null .detached) false,
      .property .detached (.string .detached (.ofString "tag"))
        (.template .detached [⟨.detached, " my-cmp ", some " my-cmp "⟩] []) false],
    .this .detached]

/-- A class with three decorators, the second of which is called with a configuration and the third of which
is not called. -/
def marked (name : Option Ident) (named : (name.all fun n => isBindingName n.name) = true) : ClassDef where
  span := .detached
  decorators :=
    [⟨.detached, .ident .detached "Injectable"⟩,
      ⟨.detached, .call .detached (.ident .detached "Component") [] retagged false false⟩,
      ⟨.detached, .ident .detached "Component"⟩]
  declared := false
  isAbstract := false
  name := name
  typeParams := []
  superClass := none
  superTypeArgs := []
  interfaces := []
  members := []
  named := named

theorem marked_declaresTag : DeclaresTag (marked (some ⟨.detached, "A"⟩) rfl) " my-cmp " where
  named := nofun
  last := by
    refine ⟨_, _, ⟨_, ⟨[_], _, [_], rfl, rfl, .called, ?_⟩, _, _, .call ?_, .object (.cons
      (.property (.name _)) (.cons (.property (.string _)) .nil))⟩, ⟨[_], [], rfl, List.not_mem_nil⟩,
      .template rfl⟩
    · intro b mem
      rw [List.mem_singleton.mp mem]
      exact isComponentDecorator_eq_false_iff.mp rfl
    · intro e mem spread
      cases spread
      simp [retagged] at mem
  solid := ⟨'m', by decide, by decide⟩

/-- With a name the class is a component with the second tag; without one it is refused. -/
theorem marked_accepts :
    (∃ c, readClass [] (marked (some ⟨.detached, "A"⟩) rfl) = .component c ∧
      OnlyWarns c.className c.warnings ∧ TrimsTo " my-cmp " c.tag ∧ c.tag ≠ "") ∧
    (∃ d, readClass [] (marked none rfl) = .skipped d ∧ Refuses none d) := by
  obtain ⟨-, accepts, describes, -⟩ := readClass_accepts [] (marked (some ⟨.detached, "A"⟩) rfl)
  obtain ⟨-, -, -, refuses⟩ := readClass_accepts [] (marked none rfl)
  obtain ⟨c, read⟩ := accepts.mpr ⟨_, marked_declaresTag⟩
  obtain ⟨warns, tag⟩ := describes c read
  refine ⟨⟨c, read, warns, tag _ marked_declaresTag⟩, refuses ?_ ?_⟩
  · exact ⟨_, .tail _ (.head _), .called⟩
  · intro ⟨text, declares⟩
    exact declares.named rfl

end ComponentLowering.Component
