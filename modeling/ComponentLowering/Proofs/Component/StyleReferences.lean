/-
# Style sheets of a component

What an annotation says about style sheets is kept, or a remark says what is left out.  A list loses the
elements that are no paths, each with a remark of its own, and a mapping loses entries with remarks that name
their keys.  Where nothing is kept, nothing was given or a remark says so.
-/
import ComponentLowering.Proofs.Component.Acceptance
import ComponentLowering.Proofs.Component.StyleMappings

namespace ComponentLowering.Component

open ComponentLowering.Report ComponentLowering.Style ComponentLowering.Syntax
open ComponentLowering.Text

variable {source : List Char} {className key : String} {decl : ClassDef} {c : Component}
variable {node e : Expr} {d : Diagnostic} {config entries : List (String × Expr)}

/-! ### Remarks about a field -/

/-- Whether a remark is about what a configuration says under a name: it begins with that name, which can go
on. -/
def isAbout (field : String) (d : Diagnostic) : Bool :=
  ("`" ++ field).toList.isPrefixOf d.message.toList

/-- The remarks of a component about its style sheets. -/
def styleRemarks (c : Component) : List Diagnostic := c.warnings.filter (isAbout "styleUrl")

/-- Whether a remark is about a key of the mapping of style sheets. -/
def NamesKey (key : String) (d : Diagnostic) : Prop :=
  ∃ rest, d.message = "`styleUrls` key `" ++ key ++ "`" ++ rest ∨
    d.message = "`styleUrls." ++ key ++ "`" ++ rest

@[simp]
theorem isAbout_warn (field : String) (code : DiagnosticCode) (message : String) :
    isAbout field (warn className code message) = ("`" ++ field).toList.isPrefixOf message.toList := rfl

theorem isAbout_styleUrl (h : isAbout "styleUrls" d = true) : isAbout "styleUrl" d = true := by
  unfold isAbout at h ⊢
  rw [List.isPrefixOf_iff_prefix] at h ⊢
  exact List.IsPrefix.trans (by decide) h

theorem NamesKey.isAbout (h : NamesKey key d) : isAbout "styleUrls" d = true := by
  obtain ⟨rest, eq | eq⟩ := h
  · simp [Component.isAbout, eq, List.isPrefixOf]
  · simp [Component.isAbout, eq, List.isPrefixOf]

theorem not_isAbout_formAssociated (mem : d ∈ (readFormAssociated source className config).warnings) :
    isAbout "styleUrl" d = false := by
  unfold readFormAssociated at mem
  split at mem
  · cases mem
  · split at mem
    · cases mem
    · rw [List.mem_singleton.mp mem]
      simp [List.isPrefixOf]

theorem not_isAbout_members {members : List Member}
    (mem : d ∈ (readMembers className members).warnings) : isAbout "styleUrl" d = false := by
  rw [readMembers_eq] at mem
  obtain ⟨f, -, mem⟩ := List.mem_flatMap.mp mem
  unfold fieldRecord readField at mem
  split at mem
  · cases mem
  · dsimp only at mem
    split at mem
    · cases mem
    · split at mem
      · cases mem
      · rw [List.mem_singleton.mp mem]
        simp [List.isPrefixOf]

theorem not_isAbout_internals {forms : Bool} {members : List AnnotatedMember}
    (mem : d ∈ internalsWarning className forms members) : isAbout "styleUrl" d = false := by
  unfold internalsWarning at mem
  split at mem
  · rw [List.mem_singleton.mp mem]
    simp [List.isPrefixOf]
  · cases mem

/-- The remarks about style sheets are those that come up when the style sheets are read. -/
theorem IsBuiltFrom.styleRemarks (built : IsBuiltFrom source className decl config c)
    (about : ∀ d ∈ (styleRefs source className config).warnings, isAbout "styleUrl" d = true) :
    styleRemarks c = (styleRefs source className config).warnings := by
  rw [Component.styleRemarks, built.warnings]
  simp only [List.filter_append]
  rw [List.filter_eq_nil_iff.mpr fun d mem => by simp [not_isAbout_formAssociated mem],
    List.filter_eq_self.mpr about,
    List.filter_eq_nil_iff.mpr fun d mem => by simp [not_isAbout_members mem],
    List.filter_eq_nil_iff.mpr fun d mem => by simp [not_isAbout_internals mem]]
  simp

/-! ### Lists of style sheets -/

/-- The paths among some elements, and the other elements, both in order. -/
inductive SplitsInto : List Expr → List String → List Expr → Prop
  | nil : SplitsInto [] [] []
  | path {e : Expr} {path : String} {elements others : List Expr} {paths : List String}
      (isText : IsText e path) (rest : SplitsInto elements paths others) :
      SplitsInto (e :: elements) (path :: paths) others
  | other {e : Expr} {elements others : List Expr} {paths : List String}
      (none : ∀ text, ¬ IsText e text) (rest : SplitsInto elements paths others) :
      SplitsInto (e :: elements) paths (e :: others)

/-- The warning about an element of a list that is no path. -/
def skippedElement (source : List Char) (className : String) (e : Expr) : Diagnostic :=
  warn className .valueNotLiteral
    ("`styleUrls` entry `" ++ shown source e ++ "` is not a string literal; skipping it")

theorem isAbout_skippedElement : isAbout "styleUrls" (skippedElement source className e) = true := by
  simp [skippedElement, List.isPrefixOf]

theorem exists_splitsInto (source : List Char) (className : String) (elements : List Expr) :
    ∃ paths others, SplitsInto elements paths others ∧
      stylePaths source className elements = ⟨paths, others.map (skippedElement source className)⟩ := by
  induction elements with
  | nil => exact ⟨[], [], .nil, rfl⟩
  | cons e rest ih =>
      obtain ⟨paths, others, splits, eq⟩ := ih
      cases read : Literal.string e with
      | ok path =>
          refine ⟨path :: paths, others, .path (string_eq_ok_iff.mp read) splits, ?_⟩
          simp only [stylePaths, eq, read]
      | error fault =>
          refine ⟨paths, e :: others, .other (string_eq_error read) splits, ?_⟩
          simp only [stylePaths, eq, read]
          rfl

/-! ### Keys that are lost -/

theorem entryWarnings_append {seen : List String} {before rest : List (String × Expr)} :
    entryWarnings source className seen (before ++ rest) =
      entryWarnings source className seen before ++
        entryWarnings source className ((before.map (·.1)).reverse ++ seen) rest := by
  induction before generalizing seen with
  | nil => rfl
  | cons entry more ih =>
      obtain ⟨key, value⟩ := entry
      rw [List.cons_append, entryWarnings, entryWarnings, ih, List.map_cons, List.reverse_cons]
      simp only [List.append_assoc, List.singleton_append]

theorem namesKey_of_mem_repeatedKey {seen : List String} (mem : d ∈ repeatedKey className seen key) :
    NamesKey key d := by
  unfold repeatedKey at mem
  split at mem
  · refine ⟨" is declared more than once; the last one wins", .inl ?_⟩
    have closed : "` is declared more than once; the last one wins" =
        "`" ++ " is declared more than once; the last one wins" := by decide
    rw [List.mem_singleton.mp mem]
    simp only [warn, Diagnostic.warning, closed, String.append_assoc]
  · cases mem

theorem namesKey_of_mem_unreadValue (mem : d ∈ unreadValue source className key e) : NamesKey key d := by
  unfold unreadValue at mem
  split at mem
  · cases mem
  · refine ⟨" is not a string literal (`" ++ shown source e ++ "`); skipping it", .inr ?_⟩
    have closed : "` is not a string literal (`" = "`" ++ " is not a string literal (`" := by decide
    rw [List.mem_singleton.mp mem]
    simp only [warn, Diagnostic.warning, closed, String.append_assoc]

theorem exists_namesKey_of_mem {seen : List String}
    (mem : d ∈ entryWarnings source className seen entries) : ∃ key, NamesKey key d := by
  induction entries generalizing seen with
  | nil => cases mem
  | cons entry rest ih =>
      obtain ⟨key, value⟩ := entry
      simp only [entryWarnings, List.mem_append] at mem
      obtain (repeated | unread) | later := mem
      · exact ⟨key, namesKey_of_mem_repeatedKey repeated⟩
      · exact ⟨key, namesKey_of_mem_unreadValue unread⟩
      · exact ih later

/-- A remark about an entry comes up, whatever stands around the entry. -/
theorem mem_entryWarnings {before after : List (String × Expr)}
    (mem : d ∈ repeatedKey className ((before.map (·.1)).reverse ++ []) key ∨
      d ∈ unreadValue source className key e) :
    d ∈ entryWarnings source className [] (before ++ (key, e) :: after) := by
  rw [entryWarnings_append, entryWarnings]
  exact List.mem_append_right _ (List.mem_append_left _ (List.mem_append.mpr mem))

/-- A value that is no path is remarked on. -/
theorem exists_mem_unreadValue (source : List Char) (className key : String)
    (none : ∀ text, ¬ IsText e text) :
    ∃ d, d ∈ unreadValue source className key e := by
  unfold unreadValue
  cases read : Literal.string e with
  | ok text => exact absurd (string_eq_ok_iff.mp read) (none text)
  | error fault => exact ⟨_, List.mem_cons_self⟩

/-- A key that has been given before is remarked on. -/
theorem exists_mem_repeatedKey (className : String) {seen : List String} (mem : key ∈ seen) :
    ∃ d, d ∈ repeatedKey className seen key := by
  rw [repeatedKey, if_pos (List.contains_iff_mem.mpr mem)]
  exact ⟨_, List.mem_cons_self⟩

/-- An entry of a mapping is kept, or a remark names its key. -/
theorem isLastPath_or_namesKey (mem : (key, e) ∈ entries) :
    (∃ path, IsText e path ∧ IsLastPath entries key path) ∨
      ∃ d ∈ entryWarnings source className [] entries, NamesKey key d := by
  by_cases isPath : ∃ path, IsText e path
  · obtain ⟨path, isText⟩ := isPath
    obtain ⟨before, after, rfl⟩ := List.append_of_mem mem
    by_cases again : ∃ value, (key, value) ∈ after
    · obtain ⟨value, given⟩ := again
      obtain ⟨between, behind, rfl⟩ := List.append_of_mem given
      have seen : key ∈ ((before ++ (key, e) :: between).map (·.1)).reverse ++ [] := by simp
      obtain ⟨d, repeated⟩ := exists_mem_repeatedKey className seen
      rw [← List.cons_append, ← List.append_assoc]
      exact .inr ⟨d, mem_entryWarnings (.inl repeated), namesKey_of_mem_repeatedKey repeated⟩
    · refine .inl ⟨path, isText, before, e, after, rfl, isText, fun value given => ?_⟩
      exact absurd ⟨value, given⟩ again
  · obtain ⟨before, after, rfl⟩ := List.append_of_mem mem
    obtain ⟨d, unread⟩ := exists_mem_unreadValue source className key (not_exists.mp isPath)
    exact .inr ⟨d, mem_entryWarnings (.inr unread), namesKey_of_mem_unreadValue unread⟩

/-! ### Several style sheets -/

/-- Whether a value of `styleUrls` gives a style sheet: it is an array without spreads and holes, or an object
literal with plain keys, and a path stands in it. -/
inductive GivesSheet : Expr → Prop
  | element {span : Span} {elements : List Expr} {e : Expr} {path : String}
      (plain : ∀ e ∈ elements, ¬ IsSpread e ∧ ¬ IsHole e) (mem : e ∈ elements) (isText : IsText e path) :
      GivesSheet (.array span elements)
  | entry {node e : Expr} {entries : List (String × Expr)} {key path : String}
      (object : IsObjectOf node entries) (mem : (key, e) ∈ entries) (isText : IsText e path) :
      GivesSheet node

theorem givesSheet_array_iff {span : Span} {elements : List Expr}
    (plain : ∀ e ∈ elements, ¬ IsSpread e ∧ ¬ IsHole e) :
    GivesSheet (.array span elements) ↔ ∃ e ∈ elements, ∃ path, IsText e path := by
  refine ⟨fun gives => ?_, fun ⟨e, mem, path, isText⟩ => .element plain mem isText⟩
  cases gives with
  | element _ mem isText => exact ⟨_, mem, _, isText⟩
  | entry object => cases object

theorem givesSheet_object_iff (object : IsObjectOf node entries) :
    GivesSheet node ↔ ∃ key e, (key, e) ∈ entries ∧ ∃ path, IsText e path := by
  refine ⟨fun gives => ?_, fun ⟨key, e, mem, path, isText⟩ => .entry object mem isText⟩
  cases gives with
  | element => cases object
  | entry object' mem isText =>
      rw [← entries_eq_ok_iff] at object object'
      obtain rfl := Except.ok.inj (object'.symm.trans object)
      exact ⟨_, _, mem, _, isText⟩

theorem not_givesSheet (array : ∀ elements, Literal.array node ≠ .ok elements)
    (object : ¬ ∃ entries, IsObjectOf node entries) : ¬ GivesSheet node := by
  intro gives
  cases gives with
  | element plain => exact array _ (array_eq_ok_iff.mpr ⟨⟨_, rfl⟩, plain⟩)
  | entry given => exact object ⟨_, given⟩

/-- What a value of `styleUrls` is read as: a list, a mapping, or nothing but a remark. -/
inductive ReadsSheets (source : List Char) (className : String) : Expr → Warned (Option Refs) → Prop
  | sequence {span : Span} {elements others : List Expr} {paths : List String}
      (plain : ∀ e ∈ elements, ¬ IsSpread e ∧ ¬ IsHole e) (splits : SplitsInto elements paths others) :
      ReadsSheets source className (.array span elements)
        ⟨some (.sequence paths), others.map (skippedElement source className)⟩
  | mapping {node : Expr} {entries : List (String × Expr)} (object : IsObjectOf node entries) :
      ReadsSheets source className node
        ⟨some (.mapping (ofPairs (pathEntries entries))), entryWarnings source className [] entries⟩
  | unread {node : Expr} {d : Diagnostic} (without : ¬ GivesSheet node)
      (about : isAbout "styleUrls" d = true) : ReadsSheets source className node ⟨none, [d]⟩

theorem readsSheets_styleUrls (source : List Char) (className : String) (node : Expr) :
    ReadsSheets source className node (styleUrls source className node) := by
  have about (code : DiagnosticCode) (message : String) :
      isAbout "styleUrls" (warn className code ("`styleUrls`: " ++ message)) = true := by
    simp [List.isPrefixOf]
  by_cases object : ∃ entries, IsObjectOf node entries
  · obtain ⟨entries, object⟩ := object
    rw [styleUrls_object object]
    exact .mapping object
  · unfold styleUrls
    dsimp only
    split
    · split
      · rename_i fault read
        refine .unread (not_givesSheet (fun elements eq => ?_) object) (about _ _)
        rw [read] at eq
        cases eq
      · rename_i elements read
        obtain ⟨⟨span, rfl⟩, plain⟩ := array_eq_ok_iff.mp read
        obtain ⟨paths, others, splits, eq⟩ := exists_splitsInto source className elements
        rw [eq]
        exact .sequence plain splits
    · rename_i other
      have without : ¬ GivesSheet node := by
        refine not_givesSheet (fun elements eq => ?_) object
        obtain ⟨⟨span, rfl⟩, -⟩ := array_eq_ok_iff.mp eq
        exact other rfl
      split
      · split
        · exact .unread without (about _ _)
        · rename_i entries read
          exact absurd ⟨entries, entries_eq_ok_iff.mp read⟩ object
      · refine .unread without ?_
        simp [List.isPrefixOf]

theorem ReadsSheets.about {refs : Warned (Option Refs)} (h : ReadsSheets source className node refs) :
    ∀ d ∈ refs.warnings, isAbout "styleUrls" d = true := by
  intro d mem
  cases h with
  | sequence plain splits =>
      obtain ⟨e, -, rfl⟩ := List.mem_map.mp mem
      exact isAbout_skippedElement
  | mapping object =>
      obtain ⟨key, names⟩ := exists_namesKey_of_mem mem
      exact names.isAbout
  | unread without about =>
      rw [List.mem_singleton.mp mem]
      exact about

/-- An array or object literal in which nothing stands. -/
inductive IsEmptyLiteral : Expr → Prop
  | array {span : Span} : IsEmptyLiteral (.array span [])
  | object {span : Span} : IsEmptyLiteral (.object span [])

/-- The style sheets of a component with a value of `styleUrls`, and the remarks about them.  There are style
sheets if the value gives one.  A list has the paths among the elements of an array, and every other element
has its own remark.  A mapping has pairs of an object literal, and every entry that it does not have is
remarked on under its key. -/
structure KeepsSheets (source : List Char) (className : String) (node : Expr) (styles : Option Refs)
    (remarks : List Diagnostic) : Prop where
  gives : styles ≠ none ↔ GivesSheet node
  sequence : ∀ paths, styles = some (.sequence paths) → ∃ span elements others,
    node = .array span elements ∧ SplitsInto elements paths others ∧
      remarks = others.map (skippedElement source className)
  mapping : ∀ pairs, styles = some (.mapping pairs) → ∃ entries, IsObjectOf node entries ∧
    (∀ key path, (key, path) ∈ pairs → ∃ e, (key, e) ∈ entries ∧ IsText e path) ∧
    ∀ key e, (key, e) ∈ entries →
      (∃ path, IsText e path ∧ (key, path) ∈ pairs) ∨ ∃ d ∈ remarks, NamesKey key d
  lost : styles = none → IsEmptyLiteral node ∨ ∃ d ∈ remarks, isAbout "styleUrls" d = true

theorem SplitsInto.others_eq {elements others : List Expr} (h : SplitsInto elements [] others) :
    others = elements := by
  induction elements generalizing others with
  | nil =>
      cases h
      rfl
  | cons e rest ih =>
      cases h with
      | other none more => rw [ih more]

theorem SplitsInto.ne_nil_iff {elements others : List Expr} {paths : List String}
    (h : SplitsInto elements paths others) : paths ≠ [] ↔ ∃ e ∈ elements, ∃ path, IsText e path := by
  induction h with
  | nil => simp
  | path isText rest ih => exact iff_of_true nofun ⟨_, List.mem_cons_self, _, isText⟩
  | other none rest ih => simp [ih, none]

theorem ofPairs_pathEntries_ne_nil_iff :
    ofPairs (pathEntries entries) ≠ [] ↔ ∃ key e, (key, e) ∈ entries ∧ ∃ path, IsText e path := by
  refine ⟨fun some => ?_, fun ⟨key, e, mem, path, isText⟩ => ?_⟩
  · obtain ⟨⟨key, path⟩, mem⟩ := List.exists_mem_of_ne_nil _ some
    obtain ⟨e, given, isText⟩ := (mem_ofPairs_pathEntries.mp mem).exists_mem
    exact ⟨key, e, given, path, isText⟩
  · obtain ⟨last, isLastPath⟩ := exists_isLastPath mem isText
    exact List.ne_nil_of_mem (mem_ofPairs_pathEntries.mpr isLastPath)

/-- Style sheets are left out only if there are none. -/
theorem filter_refs_ne_none_iff {refs : Refs} :
    (some refs).filter (!·.isEmpty) ≠ none ↔ refs.isEmpty = false := by
  cases empty : refs.isEmpty <;> simp [Option.filter, empty]

theorem keepsSheets_sequence {span : Span} {elements others : List Expr} {paths : List String}
    (plain : ∀ e ∈ elements, ¬ IsSpread e ∧ ¬ IsHole e) (splits : SplitsInto elements paths others) :
    KeepsSheets source className (.array span elements)
      ((some (.sequence paths)).filter (!·.isEmpty)) (others.map (skippedElement source className)) := by
  refine ⟨?_, fun paths' eq => ?_, fun pairs eq => ?_, fun eq => ?_⟩
  · rw [filter_refs_ne_none_iff, givesSheet_array_iff plain, ← splits.ne_nil_iff]
    simp [Refs.isEmpty]
  · obtain ⟨⟨⟩, -⟩ := Option.filter_eq_some_iff.mp eq
    exact ⟨span, elements, others, rfl, splits, rfl⟩
  · obtain ⟨⟨⟩, -⟩ := Option.filter_eq_some_iff.mp eq
  · have empty : paths = [] := by simpa [Refs.isEmpty] using eq
    subst empty
    rw [splits.others_eq]
    cases elements with
    | nil => exact .inl .array
    | cons e rest => exact .inr ⟨_, List.mem_cons_self, isAbout_skippedElement⟩

theorem keepsSheets_mapping (object : IsObjectOf node entries) :
    KeepsSheets source className node
      ((some (.mapping (ofPairs (pathEntries entries)))).filter (!·.isEmpty))
      (entryWarnings source className [] entries) := by
  refine ⟨?_, fun paths eq => ?_, fun pairs eq => ?_, fun eq => ?_⟩
  · rw [filter_refs_ne_none_iff, givesSheet_object_iff object, ← ofPairs_pathEntries_ne_nil_iff]
    simp [Refs.isEmpty]
  · obtain ⟨⟨⟩, -⟩ := Option.filter_eq_some_iff.mp eq
  · obtain ⟨⟨⟩, -⟩ := Option.filter_eq_some_iff.mp eq
    refine ⟨entries, object, fun key path mem => ?_, fun key e mem => ?_⟩
    · exact (mem_ofPairs_pathEntries.mp mem).exists_mem
    · obtain ⟨path, isText, last⟩ | named := isLastPath_or_namesKey mem
      · exact .inl ⟨path, isText, mem_ofPairs_pathEntries.mpr last⟩
      · exact .inr named
  · have empty : ofPairs (pathEntries entries) = [] := by simpa [Refs.isEmpty] using eq
    cases entries with
    | nil =>
        obtain ⟨⟨⟩⟩ := object
        exact .inl .object
    | cons entry rest =>
        obtain ⟨key, e⟩ := entry
        have mem : (key, e) ∈ (key, e) :: rest := List.mem_cons_self
        obtain ⟨path, -, last⟩ | ⟨d, raised, named⟩ := isLastPath_or_namesKey mem
        · rw [← mem_ofPairs_pathEntries, empty] at last
          cases last
        · exact .inr ⟨d, raised, named.isAbout⟩

theorem ReadsSheets.keepsSheets {refs : Warned (Option Refs)}
    (h : ReadsSheets source className node refs) :
    KeepsSheets source className node (refs.value.filter (!·.isEmpty)) refs.warnings := by
  cases h with
  | sequence plain splits => exact keepsSheets_sequence plain splits
  | mapping object => exact keepsSheets_mapping object
  | @unread node d without about =>
      exact ⟨iff_of_false (absurd rfl) without, nofun, nofun, fun _ => .inr ⟨d, List.mem_cons_self, about⟩⟩

/-! ### One style sheet -/

/-- The style sheets of a component with a value of `styleUrl` only, and the remarks about them: the value is
a path and is kept, or there is a remark. -/
structure KeepsSheet (node : Expr) (styles : Option Refs) (remarks : List Diagnostic) : Prop where
  kept : ∀ refs, styles = some refs ↔ ∃ path, IsText node path ∧ refs = .sequence [path]
  lost : styles = none → ∃ d ∈ remarks, isAbout "styleUrl" d = true

/-! ### Components -/

theorem styleRefs_of_styleUrls (found : lookup "styleUrls" config = some node) :
    styleRefs source className config =
      ⟨(styleUrls source className node).value.filter (!·.isEmpty),
        (styleUrls source className node).warnings⟩ := by
  unfold styleRefs
  rw [found]

/-- The style sheets are a matter of `styleUrls` alone, wherever it stands. -/
theorem value_styleUrls (source source' : List Char) (className className' : String) (node : Expr) :
    (styleUrls source className node).value = (styleUrls source' className' node).value := by
  have paths (elements : List Expr) :
      (stylePaths source className elements).value = (stylePaths source' className' elements).value := by
    induction elements with
    | nil => rfl
    | cons e rest ih =>
        unfold stylePaths
        cases Literal.string e <;> simp only [ih]
  unfold styleUrls
  simp only [stylePairs_eq]
  split
  · cases Literal.array node with
    | error fault => rfl
    | ok elements => exact congrArg (fun paths => some (Refs.sequence paths)) (paths elements)
  · split
    · cases Literal.entries node <;> rfl
    · rfl

theorem keepsSheet_styleRefs (none : lookup "styleUrls" config = none)
    (found : lookup "styleUrl" config = some node) :
    KeepsSheet node (styleRefs source className config).value
        (styleRefs source className config).warnings ∧
      ∀ d ∈ (styleRefs source className config).warnings, isAbout "styleUrl" d = true := by
  unfold styleRefs
  rw [none]
  dsimp only
  rw [found]
  dsimp only
  split
  · rename_i path read
    have isText : IsText node path := string_eq_ok_iff.mp read
    refine ⟨⟨fun refs => ⟨fun eq => ?_, fun ⟨path', isText', eq⟩ => ?_⟩, nofun⟩, nofun⟩
    · cases eq
      exact ⟨path, isText, rfl⟩
    · rw [eq, isText.unique isText']
      rfl
  · rename_i read
    have about (message : String) :
        isAbout "styleUrl" (warn className .valueNotLiteral
          ("`styleUrl` must be a string literal, got `" ++ message ++ "`; ignoring it")) = true := by
      simp [List.isPrefixOf]
    refine ⟨⟨fun refs => ?_, fun _ => ⟨_, List.mem_cons_self, about _⟩⟩, fun d mem => ?_⟩
    · exact iff_of_false nofun fun ⟨path, isText, _⟩ => string_eq_error read path isText
    · rw [List.mem_singleton.mp mem]
      exact about _

/-- A component has a configuration.  If it has `styleUrls` there, what its last value says is kept or
remarked on, and nothing else has an influence on the style sheets.  Otherwise the last value of `styleUrl`
is kept or remarked on, and without that there are no style sheets. -/
theorem readClass_keepsSheets (h : readClass source decl = .component c) :
    (∃ entries, IsConfiguredBy decl entries) ∧ ∀ entries, IsConfiguredBy decl entries →
      (∀ node, IsLast entries "styleUrls" node →
        KeepsSheets source c.className node c.styles (styleRemarks c) ∧
        ∀ source' decl' c' entries', readClass source' decl' = .component c' →
          IsConfiguredBy decl' entries' → IsLast entries' "styleUrls" node → c'.styles = c.styles) ∧
      ("styleUrls" ∉ entries.map (·.1) →
        (∀ node, IsLast entries "styleUrl" node → KeepsSheet node c.styles (styleRemarks c)) ∧
        ("styleUrl" ∉ entries.map (·.1) → c.styles = none)) := by
  refine ⟨exists_isConfiguredBy h, fun entries configured => ?_⟩
  have built := isBuiltFrom_of_component h configured
  refine ⟨fun node last => ?_, fun none => ⟨fun node last => ?_, fun none' => ?_⟩⟩
  · have refs := @styleRefs_of_styleUrls source c.className node (ofPairs entries)
      (lookup_ofPairs_eq_some_iff.mpr last)
    have reads := readsSheets_styleUrls source c.className node
    refine ⟨?_, fun source' decl' c' entries' h' configured' last' => ?_⟩
    · have remarks := built.styleRemarks fun d mem => isAbout_styleUrl (reads.about d (by rwa [refs] at mem))
      rw [remarks, built.styles, refs]
      exact reads.keepsSheets
    · rw [built.styles, (isBuiltFrom_of_component h' configured').styles, refs,
        styleRefs_of_styleUrls (lookup_ofPairs_eq_some_iff.mpr last')]
      exact congrArg (Option.filter _) (value_styleUrls _ _ _ _ node)
  · obtain ⟨keeps, about⟩ := @keepsSheet_styleRefs source c.className node (ofPairs entries)
      (lookup_ofPairs_eq_none_iff.mpr none) (lookup_ofPairs_eq_some_iff.mpr last)
    rw [built.styleRemarks about, built.styles]
    exact keeps
  · rw [built.styles, styleRefs, lookup_ofPairs_eq_none_iff.mpr none]
    dsimp only
    rw [lookup_ofPairs_eq_none_iff.mpr none']
    rfl

/-! ### A class with both fields -/

/-- The list `['a.css', B]`. -/
def mixedSheets : Expr :=
  .array .detached [.string .detached (.ofString "a.css"), .ident .detached "B"]

/-- The entries of `{ tag: 'a-a', styleUrls: ['a.css', B], styleUrl: 'c.css' }`. -/
def mixedEntries : List (String × Expr) :=
  [("tag", .string .detached (.ofString "a-a")), ("styleUrls", mixedSheets),
    ("styleUrl", .string .detached (.ofString "c.css"))]

/-- A class that is marked as a component with style sheets in both fields. -/
def mixedClass : ClassDef :=
  { marked (some ⟨.detached, "A"⟩) rfl with
    decorators := [⟨.detached, .call .detached (.ident .detached "Component") []
      [.object .detached
        (mixedEntries.map fun entry => .property .detached (.name .detached entry.1) entry.2 false)]
      false false⟩] }

theorem mixedClass_isConfiguredBy : IsConfiguredBy mixedClass mixedEntries := by
  refine ⟨_, ⟨[], _, [], rfl, rfl, .called, nofun⟩, _, [], .call ?_, .object ?_⟩
  · intro e mem spread
    cases spread
    simp at mem
  · exact List.forall₂_map_left_iff.mpr (List.forall₂_same.mpr fun _ _ => .property (.name _))

/-- The list is kept without the name in it, which has its remark, and the other field is ignored. -/
theorem mixedClass_keepsSheets :
    ∃ c, readClass [] mixedClass = .component c ∧ c.styles = some (.sequence ["a.css"]) ∧
      styleRemarks c = [skippedElement [] c.className (.ident .detached "B")] := by
  obtain ⟨c, read, -⟩ := @exists_component_of_declaresTag [] mixedClass "a-a"
    ⟨nofun, ⟨mixedEntries, _, mixedClass_isConfiguredBy, ⟨[], _, rfl, by decide⟩, .string _⟩,
      ⟨'a', by decide, by decide⟩⟩
  have last : IsLast mixedEntries "styleUrls" mixedSheets := ⟨mixedEntries.take 1, _, rfl, by decide⟩
  obtain ⟨-, keeps⟩ := readClass_keepsSheets read
  obtain ⟨keeps, -⟩ := (keeps _ mixedClass_isConfiguredBy).1 _ last
  have styles : c.styles = some (.sequence ["a.css"]) := by
    have computed : (match readClass [] mixedClass with
        | .component c => c.styles
        | _ => none) = some (.sequence ["a.css"]) := by decide +kernel
    rwa [read] at computed
  obtain ⟨span, elements, others, eq, splits, remarks⟩ := keeps.sequence _ styles
  cases eq
  cases splits with
  | path isText rest =>
      rw [rest.others_eq] at remarks
      exact ⟨c, read, styles, remarks⟩
  | other none rest => exact absurd (.string _) (none _)

end ComponentLowering.Component
