/-
# Literals that ask for style sheets

The literals of a configuration that name a style sheet, and a key for it if the style sheets have keys.  Only
the text of a literal is recorded.  A mapping that has two keys with one text has the last path for it.
-/
import ComponentLowering.Proofs.Component.StyleReferences
import ComponentLowering.Proofs.Style.PlannedStyles
import ComponentLowering.Proofs.Syntax.StoredStrings

namespace ComponentLowering.Component

open ComponentLowering.Style ComponentLowering.Syntax ComponentLowering.Text

variable {source : List Char} {decl : ClassDef} {c : Component} {v path : StringValue}

/-! ### Strings of literals -/

/-- A string literal or a template with a string, which is stored.  A template only has the text of its
string, so this can be any string that is stored with that text. -/
inductive IsLiteralOf : Expr → StringValue → Prop
  | string {span : Span} {v : StringValue} (stored : v.IsStored) : IsLiteralOf (.string span v) v
  | template {span : Span} {chunk : TemplateChunk} {v : StringValue} (stored : v.IsStored)
      (cooked : chunk.cooked = some v.text) : IsLiteralOf (.template span [chunk] []) v

/-- A plain key with the string that it stands for. -/
inductive IsKeyOf : Key → StringValue → Prop
  | name {span : Span} {name : String} : IsKeyOf (.name span name) (.ofString name)
  | string {span : Span} {v : StringValue} (stored : v.IsStored) : IsKeyOf (.string span v) v

theorem IsLiteralOf.isText {e : Expr} (h : IsLiteralOf e v) : IsText e v.text := by
  cases h with
  | string stored => exact .string v
  | template stored cooked => exact .template cooked

theorem IsLiteralOf.isStored {e : Expr} (h : IsLiteralOf e v) : v.IsStored := by
  cases h <;> assumption

theorem IsKeyOf.isStored {k : Key} (h : IsKeyOf k v) : v.IsStored := by
  cases h with
  | name => exact isStored_ofString _
  | string stored => exact stored

/-! ### Style sheets that are asked for -/

/-- Whether a class asks by literals for a style sheet at a path, and under a key where style sheets have
keys: with `styleUrl`, unless `styleUrls` is given, with an element of a list, or with the entry of a mapping
whose path is the last one for the text of its key. -/
inductive AsksFor (decl : ClassDef) : Option StringValue → StringValue → Prop
  | alone {entries : List (String × Expr)} {e : Expr} {path : StringValue}
      (configured : IsConfiguredBy decl entries) (absent : "styleUrls" ∉ entries.map (·.1))
      (last : IsLast entries "styleUrl" e) (literal : IsLiteralOf e path) : AsksFor decl none path
  | element {entries : List (String × Expr)} {span : Span} {elements : List Expr} {e : Expr}
      {path : StringValue} (configured : IsConfiguredBy decl entries)
      (last : IsLast entries "styleUrls" (.array span elements))
      (plain : ∀ e ∈ elements, ¬ IsSpread e ∧ ¬ IsHole e) (mem : e ∈ elements)
      (literal : IsLiteralOf e path) : AsksFor decl none path
  | entry {entries pairs : List (String × Expr)} {span place : Span} {members : List Expr} {k : Key}
      {e : Expr} {shorthand : Bool} {key path : StringValue} (configured : IsConfiguredBy decl entries)
      (last : IsLast entries "styleUrls" (.object span members))
      (object : IsObjectOf (.object span members) pairs) (mem : .property place k e shorthand ∈ members)
      (isKey : IsKeyOf k key) (literal : IsLiteralOf e path)
      (lastPath : IsLastPath pairs key.text path.text) : AsksFor decl (some key) path

theorem AsksFor.isStored {key : Option StringValue} (h : AsksFor decl key path) :
    path.IsStored ∧ ∀ k ∈ key, k.IsStored := by
  cases h with
  | alone _ _ _ literal => exact ⟨literal.isStored, by simp⟩
  | element _ _ _ _ literal => exact ⟨literal.isStored, by simp⟩
  | entry _ _ _ _ isKey literal => exact ⟨literal.isStored, by simpa using isKey.isStored⟩

theorem SplitsInto.mem_paths {elements others : List Expr} {paths : List String} {e : Expr} {path : String}
    (h : SplitsInto elements paths others) (mem : e ∈ elements) (isText : IsText e path) : path ∈ paths := by
  induction h with
  | nil => cases mem
  | path isText' rest ih =>
      rcases List.mem_cons.mp mem with rfl | later
      · rw [isText.unique isText']
        exact List.mem_cons_self
      · exact List.mem_cons_of_mem _ (ih later)
  | other none rest ih =>
      rcases List.mem_cons.mp mem with rfl | later
      · exact absurd isText (none path)
      · exact ih later

/-- The entry that is recorded for a style sheet: the texts of its key and its path. -/
def recordedEntry (key : Option StringValue) (path : StringValue) : Entry :=
  { key := key.map (·.text), path := path.text }

theorem isEmpty_eq_false_of_mem {refs : Refs} {entry : Entry} (mem : entry ∈ refs.entries) :
    refs.isEmpty = false := by
  cases refs with
  | sequence paths => cases paths <;> first | rfl | cases mem
  | mapping pairs => cases pairs <;> first | rfl | cases mem

/-- Style sheets are kept if there is one among them. -/
theorem filter_refs_of_mem {refs : Refs} {entry : Entry} (mem : entry ∈ refs.entries) :
    (some refs).filter (!·.isEmpty) = some refs := by
  rw [Option.filter_eq_some_iff, isEmpty_eq_false_of_mem mem]
  exact ⟨rfl, rfl⟩

/-- What is asked for by literals is recorded by their texts. -/
theorem mem_entries_of_asksFor {key : Option StringValue} (reads : readClass source decl = .component c)
    (asks : AsksFor decl key path) :
    ∃ refs, c.styles = some refs ∧ recordedEntry key path ∈ refs.entries := by
  cases asks with
  | alone configured absent last literal =>
      have built := isBuiltFrom_of_component reads configured
      obtain ⟨keeps, -⟩ := @keepsSheet_styleRefs source c.className _ _
        (lookup_ofPairs_eq_none_iff.mpr absent) (lookup_ofPairs_eq_some_iff.mpr last)
      refine ⟨.sequence [path.text], ?_, List.mem_cons_self⟩
      rw [built.styles]
      exact (keeps.kept _).mpr ⟨path.text, literal.isText, rfl⟩
  | @element entries span elements e path configured last plain mem literal =>
      have built := isBuiltFrom_of_component reads configured
      have refs := @styleRefs_of_styleUrls source c.className _ _ (lookup_ofPairs_eq_some_iff.mpr last)
      have sheets := readsSheets_styleUrls source c.className (.array span elements)
      generalize styleUrls source c.className (.array span elements) = read at refs sheets
      cases sheets with
      | @sequence span elements others paths plain splits =>
          have recorded : recordedEntry none path ∈ (Refs.sequence paths).entries :=
            List.mem_map.mpr ⟨path.text, splits.mem_paths mem literal.isText, rfl⟩
          exact ⟨_, by rw [built.styles, refs, filter_refs_of_mem recorded], recorded⟩
      | mapping object => cases object
      | unread without => exact absurd (.element plain mem literal.isText) without
  | @entry entries pairs span place members k e shorthand key path configured last object mem isKey
      literal lastPath =>
      have built := isBuiltFrom_of_component reads configured
      have refs := @styleRefs_of_styleUrls source c.className _ _ (lookup_ofPairs_eq_some_iff.mpr last)
      rw [styleUrls_object object] at refs
      have recorded : recordedEntry (some key) path ∈ (Refs.mapping (ofPairs (pathEntries pairs))).entries :=
        List.mem_map.mpr ⟨(key.text, path.text),
          (sortPairs_perm _).mem_iff.mpr (mem_ofPairs_pathEntries.mpr lastPath), rfl⟩
      exact ⟨_, by rw [built.styles, refs, filter_refs_of_mem recorded], recorded⟩

end ComponentLowering.Component
