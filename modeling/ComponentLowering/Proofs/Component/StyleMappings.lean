/-
# Style sheets with keys

A mapping of style sheets can give a key several times, and it can give values that are no paths.  Only
paths are kept, so a key has the last path that is written for it, even if its last value is something else.
Every repetition is warned about, and so is every value that is no path.
-/
import ComponentLowering.Proofs.Component.Readings
import ComponentLowering.Proofs.Style.LastValues
import Mathlib.Data.Finset.Card
import Mathlib.Data.Finset.SDiff

namespace ComponentLowering.Component

open ComponentLowering.Report ComponentLowering.Style ComponentLowering.Syntax
open ComponentLowering.Text

variable {source : List Char} {className key path : String} {node e : Expr}
variable {entries : List (String × Expr)} {seen : List String} {d : Diagnostic}

/-! ### Last paths -/

/-- Whether a path is the last one that is written for a key, whatever else is given behind it. -/
def IsLastPath (entries : List (String × Expr)) (key path : String) : Prop :=
  ∃ before e after, entries = before ++ (key, e) :: after ∧ IsText e path ∧
    ∀ e', (key, e') ∈ after → ∀ text, ¬ IsText e' text

/-- The entry with its path, if its value is one. -/
def keyedPath? (entry : String × Expr) : Option (String × String) :=
  (Literal.string entry.2).toOption.map (entry.1, ·)

/-- The entries that give a path. -/
def pathEntries (entries : List (String × Expr)) : List (String × String) :=
  entries.filterMap keyedPath?

theorem keyedPath?_eq_some_iff {entry : String × Expr} :
    keyedPath? entry = some (key, path) ↔ entry.1 = key ∧ IsText entry.2 path := by
  rw [keyedPath?, ← string_eq_ok_iff]
  cases Literal.string entry.2 <;> simp [Except.toOption]

theorem mem_pathEntries : (key, path) ∈ pathEntries entries ↔ ∃ e, (key, e) ∈ entries ∧ IsText e path := by
  simp only [pathEntries, List.mem_filterMap, keyedPath?_eq_some_iff, Prod.exists]
  exact ⟨fun ⟨_, e, mem, same, isText⟩ => ⟨e, same ▸ mem, isText⟩,
    fun ⟨e, mem, isText⟩ => ⟨key, e, mem, rfl, isText⟩⟩

theorem isLast_pathEntries_iff : IsLast (pathEntries entries) key path ↔ IsLastPath entries key path := by
  refine ⟨fun h => ?_, fun h => ?_⟩
  · obtain ⟨before, after, eq, none⟩ := h
    obtain ⟨front, rest, rfl, -, eq⟩ := List.filterMap_eq_append_iff.mp eq
    obtain ⟨more, ⟨k, e⟩, behind, rfl, -, entry, rfl⟩ := List.filterMap_eq_cons_iff.mp eq
    obtain ⟨rfl, isText⟩ := keyedPath?_eq_some_iff.mp entry
    refine ⟨front ++ more, e, behind, by simp, isText, fun e' mem text again => none ?_⟩
    exact List.mem_map_of_mem (mem_pathEntries.mpr ⟨e', mem, again⟩)
  · obtain ⟨before, e, after, rfl, isText, none⟩ := h
    have entry : keyedPath? (key, e) = some (key, path) := keyedPath?_eq_some_iff.mpr ⟨rfl, isText⟩
    refine ⟨pathEntries before, pathEntries after, ?_, fun given => ?_⟩
    · rw [pathEntries, List.filterMap_append, List.filterMap_cons_some entry]
      rfl
    · obtain ⟨⟨k, text⟩, kept, rfl⟩ := List.mem_map.mp given
      obtain ⟨e', mem, again⟩ := mem_pathEntries.mp kept
      exact none e' mem text again

/-- A path that is the last value of its key is also the last path. -/
theorem isLastPath_of_isLast (last : IsLast entries key e) (isText : IsText e path) :
    IsLastPath entries key path := by
  obtain ⟨before, after, rfl, none⟩ := last
  exact ⟨before, e, after, rfl, isText, fun e' mem => absurd (List.mem_map_of_mem mem) none⟩

theorem IsLastPath.exists_mem (h : IsLastPath entries key path) :
    ∃ e, (key, e) ∈ entries ∧ IsText e path := by
  obtain ⟨before, e, after, rfl, isText, -⟩ := h
  exact ⟨e, by simp, isText⟩

theorem IsLastPath.unique {other : String} (h : IsLastPath entries key path)
    (h' : IsLastPath entries key other) : path = other :=
  (isLast_pathEntries_iff.mpr h).unique (isLast_pathEntries_iff.mpr h')

theorem exists_isLastPath (mem : (key, e) ∈ entries) (isText : IsText e path) :
    ∃ last, IsLastPath entries key last := by
  have given : (key, path) ∈ pathEntries entries := mem_pathEntries.mpr ⟨e, mem, isText⟩
  obtain ⟨last, isLast⟩ := exists_isLast (List.mem_map_of_mem given)
  exact ⟨last, isLast_pathEntries_iff.mp isLast⟩

/-- The pairs that are kept are the last paths. -/
theorem mem_ofPairs_pathEntries :
    (key, path) ∈ ofPairs (pathEntries entries) ↔ IsLastPath entries key path := by
  rw [mem_iff_lookup_eq_some nodup_ofPairs, lookup_ofPairs_eq_some_iff, isLast_pathEntries_iff]

/-! ### Reading a mapping -/

/-- The warning about a value that is no path. -/
def unreadValue (source : List Char) (className key : String) (value : Expr) : List Diagnostic :=
  match Literal.string value with
  | .ok _ => []
  | .error _ =>
    [warn className .valueNotLiteral
      ("`styleUrls." ++ key ++ "` is not a string literal (`" ++ shown source value ++ "`); skipping it")]

/-- The warnings about entries, behind entries with other keys. -/
def entryWarnings (source : List Char) (className : String) :
    List String → List (String × Expr) → List Diagnostic
  | _, [] => []
  | seen, (key, value) :: rest =>
    repeatedKey className seen key ++ unreadValue source className key value ++
      entryWarnings source className (key :: seen) rest

/-- What is kept and what is warned about do not depend on each other. -/
theorem stylePairs_eq (seen : List String) (pairs : List (String × String))
    (entries : List (String × Expr)) :
    stylePairs source className seen pairs entries =
      ⟨(pathEntries entries).foldl (fun acc p => setPair acc p.1 p.2) pairs,
        entryWarnings source className seen entries⟩ := by
  induction entries generalizing seen pairs with
  | nil => rfl
  | cons entry rest ih =>
      obtain ⟨key, value⟩ := entry
      unfold stylePairs entryWarnings unreadValue pathEntries
      rw [List.filterMap_cons, keyedPath?]
      cases Literal.string value with
      | ok path =>
          dsimp only
          rw [ih, List.append_nil]
          rfl
      | error fault =>
          dsimp only
          rw [ih, List.append_assoc]
          rfl

theorem styleUrls_object (h : IsObjectOf node entries) :
    styleUrls source className node =
      ⟨some (.mapping (ofPairs (pathEntries entries))), entryWarnings source className [] entries⟩ := by
  have read := entries_eq_ok_iff.mpr h
  cases h
  unfold styleUrls
  simp only [Literal.isArray, Literal.isObject, Bool.false_eq_true, ↓reduceIte, read, stylePairs_eq]
  rfl

/-! ### Repeated keys -/

/-- The number of repetitions and the number of keys that are new add up to the number of entries. -/
theorem length_repeats_add_card (source : List Char) (className : String) (seen : List String)
    (entries : List (String × Expr)) :
    ((entryWarnings source className seen entries).filter (·.code == .duplicateStyleKey)).length +
      ((entries.map (·.1)).toFinset \ seen.toFinset).card = entries.length := by
  induction entries generalizing seen with
  | nil => simp [entryWarnings]
  | cons entry rest ih =>
      obtain ⟨key, value⟩ := entry
      have others := ih (key :: seen)
      have unread : (unreadValue source className key value).filter (·.code == .duplicateStyleKey) = [] := by
        unfold unreadValue
        split <;> rfl
      rw [entryWarnings, List.filter_append, List.filter_append, unread, List.append_nil,
        List.length_append, List.length_cons, ← others, List.map_cons, List.toFinset_cons,
        List.toFinset_cons, Finset.sdiff_insert]
      by_cases old : key ∈ seen
      · have same : insert key (rest.map (·.1)).toFinset \ seen.toFinset =
            ((rest.map (·.1)).toFinset \ seen.toFinset).erase key := by
          rw [Finset.insert_sdiff_of_mem _ (List.mem_toFinset.mpr old), Finset.erase_eq_of_notMem]
          simp [old]
        have one : ((repeatedKey className seen key).filter (·.code == .duplicateStyleKey)).length = 1 := by
          rw [repeatedKey, if_pos (by simpa using old)]
          rfl
        rw [same, one]
        omega
      · have none : ((repeatedKey className seen key).filter (·.code == .duplicateStyleKey)).length = 0 := by
          rw [repeatedKey, if_neg (by simpa using old)]
          rfl
        have new : (insert key (rest.map (·.1)).toFinset \ seen.toFinset).card =
            (((rest.map (·.1)).toFinset \ seen.toFinset).erase key).card + 1 := by
          have apart : key ∉ seen.toFinset := by simpa using old
          rw [← Finset.card_insert_of_notMem (Finset.notMem_erase _ _),
            Finset.insert_sdiff_of_notMem _ apart]
          congr 1
          ext other
          by_cases same : other = key
          · simp [same]
          · simp [same]
        rw [none, new]
        omega

/-! ### The mapping -/

/-- Whether a mapping has the last value of a key: its path if it is one, and nothing otherwise. -/
def KeepsLast (entries : List (String × Expr)) (pairs : List (String × String)) (key : String) : Prop :=
  ∀ path, (key, path) ∈ pairs ↔ ∃ e, IsLast entries key e ∧ IsText e path

/-- The mapping that entries are read as.  A key with paths has the last of them, which is its last value
unless values that are no paths stand behind it. -/
structure ReadsMapping (entries : List (String × Expr)) (pairs : List (String × String))
    (warnings : List Diagnostic) : Prop where
  nodup : (pairs.map (·.1)).Nodup
  paths : ∀ key path, (key, path) ∈ pairs ↔ IsLastPath entries key path
  keepsLast : ∀ key, KeepsLast entries pairs key ↔
    ∀ e path last, (key, e) ∈ entries → IsText e path → IsLast entries key last → ∃ text, IsText last text
  repeats : (warnings.filter (·.code == .duplicateStyleKey)).length =
    entries.length - (entries.map (·.1)).toFinset.card

theorem keepsLast_iff {pairs : List (String × String)}
    (paths : ∀ path, (key, path) ∈ pairs ↔ IsLastPath entries key path) :
    KeepsLast entries pairs key ↔
      ∀ e path last, (key, e) ∈ entries → IsText e path → IsLast entries key last →
        ∃ text, IsText last text := by
  refine ⟨fun keeps e path last mem isText isLast => ?_, fun ends path => ⟨fun kept => ?_, fun h => ?_⟩⟩
  · obtain ⟨text, isLastPath⟩ := exists_isLastPath mem isText
    obtain ⟨last', isLast', isText'⟩ := (keeps text).mp ((paths text).mpr isLastPath)
    rw [isLast.unique isLast']
    exact ⟨text, isText'⟩
  · have isLastPath : IsLastPath entries key path := (paths path).mp kept
    obtain ⟨e, given, isText⟩ := isLastPath.exists_mem
    obtain ⟨last, isLast⟩ := exists_isLast (List.mem_map_of_mem given)
    obtain ⟨text, isText'⟩ := ends e path last given isText isLast
    rw [isLastPath.unique (isLastPath_of_isLast isLast isText')]
    exact ⟨last, isLast, isText'⟩
  · obtain ⟨e, isLast, isText⟩ := h
    exact (paths path).mpr (isLastPath_of_isLast isLast isText)

/-- An object literal of style sheets is read as a mapping without repeated keys.  It has the last path of
each key, which is the last value exactly if that is a path or the key has no path at all.  There are as
many warnings about repeated keys as there are entries more than keys. -/
theorem styleUrls_mapping (source : List Char) (className : String) {node : Expr}
    {entries : List (String × Expr)} (h : IsObjectOf node entries) :
    ∃ pairs, (styleUrls source className node).value = some (.mapping pairs) ∧
      ReadsMapping entries pairs (styleUrls source className node).warnings := by
  rw [styleUrls_object h]
  refine ⟨_, rfl, ⟨nodup_ofPairs, fun _ _ => mem_ofPairs_pathEntries, fun key => ?_, ?_⟩⟩
  · exact keepsLast_iff fun _ => mem_ofPairs_pathEntries
  · have count := length_repeats_add_card source className [] entries
    rw [List.toFinset_nil, Finset.sdiff_empty] at count
    exact Nat.eq_sub_of_add_eq count

/-! ### Keys that are given twice -/

/-- The entries of `{ ios: 'a.css', md: B, ios: C, md: 'd.css' }`. -/
def respelledEntries : List (String × Expr) :=
  [("ios", .string .detached (.ofString "a.css")), ("md", .ident .detached "B"),
    ("ios", .ident .detached "C"), ("md", .string .detached (.ofString "d.css"))]

/-- The object literal `{ ios: 'a.css', md: B, ios: C, md: 'd.css' }`. -/
def respelledSheets : Expr :=
  .object .detached
    (respelledEntries.map fun entry => .property .detached (.name .detached entry.1) entry.2 false)

theorem respelledSheets_isObjectOf : IsObjectOf respelledSheets respelledEntries :=
  .object (List.forall₂_map_left_iff.mpr (List.forall₂_same.mpr fun _ _ => .property (.name _)))

theorem isLast_respelledEntries : IsLast respelledEntries "ios" (.ident .detached "C") :=
  ⟨respelledEntries.take 2, respelledEntries.drop 3, rfl, by decide⟩

/-- The key that ends with a path has it, and the other one does not have its last value.  Both are
repeated. -/
theorem respelledSheets_mapping :
    IsObjectOf respelledSheets respelledEntries ∧
      ∃ pairs, (styleUrls [] "A" respelledSheets).value = some (.mapping pairs) ∧
        KeepsLast respelledEntries pairs "md" ∧ ¬ KeepsLast respelledEntries pairs "ios" ∧
        ((styleUrls [] "A" respelledSheets).warnings.filter (·.code == .duplicateStyleKey)).length = 2 := by
  obtain ⟨pairs, value, reads⟩ := styleUrls_mapping [] "A" respelledSheets_isObjectOf
  refine ⟨respelledSheets_isObjectOf, pairs, value, ?_, fun keeps => ?_, reads.repeats⟩
  · have ends : IsLast respelledEntries "md" (.string .detached (.ofString "d.css")) :=
      ⟨respelledEntries.take 3, [], rfl, List.not_mem_nil⟩
    refine (reads.keepsLast "md").mpr fun _ _ last _ _ isLast => ?_
    rw [isLast.unique ends]
    exact ⟨_, .string _⟩
  · have first : ("ios", .string .detached (.ofString "a.css")) ∈ respelledEntries := .head _
    obtain ⟨text, isText⟩ :=
      (reads.keepsLast "ios").mp keeps _ _ _ first (.string _) isLast_respelledEntries
    cases isText

/-- The last value of `ios` is no path, which a warning says, and another warning says that it wins.  Still
the path in front of it is kept. -/
theorem respelledSheets_keeps_first :
    IsObjectOf respelledSheets respelledEntries ∧
      IsLast respelledEntries "ios" (.ident .detached "C") ∧
      (∀ text, ¬ IsText (.ident .detached "C") text) ∧
      (styleUrls [] "A" respelledSheets).value = some (.mapping [("ios", "a.css"), ("md", "d.css")]) ∧
      (styleUrls [] "A" respelledSheets).warnings.map (·.message) =
        ["`styleUrls.md` is not a string literal (``); skipping it",
          "`styleUrls` key `ios` is declared more than once; the last one wins",
          "`styleUrls.ios` is not a string literal (``); skipping it",
          "`styleUrls` key `md` is declared more than once; the last one wins"] := by
  refine ⟨respelledSheets_isObjectOf, isLast_respelledEntries, nofun, ?_, ?_⟩
  · decide +kernel
  · decide +kernel

end ComponentLowering.Component
