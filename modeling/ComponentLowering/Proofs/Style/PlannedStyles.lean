/-
# The styles of one class after another

Whatever classes styles are planned for in a row, each sheet is imported once, and the value that
is attached to a class names, for each of its paths, the sheet of that class at that path.  Whether
the code can be read is not asked here.
-/
import ComponentLowering.Proofs.Style.Hoisting
import ComponentLowering.Proofs.Style.StyleAssignment
import ComponentLowering.Proofs.StyleLedger

namespace ComponentLowering.Style

open ComponentLowering.Code ComponentLowering.Settings

/-! ### Keys in order -/

theorem insertPair_perm (pair : String × String) (pairs : List (String × String)) :
    (insertPair pair pairs).Perm (pair :: pairs) := by
  induction pairs with
  | nil => exact .refl _
  | cons p rest ih =>
      rw [insertPair]
      split
      · exact .refl _
      · exact (ih.cons p).trans (.swap pair p rest)

theorem insertPair_ordered {pair : String × String} {pairs : List (String × String)}
    (h : pairs.Pairwise (·.1 ≤ ·.1)) : (insertPair pair pairs).Pairwise (·.1 ≤ ·.1) := by
  induction pairs with
  | nil => exact List.pairwise_singleton _ _
  | cons p rest ih =>
      obtain ⟨above, ordered⟩ := List.pairwise_cons.mp h
      rw [insertPair]
      split
      · rename_i less
        have below : pair.1 ≤ p.1 := String.not_lt.mp (String.lt_asymm less)
        refine .cons ?_ h
        intro q hq
        rcases List.mem_cons.mp hq with rfl | later
        · exact below
        · exact String.le_trans below (above q later)
      · rename_i notLess
        refine .cons ?_ (ih ordered)
        intro q hq
        rcases List.mem_cons.mp ((insertPair_perm pair rest).mem_iff.mp hq) with rfl | later
        · exact String.not_lt.mp notLess
        · exact above q later

theorem sortPairs_perm (pairs : List (String × String)) : (sortPairs pairs).Perm pairs := by
  induction pairs with
  | nil => exact .refl _
  | cons p rest ih => exact (insertPair_perm p _).trans (ih.cons p)

theorem sortPairs_ordered (pairs : List (String × String)) :
    (sortPairs pairs).Pairwise (·.1 ≤ ·.1) := by
  induction pairs with
  | nil => exact .nil
  | cons p rest ih => exact insertPair_ordered ih

/-! ### Looking sheets up -/

/-- The paths that are referred to. -/
def Refs.paths : Refs → List String
  | .sequence paths => paths
  | .mapping pairs => pairs.map (·.2)

theorem Refs.paths_perm_entries (refs : Refs) : (refs.entries.map (·.path)).Perm refs.paths := by
  cases refs with
  | sequence paths =>
      rw [Refs.entries, List.map_map]
      exact .of_eq (List.map_id _)
  | mapping pairs =>
      rw [Refs.entries, List.map_map]
      exact (sortPairs_perm pairs).map (·.2)

namespace Ledger

/-- The name that a class knows the sheet at a path by. -/
def nameAt (l : Ledger) (className path : String) : String :=
  ((l.sheets.find? (holds className path)).map (·.name)).getD ""

theorem Sound.nameAt_eq {l : Ledger} (sound : l.Sound) {s : Sheet} (mem : s ∈ l.sheets) :
    l.nameAt s.owner s.path = s.name := by
  have known := sound.hoist_known mem none
  rw [Ledger.hoist] at known
  rw [nameAt]
  split at known
  · rename_i found
    rw [found]
    exact congrArg (·.1.name) known
  · exact absurd (congrArg (·.1.isNew) known) Bool.noConfusion

/-- Whether a class has a sheet at a path. -/
def Knows (l : Ledger) (className path : String) : Prop :=
  ∃ s ∈ l.sheets, s.owner = className ∧ s.path = path

/-- A class knows different sheets by different names. -/
theorem Sound.nameAt_injective {l : Ledger} (sound : l.Sound) {className a b : String}
    (ha : l.Knows className a) (hb : l.Knows className b)
    (same : l.nameAt className a = l.nameAt className b) : a = b := by
  obtain ⟨s, hs, rfl, rfl⟩ := ha
  obtain ⟨t, ht, owner, rfl⟩ := hb
  have name : s.name = t.name := by
    rw [← sound.nameAt_eq hs, ← sound.nameAt_eq ht, same, owner]
  exact congrArg Sheet.path (List.inj_on_of_nodup_map sound.names hs ht name)

/-- What planning the styles of a class does to a ledger: it adds sheets of that class. -/
structure Gains (className : String) (added : List Sheet) (l l' : Ledger) : Prop where
  sound : l'.Sound
  sheets : l'.sheets = l.sheets ++ added
  owned : ∀ s ∈ added, s.owner = className

namespace Gains

variable {className : String} {added more : List Sheet} {l l' l'' : Ledger}

theorem refl (sound : l.Sound) : Gains className [] l l := ⟨sound, by simp, by simp⟩

theorem trans (first : Gains className added l l') (second : Gains className more l' l'') :
    Gains className (added ++ more) l l'' :=
  ⟨second.sound, by rw [second.sheets, first.sheets, List.append_assoc],
    fun s hs => (List.mem_append.mp hs).elim (first.owned s) (second.owned s)⟩

theorem mem (gains : Gains className added l l') {s : Sheet} (h : s ∈ l.sheets) :
    s ∈ l'.sheets := by
  rw [gains.sheets]
  exact List.mem_append_left _ h

end Gains

/-- One sheet is added or known, and the class knows it by the name that is given. -/
theorem Sound.gains_hoist {l : Ledger} (sound : l.Sound) (convention : Convention)
    (className : String) (key : Option String) (path : String) :
    ∃ added, Gains className added l (l.hoist className key path).2 ∧
      importTexts convention added =
        (if (l.hoist className key path).1.isNew then
          [importStatement convention (l.hoist className key path).1.name path] else []) ∧
      ∃ s ∈ (l.hoist className key path).2.sheets, s.owner = className ∧ s.path = path ∧
        s.name = (l.hoist className key path).1.name := by
  rcases sound.hoist_cases className key path with ⟨known, mem, owner, at_path, eq⟩ |
    ⟨name, free, new, eq⟩
  · rw [eq]
    exact ⟨[], .refl sound, rfl, known, mem, owner, at_path, rfl⟩
  · rw [eq]
    exact ⟨[{ owner := className, key, path, name }], ⟨sound.add free new, rfl, by simp⟩, rfl, _,
      List.mem_append_right _ (.head _), rfl, rfl, rfl⟩

/-- All sheets of a class: each is bound under the name that the class knows it by. -/
theorem Sound.gains_hoistAll {l : Ledger} (sound : l.Sound) (convention : Convention)
    (className : String) (entries : List Entry) :
    ∃ added, Gains className added l (hoistAll convention className entries l).2.2 ∧
      (hoistAll convention className entries l).1 = importTexts convention added ∧
      (∀ e ∈ entries, (hoistAll convention className entries l).2.2.Knows className e.path) ∧
      (hoistAll convention className entries l).2.1 = entries.map fun e =>
        ⟨e.key, (hoistAll convention className entries l).2.2.nameAt className e.path⟩ := by
  induction entries generalizing l with
  | nil => exact ⟨[], .refl sound, rfl, by simp, rfl⟩
  | cons e entries ih =>
      obtain ⟨added, here, imports, s, mem, owner, path, name⟩ :=
        sound.gains_hoist convention className e.key e.path
      obtain ⟨more, later, imports', known, bindings⟩ := ih here.sound
      refine ⟨added ++ more, here.trans later, ?_, ?_, ?_⟩
      · rw [importTexts_append, imports, ← imports', hoistAll]
        simp only
        split <;> rfl
      · intro e' he'
        rcases List.mem_cons.mp he' with rfl | later'
        · exact ⟨s, later.mem mem, owner, path⟩
        · exact known e' later'
      · have sameName := later.sound.nameAt_eq (later.mem mem)
        rw [owner, path, name] at sameName
        simp only [hoistAll, List.map_cons, sameName, ← bindings]

end Ledger

/-! ### Styles of a class -/

/-- A class whose styles were planned, between two ledgers. -/
structure Planned where
  className : String
  refs : Refs
  before : Ledger
  plan : Option Plan
  after : Ledger

/-- The statements that a plan puts into the module. -/
def Planned.imports (p : Planned) : List String := (p.plan.map (·.imports)).getD []

/-- Whether a text is the value of some style references, given a name for each path: the sum of
the names of all paths as they occur first, or an object with a member for each key, the keys in
order. -/
def IsStyleValue (name : String → String) : Refs → String → Prop
  | .sequence paths, value => value = " + ".intercalate (paths.eraseDups.map name)
  | .mapping pairs, value =>
    ∃ ordered, List.Perm ordered pairs ∧ ordered.Pairwise (·.1 ≤ ·.1) ∧
      value = "\x7b " ++
        ", ".intercalate (ordered.map fun p => propertyKey p.1 ++ ": " ++ name p.2) ++ " \x7d"

/-- What is planned for a class, given the statements that bind sheets of that class up to here:
the value that is attached to it names each sheet as one of the statements binds it. -/
structure Planned.IsResolved (p : Planned) (convention : Convention) (bound : List String) :
    Prop where
  nothing : p.plan = none ↔ p.refs.isEmpty = true
  unchanged : p.refs.isEmpty = true → p.after = p.before
  assigned : ∀ plan, p.plan = some plan →
    ∃ value, plan.assignment = p.className ++ ".style = " ++ value ++ ";" ∧
      IsStyleValue (p.after.nameAt p.className) p.refs value
  bound : ∀ path ∈ p.refs.paths,
    importStatement convention (p.after.nameAt p.className path) path ∈ bound

/-- The entries of a class as bindings, seen as a value. -/
theorem isStyleValue_styleValue {name : String → String} {refs : Refs}
    (injective : ∀ a ∈ refs.paths, ∀ b ∈ refs.paths, name a = name b → a = b) :
    IsStyleValue name refs
      (styleValue refs (refs.entries.map fun e => ⟨e.key, name e.path⟩)) := by
  cases refs with
  | sequence paths =>
      have names : ((Refs.sequence paths).entries.map fun e => (⟨e.key, name e.path⟩ : Binding)).map
          (·.name) = paths.map name := by
        simp only [Refs.entries, List.map_map]
        rfl
      have values : distinct (paths.map name) = (distinct paths).map name := distinct_map injective
      rw [styleValue, names, values, distinct_eq_eraseDups]
      rfl
  | mapping pairs =>
      refine ⟨sortPairs pairs, sortPairs_perm pairs, sortPairs_ordered pairs, ?_⟩
      rw [styleValue, Refs.entries, List.map_map, List.map_map]
      rfl

/-- What planning the styles of one class comes to. -/
def planned (convention : Convention) (className : String) (refs : Refs) (l : Ledger) : Planned :=
  { className, refs, before := l
    plan := (plan className refs convention l).1, after := (plan className refs convention l).2 }

/-- Planning styles adds the sheets that it binds, and the class knows what its value names. -/
theorem Ledger.Sound.gains_planned {l : Ledger} (sound : l.Sound) (convention : Convention)
    (className : String) (refs : Refs) :
    (∃ added, Gains className added l (planned convention className refs l).after ∧
      (planned convention className refs l).imports = importTexts convention added) ∧
    (∀ path ∈ refs.paths, (planned convention className refs l).after.Knows className path) ∧
    ((planned convention className refs l).plan = none ↔ refs.isEmpty = true) ∧
    (refs.isEmpty = true → (planned convention className refs l).after = l) ∧
    ∀ p, (planned convention className refs l).plan = some p →
      ∃ value, p.assignment = className ++ ".style = " ++ value ++ ";" ∧
        IsStyleValue ((planned convention className refs l).after.nameAt className) refs value := by
  cases empty : refs.isEmpty with
  | true =>
      have none : refs.paths = [] := by
        cases refs <;> simpa [Refs.isEmpty, Refs.paths] using empty
      have eq : plan className refs convention l = (Option.none, l) := by rw [plan, if_pos empty]
      simp only [planned, eq, none]
      exact ⟨⟨[], .refl sound, rfl⟩, by simp⟩
  | false =>
      obtain ⟨added, gains, imports, known, bindings⟩ :=
        sound.gains_hoistAll convention className refs.entries
      have known' : ∀ path ∈ refs.paths,
          (hoistAll convention className refs.entries l).2.2.Knows className path := by
        intro path h
        obtain ⟨e, he, rfl⟩ := List.mem_map.mp (refs.paths_perm_entries.mem_iff.mpr h)
        exact known e he
      have value := @isStyleValue_styleValue _ refs fun a ha b hb =>
        gains.sound.nameAt_injective (known' a ha) (known' b hb)
      rw [← bindings] at value
      simp only [planned, plan, empty, Bool.false_eq_true, if_false, Planned.imports]
      refine ⟨⟨added, gains, imports⟩, known', by simp, by simp, ?_⟩
      rintro p ⟨⟩
      exact ⟨_, rfl, value⟩

/-! ### Styles in a row -/

/-- Plans the styles of classes one after the other. -/
def planAll (convention : Convention) : List (String × Refs) → Ledger → List Planned × Ledger
  | [], l => ([], l)
  | (className, refs) :: rest, l =>
    let here := planned convention className refs l
    let later := planAll convention rest here.after
    (here :: later.1, later.2)

/-- The statements that bind sheets of a class. -/
def importsOf (className : String) (all : List Planned) : List String :=
  (all.filter (·.className == className)).flatMap (·.imports)

theorem importsOf_append (className : String) (all more : List Planned) :
    importsOf className (all ++ more) = importsOf className all ++ importsOf className more := by
  simp [importsOf]

/-- Whether each sheet of a ledger is bound by a statement of its class. -/
def BoundBy (convention : Convention) (all : List Planned) (l : Ledger) : Prop :=
  ∀ s ∈ l.sheets, importStatement convention s.name s.path ∈ importsOf s.owner all

/-- One class keeps all sheets bound, and its value resolves. -/
theorem BoundBy.step {convention : Convention} {earlier : List Planned} {l : Ledger}
    (bound : BoundBy convention earlier l) (sound : l.Sound) (className : String) (refs : Refs) :
    BoundBy convention (earlier ++ [planned convention className refs l])
      (planned convention className refs l).after ∧
    (planned convention className refs l).IsResolved convention
      (importsOf className (earlier ++ [planned convention className refs l])) := by
  obtain ⟨⟨added, gains, imports⟩, known, nothing, unchanged, assigned⟩ :=
    sound.gains_planned convention className refs
  have all : BoundBy convention (earlier ++ [planned convention className refs l])
      (planned convention className refs l).after := by
    intro s hs
    rw [importsOf_append]
    rw [gains.sheets] at hs
    rcases List.mem_append.mp hs with old | new
    · exact List.mem_append_left _ (bound s old)
    · refine List.mem_append_right _ ?_
      have same : importsOf s.owner [planned convention className refs l] =
          importTexts convention added := by
        rw [gains.owned s new, ← imports]
        simp [importsOf, planned]
      rw [same]
      exact List.mem_map.mpr ⟨s, new, rfl⟩
  refine ⟨all, nothing, unchanged, assigned, ?_⟩
  intro path h
  obtain ⟨s, hs, owner, rfl⟩ := known path h
  have here := all s hs
  rw [← gains.sound.nameAt_eq hs, owner] at here
  exact here

/-- Classes one after the other: what is bound is what is added, and all values resolve. -/
theorem BoundBy.run {convention : Convention} (calls : List (String × Refs))
    {before : List Planned} {l : Ledger} (bound : BoundBy convention before l) (sound : l.Sound) :
    (planAll convention calls l).2.Sound ∧
    (∃ added, (planAll convention calls l).2.sheets = l.sheets ++ added ∧
      (planAll convention calls l).1.flatMap (·.imports) = importTexts convention added) ∧
    ∀ earlier here later, (planAll convention calls l).1 = earlier ++ here :: later →
      here.IsResolved convention (importsOf here.className (before ++ (earlier ++ [here]))) := by
  induction calls generalizing before l with
  | nil => exact ⟨sound, ⟨[], by simp [planAll], rfl⟩, by simp [planAll]⟩
  | cons call calls ih =>
      obtain ⟨className, refs⟩ := call
      obtain ⟨⟨added, gains, imports⟩, -⟩ := sound.gains_planned convention className refs
      obtain ⟨bound', resolved⟩ := bound.step sound className refs
      obtain ⟨sound', ⟨more, sheets, imports'⟩, later⟩ := ih bound' gains.sound
      refine ⟨sound', ⟨added ++ more, ?_, ?_⟩, ?_⟩
      · rw [← List.append_assoc, ← gains.sheets]
        exact sheets
      · rw [importTexts_append, ← imports, ← imports']
        rfl
      · intro earlier here rest split
        rw [planAll] at split
        cases earlier with
        | nil =>
            obtain ⟨rfl, -⟩ := List.cons.inj split
            exact resolved
        | cons first earlier =>
            obtain ⟨rfl, split'⟩ := List.cons.inj split
            simpa using later earlier here rest split'

theorem planAll_calls (convention : Convention) (calls : List (String × Refs)) (l : Ledger) :
    (planAll convention calls l).1.map (fun p => (p.className, p.refs)) = calls := by
  induction calls generalizing l with
  | nil => rfl
  | cons call calls ih => exact congrArg (call :: ·) (ih _)

/-- When styles are planned for any classes in a row, starting without sheets, the statements bind
the sheets of the ledger in order, each class and path once and each under a name of its own.  A
class without references gets nothing and changes nothing.  The value that another class gets is
the sum of the names of its paths as they occur first, or an object with its keys in order; and
each name in it is bound to the path at that place by a statement for this class, which was made
here or before. -/
theorem planAll_resolves (convention : Convention) (taken : List String)
    (calls : List (String × Refs)) :
    (planAll convention calls { taken }).1.map (fun p => (p.className, p.refs)) = calls ∧
    (planAll convention calls { taken }).1.flatMap (·.imports) =
      (planAll convention calls { taken }).2.sheets.map
        (fun s => importStatement convention s.name s.path) ∧
    ((planAll convention calls { taken }).2.sheets.map fun s => (s.owner, s.path)).Nodup ∧
    ((planAll convention calls { taken }).2.sheets.map (·.name)).Nodup ∧
    ∀ earlier here later,
      (planAll convention calls { taken }).1 = earlier ++ here :: later →
      here.IsResolved convention (importsOf here.className (earlier ++ [here])) := by
  obtain ⟨sound, ⟨added, sheets, imports⟩, resolved⟩ :=
    @BoundBy.run convention calls [] { taken } (fun s hs => absurd hs List.not_mem_nil)
      ⟨List.nodup_nil, List.nodup_nil, by simp⟩
  refine ⟨planAll_calls convention calls _, ?_, sound.places, sound.names, resolved⟩
  rw [imports, sheets]
  rfl

end ComponentLowering.Style
