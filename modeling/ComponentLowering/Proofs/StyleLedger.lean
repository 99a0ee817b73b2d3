/-
# The ledger over a run

The state of a module only ever gains style sheets.  Whatever is called on it in whatever order,
no two sheets share a name or a class and a path, and no sheet has a name that was taken before it.
-/
import ComponentLowering.Lowering.ModuleState
import Mathlib.Data.List.Nodup
import Mathlib.Data.List.Perm.Subperm
import Mathlib.Tactic.ByContra

namespace ComponentLowering.Style

open ComponentLowering.Lowering

/-! ### Fresh names -/

/-- Numbered names of one candidate differ. -/
theorem numbered_injective (candidate : String) : Function.Injective (numbered candidate) := by
  intro i j h
  have digits {m n : Nat} (h : Nat.toDigits 10 m = Nat.toDigits 10 n) : m = n := by
    have := congrArg (Nat.ofDigitChars 10 · 0) h
    simpa only [Nat.ofDigitChars_ten_toDigits] using this
  have chars := congrArg String.toList h
  cases i with
  | zero =>
      cases j with
      | zero => rfl
      | succ j => simp [numbered] at chars
  | succ i =>
      cases j with
      | zero => simp [numbered] at chars
      | succ j => exact digits (by simpa [numbered] using chars)

/-- Among more numbered names than there are taken ones, one is not taken. -/
theorem exists_numbered_not_mem (taken : List String) (candidate : String) :
    ∃ n ∈ List.range (taken.length + 1), numbered candidate n ∉ taken := by
  by_contra! all
  have nodup : ((List.range (taken.length + 1)).map (numbered candidate)).Nodup :=
    List.nodup_range.map (numbered_injective candidate)
  have sub : (List.range (taken.length + 1)).map (numbered candidate) ⊆ taken := by
    intro name h
    obtain ⟨n, hn, rfl⟩ := List.mem_map.mp h
    exact all n hn
  have := (List.subperm_of_subset nodup sub).length_le
  rw [List.length_map, List.length_range] at this
  omega

/-- A fresh name is not taken. -/
theorem freshName_not_mem (taken : List String) (candidate : String) :
    freshName taken candidate ∉ taken := by
  obtain ⟨n, hn, free⟩ := exists_numbered_not_mem taken candidate
  have found : ((List.range (taken.length + 1)).find? fun n =>
      !taken.contains (numbered candidate n)).isSome := by
    rw [List.find?_isSome]
    exact ⟨n, hn, by simpa using free⟩
  obtain ⟨m, hm⟩ := Option.isSome_iff_exists.mp found
  have := List.find?_some hm
  rw [freshName, hm]
  simpa using this

namespace Ledger

/-! ### One hoist -/

theorem holds_iff {className path : String} {s : Sheet} :
    holds className path s = true ↔ s.owner = className ∧ s.path = path := by
  simp [holds]

/-- No two sheets share a name or a class and a path, and the names of all sheets are taken. -/
structure Sound (l : Ledger) : Prop where
  names : (l.sheets.map (·.name)).Nodup
  places : (l.sheets.map fun s => (s.owner, s.path)).Nodup
  taken : ∀ s ∈ l.sheets, s.name ∈ l.taken

/-- Two sheets of a sound ledger for one class and one path are the same. -/
theorem Sound.sheet_unique {l : Ledger} (sound : l.Sound) {a b : Sheet} (ha : a ∈ l.sheets)
    (hb : b ∈ l.sheets) (owner : a.owner = b.owner) (path : a.path = b.path) : a = b :=
  List.inj_on_of_nodup_map sound.places ha hb (Prod.ext owner path)

/-- A path that a class already uses keeps its sheet. -/
theorem Sound.hoist_known {l : Ledger} (sound : l.Sound) {known : Sheet} (mem : known ∈ l.sheets)
    (key : Option String) :
    l.hoist known.owner key known.path = (⟨known.name, false⟩, l) := by
  have found : (l.sheets.find? (holds known.owner known.path)).isSome := by
    rw [List.find?_isSome]
    exact ⟨known, mem, holds_iff.mpr ⟨rfl, rfl⟩⟩
  obtain ⟨sheet, hsheet⟩ := Option.isSome_iff_exists.mp found
  obtain ⟨owner, path⟩ := holds_iff.mp (List.find?_some hsheet)
  have same : sheet = known :=
    sound.sheet_unique (List.mem_of_find?_eq_some hsheet) mem owner path
  rw [hoist, hsheet, same]

/-- A path that a class does not use yet gets a sheet of its own, under a fresh name. -/
theorem hoist_eq_of_new (l : Ledger) {className path : String} (key : Option String)
    (new : ∀ s ∈ l.sheets, ¬ (s.owner = className ∧ s.path = path)) :
    l.hoist className key path =
      (⟨freshName l.taken (candidate className key path), true⟩,
        { sheets := l.sheets ++ [{
            owner := className, key, path
            name := freshName l.taken (candidate className key path) }]
          taken := freshName l.taken (candidate className key path) :: l.taken }) := by
  have missing : l.sheets.find? (holds className path) = none := by
    rw [List.find?_eq_none]
    intro s hs h
    exact new s hs (holds_iff.mp h)
  rw [hoist, missing]

/-- That name was free. -/
theorem hoist_new (l : Ledger) (className : String) (key : Option String) (path : String)
    (new : ∀ s ∈ l.sheets, ¬ (s.owner = className ∧ s.path = path)) :
    ∃ name, name ∉ l.taken ∧
      l.hoist className key path =
        (⟨name, true⟩,
          { sheets := l.sheets ++ [{ owner := className, key, path, name }]
            taken := name :: l.taken }) :=
  ⟨_, freshName_not_mem _ _, l.hoist_eq_of_new key new⟩

/-- What a hoist does to a sound ledger: nothing, or it adds one sheet under a free name. -/
theorem Sound.hoist_cases {l : Ledger} (sound : l.Sound) (className : String)
    (key : Option String) (path : String) :
    (∃ known ∈ l.sheets, known.owner = className ∧ known.path = path ∧
      l.hoist className key path = (⟨known.name, false⟩, l)) ∨
    (∃ name, name ∉ l.taken ∧
      (∀ s ∈ l.sheets, ¬ (s.owner = className ∧ s.path = path)) ∧
      l.hoist className key path =
        (⟨name, true⟩,
          { sheets := l.sheets ++ [{ owner := className, key, path, name }]
            taken := name :: l.taken })) := by
  by_cases used : ∃ known ∈ l.sheets, known.owner = className ∧ known.path = path
  · obtain ⟨known, mem, rfl, rfl⟩ := used
    exact .inl ⟨known, mem, rfl, rfl, sound.hoist_known mem key⟩
  · have new : ∀ s ∈ l.sheets, ¬ (s.owner = className ∧ s.path = path) :=
      fun s hs h => used ⟨s, hs, h⟩
    obtain ⟨name, free, eq⟩ := l.hoist_new className key path new
    exact .inr ⟨name, free, new, eq⟩

/-- A sound ledger stays sound when a sheet for a new place is added under a free name. -/
theorem Sound.add {l : Ledger} (sound : l.Sound) {sheet : Sheet} (free : sheet.name ∉ l.taken)
    (new : ∀ s ∈ l.sheets, ¬ (s.owner = sheet.owner ∧ s.path = sheet.path)) :
    Sound { sheets := l.sheets ++ [sheet], taken := sheet.name :: l.taken } where
  names := by
    rw [List.map_append, List.map_singleton, ← List.concat_eq_append, List.nodup_concat]
    refine ⟨?_, sound.names⟩
    intro h
    obtain ⟨s, hs, same⟩ := List.mem_map.mp h
    exact free (same ▸ sound.taken s hs)
  places := by
    rw [List.map_append, List.map_singleton, ← List.concat_eq_append, List.nodup_concat]
    refine ⟨?_, sound.places⟩
    intro h
    obtain ⟨s, hs, same⟩ := List.mem_map.mp h
    exact new s hs (Prod.mk.inj same)
  taken := by
    intro s hs
    rcases List.mem_append.mp hs with old | added
    · exact List.mem_cons_of_mem _ (sound.taken s old)
    · rw [List.mem_singleton.mp added]
      exact List.mem_cons_self

theorem Sound.reserve {l : Ledger} (sound : l.Sound) (name : String) : (l.reserve name).Sound where
  names := sound.names
  places := sound.places
  taken := fun s hs => List.mem_cons_of_mem _ (sound.taken s hs)

theorem Sound.hoist {l : Ledger} (sound : l.Sound) (className : String) (key : Option String)
    (path : String) : (l.hoist className key path).2.Sound := by
  rcases sound.hoist_cases className key path with ⟨_, _, _, _, eq⟩ | ⟨name, free, new, eq⟩
  · rw [eq]
    exact sound
  · rw [eq]
    exact sound.add free new

end Ledger

end ComponentLowering.Style

namespace ComponentLowering.Lowering

open ComponentLowering.Style

/-! ### Runs -/

/-- A call that changes the state of a module. -/
inductive StateCall where
  | reserve (name : String)
  | hoist (className : String) (key : Option String) (path : String)
  | useCore (f : CoreFunction)
  | moveComments (source target : Nat)
deriving DecidableEq, Repr

namespace StateCall

/-- The state behind a call. -/
def apply (s : ModuleState) : StateCall → ModuleState
  | reserve name => s.reserve name
  | hoist className key path => (s.hoist className key path).2
  | useCore f => s.useCore f
  | moveComments source target => s.moveComments source target

/-- The state behind some calls, the first one made on a state. -/
def applyAll (s : ModuleState) (calls : List StateCall) : ModuleState := calls.foldl apply s

/-- The state of a new module behind some calls. -/
def run (calls : List StateCall) : ModuleState := applyAll {} calls

end StateCall

namespace ModuleState

/-- Whether one state goes on from another: it has the same style sheets and further ones behind
them, none under a name that was taken, and what was taken is taken. -/
structure GoesOn (s t : ModuleState) : Prop where
  taken : s.styles.taken ⊆ t.styles.taken
  sheets : ∃ added, t.styles.sheets = s.styles.sheets ++ added ∧
    ∀ sheet ∈ added, sheet.name ∉ s.styles.taken

theorem GoesOn.refl (s : ModuleState) : GoesOn s s :=
  ⟨List.Subset.refl _, [], by simp, by simp⟩

theorem GoesOn.trans {s t u : ModuleState} (first : GoesOn s t) (second : GoesOn t u) :
    GoesOn s u := by
  obtain ⟨added, eq, free⟩ := first.sheets
  obtain ⟨more, eq', free'⟩ := second.sheets
  refine ⟨List.Subset.trans first.taken second.taken, added ++ more, by
    rw [eq', eq, List.append_assoc], ?_⟩
  intro sheet h
  rcases List.mem_append.mp h with here | later
  · exact free sheet here
  · exact fun taken => free' sheet later (first.taken taken)

/-- What leaves the ledger as it is goes on. -/
theorem GoesOn.of_styles_eq {s t : ModuleState} (h : t.styles = s.styles) : GoesOn s t :=
  ⟨h ▸ List.Subset.refl _, [], by simp [h], by simp⟩

@[simp] theorem styles_useCore (s : ModuleState) (f : CoreFunction) :
    (s.useCore f).styles = s.styles := rfl

@[simp] theorem styles_moveComments (s : ModuleState) (source target : Nat) :
    (s.moveComments source target).styles = s.styles := by
  unfold moveComments
  split <;> rfl

theorem hoist_eq (s : ModuleState) (className : String) (key : Option String) (path : String) :
    s.hoist className key path =
      ((s.styles.hoist className key path).1,
        { s with styles := (s.styles.hoist className key path).2 }) := rfl

theorem goesOn_hoist {s : ModuleState} (sound : s.styles.Sound) (className : String)
    (key : Option String) (path : String) : GoesOn s (s.hoist className key path).2 := by
  rw [hoist_eq]
  rcases sound.hoist_cases className key path with ⟨_, _, _, _, eq⟩ | ⟨name, free, _, eq⟩
  · exact .of_styles_eq (by rw [eq])
  · rw [eq]
    exact ⟨List.subset_cons_self _ _, _, rfl, by simpa using free⟩

/-- One call keeps the ledger sound and only adds to it. -/
theorem sound_apply {s : ModuleState} (sound : s.styles.Sound) (call : StateCall) :
    (call.apply s).styles.Sound ∧ GoesOn s (call.apply s) := by
  cases call with
  | reserve name =>
      exact ⟨sound.reserve name, List.subset_cons_self _ _, [], by simp [StateCall.apply, reserve,
        Ledger.reserve], by simp⟩
  | hoist className key path =>
      exact ⟨sound.hoist className key path, goesOn_hoist sound className key path⟩
  | useCore f => exact ⟨sound, .of_styles_eq rfl⟩
  | moveComments source target =>
      have eq := s.styles_moveComments source target
      exact ⟨by rw [StateCall.apply, eq]; exact sound, .of_styles_eq eq⟩

/-- So do any number of calls. -/
theorem sound_applyAll {s : ModuleState} (sound : s.styles.Sound) (calls : List StateCall) :
    (StateCall.applyAll s calls).styles.Sound ∧ GoesOn s (StateCall.applyAll s calls) := by
  induction calls generalizing s with
  | nil => exact ⟨sound, .refl s⟩
  | cons call calls ih =>
      obtain ⟨soundHere, here⟩ := sound_apply sound call
      obtain ⟨soundLater, later⟩ := ih soundHere
      exact ⟨soundLater, here.trans later⟩

end ModuleState

namespace StateCall

theorem run_append (earlier later : List StateCall) :
    run (earlier ++ later) = applyAll (run earlier) later :=
  List.foldl_append

/-- The ledger of every run is sound. -/
theorem sound_run (calls : List StateCall) : (run calls).styles.Sound :=
  (ModuleState.sound_applyAll (s := {}) ⟨List.nodup_nil, List.nodup_nil, by simp⟩ calls).1

/-- What is reserved during a run is taken at its end. -/
theorem mem_taken_of_reserve {calls : List StateCall} {name : String}
    (mem : reserve name ∈ calls) : name ∈ (run calls).styles.taken := by
  obtain ⟨earlier, later, rfl⟩ := List.append_of_mem mem
  have here : name ∈ ((reserve name).apply (run earlier)).styles.taken := List.mem_cons_self
  rw [run_append]
  exact (ModuleState.sound_applyAll ((sound_run earlier).reserve name) later).2.taken here

/-- The style sheets of a module are an injective map from a class and a path to a name that only
grows.  Behind any calls the names of the sheets differ, and so do their classes with their paths.
Behind further calls the sheets stand as they stood, and the added ones have names that were not
reserved before.  Hoisting a known sheet changes nothing and gives its name; hoisting another adds
one sheet and leaves the rest of the state alone. -/
theorem run_grows_injectively (calls : List StateCall) :
    ((run calls).styles.sheets.map (·.name)).Nodup ∧
    ((run calls).styles.sheets.map fun s => (s.owner, s.path)).Nodup ∧
    (∀ later, ∃ added, (run (calls ++ later)).styles.sheets = (run calls).styles.sheets ++ added ∧
      ∀ sheet ∈ added, ∀ name, reserve name ∈ calls → sheet.name ≠ name) ∧
    (∀ known ∈ (run calls).styles.sheets, ∀ key,
      (run calls).hoist known.owner key known.path = (⟨known.name, false⟩, run calls)) ∧
    (∀ className key path,
      (∀ s ∈ (run calls).styles.sheets, ¬ (s.owner = className ∧ s.path = path)) →
      ∃ name, (run calls).hoist className key path =
        (⟨name, true⟩,
          { run calls with
            styles :=
              { sheets := (run calls).styles.sheets ++ [{ owner := className, key, path, name }]
                taken := name :: (run calls).styles.taken } })) := by
  have sound := sound_run calls
  refine ⟨sound.names, sound.places, ?_, ?_, ?_⟩
  · intro later
    obtain ⟨added, eq, free⟩ := (ModuleState.sound_applyAll sound later).2.sheets
    refine ⟨added, by rw [run_append, eq], ?_⟩
    rintro sheet mem name reserved rfl
    exact free sheet mem (mem_taken_of_reserve reserved)
  · intro known mem key
    rw [ModuleState.hoist_eq, sound.hoist_known mem key]
  · intro className key path new
    obtain ⟨name, _, eq⟩ := (run calls).styles.hoist_new className key path new
    exact ⟨name, by rw [ModuleState.hoist_eq, eq]⟩

end StateCall

end ComponentLowering.Lowering
