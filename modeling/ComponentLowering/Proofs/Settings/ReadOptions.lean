/-
# Options read back

A JSON object that gives options is read as these options, in whatever order and layout it gives them and whatever
else it holds.  An object that gives a setting twice is refused, even where it gives no options otherwise.
-/
import ComponentLowering.Proofs.Json.WantedValues
import ComponentLowering.Proofs.Settings.Words

namespace ComponentLowering.Settings

open ComponentLowering.Json ComponentLowering.Text

variable {α : Type} {a : α} {o o' : GivenOptions} {options : Options} {setting : Setting} {reader : Reader α}
  {before behindKey beforeValue value body rest trail : List Char} {fuel : Nat} {m : String × Member}
  {more : List (String × Member)}

/-! ### Texts of options -/

/-- The keys of an object, each with the member that it is spelled in. -/
def keysOf (members : List (String × Member)) : List String := members.map Prod.fst

/-- Whether an object is JSON whose keys are texts. -/
structure IsObject (members : List (String × Member)) : Prop where
  spaced : ∀ m ∈ members, m.2.IsSpaced
  keys : ∀ m ∈ members, Spells m.1.toList m.2.key
  values : ∀ m ∈ members, IsValue m.2.value

/-- Whether a member gives options, if it gives any: under the key of a setting stands a spelling of its word. -/
def GivesWord (options : Options) (m : String × Member) : Prop :=
  ∀ setting : Setting, m.1 = setting.key →
    ∃ body, Spells (setting.word options).toList body ∧ m.2.value = quoted body

/-- Whether an object gives words for some settings, for each of them at most once.  Under any other key it may
hold any value. -/
structure GivesWords (options : Options) (members : List (String × Member)) : Prop where
  spaced : ∀ m ∈ members, m.2.IsSpaced
  keys : ∀ m ∈ members, Spells m.1.toList m.2.key
  words : ∀ m ∈ members, GivesWord options m
  others : ∀ m ∈ members, (∀ setting : Setting, m.1 ≠ setting.key) → IsValue m.2.value
  once : ∀ setting : Setting, (keysOf members).count setting.key ≤ 1

/-- Whether an object gives options: no setting is left out but with its default. -/
structure GivesOptions (options : Options) (members : List (String × Member)) : Prop extends
    GivesWords options members where
  left : ∀ setting : Setting, setting.key ∉ keysOf members → setting.word options = setting.word {}

theorem IsObject.tail (h : IsObject (m :: more)) : IsObject more where
  spaced := fun other mem => h.spaced other (List.mem_cons_of_mem m mem)
  keys := fun other mem => h.keys other (List.mem_cons_of_mem m mem)
  values := fun other mem => h.values other (List.mem_cons_of_mem m mem)

theorem GivesWords.tail (h : GivesWords options (m :: more)) : GivesWords options more where
  spaced := fun other mem => h.spaced other (List.mem_cons_of_mem m mem)
  keys := fun other mem => h.keys other (List.mem_cons_of_mem m mem)
  words := fun other mem => h.words other (List.mem_cons_of_mem m mem)
  others := fun other mem => h.others other (List.mem_cons_of_mem m mem)
  once := fun setting => Nat.le_trans ((List.sublist_cons_self m.1 (keysOf more)).count_le _) (h.once setting)

/-- A setting that is given first is not given again. -/
theorem GivesWords.ne_of_mem (h : GivesWords options (m :: more)) (mem : setting.key ∈ keysOf more) :
    m.1 ≠ setting.key := by
  intro eq
  have once := h.once setting
  have there := List.count_pos_iff.mpr mem
  change (m.1 :: keysOf more).count setting.key ≤ 1 at once
  rw [eq, List.count_cons_self] at once
  omega

/-- An object with white space around it. -/
def optionsText (lead blank trail : List Char) (members : List (String × Member)) : List Char :=
  lead ++ objectText blank (members.map Prod.snd) ++ trail

/-! ### Members that give a word -/

namespace OptionsText

theorem find?_convention (c : Convention) :
    [("esm", Convention.esm), ("cjs", .cjs)].find? (·.1 == c.name) = some (c.name, c) := by
  cases c <;> rfl

theorem find?_componentExport (c : ComponentExport) :
    [("lazy", ComponentExport.lazy), ("customelement", .customElement)].find? (·.1 == c.name) =
      some (c.name, c) := by
  cases c <;> rfl

theorem find?_style (c : StyleMode) :
    [("static", StyleMode.static), ("none", .none)].find? (·.1 == c.name) = some (c.name, c) := by
  cases c <;> rfl

/-- How a setting is held among options that are given: what has been given for it, the options with something in
its place, and the reader for what may be given. -/
structure Slot (o : GivenOptions) (setting : Setting) where
  {Value : Type}
  held : Option Value
  put : Option Value → GivenOptions
  reader : Reader Value
  word : Value → String
  member_eq : member o setting.key = (do return put (← given setting.key held reader))
  word?_eq : Setting.word? o setting = held.map word
  word?_put : ∀ (a : Value) (other : Setting),
    Setting.word? (put (some a)) other = if other = setting then some (word a) else Setting.word? o other
  /-- A spelling of the word for some options is read as what these options have. -/
  reads : ∀ {options : Options} {body before rest : List Char}, Spells (setting.word options).toList body →
    IsBlank before → ∃ a, word a = setting.word options ∧ Reads reader (before ++ (quoted body ++ rest)) a rest
  leaves : ∀ {value before rest : List Char}, IsValue value → IsBlank before →
    Leaves reader (before ++ (value ++ rest)) fun _ left => left = rest

/-- The slot of each setting. -/
def slot (o : GivenOptions) : (setting : Setting) → Slot o setting
  | .corePath => {
      held := o.corePath
      put := fun given => { o with corePath := given }
      reader := corePath
      word := id
      member_eq := by
        unfold member
        rw [if_pos (by rfl)]
      word?_eq := Option.map_id'.symm
      word?_put := fun _ other => by cases other <;> rfl
      reads := fun spells blank => ⟨_, String.ofList_toList, reads_string spells blank⟩
      leaves := leaves_string }
  | .convention => {
      held := o.convention
      put := fun given => { o with convention := given }
      reader := convention
      word := Convention.name
      member_eq := by
        unfold member
        rw [if_neg (by decide), if_pos (by rfl)]
      word?_eq := rfl
      word?_put := fun _ other => by cases other <;> rfl
      reads := fun {options _ _ _} spells blank =>
        ⟨options.convention, rfl, reads_oneOf spells blank (find?_convention _)⟩
      leaves := leaves_oneOf _ }
  | .componentExport => {
      held := o.componentExport
      put := fun given => { o with componentExport := given }
      reader := componentExport
      word := ComponentExport.name
      member_eq := by
        unfold member
        rw [if_neg (by decide), if_neg (by decide), if_pos (by rfl)]
      word?_eq := rfl
      word?_put := fun _ other => by cases other <;> rfl
      reads := fun {options _ _ _} spells blank =>
        ⟨options.componentExport, rfl, reads_oneOf spells blank (find?_componentExport _)⟩
      leaves := leaves_oneOf _ }
  | .style => {
      held := o.style
      put := fun given => { o with style := given }
      reader := style
      word := StyleMode.name
      member_eq := by
        unfold member
        rw [if_neg (by decide), if_neg (by decide), if_neg (by decide), if_pos (by rfl)]
      word?_eq := rfl
      word?_put := fun _ other => by cases other <;> rfl
      reads := fun {options _ _ _} spells blank =>
        ⟨options.style, rfl, reads_oneOf spells blank (find?_style _)⟩
      leaves := leaves_oneOf _ }

/-- A member for a setting sets it, if it has not been set before. -/
theorem reads_member_setting (spaced : m.2.IsSpaced) (unset : Setting.word? o setting = none)
    (spells : Spells (setting.word options).toList body) (eq : m.2.value = quoted body) (rest : List Char) :
    ∃ o', Reads (member o setting.key)
        (m.2.behindKey ++ ':' :: (m.2.beforeValue ++ (m.2.value ++ rest))) o' rest ∧
      ∀ other, Setting.word? o' other =
        if other = setting then some (setting.word options) else Setting.word? o other := by
  let place := slot o setting
  obtain ⟨a, isWord, reads⟩ := place.reads spells spaced.beforeValue
  have none : place.held = none := by
    rw [place.word?_eq] at unset
    exact Option.map_eq_none_iff.mp unset
  refine ⟨place.put (some a), ?_, fun other => isWord ▸ place.word?_put a other⟩
  rw [place.member_eq, none]
  unfold given
  refine Reads.bind ?_ (reads_pure _ _)
  refine (reads_colon spaced.behindKey).bind ?_
  rw [eq]
  exact reads.bind (reads_pure _ _)

/-- A member for nothing that is known is passed over. -/
theorem reads_member_unknown (unknown : ∀ setting : Setting, m.1 ≠ setting.key) (spaced : m.2.IsSpaced)
    (isValue : IsValue m.2.value) (ends : EndsValue rest) :
    Reads (member o m.1) (m.2.behindKey ++ ':' :: (m.2.beforeValue ++ (m.2.value ++ rest))) o rest := by
  have path : m.1 ≠ "coreImportPath" := unknown .corePath
  have convention : m.1 ≠ "module" := unknown .convention
  have componentExport : m.1 ≠ "componentExport" := unknown .componentExport
  have style : m.1 ≠ "style" := unknown .style
  unfold member
  rw [if_neg (by simpa using path), if_neg (by simpa using convention), if_neg (by simpa using componentExport),
    if_neg (by simpa using style)]
  refine (reads_colon spaced.behindKey).bind ?_
  exact (reads_ignored isValue spaced.beforeValue ends).bind (reads_pure _ _)

/-- What a member changes in the options that are given. -/
def IsSetBy (options : Options) (m : String × Member) (o o' : GivenOptions) : Prop :=
  ∀ setting : Setting, Setting.word? o' setting =
    if m.1 = setting.key then some (setting.word options) else Setting.word? o setting

theorem reads_member (gives : GivesWord options m) (spaced : m.2.IsSpaced)
    (others : (∀ setting : Setting, m.1 ≠ setting.key) → IsValue m.2.value)
    (unset : ∀ setting : Setting, m.1 = setting.key → Setting.word? o setting = none) (ends : EndsValue rest) :
    ∃ o', Reads (member o m.1) (m.2.behindKey ++ ':' :: (m.2.beforeValue ++ (m.2.value ++ rest))) o' rest ∧
      IsSetBy options m o o' := by
  by_cases known : ∃ setting : Setting, m.1 = setting.key
  · obtain ⟨setting, eq⟩ := known
    obtain ⟨body, spells, isString⟩ := gives setting eq
    obtain ⟨o', reads, set⟩ := reads_member_setting spaced (unset setting eq) spells isString rest
    refine ⟨o', eq ▸ reads, fun other => ?_⟩
    rw [set other, eq]
    by_cases same : other = setting
    · rw [if_pos same, if_pos (by rw [same]), same]
    · rw [if_neg same, if_neg fun eq => same (Setting.key_inj.mp eq).symm]
  · rw [not_exists] at known
    refine ⟨o, reads_member_unknown known spaced (others known) ends, fun setting => ?_⟩
    rw [if_neg (known setting)]

/-! ### Keys -/

theorem reads_key {key : String} {m : Member} (spells : Spells key.toList m.key) (rest : List Char) :
    Reads (do
      Reader.advance
      return some (← Reader.stringRest true)) (m.tail ++ rest) (some key)
      (m.behindKey ++ ':' :: (m.beforeValue ++ (m.value ++ (m.after ++ rest)))) := by
  simp only [Member.tail, quoted, List.cons_append, List.append_assoc]
  refine reads_advance.bind ((reads_stringRest spells).bind ?_)
  rw [String.ofList_toList]
  exact reads_pure _ _

/-- The first key of an object. -/
theorem reads_nextKey?_first {key : String} {m : Member} (spells : Spells key.toList m.key)
    (blank : IsBlank before) (rest : List Char) :
    Reads (Reader.nextKey? true) (before ++ (m.tail ++ rest)) (some key)
      (m.behindKey ++ ':' :: (m.beforeValue ++ (m.value ++ (m.after ++ rest)))) := by
  unfold Reader.nextKey?
  refine (reads_next?_cons blank (by decide)).bind ?_
  exact reads_key spells rest

/-- A further key of an object. -/
theorem reads_nextKey?_further {key : String} {m : Member} (spells : Spells key.toList m.key)
    (blank : IsBlank before) (spaced : m.IsSpaced) (rest : List Char) :
    Reads (Reader.nextKey? false) (before ++ ',' :: (m.text ++ rest)) (some key)
      (m.behindKey ++ ':' :: (m.beforeValue ++ (m.value ++ (m.after ++ rest)))) := by
  unfold Reader.nextKey?
  refine (reads_next?_cons blank (by decide)).bind ?_
  refine reads_advance.bind ?_
  rw [Member.text, List.append_assoc]
  refine (reads_next?_cons spaced.before (by decide)).bind ?_
  exact reads_key spells rest

/-- The end of an object. -/
theorem reads_nextKey?_none (blank : IsBlank before) (isFirst : Bool) :
    Reads (Reader.nextKey? isFirst) (before ++ '\x7d' :: rest) none ('\x7d' :: rest) := by
  unfold Reader.nextKey?
  exact (reads_next?_cons blank (by decide)).bind (reads_pure _ _)

/-! ### All members -/

/-- The texts of members. -/
def textsOf (members : List (String × Member)) : List (List Char) :=
  (members.map Prod.snd).map Member.text

/-- The words of an object for the settings, over those that were there before. -/
def AreSetBy (options : Options) (members : List (String × Member)) (o o' : GivenOptions) : Prop :=
  ∀ setting : Setting, Setting.word? o' setting =
    if setting.key ∈ keysOf members then some (setting.word options) else Setting.word? o setting

theorem IsSetBy.cons {o'' : GivenOptions} (first : IsSetBy options m o o') (later : AreSetBy options more o' o'') :
    AreSetBy options (m :: more) o o'' := by
  intro setting
  rw [later setting, first setting]
  change _ = if setting.key ∈ m.1 :: keysOf more then _ else _
  by_cases here : setting.key ∈ keysOf more
  · rw [if_pos here, if_pos (List.mem_cons_of_mem _ here)]
  · rw [if_neg here]
    by_cases eq : m.1 = setting.key
    · rw [if_pos eq, if_pos (by rw [eq]; exact List.mem_cons_self ..)]
    · rw [if_neg eq, if_neg]
      rw [List.mem_cons, not_or]
      exact ⟨fun same => eq same.symm, here⟩

/-- A key is read, then its value, then the members behind it. -/
theorem reads_members_cons {isFirst : Bool} {text : List Char} (gives : GivesWords options (m :: more))
    (unset : ∀ setting : Setting, setting.key ∈ keysOf (m :: more) → Setting.word? o setting = none)
    (key : Reads (Reader.nextKey? isFirst) text (some m.1) (m.2.behindKey ++ ':' :: (m.2.beforeValue ++
      (m.2.value ++ (m.2.after ++ behind '\x7d' trail (textsOf more))))))
    (later : ∀ o', (∀ setting : Setting, setting.key ∈ keysOf more → Setting.word? o' setting = none) →
      ∃ o'', Reads (members fuel false o') (m.2.after ++ behind '\x7d' trail (textsOf more)) o'' rest ∧
        AreSetBy options more o' o'') :
    ∃ o'', Reads (members (fuel + 1) isFirst o) text o'' rest ∧ AreSetBy options (m :: more) o o'' := by
  have spaced := gives.spaced m (List.mem_cons_self ..)
  obtain ⟨o', value, set⟩ := reads_member (gives.words m (List.mem_cons_self ..)) spaced
    (gives.others m (List.mem_cons_self ..))
    (fun setting eq => unset setting (by rw [← eq]; exact List.mem_cons_self ..))
    (endsValue_behind (.inr rfl) spaced.after (textsOf more))
  obtain ⟨o'', later, set'⟩ := later o' fun setting mem => by
    rw [set setting, if_neg (gives.ne_of_mem mem)]
    exact unset setting (List.mem_cons_of_mem _ mem)
  refine ⟨o'', ?_, set.cons set'⟩
  unfold members
  exact key.bind (value.bind later)

theorem reads_further (gives : GivesWords options more)
    (unset : ∀ setting : Setting, setting.key ∈ keysOf more → Setting.word? o setting = none)
    (enough : more.length < fuel) (blank : IsBlank before) :
    ∃ o', Reads (members fuel false o) (before ++ behind '\x7d' trail (textsOf more)) o' ('\x7d' :: trail) ∧
      AreSetBy options more o o' := by
  obtain ⟨fuel, rfl⟩ := Nat.exists_eq_add_one.mpr (Nat.zero_lt_of_lt enough)
  induction more generalizing o before fuel with
  | nil =>
      refine ⟨o, ?_, fun setting => rfl⟩
      unfold members
      exact (reads_nextKey?_none blank false).bind (reads_pure _ _)
  | cons m more ih =>
      have spaced := gives.spaced m (List.mem_cons_self ..)
      have enough := Nat.lt_of_succ_lt_succ enough
      obtain ⟨fuel, rfl⟩ := Nat.exists_eq_add_one.mpr (Nat.zero_lt_of_lt enough)
      exact reads_members_cons gives unset
        (reads_nextKey?_further (gives.keys m (List.mem_cons_self ..)) blank spaced _)
        fun o' unset => ih gives.tail unset spaced.after fuel enough

/-! ### Settings that are given twice -/

theorem fails_duplicate (key : String) (text : List Char) : Fails (Reader.duplicate key : Reader α) text := by
  unfold Reader.duplicate
  refine (leaves_anything _ _).bind fun next rest _ => ?_
  split
  · exact Leaves.thenFails fun _ => leaves_failHere _
  · exact leaves_failHere _

/-- A member for a setting that has been set is refused; any other one sets it or is refused. -/
theorem leaves_member_setting (setting : Setting) (spaced : m.2.IsSpaced) (isValue : IsValue m.2.value) :
    Leaves (member o setting.key) (m.2.behindKey ++ ':' :: (m.2.beforeValue ++ (m.2.value ++ rest)))
      fun o' left => left = rest ∧ Setting.word? o setting = none ∧
        ∃ word, ∀ other, Setting.word? o' other = if other = setting then some word else Setting.word? o other := by
  let place := slot o setting
  rw [place.member_eq, place.word?_eq]
  unfold given
  cases place.held with
  | some a => exact Fails.bind (fails_duplicate _ _)
  | none =>
      refine Leaves.bind (P := fun found left => left = rest ∧ ∃ a, found = some a) ?_ ?_
      · refine (reads_colon spaced.behindKey).bind_leaves ?_
        exact (place.leaves isValue spaced.beforeValue).bind fun a left same => leaves_pure ⟨same, a, rfl⟩
      · rintro found left ⟨same, a, rfl⟩
        exact leaves_pure ⟨same, rfl, place.word a, place.word?_put a⟩

/-- What is known of the options behind a member: all that was given before is given, and what the member gives
was not. -/
def IsGivenBy (m : String × Member) (o o' : GivenOptions) : Prop :=
  ∀ setting : Setting, (m.1 = setting.key → Setting.word? o setting = none) ∧
    (m.1 = setting.key ∨ (Setting.word? o setting).isSome → (Setting.word? o' setting).isSome)

theorem leaves_member (spaced : m.2.IsSpaced) (isValue : IsValue m.2.value) (ends : EndsValue rest) :
    Leaves (member o m.1) (m.2.behindKey ++ ':' :: (m.2.beforeValue ++ (m.2.value ++ rest)))
      fun o' left => left = rest ∧ IsGivenBy m o o' := by
  by_cases known : ∃ setting : Setting, m.1 = setting.key
  · obtain ⟨setting, eq⟩ := known
    rw [eq]
    refine (leaves_member_setting setting spaced isValue).mono ?_
    rintro o' left ⟨same, unset, word, set⟩
    refine ⟨same, fun other => ⟨fun eq' => ?_, fun given => ?_⟩⟩
    · rwa [← Setting.key_inj.mp (eq.symm.trans eq')]
    · rw [set other]
      by_cases same : other = setting
      · rw [if_pos same]
        rfl
      · rw [if_neg same]
        refine given.resolve_left fun eq' => same ?_
        exact (Setting.key_inj.mp (eq.symm.trans eq')).symm
  · rw [not_exists] at known
    refine (reads_member_unknown known spaced isValue ends).leaves ⟨rfl, fun setting => ⟨?_, ?_⟩⟩
    · exact fun eq => absurd eq (known setting)
    · exact fun given => given.resolve_left (known setting)

/-- Whether a setting is given twice, counting what has been given before. -/
def GivenTwice (o : GivenOptions) (members : List (String × Member)) : Prop :=
  ∃ setting : Setting, 2 ≤ (keysOf members).count setting.key + (Setting.word? o setting).isSome.toNat

theorem GivenTwice.tail (h : GivenTwice o (m :: more)) (given : IsGivenBy m o o') : GivenTwice o' more := by
  obtain ⟨setting, twice⟩ := h
  obtain ⟨unset, isSome⟩ := given setting
  refine ⟨setting, ?_⟩
  change 2 ≤ (m.1 :: keysOf more).count setting.key + _ at twice
  rw [List.count_cons] at twice
  by_cases eq : m.1 = setting.key
  · rw [unset eq, if_pos (by simpa using eq)] at twice
    rw [isSome (.inl eq)]
    exact twice
  · rw [if_neg (by simpa using eq)] at twice
    cases before : (Setting.word? o setting).isSome with
    | true =>
        rw [before] at twice
        rw [isSome (.inr before)]
        exact twice
    | false =>
        rw [before] at twice
        exact Nat.le_trans twice (Nat.le_add_right ..)

theorem fails_members_cons {isFirst : Bool} {text : List Char} (isObject : IsObject (m :: more))
    (twice : GivenTwice o (m :: more))
    (key : Reads (Reader.nextKey? isFirst) text (some m.1) (m.2.behindKey ++ ':' :: (m.2.beforeValue ++
      (m.2.value ++ (m.2.after ++ behind '\x7d' trail (textsOf more))))))
    (later : ∀ o', GivenTwice o' more →
      Fails (members fuel false o') (m.2.after ++ behind '\x7d' trail (textsOf more))) :
    Fails (members (fuel + 1) isFirst o) text := by
  have spaced := isObject.spaced m (List.mem_cons_self ..)
  have value := isObject.values m (List.mem_cons_self ..)
  unfold members
  refine key.bind_leaves ((leaves_member spaced value (endsValue_behind (.inr rfl) spaced.after _)).bind ?_)
  rintro o' left ⟨rfl, given⟩
  exact later o' (twice.tail given)

theorem not_givenTwice_nil : ¬GivenTwice o [] := by
  rintro ⟨setting, twice⟩
  have one := Bool.toNat_le (Setting.word? o setting).isSome
  change 2 ≤ 0 + _ at twice
  omega

theorem fails_further (isObject : IsObject more) (twice : GivenTwice o more) (enough : more.length < fuel)
    (blank : IsBlank before) :
    Fails (members fuel false o) (before ++ behind '\x7d' trail (textsOf more)) := by
  obtain ⟨fuel, rfl⟩ := Nat.exists_eq_add_one.mpr (Nat.zero_lt_of_lt enough)
  induction more generalizing o before fuel with
  | nil => exact absurd twice not_givenTwice_nil
  | cons m more ih =>
      have spaced := isObject.spaced m (List.mem_cons_self ..)
      have enough := Nat.lt_of_succ_lt_succ enough
      obtain ⟨fuel, rfl⟩ := Nat.exists_eq_add_one.mpr (Nat.zero_lt_of_lt enough)
      exact fails_members_cons isObject twice
        (reads_nextKey?_further (isObject.keys m (List.mem_cons_self ..)) blank spaced _)
        fun o' twice => ih isObject.tail twice spaced.after fuel enough

/-! ### The whole text -/

/-- An object behind its opening brace. -/
def inside (blank trail : List Char) : List (String × Member) → List Char
  | [] => blank ++ '\x7d' :: trail
  | m :: more => (blank ++ m.2.before) ++ (m.2.tail ++ behind '\x7d' trail (textsOf more))

theorem objectText_append (blank trail : List Char) (members : List (String × Member)) :
    objectText blank (members.map Prod.snd) ++ trail = '\x7b' :: inside blank trail members := by
  cases members with
  | nil => simp [objectText, separated, inside]
  | cons m more => exact objectText_cons blank m.2 (more.map Prod.snd) trail

/-- There are no more members than characters. -/
theorem length_le_inside (blank trail : List Char) (members : List (String × Member)) :
    members.length ≤ (inside blank trail members).length := by
  have further (more : List (String × Member)) : more.length < (behind '\x7d' trail (textsOf more)).length := by
    induction more with
    | nil => exact Nat.succ_pos _
    | cons m more ih =>
        change more.length + 1 < (',' :: (m.2.text ++ behind '\x7d' trail (textsOf more))).length
        rw [List.length_cons, List.length_append]
        omega
  cases members with
  | nil => exact Nat.zero_le _
  | cons m more =>
      have later := further more
      simp only [inside, List.length_append, List.length_cons]
      omega

theorem reads_inside {blank : List Char} {members : List (String × Member)} (gives : GivesWords options members)
    (isBlank : IsBlank blank) (enough : members.length < fuel) (trail : List Char) :
    ∃ o, Reads (OptionsText.members fuel true {}) (inside blank trail members) o ('\x7d' :: trail) ∧
      AreSetBy options members {} o := by
  obtain ⟨fuel, rfl⟩ := Nat.exists_eq_add_one.mpr (Nat.zero_lt_of_lt enough)
  cases members with
  | nil =>
      refine ⟨{}, ?_, fun setting => rfl⟩
      unfold OptionsText.members
      exact (reads_nextKey?_none isBlank true).bind (reads_pure _ _)
  | cons m more =>
      have spaced := gives.spaced m (List.mem_cons_self ..)
      exact reads_members_cons gives (fun setting _ => by cases setting <;> rfl)
        (reads_nextKey?_first (gives.keys m (List.mem_cons_self ..)) (isBlank.append spaced.before) _)
        fun o' unset => reads_further gives.tail unset (Nat.lt_of_succ_lt_succ enough) spaced.after

theorem fails_inside {blank : List Char} {members : List (String × Member)} (isObject : IsObject members)
    (twice : GivenTwice {} members) (isBlank : IsBlank blank) (enough : members.length < fuel)
    (trail : List Char) :
    Fails (OptionsText.members fuel true {}) (inside blank trail members) := by
  obtain ⟨fuel, rfl⟩ := Nat.exists_eq_add_one.mpr (Nat.zero_lt_of_lt enough)
  cases members with
  | nil => exact absurd twice not_givenTwice_nil
  | cons m more =>
      have spaced := isObject.spaced m (List.mem_cons_self ..)
      exact fails_members_cons isObject twice
        (reads_nextKey?_first (isObject.keys m (List.mem_cons_self ..)) (isBlank.append spaced.before) _)
        fun o' twice => fails_further isObject.tail twice (Nat.lt_of_succ_lt_succ enough) spaced.after

theorem reads_finished (isBlank : IsBlank trail) : Reads Reader.finished trail ⟨⟩ [] := by
  unfold Reader.finished
  have all : Reads Reader.next? (trail ++ []) none [] := reads_next? isBlank nofun
  rw [List.append_nil] at all
  exact all.bind (reads_pure _ _)

theorem reads_options {lead blank : List Char} {members : List (String × Member)}
    (gives : GivesWords options members) (isLead : IsBlank lead) (isBlank : IsBlank blank)
    (isTrail : IsBlank trail) :
    ∃ o, Reads OptionsText.options (optionsText lead blank trail members) o [] ∧ AreSetBy options members {} o := by
  obtain ⟨o, reads, set⟩ := reads_inside gives isBlank
    (Nat.lt_succ_of_le (length_le_inside blank trail members)) trail
  refine ⟨o, ?_, set⟩
  unfold optionsText OptionsText.options
  rw [List.append_assoc, objectText_append]
  refine (reads_next?_cons isLead (by decide)).bind (reads_advance.bind (reads_get fun offset => ?_))
  refine reads.bind (reads_advance.bind ((reads_pure o trail).bind ?_))
  exact (reads_finished isTrail).bind (reads_pure _ _)

theorem fails_options {lead blank : List Char} {members : List (String × Member)} (isObject : IsObject members)
    (twice : GivenTwice {} members) (isLead : IsBlank lead) (isBlank : IsBlank blank) (trail : List Char) :
    Fails OptionsText.options (optionsText lead blank trail members) := by
  unfold optionsText OptionsText.options
  rw [List.append_assoc, objectText_append]
  refine (reads_next?_cons isLead (by decide)).bind_leaves (reads_advance.bind_leaves (leaves_get fun offset => ?_))
  exact Fails.bind (fails_inside isObject twice isBlank
    (Nat.lt_succ_of_le (length_le_inside blank trail members)) trail)

end OptionsText

/-- Options are read back from every object that gives them, and no object that gives a setting twice is read. -/
theorem ofText_optionsText {lead blank trail : List Char} (members : List (String × Member))
    (isLead : IsBlank lead) (isBlank : IsBlank blank) (isTrail : IsBlank trail) :
    (∀ options : Options, isBlankText options.corePath = false → GivesOptions options members →
        Options.ofText (optionsText lead blank trail members) = .ok options) ∧
      (IsObject members → (∃ setting : Setting, 2 ≤ (keysOf members).count setting.key) →
        ∃ fault, Options.ofText (optionsText lead blank trail members) = .error fault) := by
  constructor
  · intro options notBlank gives
    obtain ⟨o, reads, set⟩ := OptionsText.reads_options gives.toGivesWords isLead isBlank isTrail
    obtain ⟨stop, run⟩ := reads 0
    -- What the text sets is what the options have; what it leaves out they have at the default.
    have complete : o.complete = options := by
      refine Setting.eq_of_word fun setting => ?_
      rw [Setting.word_complete, set setting]
      by_cases given : setting.key ∈ keysOf members
      · rw [if_pos given]
        rfl
      · rw [if_neg given, gives.left setting given]
        cases setting <;> rfl
    unfold Options.ofText
    rw [run]
    dsimp only
    rw [complete, if_neg (by simp [notBlank])]
  · rintro isObject ⟨setting, twice⟩
    have fails := OptionsText.fails_options isObject ⟨setting, Nat.le_trans twice (Nat.le_add_right ..)⟩
      isLead isBlank trail
    unfold Options.ofText
    cases run : OptionsText.options.run ⟨optionsText lead blank trail members, 0⟩ with
    | error fault => exact ⟨.json fault, rfl⟩
    | ok found => exact (fails 0 found.1 found.2 run).elim

/-! ### An object in an unusual form -/

/-- A path that takes an escape for each half of a character. -/
def spelledPath : List Char := ['a', '\\', '/', '\\', 'u', 'd', '8', '3', 'd', '\\', 'u', 'D', 'E', '0', '0']

theorem spells_path : Spells "a/😀".toList spelledPath := by
  have text : "a/😀".toList = ['a', '/', '😀'] := by decide +kernel
  have number : '😀'.toNat = 0x1F600 := by decide +kernel
  have lead : IsFourHex ['d', '8', '3', 'd'] (0xD800 + (0x1F600 - 0x10000) / 0x400) :=
    .digits (w := 13) (x := 8) (y := 3) (z := 13) (by decide) (by decide) (by decide) (by decide)
  have trail : IsFourHex ['D', 'E', '0', '0'] (0xDC00 + (0x1F600 - 0x10000) % 0x400) :=
    .digits (w := 13) (x := 14) (y := 0) (z := 0) (by decide) (by decide) (by decide) (by decide)
  have pair : SpellsChar '😀' (('\\' :: 'u' :: ['d', '8', '3', 'd']) ++ '\\' :: 'u' :: ['D', 'E', '0', '0']) := by
    refine .pair ?_ ?_ ?_
    · rw [number]
      decide
    · rwa [number]
    · rwa [number]
  rw [text]
  exact .cons (.plain (by decide) (by decide) (by decide)) (.cons (.simple (e := '/') (by decide))
    (.cons pair .nil))

/-- What has no quotes, backslashes and control characters spells itself. -/
theorem spells_self {text : List Char}
    (plain : (text.all fun c => 0x20 ≤ c.toNat && c != '"' && c != '\\') = true) : Spells text text := by
  induction text with
  | nil => exact .nil
  | cons c rest ih =>
      rw [List.all_cons, Bool.and_eq_true] at plain
      obtain ⟨⟨visible, quote⟩, slash⟩ : (0x20 ≤ c.toNat ∧ c ≠ '"') ∧ c ≠ '\\' := by simpa using plain.1
      exact .cons (.plain visible quote slash) (ih plain.2)

/-- A list with a number and a string that spells no text. -/
def oddValue : List Char :=
  listText [] [⟨[], ['-', '1', '.', '5', 'E', '+', '3'], [' ']⟩,
    ⟨['\n'], quoted ['\\', 'u', 'd', '8', '0', '0'], []⟩]

theorem isValue_oddValue : IsValue oddValue := by
  have digit (c : Char) (isDigit : '0' ≤ c ∧ c ≤ '9') : IsDigits [c] :=
    ⟨List.cons_ne_nil _ _, fun d mem => List.mem_singleton.mp mem ▸ isDigit⟩
  have number : IsMagnitude ['1', '.', '5', 'E', '+', '3'] :=
    .parts ⟨digit '1' (by decide), by decide⟩ (.point (digit '5' (by decide)))
      (.power (.inr rfl) (.inr (.inl rfl)) (digit '3' (by decide)))
  have half : IsBody ['\\', 'u', 'd', '8', '0', '0'] :=
    .cons (.hex (.digits (w := 13) (x := 8) (y := 0) (z := 0) (by decide) (by decide) (by decide) (by decide))) .nil
  refine .list (by decide) ?_ ?_
  · simp only [List.forall_mem_cons]
    exact ⟨⟨by decide, by decide⟩, ⟨by decide, by decide⟩, List.forall_mem_nil _⟩
  · simp only [List.forall_mem_cons]
    exact ⟨.negative number, .string half, List.forall_mem_nil _⟩

/-- The path comes last, in front of it a value that nobody asks for, and the style is left out. -/
def oddMembers : List (String × Member) :=
  [("module", ⟨[' '], "module".toList, [], ['\t'], quoted "cjs".toList, []⟩),
    ("modules", ⟨[], "modules".toList, [' '], [], oddValue, []⟩),
    ("componentExport", ⟨[], "componentExport".toList, [], [], quoted "customelement".toList, []⟩),
    ("coreImportPath", ⟨[], "coreImportPath".toList, [], [], quoted spelledPath, []⟩)]

def oddOptions : Options := ⟨"a/😀", .cjs, .customElement, .static⟩

theorem givesOptions_oddMembers : GivesOptions oddOptions oddMembers where
  spaced := by
    simp only [oddMembers, List.forall_mem_cons]
    exact ⟨⟨by decide, by decide, by decide, by decide⟩, ⟨by decide, by decide, by decide, by decide⟩,
      ⟨by decide, by decide, by decide, by decide⟩, ⟨by decide, by decide, by decide, by decide⟩,
      List.forall_mem_nil _⟩
  keys := by
    simp only [oddMembers, List.forall_mem_cons]
    exact ⟨spells_self (by decide), spells_self (by decide), spells_self (by decide), spells_self (by decide),
      List.forall_mem_nil _⟩
  words := by
    simp only [oddMembers, List.forall_mem_cons]
    refine ⟨?_, ?_, ?_, ?_, List.forall_mem_nil _⟩
    · rintro setting eq
      obtain rfl : setting = .convention := Setting.key_inj.mp eq.symm
      exact ⟨_, spells_self (by decide), rfl⟩
    · rintro setting eq
      cases setting <;> exact absurd eq (by decide)
    · rintro setting eq
      obtain rfl : setting = .componentExport := Setting.key_inj.mp eq.symm
      exact ⟨_, spells_self (by decide), rfl⟩
    · rintro setting eq
      obtain rfl : setting = .corePath := Setting.key_inj.mp eq.symm
      exact ⟨_, spells_path, rfl⟩
  others := by
    simp only [oddMembers, List.forall_mem_cons]
    exact ⟨fun other => absurd rfl (other .convention), fun _ => isValue_oddValue,
      fun other => absurd rfl (other .componentExport), fun other => absurd rfl (other .corePath),
      List.forall_mem_nil _⟩
  once := by
    intro setting
    cases setting <;> decide
  left := by
    intro setting missing
    cases setting with
    | style => rfl
    | _ => exact absurd (by decide) missing

/-- The convention is given once more, with a value that is no choice. -/
def repeatedMembers : List (String × Member) :=
  [("module", ⟨[], "module".toList, [], [], quoted "esm".toList, []⟩),
    ("module", ⟨[], "module".toList, [], [], oddValue, []⟩)]

theorem isObject_repeatedMembers : IsObject repeatedMembers where
  spaced := by
    simp only [repeatedMembers, List.forall_mem_cons]
    exact ⟨⟨by decide, by decide, by decide, by decide⟩, ⟨by decide, by decide, by decide, by decide⟩,
      List.forall_mem_nil _⟩
  keys := by
    simp only [repeatedMembers, List.forall_mem_cons]
    exact ⟨spells_self (by decide), spells_self (by decide), List.forall_mem_nil _⟩
  values := by
    simp only [repeatedMembers, List.forall_mem_cons]
    exact ⟨.string (spells_self (by decide)).isBody, isValue_oddValue, List.forall_mem_nil _⟩

/-- The options come back through the escapes and past the value, and the repeated convention is refused. -/
theorem oddMembers_readBack :
    Options.ofText (optionsText ['\n'] [] [' '] oddMembers) = .ok oddOptions ∧
      ∃ fault, Options.ofText (optionsText ['\n'] [] [' '] repeatedMembers) = .error fault :=
  ⟨(ofText_optionsText oddMembers (by decide) (by decide) (by decide)).1 oddOptions (by decide +kernel)
      givesOptions_oddMembers,
    (ofText_optionsText repeatedMembers (by decide) (by decide) (by decide)).2 isObject_repeatedMembers
      ⟨.convention, by decide⟩⟩

end ComponentLowering.Settings
