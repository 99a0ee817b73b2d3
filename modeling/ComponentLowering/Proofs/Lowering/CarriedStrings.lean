/-
# Strings that are carried over

What a literal of a component says comes out in the lowered module: the path of a style sheet in the
statement that binds the sheet, its key in the object that is attached to the class, and the name of a member
in the key of its getter or in the access to it.  Each of them is made from the text of the literal alone and
is printed as a literal that is read as this text.  So a string with lone surrogates comes out as another one.
-/
import ComponentLowering.Proofs.Component.StyleLiterals
import ComponentLowering.Proofs.Lowering.DeclaredNames
import ComponentLowering.Proofs.Lowering.PrunedImports
import ComponentLowering.Proofs.Syntax.WrittenStrings

namespace ComponentLowering.Lowering

open ComponentLowering.Code ComponentLowering.Component ComponentLowering.Report
open ComponentLowering.Settings ComponentLowering.Style ComponentLowering.Syntax ComponentLowering.Text

variable {source : List Char} {options : Options} {decl held : ClassDef} {c : Component} {refs : Refs}

/-- What comes out for a string: the text that it is stored with.  It is read back from where it is printed,
and it is the same string exactly if that holds no lone surrogates. -/
structure Carries (v emitted : StringValue) : Prop where
  text : emitted = .ofString v.text
  printed : ∀ rest, Begins (quoted emitted ++ rest) (.string emitted) rest
  same_iff : emitted.codeUnits = v.codeUnits ↔ v.hasLoneSurrogates = false

theorem carries_text {v : StringValue} (stored : v.IsStored) : Carries v (.ofString v.text) :=
  ⟨rfl, begins_written v.text, codeUnits_text_eq_iff stored⟩

/-! ### Strings of emitted code -/

/-- The name that a statement binds to a style sheet, with the string that names the sheet. -/
def boundSheet? : Stmt → Option (String × StringValue)
  | .importDecl ⟨_, _, _, some [.default _ local'], module', _, _⟩ => some (local'.name, module'.value)
  | .variableDecl _ _ _ [⟨_, .ident _ name, _, _, _, some (.call _ _ _ [.string _ path] _ _)⟩] =>
    some (name, path)
  | _ => none

theorem boundSheet?_sheetImport (convention : Convention) (name path : String) :
    boundSheet? (sheetImport convention name path) = some (name, .ofString path) := by
  cases convention <;> rfl

/-- The string that a key stands for, in brackets or without. -/
def writtenKey? : Key → Option StringValue
  | .name _ name => some (.ofString name)
  | .string _ v | .computed (.string _ v) => some v
  | _ => none

theorem writtenKey?_keyTree (key : String) : writtenKey? (keyTree key) = some (.ofString key) := by
  unfold keyTree
  split <;> rfl

theorem writtenKey?_getterKey (member : String) :
    writtenKey? (getterKey member) = some (.ofString member) := by
  unfold getterKey
  split <;> rfl

/-- The name of the member of the instance that an expression accesses. -/
def accessed? : Expr → Option StringValue
  | .member _ (.this _) property _ => some (.ofString property.name)
  | .index _ (.this _) (.string _ v) _ => some v
  | _ => none

theorem accessed?_instanceTree (member : String) :
    accessed? (instanceTree member) = some (.ofString member) := by
  unfold instanceTree
  split <;> rfl

/-- The statement that gives internals to a place, which are attached only once. -/
def attachment (place : Expr) : Stmt :=
  .branch .detached slotTree (.block .detached [assignmentTree place slotTree])
    (some (.block .detached [assignmentTree place attachTree, assignmentTree slotTree place]))

theorem internalsTree_eq (member : String) : internalsTree member = attachment (instanceTree member) := rfl

/-! ### Styles of a class -/

/-- A component with style sheets is given all of them, each by a name that a sheet of the module has. -/
theorem lowerComponent_attaches {statement : Stmt} {s : ModuleState} {result : LoweredBody}
    (reads : readClass source decl = .component c) (attached : attached? options c = some refs)
    (named : s.styles.IsNamed) (h : Gives (lowerComponent options statement decl c s) result) :
    ∃ bindings, styleAssignment c.className (styleTree refs bindings) ∈ result.statements ∧
      BindsEntries refs.entries result.state.styles.sheets bindings := by
  have binding := isBindingName_of_component reads
  obtain ⟨lowered, new, assignment, lowers, -, assigns, state, statements, -, -⟩ := lowerComponent_ok h
  have styles : lowered.state.styles = s.styles :=
    (lowerClass_state lowers).2.trans (movedState_used statement s).2
  rw [styles] at assigns state
  obtain ⟨texts, bindings, ledger, plans, -, names, -, nonempty, binds⟩ :=
    planStyles_attached named (isWordText_of_isBindingName binding) attached
  rw [plans] at assigns state
  obtain ⟨t, read, rfl⟩ := assigns
  obtain rfl := eq_styleAssignment_of_ok binding names nonempty read
  refine ⟨bindings, ?_, ?_⟩
  · rw [statements]
    exact List.mem_cons_of_mem _ List.mem_cons_self
  · rw [state]
    exact binds

/-- So is a component among the classes that are lowered one after the other: its sheets stay. -/
theorem lowerStatements_attaches {body : List Stmt} {statement : Stmt} {s : ModuleState}
    {result : LoweredBody} (mem : statement ∈ body) (cls : class? statement = some decl)
    (reads : readClass source decl = .component c) (attached : attached? options c = some refs)
    (named : s.styles.IsNamed) (h : Gives (lowerStatements source options body s) result) :
    ∃ bindings, styleAssignment c.className (styleTree refs bindings) ∈ result.statements ∧
      BindsEntries refs.entries result.state.styles.sheets bindings := by
  induction body generalizing s result with
  | nil => cases mem
  | cons first rest ih =>
      obtain ⟨here, lowersFirst, h⟩ := gives_bind h
      obtain ⟨more, later, h⟩ := gives_bind h
      obtain rfl := gives_pure.mp h
      have one := lowers_statement named lowersFirst
      rcases List.mem_cons.mp mem with rfl | inRest
      · simp only [lowerStatement, cls, reads] at lowersFirst
        obtain ⟨bindings, assigned, binds⟩ := lowerComponent_attaches reads attached named lowersFirst
        exact ⟨bindings, List.mem_append_left _ assigned,
          binds.mono (lowers_statements one.styles.named later).styles.subset⟩
      · obtain ⟨bindings, assigned, binds⟩ := ih inRest one.styles.named later
        exact ⟨bindings, List.mem_append_right _ assigned, binds⟩

theorem attached?_static (static : options.style = .static) (styles : c.styles = some refs)
    (nonempty : refs.isEmpty = false) : attached? options c = some refs := by
  simp [attached?, static, styles, nonempty]

/-! ### Members of a class -/

/-- The strings that come out for the members of a class which are replaced.  The getter for a member that
held the element has its name for a key, and the place that is given the internals is the member that held
them. -/
structure CarriesMembers (decl held : ClassDef) : Prop where
  getters : ∀ f ∈ fields decl.members, ∀ name, IsKeyOf f.key name → IsMarked f name.text .element →
    ∃ g emitted, .method g ∈ held.members ∧ g.kind = .getter ∧ g.isStatic = false ∧
      writtenKey? g.key = some emitted ∧ Carries name emitted
  accesses : ∀ f ∈ fields decl.members, ∀ name, IsKeyOf f.key name → IsMarked f name.text .internals →
    ∃ span body place emitted, (constructors held.members).head? = some (hostConstructor span body) ∧
      attachment place ∈ body ∧ accessed? place = some emitted ∧ Carries name emitted

theorem mem_markedNames {f : Field} {name : String} {kind : MemberKind} {members : List Member}
    (mem : f ∈ fields members) (marked : IsMarked f name kind) : name ∈ markedNames kind members := by
  refine List.mem_filterMap.mpr ⟨f, mem, ?_⟩
  rw [markedName?, if_pos ⟨marked.onInstance, marked.marked⟩, marked.named]

theorem carriesMembers_of_isLoweredTo {lowered : ClassDef} (reads : IsReadAs c decl)
    (is : IsLoweredTo c decl lowered) (members : held.members = lowered.members) :
    CarriesMembers decl held := by
  refine ⟨fun f mem name isKey marked => ?_, fun f mem name isKey marked => ?_⟩
  · have element : name.text ∈ c.elementMembers := by
      rw [reads.elementMembers]
      exact mem_markedNames mem marked
    obtain ⟨installed, -, eq⟩ := is.members
    have getter : elementTree name.text ∈ held.members := by
      rw [members, eq]
      exact List.mem_append_right _ (List.mem_append_right _ (List.mem_map_of_mem element))
    exact ⟨_, _, getter, rfl, rfl, writtenKey?_getterKey _, carries_text isKey.isStored⟩
  · have internals : name.text ∈ c.internalsMembers := by
      rw [reads.internalsMembers]
      exact mem_markedNames mem marked
    obtain ⟨span, eq⟩ := is.constructors
    have attaches : attachment (instanceTree name.text) ∈ injectedStatements c.internalsMembers :=
      List.mem_cons_of_mem _ (List.mem_map.mpr ⟨_, internals, internalsTree_eq _⟩)
    exact ⟨span, _, _, _, by rw [members, eq]; rfl, List.mem_append_left _ attaches,
      accessed?_instanceTree _, carries_text isKey.isStored⟩

/-- A component becomes a class that a statement among the pieces holds. -/
theorem exists_held_of_pieces {body : List Stmt} {pieces : List (List Stmt)} {statement : Stmt}
    (contribute : List.Forall₂ (Contributes source options) body pieces) (mem : statement ∈ body)
    (cls : class? statement = some decl) (reads : readClass source decl = .component c) :
    ∃ held ∈ pieces.flatten.filterMap heldClass?, ∃ lowered, IsLoweredTo c decl lowered ∧
      held.members = lowered.members := by
  have accepted : component? source statement = some c := by simp [component?, cls, reads]
  induction contribute with
  | nil => cases mem
  | @cons first piece rest pieces contributes _ ih =>
      rw [List.flatten_cons, List.filterMap_append]
      rcases List.mem_cons.mp mem with rfl | inRest
      · obtain ⟨other, -⟩ | ⟨c', named, decl', s, lowered, assigned, accepted', cls', lowers, -, rfl⟩ :=
          contributes_cases contributes
        · rw [accepted] at other
          cases other
        · obtain rfl := Option.some.inj (accepted.symm.trans accepted')
          obtain rfl := Option.some.inj (cls.symm.trans cls')
          have holds := @heldClass?_emitted options _ _ lowered.decl _ named cls
          rw [List.filterMap_cons_some holds, List.cons_append]
          exact ⟨_, List.mem_cons_self, lowered.decl, lowerClass_ok lowers, emittedClass_members named⟩
      · obtain ⟨held, mem, rest⟩ := ih inRest
        exact ⟨held, List.mem_append_right _ mem, rest⟩

/-! ### Lowered modules -/

/-- Whether a statement binds a name to a style sheet, whose path is carried over. -/
def BindsPath (body : List Stmt) (name : String) (path : StringValue) : Prop :=
  ∃ s ∈ body, ∃ emitted, boundSheet? s = some (name, emitted) ∧ Carries path emitted

/-- Whether a class is given an object that has a name under a key, which is carried over. -/
def AttachesUnder (body : List Stmt) (className : String) (key : StringValue) (name : String) : Prop :=
  ∃ members, styleAssignment className (.object .detached members) ∈ body ∧
    ∃ k emitted, .property .detached k (.ident .detached name) false ∈ members ∧
      writtenKey? k = some emitted ∧ Carries key emitted

theorem attachesUnder_of_bound {body : List Stmt} {className name : String} {key : StringValue}
    {bindings : List Binding} (stored : key.IsStored)
    (assigned : styleAssignment className (objectTree bindings) ∈ body)
    (bound : ⟨some key.text, name⟩ ∈ bindings) : AttachesUnder body className key name :=
  ⟨_, assigned, keyTree key.text, _, List.mem_map.mpr ⟨_, bound, rfl⟩, writtenKey?_keyTree _,
    carries_text stored⟩

/-- Only a mapping has entries with keys. -/
theorem styleTree_of_key {key path : String} {bindings : List Binding}
    (mem : ⟨some key, path⟩ ∈ refs.entries) : styleTree refs bindings = objectTree bindings := by
  cases refs with
  | sequence paths =>
      obtain ⟨_, -, eq⟩ := List.mem_map.mp mem
      cases eq
  | mapping pairs => rfl

/-- Pruning keeps expressions. -/
theorem mem_pruneImports_expression {corePath : String} {body : List Stmt} {span : Span} {e : Expr}
    (mem : .expression span e ∈ body) : .expression span e ∈ (pruneImports corePath body).1 :=
  mem_pruneImports.mpr ⟨_, mem, List.mem_cons_self⟩

variable {m out : Module} {report : LoweringReport} {log log' : Log}

/-- The strings of a component in the lowered module. -/
theorem lowerModule_carriesStrings
    (run : (lowerModule options m).run.run log = (.ok (report, out), log'))
    (mem : decl ∈ classes m.body) (reads : readClass m.source decl = .component c) :
    (options.style = .static → ∀ key path, AsksFor decl key path →
      ∃ name, BindsPath out.body name path ∧ ∀ k ∈ key, AttachesUnder out.body c.className k name) ∧
    ∃ held ∈ out.body.filterMap heldClass?, CarriesMembers decl held := by
  obtain ⟨statement, inBody, cls⟩ := List.mem_filterMap.mp mem
  have accepted : component? m.source statement = some c := by simp [component?, cls, reads]
  have nonempty : report.components ≠ [] := by
    rw [components_lowerModule ⟨log, log', run⟩]
    exact List.ne_nil_of_mem
      (List.mem_map_of_mem (List.mem_filterMap.mpr ⟨statement, inBody, accepted⟩))
  obtain ⟨lowered, pieces, lowers, contribute, statements, body⟩ :=
    lowerModule_body ⟨log, log', run⟩ nonempty
  refine ⟨fun static key path asks => ?_, ?_⟩
  · obtain ⟨refs, styles, recorded⟩ := mem_entries_of_asksFor reads asks
    obtain ⟨bindings, assigned, binds⟩ := lowerStatements_attaches inBody cls reads
      (attached?_static static styles (isEmpty_eq_false_of_mem recorded)) (initialState_eq m.body).1 lowers
    obtain ⟨stored, storedKey⟩ := asks.isStored
    obtain ⟨sheet, known, at_path, bound⟩ := binds _ recorded
    rw [statements] at assigned
    refine ⟨sheet.name, ⟨sheetImport options.convention sheet.name sheet.path, ?_, _,
      boundSheet?_sheetImport .., ?_⟩, fun k isKey => ?_⟩
    · rw [body, mem_withImports]
      exact .inr (.inl (List.mem_map_of_mem known))
    · rw [at_path]
      exact carries_text stored
    · obtain rfl := Option.mem_def.mp isKey
      rw [styleTree_of_key recorded] at assigned
      refine attachesUnder_of_bound (storedKey k rfl) ?_ bound
      rw [body, mem_withImports]
      exact .inr (.inr (mem_pruneImports_expression assigned))
  · obtain ⟨held, mem, lowered, is, members⟩ := exists_held_of_pieces contribute inBody cls reads
    refine ⟨held, ?_, carriesMembers_of_isLoweredTo (isReadAs_of_component reads) is members⟩
    rw [body]
    exact (heldClasses_sublist _ _ _ _).mem mem

/-! ### A path with a lone surrogate -/

/-- A module with a component whose style sheet has half of a character in its path. -/
def halved : String :=
  "@Component(\x7b tag: 'a-a', styleUrl: '\\ud800.css' \x7d)\nclass A \x7b\x7d\n"

/-- The path of its style sheet. -/
def halvedPath : StringValue := .ofUnits (.lone 0xD800 :: ".css".toList.map .char)

/-- The path of the style sheet of a class whose only decorator is called with a tag and such a path. -/
def lonePath? (decl : ClassDef) : Option StringValue :=
  match decl.decorators with
  | [⟨_, .call _ (.ident _ name) _ [.object _ [.property _ (.name _ tag) _ _,
      .property _ (.name _ field) (.string _ path) _]] _ _⟩] =>
    if name = "Component" ∧ tag = "tag" ∧ field = "styleUrl" then some path else none
  | _ => none

theorem asksFor_of_lonePath? {path : StringValue} (h : lonePath? decl = some path)
    (stored : path.IsStored) : AsksFor decl none path := by
  unfold lonePath? at h
  split at h
  · rename_i eq
    split at h
    · rename_i names
      obtain ⟨rfl, rfl, rfl⟩ := names
      cases h
      refine .alone ⟨_, ⟨[], _, [], eq, rfl, .called, nofun⟩, _, [], .call fun e mem spread => ?_,
        .object (.cons (.property (.name _)) (.cons (.property (.name _)) .nil))⟩ (by simp)
        ⟨[_], [], rfl, List.not_mem_nil⟩ (.string stored)
      cases spread
      simp at mem
    · cases h
  · cases h

/-- Whether a module is lowered, and the path of its only style sheet comes out as another one. -/
def losesPath (options : Options) (m : Module) : Bool :=
  match classes m.body, (lowerModule options m).run.run [] with
  | [decl], (.ok (_, out), _) =>
    isComponent m.source decl && lonePath? decl == some halvedPath &&
      (match out.body.filterMap boundSheet? with
        | [(_, emitted)] => emitted.codeUnits != halvedPath.codeUnits
        | _ => false)
  | _, _ => false

theorem isStored_halvedPath : halvedPath.IsStored := by
  refine ⟨.lone 0xD800 :: ".css".toList.map .char,
    List.forall_mem_cons.mpr ⟨Or.inl rfl, fun e mem => ?_⟩, rfl⟩
  obtain ⟨c, -, rfl⟩ := List.mem_map.mp mem
  trivial

theorem of_losesPath (h : losesPath options m = true) :
    ∃ report out log decl c, (lowerModule options m).run.run [] = (.ok (report, out), log) ∧
      decl ∈ classes m.body ∧ readClass m.source decl = .component c ∧
      AsksFor decl none halvedPath ∧ ∃ name emitted,
        out.body.filterMap boundSheet? = [(name, emitted)] ∧
        emitted.codeUnits ≠ halvedPath.codeUnits := by
  unfold losesPath at h
  split at h
  · rename_i decl report out log only run
    simp only [Bool.and_eq_true, beq_iff_eq] at h
    obtain ⟨⟨is, path⟩, lost⟩ := h
    unfold isComponent at is
    split at is
    · rename_i c reads
      split at lost
      · rename_i name emitted bound
        exact ⟨report, out, log, decl, c, run, by rw [only]; exact List.mem_cons_self, reads,
          asksFor_of_lonePath? path isStored_halvedPath, name, emitted, bound, bne_iff_ne.mp lost⟩
      · cases lost
    · cases is
  · cases h

theorem halved_read :
    ∃ m, Module.read (.ofPath "a.ts") halved.toList = .ok m ∧ losesPath defaults m = true :=
  exists_of_read (by decide +kernel)

/-- The only style sheet of the lowered module is bound by another path than the one that is asked for. -/
theorem halved_losesPath :
    ∃ m report out log decl c path, Module.read (.ofPath "a.ts") halved.toList = .ok m ∧
      (lowerModule defaults m).run.run [] = (.ok (report, out), log) ∧
      decl ∈ classes m.body ∧ readClass m.source decl = .component c ∧
      AsksFor decl none path ∧ ∃ name emitted,
        out.body.filterMap boundSheet? = [(name, emitted)] ∧ emitted.codeUnits ≠ path.codeUnits := by
  obtain ⟨m, read, loses⟩ := halved_read
  obtain ⟨report, out, log, decl, c, rest⟩ := of_losesPath loses
  exact ⟨m, report, out, log, decl, c, halvedPath, read, rest⟩

/-- The module is lowered, so it is known what its strings come out as. -/
theorem halved_carriesStrings :
    ∃ m report out log decl c, Module.read (.ofPath "a.ts") halved.toList = .ok m ∧
      (lowerModule defaults m).run.run [] = (.ok (report, out), log) ∧
      decl ∈ classes m.body ∧ readClass m.source decl = .component c ∧
      (defaults.style = .static → ∀ key path, AsksFor decl key path →
        ∃ name, BindsPath out.body name path ∧
          ∀ k ∈ key, AttachesUnder out.body c.className k name) ∧
      ∃ held ∈ out.body.filterMap heldClass?, CarriesMembers decl held := by
  obtain ⟨m, read, loses⟩ := halved_read
  obtain ⟨report, out, log, decl, c, run, mem, reads, -⟩ := of_losesPath loses
  exact ⟨m, report, out, log, decl, c, read, run, mem, reads, lowerModule_carriesStrings run mem reads⟩

end ComponentLowering.Lowering
