/-
# Internals that instances share

The internals of an element can be attached only once, so what the first instance gets is kept in a slot
of the element, from which later instances take it.  Whatever the members are called that hold the
internals, these are attached by the first statement that asks for them if the slot was empty, and by no
other one; and after each construction all these members hold what is in the slot.

What registration and attachment do besides what `Supports` says is open, and so is what the slot holds
at the start.  Nothing is said about the statements that the class has in its own constructor.
-/
import ComponentLowering.Proofs.Lowering.InjectedCode
import ComponentLowering.Proofs.Runtime.Evaluation
import Mathlib.Data.List.Induction

namespace ComponentLowering.Runtime

open ComponentLowering.Code ComponentLowering.Lowering ComponentLowering.Syntax ComponentLowering.Text

variable {env : Environment} {w w₁ : World} {h : Heap} {member : String} {members : List String}
  {object ref host : Address} {v : Value}

/-! ### The element of the host -/

/-- The property of a reference to a host that holds its element. -/
def elementKey : StringValue := .ofString "$hostElement$"

/-- The property of an element that keeps its internals. -/
def slotKey : StringValue := .ofString "s-ei"

/-- The method of an element that attaches internals to it. -/
def attachKey : StringValue := .ofString "attachInternals"

/-- What the slot of an element holds. -/
def slot (host : Address) (h : Heap) : Value := h.read host slotKey

/-- Where a constructor runs that is given a reference to its host. -/
def hostFrame (object ref : Address) : Frame := ⟨object, [(hostName, .object ref)]⟩

theorem evaluate_host :
    evaluate env (hostFrame object ref) hostTree w = some (.object ref, w) :=
  evaluate_ident rfl

theorem evaluate_hostElement (refers : w.heap.read ref elementKey = .object host) :
    evaluate env (hostFrame object ref) hostElementTree w = some (.object host, w) := by
  rw [hostElementTree, evaluate_property (operand_member evaluate_host)]
  exact congrArg (fun v => some (v, w)) refers

theorem operand_slot (refers : w.heap.read ref elementKey = .object host) :
    operand env (hostFrame object ref) slotTree w = some (.property host slotKey, w) :=
  operand_index (evaluate_hostElement refers) evaluate_string

theorem evaluate_slot (refers : w.heap.read ref elementKey = .object host) :
    evaluate env (hostFrame object ref) slotTree w = some (slot host w.heap, w) :=
  evaluate_property (operand_slot refers)

/-- However a member is written, it is the property of that name. -/
theorem operand_instance (object ref : Address) (member : String) :
    operand env (hostFrame object ref) (instanceTree member) w =
      some (.property object (.ofString member), w) := by
  unfold instanceTree
  split
  · exact operand_member evaluate_this
  · exact operand_index evaluate_this evaluate_string

theorem evaluate_instance (object ref : Address) (member : String) :
    evaluate env (hostFrame object ref) (instanceTree member) w =
      some (w.heap.read object (.ofString member), w) :=
  evaluate_property (operand_instance object ref member)

theorem evaluate_attach {h' : Heap} (refers : w.heap.read ref elementKey = .object host)
    (attach : env.method host attachKey w.heap = some (v, h')) :
    evaluate env (hostFrame object ref) attachTree w =
      some (v, ⟨h', w.calls ++ [⟨host, attachKey⟩]⟩) := by
  refine evaluate_call (operand_member (evaluate_hostElement refers)) argumentValues_nil ?_
  simp only [Operand.call]
  rw [show StringValue.ofString "attachInternals" = attachKey from rfl, attach]
  rfl

/-- An assignment to a property that is written plainly. -/
theorem execute_assignment {frame : Frame} {target value : Expr} {key : StringValue}
    (plain : env.WritesPlainly object key)
    (place : operand env frame target w = some (.property object key, w))
    (result : evaluate env frame value w = some (v, w₁)) :
    execute env frame (assignmentTree target value) w = some (w₁.write object key v) := by
  refine execute_expression (evaluate_assign place result ?_)
  simp only [Operand.put, plain v, Option.bind_eq_bind, Option.bind_some, Option.pure_def]
  rfl

/-! ### One statement -/

/-- A member takes the internals that the slot holds. -/
theorem execute_internals_attached (refers : w.heap.read ref elementKey = .object host)
    (plain : env.WritesPlainly object (.ofString member)) (attached : (slot host w.heap).isTruthy) :
    execute env (hostFrame object ref) (internalsTree member) w =
      some (w.write object (.ofString member) (slot host w.heap)) := by
  have store := execute_assignment plain (operand_instance object ref member) (evaluate_slot refers)
  rw [internalsTree, execute_branch (evaluate_slot refers), if_pos attached, execute_block,
    executeAll_cons store, executeAll_nil]

/-- Where the slot is empty, internals are attached and kept in the member and in the slot. -/
theorem execute_internals_empty (refers : w.heap.read ref elementKey = .object host)
    (plain : env.WritesPlainly object (.ofString member))
    (plainSlot : env.WritesPlainly host slotKey) (empty : (slot host w.heap).isTruthy = false)
    (attach : evaluate env (hostFrame object ref) attachTree w = some (v, w₁))
    (still : (w₁.write object (.ofString member) v).heap.read ref elementKey = .object host) :
    execute env (hostFrame object ref) (internalsTree member) w =
      some ((w₁.write object (.ofString member) v).write host slotKey v) := by
  have store := execute_assignment plain (operand_instance object ref member) attach
  have keep := execute_assignment plainSlot (operand_slot still) (evaluate_instance object ref member)
  rw [World.heap_write, Heap.read_write] at keep
  rw [internalsTree, execute_branch (evaluate_slot refers), if_neg (by simp [empty]), execute?,
    execute_block, executeAll_cons store, executeAll_cons keep, executeAll_nil]

/-! ### Constructions on a host -/

/-- The construction of an object, with a reference to the host that it belongs to. -/
structure Construction where
  object : Address
  ref : Address

/-- Whether the references of some constructions have an element as that of their host. -/
def RefersTo (ks : List Construction) (host : Address) (h : Heap) : Prop :=
  ∀ k ∈ ks, h.read k.ref elementKey = .object host

/-- What injected code relies on, for some constructions on an element. -/
structure Supports (env : Environment) (members : List String) (host : Address)
    (ks : List Construction) : Prop where
  /-- An object that is constructed is new, so it is neither the element nor a reference to the host. -/
  apart : ∀ k ∈ ks, host ≠ k.object ∧ ∀ other ∈ ks, other.ref ≠ k.object
  /-- No setter stands behind a member. -/
  plain : ∀ k ∈ ks, ∀ member ∈ members, env.WritesPlainly k.object (.ofString member)
  /-- No setter stands behind the slot. -/
  plainSlot : env.WritesPlainly host slotKey
  /-- Registration comes to an end, and leaves the slot and the element of the host alone. -/
  registers : ∀ k ∈ ks, ∀ h, RefersTo ks host h →
    ∃ v h', env.function CoreFunction.registerInstance.localName [.object k.object, .object k.ref] h =
        some (v, h') ∧ slot host h' = slot host h ∧ RefersTo ks host h'
  /-- Where the slot is empty, attachment gives a truthy value, and leaves the element of the host alone.
  Where the slot is filled, it may throw. -/
  attaches : ∀ h, RefersTo ks host h → (slot host h).isTruthy = false →
    ∃ v h', env.method host attachKey h = some (v, h') ∧ v.isTruthy ∧ RefersTo ks host h'

/-- Whether members of an object hold what is in the slot. -/
def HoldSlot (members : List String) (object host : Address) (h : Heap) : Prop :=
  ∀ member ∈ members, h.read object (.ofString member) = slot host h

/-- Whether internals are attached on the way from one world to another just if that is asked for and the
slot is empty, no other method is called, and the slot is filled if it was or if that is asked for. -/
structure AttachesOnce (asked : Bool) (host : Address) (w w₁ : World) : Prop where
  calls : w₁.calls =
    w.calls ++ if asked && !(slot host w.heap).isTruthy then [⟨host, attachKey⟩] else []
  filled : (slot host w₁.heap).isTruthy = (asked || (slot host w.heap).isTruthy)

variable {ks : List Construction} {k : Construction} {earlier : List String}

theorem AttachesOnce.of_same (calls : w₁.calls = w.calls)
    (same : slot host w₁.heap = slot host w.heap) : AttachesOnce false host w w₁ :=
  ⟨by simp [calls], by simp [same]⟩

/-- What is attached first is not attached again. -/
theorem AttachesOnce.trans {asked asked' : Bool} {w₂ : World} (first : AttachesOnce asked host w w₁)
    (second : AttachesOnce asked' host w₁ w₂) : AttachesOnce (asked || asked') host w w₂ := by
  constructor
  · rw [second.calls, first.calls, first.filled]
    cases asked <;> cases asked' <;> cases (slot host w.heap).isTruthy <;> simp
  · rw [second.filled, first.filled]
    cases asked <;> cases asked' <;> rfl

theorem RefersTo.write_member {key : StringValue} (refers : RefersTo ks host h)
    (apart : ∀ other ∈ ks, other.ref ≠ object) : RefersTo ks host (h.write object key v) := by
  intro other mem
  rw [Heap.read_write_of_object_ne (apart other mem)]
  exact refers other mem

theorem RefersTo.write_slot (refers : RefersTo ks host h) :
    RefersTo ks host (h.write host slotKey v) := by
  intro other mem
  rw [Heap.read_write_of_key_ne (by decide)]
  exact refers other mem

theorem slot_write_member {key : StringValue} (ne : host ≠ object) :
    slot host (h.write object key v) = slot host h :=
  Heap.read_write_of_object_ne ne

/-- A member that is written with what is in the slot joins those that hold it. -/
theorem HoldSlot.write (holds : HoldSlot earlier object host h) (ne : host ≠ object) :
    HoldSlot (earlier ++ [member]) object host (h.write object (.ofString member) (slot host h)) := by
  intro m found
  rw [slot_write_member ne]
  by_cases same : StringValue.ofString m = .ofString member
  · rw [same, Heap.read_write]
  · rw [Heap.read_write_of_key_ne same]
    obtain before | last := List.mem_append.mp found
    · exact holds m before
    · exact absurd (congrArg StringValue.ofString (List.mem_singleton.mp last)) same

/-- One statement keeps up that members hold what is in the slot, and attaches internals if that is due.
Members that come before can be there only if the slot is filled. -/
theorem execute_internals (supports : Supports env members host ks) (mem : k ∈ ks)
    (here : member ∈ members) (refers : RefersTo ks host w.heap)
    (holds : HoldSlot earlier k.object host w.heap)
    (filled : earlier = [] ∨ (slot host w.heap).isTruthy) :
    ∃ w₁, execute env (hostFrame k.object k.ref) (internalsTree member) w = some w₁ ∧
      RefersTo ks host w₁.heap ∧ AttachesOnce true host w w₁ ∧
      HoldSlot (earlier ++ [member]) k.object host w₁.heap := by
  obtain ⟨ne, apart⟩ := supports.apart k mem
  have plain := supports.plain k mem member here
  cases attached : (slot host w.heap).isTruthy with
  | true =>
      have same : slot host (w.write k.object (.ofString member) (slot host w.heap)).heap =
          slot host w.heap := slot_write_member ne
      exact ⟨_, execute_internals_attached (refers k mem) plain attached, refers.write_member apart,
        ⟨by simp [attached], by rw [same, attached]; rfl⟩, holds.write ne⟩
  | false =>
      -- An empty slot is found by the first statement only, before any member holds something.
      obtain rfl := filled.resolve_right (by simp [attached])
      obtain ⟨v, h', attach, truthy, still⟩ := supports.attaches w.heap refers attached
      have after : RefersTo ks host (h'.write k.object (.ofString member) v) := still.write_member apart
      refine ⟨_, execute_internals_empty (refers k mem) plain supports.plainSlot attached
        (evaluate_attach (refers k mem) attach) (after k mem), after.write_slot, ⟨?_, ?_⟩, ?_⟩
      · simp [attached]
      · simpa [slot] using truthy
      · intro m found
        obtain rfl := List.mem_singleton.mp found
        simp [slot, ne.symm]

/-- What one statement keeps up is kept up by all, the first of which is the only one to attach. -/
theorem executeAll_internals (supports : Supports env members host ks) (mem : k ∈ ks)
    {asking : List String} (among : ∀ member ∈ asking, member ∈ members)
    (refers : RefersTo ks host w.heap) (holds : HoldSlot earlier k.object host w.heap)
    (filled : earlier = [] ∨ (slot host w.heap).isTruthy) :
    ∃ w₁, executeAll env (hostFrame k.object k.ref) (asking.map internalsTree) w = some w₁ ∧
      RefersTo ks host w₁.heap ∧ AttachesOnce (!asking.isEmpty) host w w₁ ∧
      HoldSlot (earlier ++ asking) k.object host w₁.heap := by
  -- Each member joins the earlier ones, which the slot keeps since it is filled by then.
  induction asking generalizing w earlier with
  | nil =>
      refine ⟨w, executeAll_nil, refers, .of_same rfl rfl, ?_⟩
      rwa [List.append_nil]
  | cons member rest ih =>
      obtain ⟨w₁, run, refers₁, once, holds₁⟩ :=
        execute_internals supports mem (among member List.mem_cons_self) refers holds filled
      obtain ⟨w₂, runRest, refers₂, onceRest, holds₂⟩ :=
        ih (fun m later => among m (List.mem_cons_of_mem _ later)) refers₁ holds₁ (.inr once.filled)
      refine ⟨w₂, ?_, refers₂, once.trans onceRest, ?_⟩
      · rw [List.map_cons, executeAll_cons run, runRest]
      · rwa [List.append_cons]

theorem execute_register (supports : Supports env members host ks) (mem : k ∈ ks)
    (refers : RefersTo ks host w.heap) :
    ∃ w₁, execute env (hostFrame k.object k.ref) registerTree w = some w₁ ∧
      RefersTo ks host w₁.heap ∧ AttachesOnce false host w w₁ := by
  obtain ⟨v, h', register, same, still⟩ := supports.registers k mem w.heap refers
  have args : argumentValues env (hostFrame k.object k.ref) [.this .detached, hostTree] w =
      some ([.object k.object, .object k.ref], w) :=
    argumentValues_cons evaluate_this (argumentValues_cons evaluate_host argumentValues_nil)
  refine ⟨{ w with heap := h' }, execute_expression (v := v) (evaluate_call rfl args ?_), still,
    .of_same rfl same⟩
  have unbound : (hostFrame k.object k.ref).locals.lookup
      CoreFunction.registerInstance.localName = none := rfl
  simp only [Operand.call, unbound, register, Option.bind_eq_bind, Option.bind_some, Option.pure_def]

theorem construct_constructorTree :
    construct env (constructorTree members) object [.object ref] w =
      executeAll env (hostFrame object ref) (injectedStatements members) w := rfl

/-- One construction. -/
theorem construct_internals (supports : Supports env members host ks) (mem : k ∈ ks)
    (refers : RefersTo ks host w.heap) :
    ∃ w₁, construct env (constructorTree members) k.object [.object k.ref] w = some w₁ ∧
      RefersTo ks host w₁.heap ∧ AttachesOnce (!members.isEmpty) host w w₁ ∧
      HoldSlot members k.object host w₁.heap := by
  obtain ⟨w₁, register, refers₁, none⟩ := execute_register supports mem refers
  have before : HoldSlot [] k.object host w₁.heap := fun _ found => absurd found List.not_mem_nil
  obtain ⟨w₂, run, refers₂, once, holds⟩ :=
    executeAll_internals supports mem (fun _ here => here) refers₁ before (.inl rfl)
  refine ⟨w₂, ?_, refers₂, none.trans once, holds⟩
  rw [construct_constructorTree, injectedStatements, executeAll_cons register, run]

/-- Runs a constructor for some constructions, one after the other. -/
def constructAll (env : Environment) (m : Member) (ks : List Construction) (w : World) :
    Option World :=
  ks.foldlM (fun w k => construct env m k.object [.object k.ref] w) w

theorem constructAll_concat {m : Member} {done : List Construction}
    (before : constructAll env m done w = some w₁) :
    constructAll env m (done ++ [k]) w = construct env m k.object [.object k.ref] w₁ := by
  unfold constructAll at before ⊢
  rw [List.foldlM_append, before]
  simp

/-- Constructions one after the other: the first one is the only one to attach. -/
theorem constructAll_internals (supports : Supports env members host ks)
    (refers : RefersTo ks host w.heap) {done : List Construction} (among : ∀ k ∈ done, k ∈ ks) :
    ∃ w₁, constructAll env (constructorTree members) done w = some w₁ ∧
      RefersTo ks host w₁.heap ∧ AttachesOnce (!members.isEmpty && !done.isEmpty) host w w₁ ∧
      ∀ k ∈ done.getLast?, HoldSlot members k.object host w₁.heap := by
  -- From the end of the sequence, as the members of the last object are those that count.
  induction done using List.reverseRecOn with
  | nil =>
      refine ⟨w, rfl, refers, ?_, by simp⟩
      rw [List.isEmpty_nil, Bool.not_true, Bool.and_false]
      exact .of_same rfl rfl
  | append_singleton done k ih =>
      obtain ⟨w₁, run, refers₁, once, -⟩ := ih fun other mem => among other (List.mem_append_left _ mem)
      obtain ⟨w₂, next, refers₂, onceNext, holds⟩ := construct_internals supports
        (among k (List.mem_append_right _ List.mem_cons_self)) refers₁
      have asked : (!members.isEmpty && !done.isEmpty || !members.isEmpty) =
          (!members.isEmpty && !(done ++ [k]).isEmpty) := by cases members <;> simp
      refine ⟨w₂, (constructAll_concat run).trans next, refers₂, asked ▸ once.trans onceNext, ?_⟩
      simpa using holds

/-- Internals are attached at most once for a host.  For any members with internals and any sequence of
constructions on the element of the host, the constructor that is written for the members runs to its end
each time.  If the slot is empty at the start, there are such members and there is a construction, then
internals are attached once in all, and otherwise never; no other method is called.  And after each
construction all the members of the object hold what is in the slot. -/
theorem constructAll_attachesOnce (c : Component) (supports : Supports env c.internalsMembers host ks)
    (refers : RefersTo ks host w.heap) :
    ∃ made, classMembers (constructorText (constructorStatements c)) = .ok [made] ∧
      ∀ done, done <+: ks → ∃ w₁, constructAll env made done w = some w₁ ∧
        w₁.calls = w.calls ++
          (if (slot host w.heap).isTruthy ∨ c.internalsMembers = [] ∨ done = [] then []
          else [⟨host, attachKey⟩]) ∧
        ∀ k ∈ done.getLast?, ∀ member ∈ c.internalsMembers,
          w₁.heap.read k.object (.ofString member) = slot host w₁.heap := by
  refine ⟨constructorTree c.internalsMembers, classMembers_constructorText _, fun done front => ?_⟩
  obtain ⟨w₁, run, -, once, holds⟩ :=
    constructAll_internals supports refers (fun k mem => front.subset mem)
  refine ⟨w₁, run, ?_, holds⟩
  rw [once.calls]
  cases (slot host w.heap).isTruthy <;> cases c.internalsMembers <;> cases done <;> simp

/-! ### Two objects with two members -/

/-- An environment without setters, in which registration does nothing to the objects and internals can
be attached only while the slot is empty. -/
def bareEnvironment : Environment where
  function _ _ h := some (.undefined, h)
  method object key h :=
    if key = attachKey ∧ (slot object h).isTruthy = false then some (.object 4, h) else none
  assign object key v h := some (h.write object key v)

theorem bareEnvironment_supports
    (apart : ∀ k ∈ ks, host ≠ k.object ∧ ∀ other ∈ ks, other.ref ≠ k.object) :
    Supports bareEnvironment members host ks where
  apart := apart
  plain _ _ _ _ _ _ := rfl
  plainSlot _ _ := rfl
  registers _ _ h refers := ⟨_, h, rfl, rfl, refers⟩
  attaches h refers empty := ⟨_, h, if_pos ⟨rfl, empty⟩, rfl, refers⟩

/-- A component with two members for internals, one of which has a name that must be quoted. -/
def twofold : Component :=
  ⟨"A", "a-a", none, false, [⟨"internals", .internals⟩, ⟨"my-internals", .internals⟩], []⟩

/-- A world with the element 0 and a reference to its host. -/
def initialWorld : World :=
  ⟨⟨fun object key => if object = 1 ∧ key = elementKey then .object 0 else .undefined⟩, []⟩

/-- Two objects are constructed for the same host; internals are attached once and both hold them. -/
theorem twofold_attachesOnce :
    ∃ made, classMembers (constructorText (constructorStatements twofold)) = .ok [made] ∧
      ∃ w₁, constructAll bareEnvironment made [⟨2, 1⟩, ⟨3, 1⟩] initialWorld = some w₁ ∧
        w₁.calls = [⟨0, attachKey⟩] ∧
        ∀ member ∈ ["internals", "my-internals"],
          w₁.heap.read 3 (.ofString member) = slot 0 w₁.heap := by
  have refers : RefersTo [⟨2, 1⟩, ⟨3, 1⟩] 0 initialWorld.heap := by simp [RefersTo, initialWorld]
  obtain ⟨made, read, runs⟩ :=
    constructAll_attachesOnce twofold (bareEnvironment_supports (by decide)) refers
  obtain ⟨w₁, run, calls, holds⟩ := runs _ (List.prefix_refl _)
  exact ⟨made, read, w₁, run, calls, holds ⟨3, 1⟩ rfl⟩

end ComponentLowering.Runtime
