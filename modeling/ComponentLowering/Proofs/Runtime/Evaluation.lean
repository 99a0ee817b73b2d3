/-
# Running injected code

What the statements do that lowering adds to a constructor: access to properties, calls, plain
assignment, blocks and choices.  As in the language, an expression stands for a value or for a place, so
the target of an assignment and the receiver of a method are found before anything else happens.

What functions and methods do and what a write to a property leads to is a matter of the environment,
where a setter or a method may do anything to the objects.  Other statements and expressions than those
that are added have no outcome here.
-/
import ComponentLowering.Syntax.Tree

namespace ComponentLowering.Runtime

open ComponentLowering.Number ComponentLowering.Syntax ComponentLowering.Text

/-! ### Values and objects -/

/-- What tells an object from the others. -/
abbrev Address := Nat

/-- The values of the language.  A number has a sign and a magnitude, unless it is none. -/
inductive Value where
  | undefined
  | null
  | bool (value : Bool)
  | notANumber
  | number (negative : Bool) (magnitude : Binary64)
  | bigint (value : Int)
  | string (value : StringValue)
  | symbol (address : Address)
  | object (address : Address)
deriving DecidableEq, Repr, Inhabited

namespace Value

/-- Whether a value makes a condition hold. -/
def isTruthy : Value → Bool
  | .undefined | .null | .notANumber => false
  | .bool value => value
  | .number _ (.finite significand _) => significand != 0
  | .number _ .infinite => true
  | .bigint value => value != 0
  | .string value => value.text != ""
  | .symbol _ | .object _ => true

/-- The object that a value is. -/
def address? : Value → Option Address
  | .object address => some address
  | _ => none

/-- The name of a property that a value is. -/
def key? : Value → Option StringValue
  | .string value => some value
  | _ => none

end Value

/-- The properties of all objects.  One that an object lacks is undefined. -/
structure Heap where
  read : Address → StringValue → Value

namespace Heap

variable {h : Heap} {object other : Address} {key otherKey : StringValue} {v : Value}

/-- The objects after a plain write to a property. -/
def write (h : Heap) (object : Address) (key : StringValue) (v : Value) : Heap :=
  ⟨fun o k => if o = object ∧ k = key then v else h.read o k⟩

@[simp]
theorem read_write : (h.write object key v).read object key = v := if_pos ⟨rfl, rfl⟩

@[simp]
theorem read_write_of_object_ne (ne : other ≠ object) :
    (h.write object key v).read other otherKey = h.read other otherKey :=
  if_neg fun both => ne both.1

@[simp]
theorem read_write_of_key_ne (ne : otherKey ≠ key) :
    (h.write object key v).read other otherKey = h.read other otherKey :=
  if_neg fun both => ne both.2

end Heap

/-- The call of a method on an object. -/
structure MethodCall where
  receiver : Address
  method : StringValue
deriving DecidableEq, Repr, Inhabited

/-- The objects, and the calls of methods that the code has made so far. -/
structure World where
  heap : Heap
  calls : List MethodCall

/-- The world after a plain write to a property. -/
def World.write (w : World) (object : Address) (key : StringValue) (v : Value) : World :=
  { w with heap := w.heap.write object key v }

@[simp]
theorem World.heap_write {w : World} {object : Address} {key : StringValue} {v : Value} :
    (w.write object key v).heap = w.heap.write object key v := rfl

@[simp]
theorem World.calls_write {w : World} {object : Address} {key : StringValue} {v : Value} :
    (w.write object key v).calls = w.calls := rfl

/-- What the code around does.  Where it gives nothing, an exception is thrown. -/
structure Environment where
  /-- The function of a name that the code does not bind. -/
  function : String → List Value → Heap → Option (Value × Heap)
  /-- The method of a name on an object, called without arguments. -/
  method : Address → StringValue → Heap → Option (Value × Heap)
  /-- The assignment of a value to a property of an object. -/
  assign : Address → StringValue → Value → Heap → Option Heap

/-- Whether assigning to a property is a plain write: it stores the value and does nothing else. -/
def Environment.WritesPlainly (env : Environment) (object : Address) (key : StringValue) : Prop :=
  ∀ v h, env.assign object key v h = some (h.write object key v)

/-- Where code runs: the object it runs on and the names it binds. -/
structure Frame where
  receiver : Address
  locals : List (String × Value)

/-! ### Expressions -/

/-- What an expression stands for. -/
inductive Operand where
  | value (v : Value)
  | binding (name : String)
  | property (object : Address) (key : StringValue)
deriving DecidableEq, Repr, Inhabited

variable (env : Environment) (frame : Frame)

namespace Operand

/-- The value of what an expression stands for. -/
def get : Operand × World → Option (Value × World)
  | (.value v, w) => some (v, w)
  | (.binding name, w) => do return (← frame.locals.lookup name, w)
  | (.property object key, w) => some (w.heap.read object key, w)

/-- Assigns to a property. -/
def put (v : Value) (w : World) : Operand → Option World
  | .property object key => do return { w with heap := ← env.assign object key v w.heap }
  | _ => none

/-- Calls a function by its name, or a method without arguments. -/
def call (args : List Value) (w : World) : Operand → Option (Value × World)
  | .binding name =>
    match frame.locals.lookup name with
    | some _ => none
    | none => do
      let (v, heap) ← env.function name args w.heap
      return (v, { w with heap })
  | .property object key =>
    match args with
    | [] => do
      let (v, heap) ← env.method object key w.heap
      return (v, ⟨heap, w.calls ++ [⟨object, key⟩]⟩)
    | _ => none
  | .value _ => none

end Operand

mutual

/-- What an expression stands for, found out from the left to the right. -/
def operand : Expr → World → Option (Operand × World)
  | .this _, w => some (.value (.object frame.receiver), w)
  | .ident _ name, w => some (.binding name, w)
  | .string _ v, w => some (.value (.string v), w)
  | .member _ object property false, w => do
    let (v, w) ← operand object w >>= Operand.get frame
    return (.property (← v.address?) (.ofString property.name), w)
  | .index _ object key false, w => do
    let (v, w) ← operand object w >>= Operand.get frame
    let (k, w) ← operand key w >>= Operand.get frame
    return (.property (← v.address?) (← k.key?), w)
  | .assign _ .plain (.place target) value, w => do
    let (place, w) ← operand target w
    let (v, w) ← operand value w >>= Operand.get frame
    return (.value v, ← place.put env v w)
  | .call _ callee _ args false _, w => do
    let (place, w) ← operand callee w
    let (values, w) ← argumentValues args w
    let (v, w) ← place.call env frame values w
    return (.value v, w)
  | _, _ => none

/-- The values of arguments. -/
def argumentValues : List Expr → World → Option (List Value × World)
  | [], w => some ([], w)
  | e :: rest, w => do
    let (v, w) ← operand e w >>= Operand.get frame
    let (values, w) ← argumentValues rest w
    return (v :: values, w)

end

/-- The value of an expression. -/
def evaluate (e : Expr) (w : World) : Option (Value × World) :=
  operand env frame e w >>= Operand.get frame

section

variable {env : Environment} {frame : Frame} {span : Span} {w w₁ w₂ w₃ : World} {e e' : Expr}
  {place : Operand} {v : Value} {object : Address} {key : StringValue}

theorem evaluate_of_operand (h : operand env frame e w = some (place, w₁)) :
    evaluate env frame e w = Operand.get frame (place, w₁) := by
  rw [evaluate, h, Option.bind_eq_bind, Option.bind_some]

@[simp]
theorem evaluate_this :
    evaluate env frame (.this span) w = some (.object frame.receiver, w) := by
  simp only [evaluate, operand, Option.bind_eq_bind, Option.bind_some, Operand.get]

@[simp]
theorem evaluate_string {text : StringValue} :
    evaluate env frame (.string span text) w = some (.string text, w) := by
  simp only [evaluate, operand, Option.bind_eq_bind, Option.bind_some, Operand.get]

theorem evaluate_ident {name : String} (h : frame.locals.lookup name = some v) :
    evaluate env frame (.ident span name) w = some (v, w) := by
  simp only [evaluate, operand, Option.bind_eq_bind, Option.bind_some, Operand.get, h,
    Option.pure_def]

theorem evaluate_property (h : operand env frame e w = some (.property object key, w₁)) :
    evaluate env frame e w = some (w₁.heap.read object key, w₁) :=
  evaluate_of_operand h

theorem operand_member {property : Ident} (h : evaluate env frame e w = some (.object object, w₁)) :
    operand env frame (.member span e property false) w =
      some (.property object (.ofString property.name), w₁) := by
  simp only [evaluate, Option.bind_eq_bind] at h
  simp only [operand, h, Option.bind_eq_bind, Option.bind_some, Value.address?, Option.pure_def]

theorem operand_index (h : evaluate env frame e w = some (.object object, w₁))
    (hkey : evaluate env frame e' w₁ = some (.string key, w₂)) :
    operand env frame (.index span e e' false) w = some (.property object key, w₂) := by
  simp only [evaluate, Option.bind_eq_bind] at h hkey
  simp only [operand, h, hkey, Option.bind_eq_bind, Option.bind_some, Value.address?, Value.key?,
    Option.pure_def]

theorem evaluate_assign (h : operand env frame e w = some (place, w₁))
    (hvalue : evaluate env frame e' w₁ = some (v, w₂)) (put : place.put env v w₂ = some w₃) :
    evaluate env frame (.assign span .plain (.place e) e') w = some (v, w₃) := by
  simp only [evaluate, Option.bind_eq_bind] at hvalue
  have result : operand env frame (.assign span .plain (.place e) e') w = some (.value v, w₃) := by
    simp only [operand, h, hvalue, put, Option.bind_eq_bind, Option.bind_some, Option.pure_def]
  exact evaluate_of_operand result

theorem evaluate_call {types : List TypeNode} {args : List Expr} {values : List Value}
    {isPure : Bool} (h : operand env frame e w = some (place, w₁))
    (hargs : argumentValues env frame args w₁ = some (values, w₂))
    (call : place.call env frame values w₂ = some (v, w₃)) :
    evaluate env frame (.call span e types args false isPure) w = some (v, w₃) := by
  have result : operand env frame (.call span e types args false isPure) w = some (.value v, w₃) := by
    simp only [operand, h, hargs, call, Option.bind_eq_bind, Option.bind_some, Option.pure_def]
  exact evaluate_of_operand result

@[simp]
theorem argumentValues_nil : argumentValues env frame [] w = some ([], w) := by
  rw [argumentValues]

theorem argumentValues_cons {rest : List Expr} {values : List Value}
    (h : evaluate env frame e w = some (v, w₁))
    (hrest : argumentValues env frame rest w₁ = some (values, w₂)) :
    argumentValues env frame (e :: rest) w = some (v :: values, w₂) := by
  simp only [evaluate, Option.bind_eq_bind] at h
  simp only [argumentValues, h, hrest, Option.bind_eq_bind, Option.bind_some, Option.pure_def]

end

/-! ### Statements -/

mutual

/-- Runs a statement. -/
def execute : Stmt → World → Option World
  | .expression _ e, w => do
    let (_, w) ← evaluate env frame e w
    return w
  | .block _ body, w => executeAll body w
  | .branch _ test yes no, w => do
    let (v, w) ← evaluate env frame test w
    if v.isTruthy then execute yes w else execute? no w
  | _, _ => none

/-- Runs some statements. -/
def executeAll : List Stmt → World → Option World
  | [], w => some w
  | s :: rest, w => execute s w >>= executeAll rest

/-- Runs a statement that may be missing. -/
def execute? : Option Stmt → World → Option World
  | none, w => some w
  | some s, w => execute s w

end

section

variable {env : Environment} {frame : Frame} {span : Span} {w w₁ : World} {e : Expr} {v : Value}
  {s : Stmt} {rest : List Stmt}

theorem execute_expression (h : evaluate env frame e w = some (v, w₁)) :
    execute env frame (.expression span e) w = some w₁ := by
  simp only [execute, h, Option.bind_eq_bind, Option.bind_some, Option.pure_def]

theorem execute_branch {yes : Stmt} {no : Option Stmt} (h : evaluate env frame e w = some (v, w₁)) :
    execute env frame (.branch span e yes no) w =
      if v.isTruthy then execute env frame yes w₁ else execute? env frame no w₁ := by
  simp only [execute, h, Option.bind_eq_bind, Option.bind_some]

theorem execute_block : execute env frame (.block span rest) w = executeAll env frame rest w := by
  rw [execute]

@[simp]
theorem executeAll_nil : executeAll env frame [] w = some w := by
  rw [executeAll]

theorem executeAll_cons (h : execute env frame s w = some w₁) :
    executeAll env frame (s :: rest) w = executeAll env frame rest w₁ := by
  rw [executeAll, h, Option.bind_eq_bind, Option.bind_some]

end

/-! ### Constructors -/

/-- The names that parameters bind, with the arguments that they are given. -/
def parameterValues : List Param → List Value → Option (List (String × Value))
  | [], _ => some []
  | p :: rest, args =>
    match p.target with
    | .ident _ name => do
      return (name, args.headD .undefined) :: (← parameterValues rest args.tail)
    | _ => none

/-- Runs a constructor on an object. -/
def construct (m : Member) (object : Address) (args : List Value) (w : World) : Option World :=
  match m with
  | .method m =>
    match m.kind, m.fn.body with
    | .constructor, .block _ _ body => do
      let locals ← parameterValues m.fn.params args
      executeAll env ⟨object, locals⟩ body w
    | _, _ => none
  | _ => none

end ComponentLowering.Runtime
