/-
# Constructors of lowered classes

A lowered class is meant to have one constructor, which takes the host and goes on with the statements
of the constructor that the class had.  Only the first constructor of the class is looked at, though.
Where signatures stand in front of the constructor with the body, the first signature is replaced and
the constructor itself stays, so the class ends with both.
-/
import ComponentLowering.Proofs.Lowering.LoweredClasses

namespace ComponentLowering.Lowering

open ComponentLowering.Component ComponentLowering.Syntax

variable {source : List Char} {decl : ClassDef} {c : Component} {s : ModuleState}
  {lowered : LoweredClass}

/-- Whether a member is written with a body. -/
def hasBody : Member → Bool
  | .method m =>
    match m.fn.body with
    | .block _ _ _ => true
    | _ => false
  | _ => false

/-- The statements of the constructor that has a body. -/
def implementedStatements (decl : ClassDef) : List Stmt :=
  (((constructors decl.members).find? hasBody).map bodyStatements).getD []

/-- The statements of the first constructor. -/
def firstStatements (decl : ClassDef) : List Stmt :=
  ((constructors decl.members).head?.map bodyStatements).getD []

/-- The constructor of the lowered class as it is meant: it takes the host and registers the instance,
gives each member its internals in the order of the text, and goes on with the given statements. -/
def meantConstructor (span : Span) (decl : ClassDef) (rest : List Stmt) : Member :=
  hostConstructor span (injectedStatements (markedNames .internals decl.members) ++ rest)

/-- Whether a class was lowered to one with exactly one constructor, which goes on with the statements
of the constructor that has a body. -/
def HasOneConstructor (decl lowered : ClassDef) : Prop :=
  ∃ span, constructors lowered.members = [meantConstructor span decl (implementedStatements decl)]

/-- What has no body has no statements. -/
theorem bodyStatements_of_not_hasBody {m : Member} (h : hasBody m = false) :
    bodyStatements m = [] := by
  cases m with
  | method m => cases body : m.fn.body <;> simp_all [hasBody, bodyStatements]
  | _ => rfl

/-- A constructor that is alone is the one that has a body, if any has. -/
theorem firstStatements_eq (single : (constructors decl.members).length ≤ 1) :
    firstStatements decl = implementedStatements decl := by
  unfold firstStatements implementedStatements
  match eq : constructors decl.members with
  | [] => rfl
  | [m] =>
      cases body : hasBody m with
      | true => simp [body]
      | false => simp [body, bodyStatements_of_not_hasBody body]
  | _ :: _ :: _ =>
      rw [eq] at single
      simp at single

/-- The constructors of a lowered class.  The first constructor of the class is replaced by one that
takes the host and goes on with its statements, and the others stay.  So the lowered class has exactly
one, with the statements of the one that had a body, if and only if the class had at most one, counting
signatures. -/
theorem lowerClass_hasOneConstructor_iff (reads : readClass source decl = .component c)
    (lowers : lowerClass decl c s = .ok lowered) :
    (∃ span, constructors lowered.decl.members =
      meantConstructor span decl (firstStatements decl) :: (constructors decl.members).tail) ∧
    (HasOneConstructor decl lowered.decl ↔ (constructors decl.members).length ≤ 1) := by
  obtain ⟨span, eq⟩ := (lowerClass_ok lowers).constructors
  rw [(isReadAs_of_component reads).internalsMembers] at eq
  refine ⟨⟨span, eq⟩, ?_⟩
  constructor
  · rintro ⟨span', alone⟩
    rw [eq] at alone
    have none : (constructors decl.members).tail = [] := (List.cons.inj alone).2
    have := List.length_tail (l := constructors decl.members)
    rw [none, List.length_nil] at this
    omega
  · intro single
    have none : (constructors decl.members).tail = [] :=
      List.length_eq_zero_iff.mp (by rw [List.length_tail]; omega)
    refine ⟨span, ?_⟩
    rw [eq, none, meantConstructor, ← firstStatements_eq single]
    rfl

/-! ### A class with a signature of its constructor -/

/-- A module with a class that declares a signature of its constructor. -/
def overloaded : String :=
  "@Component(\x7b tag: 'a-a' \x7d)\nclass A \x7b\n  constructor(a: string);\n" ++
    "  constructor(a: any) \x7b this.v = a; \x7d\n\x7d\n"

theorem overloaded_read :
    ∃ m, Module.read (.ofPath "a.ts") overloaded.toList = .ok m ∧
      lowersFirst (fun decl _ => (constructors decl.members).length == 2) m = true :=
  exists_of_read (by decide +kernel)

/-- The class with the signature is lowered to one with two constructors. -/
theorem overloaded_hasTwoConstructors :
    ∃ m, Module.read (.ofPath "a.ts") overloaded.toList = .ok m ∧
      ∃ decl ∈ classes m.body, ∃ c lowered, readClass m.source decl = .component c ∧
        lowerClass decl c {} = .ok lowered ∧ (constructors lowered.decl.members).length = 2 ∧
        ¬ HasOneConstructor decl lowered.decl := by
  obtain ⟨m, read, first⟩ := overloaded_read
  obtain ⟨decl, mem, c, lowered, reads, lowers, two⟩ := of_lowersFirst first
  obtain ⟨span, eq⟩ := (lowerClass_ok lowers).constructors
  have length : (constructors lowered.decl.members).length = 2 := by
    rw [eq, List.length_cons, List.length_tail, beq_iff_eq.mp two]
  refine ⟨m, read, decl, mem, c, lowered, reads, lowers, length, ?_⟩
  rintro ⟨span', alone⟩
  rw [alone] at length
  cases length

/-- The class with the signature is lowered, so what becomes of its constructors is known. -/
theorem overloaded_hasOneConstructor_iff :
    ∃ m, Module.read (.ofPath "a.ts") overloaded.toList = .ok m ∧
      ∃ decl ∈ classes m.body, ∃ c lowered, readClass m.source decl = .component c ∧
        lowerClass decl c {} = .ok lowered ∧
        (∃ span, constructors lowered.decl.members =
          meantConstructor span decl (firstStatements decl) :: (constructors decl.members).tail) ∧
        (HasOneConstructor decl lowered.decl ↔ (constructors decl.members).length ≤ 1) := by
  obtain ⟨m, read, first⟩ := overloaded_read
  obtain ⟨decl, mem, c, lowered, reads, lowers, -⟩ := of_lowersFirst first
  exact ⟨m, read, decl, mem, c, lowered, reads, lowers,
    lowerClass_hasOneConstructor_iff reads lowers⟩

end ComponentLowering.Lowering
