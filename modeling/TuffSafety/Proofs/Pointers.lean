import TuffSafety.Proofs.Elementary
import TuffSafety.Proofs.Occurrence

/-!
# Evaluation of pointers

Expressions over pointers are evaluated on a heap of objects. Only comparisons with null, logical
operators, `if` and members are; the numbers in the heap do not matter and are not told apart. A
member of the null pointer is a trap that names the object expression, and such a trap in an operator
is always one of an operand.
-/
namespace TuffSafety

/-- A value, as far as pointers are concerned. -/
inductive Datum where
  | null
  | object (id : Nat)
  | array
  | bool (b : Bool)
  | scalar
deriving DecidableEq, Repr

structure Heap where
  /-- The name of the struct that an object is of. -/
  shape : Nat → String
  field : Nat → String → Option Datum

/-- Why an expression over pointers has no value. -/
inductive Trap where
  | nullAccess (object : Expr)
  | undefined

/-- The values of the variables. -/
abbrev Pointers : Type := String → Option Datum

namespace Datum

def toBool : Datum → Except Trap Bool
  | bool b => .ok b
  | _ => .error .undefined

/-- Whether two pointers are the same. -/
def same : Datum → Datum → Except Trap Bool
  | null, null => .ok true
  | null, object _ => .ok false
  | object _, null => .ok false
  | object i, object j => .ok (i == j)
  | _, _ => .error .undefined

/-- Whether two pointers are the same, or whether they are not. -/
def compare (wanted : Bool) (left right : Except Trap Datum) : Except Trap Datum := do
  return .bool ((← (← left).same (← right)) == wanted)

/-- A logical operator, whose right operand is asked only when the left one is `needs`. -/
def shortCircuit (needs : Bool) (left right : Except Trap Datum) : Except Trap Datum := do
  if (← (← left).toBool) = needs then return .bool (← (← right).toBool)
  else return .bool !needs

def branch (condition thenValue elseValue : Except Trap Datum) : Except Trap Datum := do
  if ← (← condition).toBool then thenValue else elseValue

/-- A member of the value of an expression. -/
def member (heap : Heap) (object : Expr) (property : String) : Datum → Except Trap Datum
  | null => .error (.nullAccess object)
  | .object id =>
    match heap.field id property with
    | some d => .ok d
    | none => .error .undefined
  | array => if property = "length" ∨ property = "init" then .ok scalar else .error .undefined
  | _ => .error .undefined

/-- Only a member of the null pointer is a null access. -/
theorem null_of_member {heap : Heap} {e object : Expr} {property : String} {d : Datum}
    (h : d.member heap e property = .error (.nullAccess object)) : d = .null ∧ object = e := by
  cases d with
  | null =>
    cases h
    exact ⟨rfl, rfl⟩
  | object id =>
    rw [member] at h
    split at h <;> cases h
  | array =>
    rw [member] at h
    split at h <;> cases h
  | bool | scalar => cases h

theorem eq_bool_of_toBool {d : Datum} {b : Bool} (h : d.toBool = .ok b) : d = .bool b := by
  cases d <;> cases h
  rfl

theorem undefined_of_toBool {d : Datum} {trap : Trap} (h : d.toBool = .error trap) :
    trap = .undefined := by
  cases d <;> cases h <;> rfl

theorem undefined_of_same {d d' : Datum} {trap : Trap} (h : d.same d' = .error trap) :
    trap = .undefined := by
  cases d <;> cases d' <;> cases h <;> rfl

variable {needs wanted : Bool} {left right : Except Trap Datum}

/-- An operator that comes out as it needs its left operand to has two such operands. -/
theorem operands_of_shortCircuit (h : shortCircuit needs left right = .ok (.bool needs)) :
    left = .ok (.bool needs) ∧ right = .ok (.bool needs) := by
  obtain ⟨l, hl, h⟩ := bind_eq_ok.mp h
  obtain ⟨b, hb, h⟩ := bind_eq_ok.mp h
  split at h
  · rename_i hneeds
    obtain ⟨r, hr, h⟩ := bind_eq_ok.mp h
    obtain ⟨b', hb', h⟩ := bind_eq_ok.mp h
    cases h
    rw [eq_bool_of_toBool hb, hneeds] at hl
    rw [eq_bool_of_toBool hb'] at hr
    exact ⟨hl, hr⟩
  · cases needs <;> cases h

theorem bool_of_shortCircuit {d : Datum} (h : shortCircuit needs left right = .ok d) :
    ∃ b, d = .bool b := by
  obtain ⟨l, _, h⟩ := bind_eq_ok.mp h
  obtain ⟨b, _, h⟩ := bind_eq_ok.mp h
  split at h
  · obtain ⟨r, _, h⟩ := bind_eq_ok.mp h
    obtain ⟨b', _, h⟩ := bind_eq_ok.mp h
    cases h
    exact ⟨b', rfl⟩
  · cases h
    exact ⟨!needs, rfl⟩

/-- A null access in an operator is one of its operands'; the right one had then been asked. -/
theorem nullAccess_of_shortCircuit {object : Expr}
    (h : shortCircuit needs left right = .error (.nullAccess object)) :
    left = .error (.nullAccess object) ∨
      left = .ok (.bool needs) ∧ right = .error (.nullAccess object) := by
  rcases bind_eq_error.mp h with hl | ⟨l, hl, h⟩
  · exact .inl hl
  rcases bind_eq_error.mp h with hb | ⟨b, hb, h⟩
  · cases undefined_of_toBool hb
  split at h
  · rename_i hneeds
    rw [eq_bool_of_toBool hb, hneeds] at hl
    rcases bind_eq_error.mp h with hr | ⟨r, hr, h⟩
    · exact .inr ⟨hl, hr⟩
    rcases bind_eq_error.mp h with hb' | ⟨b', hb', h⟩
    · cases undefined_of_toBool hb'
    · cases h
  · cases h

theorem bool_of_compare {d : Datum} (h : compare wanted left right = .ok d) : ∃ b, d = .bool b := by
  obtain ⟨l, _, h⟩ := bind_eq_ok.mp h
  obtain ⟨r, _, h⟩ := bind_eq_ok.mp h
  obtain ⟨b, _, h⟩ := bind_eq_ok.mp h
  cases h
  exact ⟨_, rfl⟩

theorem nullAccess_of_compare {object : Expr}
    (h : compare wanted left right = .error (.nullAccess object)) :
    left = .error (.nullAccess object) ∨ right = .error (.nullAccess object) := by
  rcases bind_eq_error.mp h with hl | ⟨l, _, h⟩
  · exact .inl hl
  rcases bind_eq_error.mp h with hr | ⟨r, _, h⟩
  · exact .inr hr
  rcases bind_eq_error.mp h with hb | ⟨b, _, h⟩
  · cases undefined_of_same hb
  · cases h

/-- A branch has the outcome of the side that is taken, if the condition has a value. -/
theorem branch_cases (condition thenValue elseValue : Except Trap Datum) :
    (∃ trap, condition = .error trap ∧ branch condition thenValue elseValue = .error trap) ∨
      branch condition thenValue elseValue = .error .undefined ∨
      (condition = .ok (.bool true) ∧ branch condition thenValue elseValue = thenValue) ∨
      condition = .ok (.bool false) ∧ branch condition thenValue elseValue = elseValue := by
  cases condition with
  | error trap => exact .inl ⟨trap, rfl, rfl⟩
  | ok d =>
    refine .inr ?_
    cases d with
    | bool b =>
      cases b with
      | true => exact .inr (.inl ⟨rfl, rfl⟩)
      | false => exact .inr (.inr ⟨rfl, rfl⟩)
    | null | object | array | scalar => exact .inl rfl

end Datum

/-- The value of an expression over pointers. An `if` without `else` whose condition fails has none. -/
def Expr.access (vars : Pointers) (heap : Heap) : Expr → Except Trap Datum
  | ident name _ =>
    match vars name with
    | some d => .ok d
    | none => .error .undefined
  | number value suffix loc =>
    .ok (if (number value suffix loc).isNullLiteral then .null else .scalar)
  | bool b _ => .ok (.bool b)
  | binary .eq left right _ => Datum.compare true (left.access vars heap) (right.access vars heap)
  | binary .ne left right _ => Datum.compare false (left.access vars heap) (right.access vars heap)
  | binary .and left right _ =>
    Datum.shortCircuit true (left.access vars heap) (right.access vars heap)
  | binary .or left right _ =>
    Datum.shortCircuit false (left.access vars heap) (right.access vars heap)
  | ite condition thenBranch (some elseBranch) _ =>
    Datum.branch (condition.access vars heap) (thenBranch.access vars heap)
      (elseBranch.access vars heap)
  | ite condition thenBranch none _ =>
    Datum.branch (condition.access vars heap) (thenBranch.access vars heap) (.error .undefined)
  | member object property _ => do (← object.access vars heap).member heap object property
  | _ => .error .undefined

namespace Expr

variable {vars : Pointers} {heap : Heap}

theorem access_ident {name : String} {d : Datum} (h : vars name = some d) (loc : Option Loc) :
    (Expr.ident name loc).access vars heap = .ok d := by
  rw [access, h]

theorem access_ident_safe {name : String} {loc : Option Loc} (object : Expr) :
    (Expr.ident name loc).access vars heap ≠ .error (.nullAccess object) := by
  rw [access]
  split <;> exact fun h => by cases h

theorem access_number_safe {value : Int64} {suffix : Option String} {loc : Option Loc}
    (object : Expr) :
    (Expr.number value suffix loc).access vars heap ≠ .error (.nullAccess object) := by
  rw [access]
  exact fun h => by cases h

theorem access_nullLiteral {e : Expr} (h : e.isNullLiteral = true) :
    e.access vars heap = .ok .null := by
  cases e with
  | number value suffix loc => rw [access, if_pos h]
  | _ => cases h

end Expr

/-- Variables, comparisons of a variable with null, logical operators, `if` and members. -/
inductive Expr.Pointing : Expr → Prop where
  | ident {name loc} : Pointing (.ident name loc)
  | isNull {op name l l' loc} (hop : op = .eq ∨ op = .ne) :
      Pointing (.binary op (.ident name l) (.number 0 (some "USize") l') loc)
  | nullIs {op name l l' loc} (hop : op = .eq ∨ op = .ne) :
      Pointing (.binary op (.number 0 (some "USize") l') (.ident name l) loc)
  | logical {op l r loc} (hop : op = .and ∨ op = .or) (hl : l.Pointing) (hr : r.Pointing) :
      Pointing (.binary op l r loc)
  | ite {cond t e loc} (hc : cond.Pointing) (ht : t.Pointing) (he : ∀ e' ∈ e, Pointing e') :
      Pointing (.ite cond t e loc)
  | member {object property loc} (ho : object.Pointing) : Pointing (.member object property loc)

theorem Expr.Pointing.not_assigns {e : Expr} (h : e.Pointing) (name : String) :
    ¬ (Node.expr e).Assigns name := by
  induction h with
  | ident => exact Node.ident_not_assigns
  | isNull =>
    refine Node.not_assigns_of_parts fun part hpart => ?_
    cases hpart with
    | left => exact Node.ident_not_assigns
    | right => exact Node.number_not_assigns
  | nullIs =>
    refine Node.not_assigns_of_parts fun part hpart => ?_
    cases hpart with
    | left => exact Node.number_not_assigns
    | right => exact Node.ident_not_assigns
  | logical _ _ _ ihl ihr =>
    refine Node.not_assigns_of_parts fun part hpart => ?_
    cases hpart with
    | left => exact ihl
    | right => exact ihr
  | ite _ _ _ ihc iht ihe =>
    refine Node.not_assigns_of_parts fun part hpart => ?_
    cases hpart with
    | condition => exact ihc
    | thenBranch => exact iht
    | elseBranch => exact ihe _ rfl
  | member _ iho =>
    refine Node.not_assigns_of_parts fun part hpart => ?_
    cases hpart
    exact iho

end TuffSafety
