import TuffSafety.Proofs.Admits
import TuffSafety.Proofs.Elementary

/-!
# Values of expressions

Expressions without effects are evaluated over unbounded integers. A division by zero, a sum,
difference or product outside 32 bits and an index outside an array are crashes; an operand of the
wrong kind, a name without a value or any other construct leaves the value undefined. The facts
that the checker derives from a condition are true whenever the condition had that outcome.
-/
namespace TuffSafety

/-- A value at run time. An array is the list of its initialised elements. -/
inductive Value where
  | int (n : Int)
  | bool (b : Bool)
  | array (items : List Value)

/-- What a program that was accepted must never do. -/
inductive Crash where
  | zeroDivisor
  | overflow
  | outOfBounds
deriving DecidableEq, Repr

/-- Why an expression has no value. -/
inductive Halt where
  | crash (crash : Crash)
  | undefined
deriving DecidableEq, Repr

/-- The values of the variables. -/
abbrev Env : Type := String → Option Value

namespace Value

def toInt : Value → Except Halt Int
  | int n => .ok n
  | _ => .error .undefined

def toBool : Value → Except Halt Bool
  | bool b => .ok b
  | _ => .error .undefined

/-- A sum, difference or product has to fit into 32 bits. -/
def fit (n : Int) : Except Halt Value :=
  if Bound.int32.1 ≤ n ∧ n ≤ Bound.int32.2 then .ok (int n) else .error (.crash .overflow)

/-- An operator between integers; quotients are cut towards zero. -/
def integer (op : BinaryOp) (a b : Int) : Except Halt Value :=
  match op with
  | .add => fit (a + b)
  | .sub => fit (a - b)
  | .mul => fit (a * b)
  | .div => if b = 0 then .error (.crash .zeroDivisor) else .ok (int (a.tdiv b))
  | .mod => if b = 0 then .error (.crash .zeroDivisor) else .ok (int (a.tmod b))
  | .eq => .ok (bool (a == b))
  | .ne => .ok (bool (a != b))
  | .lt => .ok (bool (a < b))
  | .le => .ok (bool (a ≤ b))
  | .gt => .ok (bool (a > b))
  | .ge => .ok (bool (a ≥ b))
  | .and | .or => .error .undefined

/-- An operator between two values. Truth values can be compared for equality only. -/
def operate : BinaryOp → Value → Value → Except Halt Value
  | op, int a, int b => integer op a b
  | .eq, bool a, bool b => .ok (bool (a == b))
  | .ne, bool a, bool b => .ok (bool (a != b))
  | _, _, _ => .error .undefined

/-- The element at a place of an array. -/
def item (items : List Value) (n : Int) : Except Halt Value :=
  match items[n.toNat]? with
  | some v => if n < 0 then .error (.crash .outOfBounds) else .ok v
  | none => .error (.crash .outOfBounds)

theorem toBool_eq_ok {v : Value} {b : Bool} (h : v.toBool = .ok b) : v = .bool b := by
  cases v <;> cases h
  rfl

theorem toInt_eq_ok {v : Value} {n : Int} (h : v.toInt = .ok n) : v = .int n := by
  cases v <;> cases h
  rfl

end Value

/-- The value of an expression. The right operand of `&&` and `||` is looked at only when the left
one does not decide. -/
def Expr.eval (env : Env) : Expr → Except Halt Value
  | number value _ _ => .ok (.int value.toInt)
  | bool value _ => .ok (.bool value)
  | ident name _ =>
    match env name with
    | some v => .ok v
    | none => .error .undefined
  | unary .neg operand _ => do return .int (-(← (← operand.eval env).toInt))
  | unary .not operand _ => do return .bool (!(← (← operand.eval env).toBool))
  | binary .and left right _ => do
    if ← (← left.eval env).toBool then return .bool (← (← right.eval env).toBool)
    else return .bool false
  | binary .or left right _ => do
    if ← (← left.eval env).toBool then return .bool true
    else return .bool (← (← right.eval env).toBool)
  | binary op left right _ => do
    let l ← left.eval env
    let r ← right.eval env
    Value.operate op l r
  | ite condition thenBranch (some elseBranch) _ => do
    if ← (← condition.eval env).toBool then thenBranch.eval env else elseBranch.eval env
  | index target position _ => do
    match ← target.eval env with
    | .array items => Value.item items (← (← position.eval env).toInt)
    | _ => .error .undefined
  | _ => .error .undefined

theorem BinaryOp.isLogical_eq_false {op : BinaryOp} (hand : op ≠ .and) (hor : op ≠ .or) :
    op.isLogical = false := by
  cases op <;> first | rfl | contradiction

namespace Expr

theorem eval_ident {env : Env} {name : String} {v : Value} (h : env name = some v)
    (loc : Option Loc) : (ident name loc).eval env = .ok v := by
  rw [eval, h]

theorem eval_binary {op : BinaryOp} (hop : op.isLogical = false) (left right : Expr)
    (loc : Option Loc) (env : Env) :
    (binary op left right loc).eval env =
      (left.eval env >>= fun l => right.eval env >>= fun r => Value.operate op l r) := by
  cases op <;> first | rfl | cases hop

theorem eval_binary_ok {op : BinaryOp} (hop : op.isLogical = false) {left right : Expr}
    {loc : Option Loc} {env : Env} {v : Value}
    (h : (binary op left right loc).eval env = .ok v) :
    ∃ l r, left.eval env = .ok l ∧ right.eval env = .ok r ∧ Value.operate op l r = .ok v := by
  rw [eval_binary hop] at h
  obtain ⟨l, hl, h⟩ := bind_eq_ok.mp h
  obtain ⟨r, hr, h⟩ := bind_eq_ok.mp h
  exact ⟨l, r, hl, hr, h⟩

theorem eval_intLiteral {e : Expr} {n : Int} (h : e.intLiteral? = some n) (env : Env) :
    e.eval env = .ok (.int n) := by
  unfold intLiteral? at h
  split at h
  · cases h
    rfl
  · split at h
    · cases h
    · cases h
      rfl
  · cases h

section

variable {env : Env} {cond l r t e : Expr} {loc : Option Loc} {v : Value}

theorem eval_neg_ok (h : (unary .neg e loc).eval env = .ok v) :
    ∃ n, e.eval env = .ok (.int n) ∧ v = .int (-n) := by
  rw [eval] at h
  obtain ⟨w, hw, h⟩ := bind_eq_ok.mp h
  obtain ⟨n, hn, h⟩ := bind_eq_ok.mp h
  cases Value.toInt_eq_ok hn
  cases h
  exact ⟨n, hw, rfl⟩

theorem eval_not_ok (h : (unary .not e loc).eval env = .ok v) :
    ∃ b, e.eval env = .ok (.bool b) ∧ v = .bool !b := by
  rw [eval] at h
  obtain ⟨w, hw, h⟩ := bind_eq_ok.mp h
  obtain ⟨b, hb, h⟩ := bind_eq_ok.mp h
  cases Value.toBool_eq_ok hb
  cases h
  exact ⟨b, hw, rfl⟩

theorem eval_and_ok (h : (binary .and l r loc).eval env = .ok v) :
    l.eval env = .ok (.bool false) ∧ v = .bool false ∨
      l.eval env = .ok (.bool true) ∧ ∃ b, r.eval env = .ok (.bool b) ∧ v = .bool b := by
  rw [eval] at h
  obtain ⟨w, hw, hrest⟩ := bind_eq_ok.mp h
  obtain ⟨b, hb, hchosen⟩ := bind_eq_ok.mp hrest
  cases Value.toBool_eq_ok hb
  cases b with
  | false =>
    cases hchosen
    exact .inl ⟨hw, rfl⟩
  | true =>
    obtain ⟨w', hw', hright⟩ := bind_eq_ok.mp hchosen
    obtain ⟨b', hb', hresult⟩ := bind_eq_ok.mp hright
    cases Value.toBool_eq_ok hb'
    cases hresult
    exact .inr ⟨hw, b', hw', rfl⟩

theorem eval_or_ok (h : (binary .or l r loc).eval env = .ok v) :
    l.eval env = .ok (.bool true) ∧ v = .bool true ∨
      l.eval env = .ok (.bool false) ∧ ∃ b, r.eval env = .ok (.bool b) ∧ v = .bool b := by
  rw [eval] at h
  obtain ⟨w, hw, hrest⟩ := bind_eq_ok.mp h
  obtain ⟨b, hb, hchosen⟩ := bind_eq_ok.mp hrest
  cases Value.toBool_eq_ok hb
  cases b with
  | true =>
    cases hchosen
    exact .inl ⟨hw, rfl⟩
  | false =>
    obtain ⟨w', hw', hright⟩ := bind_eq_ok.mp hchosen
    obtain ⟨b', hb', hresult⟩ := bind_eq_ok.mp hright
    cases Value.toBool_eq_ok hb'
    cases hresult
    exact .inr ⟨hw, b', hw', rfl⟩

theorem eval_ite_ok (h : (ite cond t (some e) loc).eval env = .ok v) :
    cond.eval env = .ok (.bool true) ∧ t.eval env = .ok v ∨
      cond.eval env = .ok (.bool false) ∧ e.eval env = .ok v := by
  rw [eval] at h
  obtain ⟨w, hw, h⟩ := bind_eq_ok.mp h
  obtain ⟨b, hb, h⟩ := bind_eq_ok.mp h
  cases Value.toBool_eq_ok hb
  cases b with
  | true => exact .inl ⟨hw, h⟩
  | false => exact .inr ⟨hw, h⟩

end

/-- A conjunction that holds has two operands that hold. -/
theorem eval_and_true {env : Env} {left right : Expr} {loc : Option Loc}
    (h : (binary .and left right loc).eval env = .ok (.bool true)) :
    left.eval env = .ok (.bool true) ∧ right.eval env = .ok (.bool true) := by
  rcases eval_and_ok h with ⟨_, hv⟩ | ⟨hl, b, hr, hv⟩
  · cases hv
  · cases hv
    exact ⟨hl, hr⟩

/-- A disjunction that fails has two operands that fail. -/
theorem eval_or_false {env : Env} {left right : Expr} {loc : Option Loc}
    (h : (binary .or left right loc).eval env = .ok (.bool false)) :
    left.eval env = .ok (.bool false) ∧ right.eval env = .ok (.bool false) := by
  rcases eval_or_ok h with ⟨_, hv⟩ | ⟨hl, b, hr, hv⟩
  · cases hv
  · cases hv
    exact ⟨hl, hr⟩

end Expr

/-! ### What a condition tells -/

theorem integer_negated {op op' : BinaryOp} (hop : op.negated? = some op') {a b : Int}
    (h : Value.integer op a b = .ok (.bool false)) : Value.integer op' a b = .ok (.bool true) := by
  cases op <;> cases hop <;>
    simp only [Value.integer, Except.ok.injEq, Value.bool.injEq, decide_eq_false_iff_not,
      decide_eq_true_eq, beq_eq_false_iff_ne, beq_iff_eq, bne_eq_false_iff_eq, bne_iff_ne] at h ⊢ <;>
    omega

theorem operate_negated {op op' : BinaryOp} (hop : op.negated? = some op') {l r : Value}
    (h : Value.operate op l r = .ok (.bool false)) : Value.operate op' l r = .ok (.bool true) := by
  cases l with
  | int a =>
    cases r with
    | int b => exact integer_negated hop h
    | bool | array => cases op <;> cases h
  | bool a =>
    cases r with
    | bool b => cases op <;> cases hop <;> simp_all [Value.operate]
    | int | array => cases op <;> cases h
  | array => cases op <;> cases h

theorem admits_ofComparison? {op : BinaryOp} {n m : Int} {p : Patch}
    (hp : Patch.ofComparison? op m = some p)
    (h : Value.integer op n m = .ok (.bool true)) : p.Admits n := by
  cases op <;> simp [Patch.ofComparison?] at hp <;> simp [Value.integer] at h
  case ne =>
    obtain ⟨rfl, rfl⟩ := hp
    constructor <;> simp [Patch.notZero, h]
  all_goals
    subst hp
    constructor <;> simp [Patch.exactly, Patch.atMost, Patch.atLeast] <;> omega

namespace Facts

/-- Everything that the facts say about an integer variable is true. -/
def Hold (facts : Facts) (env : Env) : Prop :=
  ∀ name p n, facts.get? name = some p → env name = some (.int n) → p.Admits n

/-- Everything that a list of patches says about integer variables is true. -/
def AllHold (patches : List (String × Patch)) (env : Env) : Prop :=
  ∀ e ∈ patches, ∀ n, env e.1 = some (.int n) → e.2.Admits n

theorem hold_empty (env : Env) : empty.Hold env := by
  intro name p n hp
  cases hp

theorem cumulative_admits (env : Env) :
    Cumulative fun name p => ∀ n, env name = some (.int n) → p.Admits n :=
  ⟨fun _ n _ => Patch.admits_empty n, fun hp hq n hn => (hp n hn).overlay (hq n hn)⟩

theorem Hold.addAll {facts : Facts} {env : Env} (h : facts.Hold env)
    {patches : List (String × Patch)} (hp : AllHold patches env) :
    (facts.addAll patches).Hold env :=
  fun name p n hget =>
    (cumulative_admits env).addAll (fun name p hget n => h name p n hget) hp name p hget n

theorem Hold.merge {facts newer : Facts} {env : Env} (h : facts.Hold env) (hn : newer.Hold env) :
    (facts.merge newer).Hold env :=
  h.addAll fun e he n => hn e.1 e.2 n (OrderedMap.get?_of_mem he)

theorem ofComparison_holds {env : Env} {left right : Expr} {op : BinaryOp} {l r : Value}
    (hl : left.eval env = .ok l) (hr : right.eval env = .ok r)
    (h : Value.operate op l r = .ok (.bool true)) : AllHold (ofComparison left op right) env := by
  intro e he n hn
  rcases mem_ofComparison he with ⟨loc, m, rfl, hm, hp⟩ | ⟨hnull, _⟩
  · rw [Expr.eval_ident hn] at hl
    rw [Expr.eval_intLiteral hm] at hr
    cases hl
    cases hr
    exact admits_ofComparison? hp h
  · rw [hnull]
    exact Patch.admits_notNull n

theorem learned_holds {env : Env} (cond : Expr) (truth : Bool)
    (h : cond.eval env = .ok (.bool truth)) : AllHold (learned cond truth) env := by
  refine learned_forall (R := fun cond truth => cond.eval env = .ok (.bool truth))
    (Q := fun name p => ∀ n, env name = some (.int n) → p.Admits n)
    Expr.eval_and_true Expr.eval_or_false ?_ ?_ cond truth h
  · intro op left right loc hand hor h
    obtain ⟨l, r, hl, hr, ho⟩ := Expr.eval_binary_ok (BinaryOp.isLogical_eq_false hand hor) h
    exact ofComparison_holds hl hr ho
  · intro op op' left right loc hand hor hop h
    obtain ⟨l, r, hl, hr, ho⟩ := Expr.eval_binary_ok (BinaryOp.isLogical_eq_false hand hor) h
    exact ofComparison_holds hl hr (operate_negated hop ho)

theorem derive_holds {env : Env} {cond : Expr} {truth : Bool}
    (h : cond.eval env = .ok (.bool truth)) : (derive cond truth).Hold env :=
  (hold_empty env).addAll (learned_holds cond truth h)

end Facts

end TuffSafety
