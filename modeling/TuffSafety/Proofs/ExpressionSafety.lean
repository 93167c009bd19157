import TuffSafety.Proofs.Evaluation
import TuffSafety.Proofs.Visits

/-!
# Accepted expressions do not crash

An expression without effects that is accepted in strict mode is evaluated in an environment that
the checker's flow describes. It does not crash, and an integer that it yields obeys the bounds that
were inferred. One rule does not carry its weight: the negation of an operand of unknown type keeps
the bounds of the operand, which is right only when they are mirror images of each other. Nothing is
said about the values of floats, of nullable pointers and of elements of arrays.
-/
namespace TuffSafety

/-- Neither a float nor a nullable pointer. -/
structure TypeInfo.Ordinary (t : TypeInfo) : Prop where
  notFloat : Checker.isFloatName t.name = false
  notNullable : t.nullablePointer = none

/-- What the inferred type of an expression promises of its value. -/
structure TypeInfo.Describes (t : TypeInfo) (v : Value) : Prop where
  notFloat : Checker.isFloatName t.name = false
  admits : ∀ n, v = .int n → t.Admits n

/-- Every value is that of a bound name; an integer lies within the bounds of its name and obeys
the fact about it. -/
structure Flow.Describes (flow : Flow) (env : Env) : Prop where
  bound : ∀ name v, env name = some v → ∃ b, flow.scope.get? name = some b ∧ b.current.Ordinary ∧
    ∀ n, v = .int n → b.current.Admits n
  facts : flow.facts.Hold env

/-- The name is bound to an array. -/
def Flow.HasArray (flow : Flow) (name : String) : Prop :=
  ∃ b, flow.scope.get? name = some b ∧ (b.current.name = "Array" ∨ b.current.arrayInit.isSome)

/-- The array behind a name has at least as many initialised elements as its type says. -/
def Flow.Initialised (flow : Flow) (env : Env) (name : String) : Prop :=
  ∀ b items k, flow.scope.get? name = some b → env name = some (.array items) →
    b.current.arrayInit = some k → k ≤ items.length

/-- Expressions without effects. Of the names, those in `arrays` may be indexed. -/
inductive Expr.Plain (arrays : String → Prop) : Expr → Prop where
  | number {value suffix loc}
      (hs : ∀ name ∈ suffix, TypeName.isNumeric name = true ∧ Checker.isFloatName name = false) :
      Plain arrays (.number value suffix loc)
  | bool {value loc} : Plain arrays (.bool value loc)
  | ident {name loc} : Plain arrays (.ident name loc)
  | neg {e loc} (he : Plain arrays e) : Plain arrays (.unary .neg e loc)
  | not {e loc} (he : Plain arrays e) : Plain arrays (.unary .not e loc)
  | binary {op l r loc} (hl : Plain arrays l) (hr : Plain arrays r) :
      Plain arrays (.binary op l r loc)
  | ite {cond t e loc} (hc : Plain arrays cond) (ht : Plain arrays t) (he : Plain arrays e) :
      Plain arrays (.ite cond t (some e) loc)
  | index {name place position loc} (ha : arrays name) (hp : Plain arrays position) :
      Plain arrays (.index (.ident name place) position loc)

/-! ### Expressions without effects leave the flow alone -/

section Unchanged

variable {c : Checker} {arrays : String → Prop} {e : Expr} {ret : Option TypeInfo}
  {flow flow' : Flow} {t : TypeInfo}

theorem Flow.settle_under (flow : Flow) (learned : Facts) : flow.settle (flow.under learned) = flow :=
  rfl

theorem Expr.Plain.assigned (he : e.Plain arrays) : Assigned.expr e = [] := by
  induction he with
  | number => rfl
  | bool => rfl
  | ident => rfl
  | neg _ ih => exact ih
  | not _ ih => exact ih
  | binary _ _ ihl ihr => rw [Assigned.expr, ihl, ihr]; rfl
  | ite _ _ _ ihc iht ihe => rw [Assigned.expr, Assigned.expr?, ihc, iht, ihe]; rfl
  | index _ _ ih => rw [Assigned.expr, Assigned.expr, ih]; rfl

theorem Expr.Plain.flow_eq (he : e.Plain arrays) (h : c.expr e ret flow = .ok (t, flow')) :
    flow' = flow := by
  induction he generalizing flow t flow' with
  | number =>
    rw [Checker.expr] at h
    cases h
    rfl
  | bool =>
    rw [Checker.expr] at h
    cases h
    rfl
  | ident =>
    rw [Checker.expr] at h
    cases h
    rfl
  | neg _ ih =>
    obtain ⟨operand, he, _⟩ := Checker.expr_unary_ok h
    exact ih he
  | not _ ih =>
    obtain ⟨operand, he, _⟩ := Checker.expr_unary_ok h
    exact ih he
  | @binary op l r loc _ hr ihl ihr =>
    cases hop : op.isLogical with
    | true =>
      rw [Checker.expr, if_pos hop] at h
      obtain ⟨left, mid, right, inner, hl, hr', _, rfl⟩ := Checker.shortCircuit_ok h
      have hassigned : r.assigned = [] := by rw [Expr.assigned, hr.assigned]; rfl
      rw [ihr hr', hassigned]
      exact ihl hl
    | false =>
      obtain ⟨left, mid, right, hl, hr, _⟩ := Checker.expr_binary_ok hop h
      exact (ihr hr).trans (ihl hl)
  | ite _ _ _ ihc iht ihe =>
    rw [Checker.expr] at h
    obtain ⟨tested, mid, thenInfo, after, hc, ht, elseInfo, he, _⟩ := Checker.ifElse_ok h
    obtain ⟨inner, ht', rfl⟩ := Checker.nested_ok ht
    obtain ⟨inner', he', rfl⟩ := Checker.nested_ok he
    rw [ihe he', iht ht', ihc hc, Flow.settle_under, Flow.settle_under]
  | index _ _ ih =>
    obtain ⟨array, mid, place, ht, hp, _⟩ := Checker.expr_index_ok h
    rw [Checker.expr] at ht
    cases ht
    exact ih hp

end Unchanged

/-! ### Results that are not crashes -/

/-- Not a crash, and what is asked of a value holds if there is one. -/
def Safe {α : Type} (P : α → Prop) : Except Halt α → Prop
  | .ok a => P a
  | .error (.crash _) => False
  | .error .undefined => True

theorem Safe.bind {α β : Type} {P : α → Prop} {Q : β → Prop} {x : Except Halt α}
    {f : α → Except Halt β} (hx : Safe P x) (hf : ∀ a, x = .ok a → P a → Safe Q (f a)) :
    Safe Q (x >>= f) := by
  cases x with
  | ok a => exact hf a rfl hx
  | error halt => cases halt <;> exact hx

theorem Safe.mono {α : Type} {P Q : α → Prop} {x : Except Halt α} (hx : Safe P x)
    (h : ∀ a, P a → Q a) : Safe Q x := by
  cases x with
  | ok a => exact h a hx
  | error halt => cases halt <;> exact hx

theorem Value.toInt_safe (v : Value) : Safe (fun n => v = .int n) v.toInt := by
  cases v <;> trivial

theorem Value.toBool_safe (v : Value) : Safe (fun b => v = .bool b) v.toBool := by
  cases v <;> trivial

namespace TypeInfo

theorem describes_unknown (v : Value) : unknown.Describes v :=
  ⟨rfl, fun n _ => admits_bare _ n⟩

theorem describes_bool (b : Bool) : TypeInfo.bool.Describes (.bool b) :=
  ⟨rfl, fun _ h => by cases h⟩

theorem describes_int {t : TypeInfo} {n : Int} (hname : Checker.isFloatName t.name = false)
    (h : t.Admits n) : t.Describes (.int n) :=
  ⟨hname, fun m hm => by cases hm; exact h⟩

theorem withBounds_name (t : TypeInfo) (min max : Option Int) : (t.withBounds min max).name = t.name := by
  rw [withBounds, normalize_eq]

theorem withBounds_nullablePointer (t : TypeInfo) (min max : Option Int) :
    (t.withBounds min max).nullablePointer = t.nullablePointer := by
  rw [withBounds, normalize_eq]

theorem Describes.join_left {a b : TypeInfo} {v : Value} (h : a.Describes v) :
    (a.join b).Describes v := by
  refine ⟨?_, fun n hn => admits_join (.inl (h.admits n hn))⟩
  unfold join
  split
  · exact h.notFloat
  · rfl

theorem Describes.join_right {a b : TypeInfo} {v : Value} (h : b.Describes v) :
    (a.join b).Describes v := by
  refine ⟨?_, fun n hn => admits_join (.inr (h.admits n hn))⟩
  unfold join
  split
  · rename_i hname
    rw [hname]
    exact h.notFloat
  · rfl

end TypeInfo

/-! ### The rules of the operators -/

namespace Checker

variable {c : Checker} {op : BinaryOp} {left right t : TypeInfo} {loc : Option Loc} {l r : Value}

theorem checkOverflow_ok {bounds : Option Interval} (h : checkOverflow op bounds loc = .ok ()) :
    ∃ i, bounds = some i ∧ Bound.int32.1 ≤ i.1 ∧ i.2 ≤ Bound.int32.2 := by
  unfold checkOverflow at h
  split at h
  · cases h
  · rename_i low high
    split at h
    · cases h
    · rename_i hin
      refine ⟨(low, high), rfl, ?_⟩
      dsimp only
      omega

/-- What an accepted operation has been asked for, and the types that it may have. -/
theorem arithmetic_ok (h : c.arithmetic op left right loc = .ok t) :
    ((op = .div ∨ op = .mod) ∧ (c.strict = true → right.nonZero = true) ∧
        ((left.isUnknown || right.isUnknown) = true ∧ t = .unknown ∨
          t = .bare (arithmeticName left right))) ∨
      (¬ (op = .div ∨ op = .mod) ∧
        (c.strict = true → isFloatName (arithmeticName left right) = false →
          checkOverflow op (resultBounds op left right) loc = .ok ()) ∧
        ((left.isUnknown || right.isUnknown) = true ∧ t = .unknown ∨
          t = (TypeInfo.bare (arithmeticName left right)).withBounds
            ((resultBounds op left right).map Prod.fst)
            ((resultBounds op left right).map Prod.snd))) := by
  have hchoice : ∀ (unknown : Bool) (u : TypeInfo), (if unknown then TypeInfo.unknown else u) = t →
      unknown = true ∧ t = .unknown ∨ t = u := by
    intro unknown u ht
    cases unknown
    · exact .inr ht.symm
    · exact .inl ⟨rfl, ht.symm⟩
  rw [arithmetic] at h
  split at h
  · cases h
  dsimp only at h
  split at h
  · cases h
  split at h
  · rename_i hop
    split at h
    · cases h
    · rename_i hz
      refine .inl ⟨hop, ?_, hchoice _ _ (Except.ok.inj h)⟩
      intro hstrict
      simpa [hstrict] using hz
  · rename_i hop
    split at h
    · obtain ⟨_, hoverflow, h⟩ := bind_eq_ok.mp h
      exact .inr ⟨hop, fun _ _ => hoverflow, hchoice _ _ (Except.ok.inj h)⟩
    · rename_i hskipped
      refine .inr ⟨hop, ?_, hchoice _ _ (Except.ok.inj h)⟩
      intro hstrict hname
      simp [hstrict, hname] at hskipped

theorem arithmetic_notNullable (h : c.arithmetic op left right loc = .ok t) :
    t.nullablePointer = none := by
  rcases arithmetic_ok h with ⟨_, _, ⟨_, rfl⟩ | rfl⟩ | ⟨_, _, ⟨_, rfl⟩ | rfl⟩
  · rfl
  · rfl
  · rfl
  · exact TypeInfo.withBounds_nullablePointer _ _ _

theorem resultBounds_holds {i : Interval} {a b n : Int} (h : resultBounds op left right = some i)
    (ha : left.Admits a) (hb : right.Admits b) (hn : Interval.operate op a b = some n) :
    i.Holds n := by
  unfold resultBounds at h
  split at h
  · rename_i li ri hl hr
    exact Interval.propagate_holds h (ha.interval_holds hl) (hb.interval_holds hr) hn
  · cases h

theorem arithmeticName_notFloat (hl : isFloatName left.name = false)
    (hr : isFloatName right.name = false) : isFloatName (arithmeticName left right) = false := by
  unfold arithmeticName
  split
  · exact hr
  · exact hl

theorem fit_safe {n : Int} (hlow : Bound.int32.1 ≤ n) (hhigh : n ≤ Bound.int32.2)
    (ht : t.Describes (.int n)) : Safe t.Describes (Value.fit n) := by
  rw [Value.fit, if_pos ⟨hlow, hhigh⟩]
  exact ht

/-- A sum, difference or product that is accepted fits, and lies within its inferred bounds. -/
theorem fit_arithmetic_safe (hstrict : c.strict = true) (hop : ¬ (op = .div ∨ op = .mod))
    (h : c.arithmetic op left right loc = .ok t) {a b n : Int} (hl : left.Describes (.int a))
    (hr : right.Describes (.int b)) (hn : Interval.operate op a b = some n) :
    Safe t.Describes (Value.fit n) := by
  have hname := arithmeticName_notFloat hl.notFloat hr.notFloat
  obtain ⟨_, hoverflow, ht⟩ := (arithmetic_ok h).resolve_left fun hdiv => hop hdiv.1
  obtain ⟨i, hi, hlow, hhigh⟩ := checkOverflow_ok (hoverflow hstrict hname)
  obtain ⟨hin, hin'⟩ := resultBounds_holds hi (hl.admits a rfl) (hr.admits b rfl) hn
  rw [hi] at ht
  apply fit_safe (by omega) (by omega)
  rcases ht with ⟨_, rfl⟩ | rfl
  · exact TypeInfo.describes_unknown _
  · apply TypeInfo.describes_int
    · rw [TypeInfo.withBounds_name]
      exact hname
    · exact TypeInfo.admits_withBounds (by simpa using hin) (by simpa using hin') (by simp [TypeInfo.bare])

theorem division_safe (hstrict : c.strict = true) (hop : op = .div ∨ op = .mod)
    (h : c.arithmetic op left right loc = .ok t) {a b : Int} (hl : left.Describes (.int a))
    (hr : right.Describes (.int b)) : Safe t.Describes (Value.integer op a b) := by
  obtain ⟨_, hz, ht⟩ := (arithmetic_ok h).resolve_right fun hother => hother.1 hop
  have hb : b ≠ 0 := (hr.admits b rfl).zero (hz hstrict)
  have hdescribes : ∀ n, t.Describes (.int n) := by
    intro n
    rcases ht with ⟨_, rfl⟩ | rfl
    · exact TypeInfo.describes_unknown _
    · exact TypeInfo.describes_int (arithmeticName_notFloat hl.notFloat hr.notFloat)
        (TypeInfo.admits_bare _ n)
  rcases hop with rfl | rfl
  · rw [Value.integer, if_neg hb]
    exact hdescribes _
  · rw [Value.integer, if_neg hb]
    exact hdescribes _

theorem arithmetic_safe (hstrict : c.strict = true) (hop : op.isLogical = false)
    (hcmp : op.isComparison = false) (h : c.arithmetic op left right loc = .ok t)
    (hl : left.Describes l) (hr : right.Describes r) : Safe t.Describes (Value.operate op l r) := by
  unfold Value.operate
  split
  · rename_i a b
    cases op with
    | add => exact fit_arithmetic_safe hstrict (by decide) h hl hr rfl
    | sub => exact fit_arithmetic_safe hstrict (by decide) h hl hr rfl
    | mul => exact fit_arithmetic_safe hstrict (by decide) h hl hr rfl
    | div => exact division_safe hstrict (.inl rfl) h hl hr
    | mod => exact division_safe hstrict (.inr rfl) h hl hr
    | and | or => cases hop
    | eq | ne | lt | le | gt | ge => cases hcmp
  · cases hcmp
  · cases hcmp
  · trivial

theorem comparison_safe (hcmp : op.isComparison = true) (l r : Value) :
    Safe TypeInfo.bool.Describes (Value.operate op l r) := by
  unfold Value.operate
  split
  · cases op with
    | eq | ne | lt | le | gt | ge => exact TypeInfo.describes_bool _
    | add | sub | mul | div | mod | and | or => cases hcmp
  · exact TypeInfo.describes_bool _
  · exact TypeInfo.describes_bool _
  · trivial

theorem logical_ok (h : logical op left right loc = .ok t) : t = .bool := by
  cases hl : isBoolOrUnknown left <;> cases hr : isBoolOrUnknown right <;>
    rw [logical, hl, hr] at h <;> cases h
  rfl

/-- The right operand matters only where the left one does not decide. -/
theorem logical_safe {env : Env} {P Q : Value → Prop} {e e' : Expr} (hop : op.isLogical = true)
    (hl : Safe P (e.eval env))
    (hr : e.eval env = .ok (.bool (op = .and)) → Safe Q (e'.eval env)) :
    Safe TypeInfo.bool.Describes ((Expr.binary op e e' loc).eval env) := by
  have hright : ∀ b, e.eval env = .ok (.bool b) → b = decide (op = .and) →
      Safe TypeInfo.bool.Describes (do return .bool (← (← e'.eval env).toBool)) := by
    rintro _ hv rfl
    apply Safe.bind (hr hv)
    intro v _ _
    apply Safe.bind v.toBool_safe
    intro b _ _
    exact TypeInfo.describes_bool b
  cases op with
  | and =>
    rw [Expr.eval]
    apply Safe.bind hl
    intro v hv _
    apply Safe.bind v.toBool_safe
    rintro b _ rfl
    cases b with
    | true => exact hright true hv rfl
    | false => exact TypeInfo.describes_bool false
  | or =>
    rw [Expr.eval]
    apply Safe.bind hl
    intro v hv _
    apply Safe.bind v.toBool_safe
    rintro b _ rfl
    cases b with
    | true => exact TypeInfo.describes_bool true
    | false => exact hright false hv rfl
  | _ => cases hop

end Checker

/-! ### Negation -/

/-- The bounds are mirror images of each other at zero; or there are none. -/
def TypeInfo.Mirrored (t : TypeInfo) : Prop :=
  t.min = t.max.map fun n => -n

instance (t : TypeInfo) : Decidable t.Mirrored :=
  inferInstanceAs (Decidable (t.min = t.max.map fun n => -n))

/-- The negation of a value has the same type exactly when the bounds are mirror images. -/
theorem TypeInfo.admits_neg_iff_mirrored {t : TypeInfo} (ht : ∃ n, t.Admits n) :
    (∀ n, t.Admits n → t.Admits (-n)) ↔ t.Mirrored := by
  obtain ⟨n, hn⟩ := ht
  unfold Mirrored
  constructor
  · intro h
    have hends : ∀ m, Bound.AtLeast t.min m → Bound.AtMost t.max m → m ≠ 0 → t.Admits (-m) :=
      fun m hlow hhigh hm => h m ⟨hlow, hhigh, fun _ => hm⟩
    cases hmin : t.min with
    | none =>
      cases hmax : t.max with
      | none => rfl
      | some b =>
        have hbelow : Bound.AtMost t.max (-(b.natAbs + 1)) := by
          rw [hmax, Bound.atMost_some]
          omega
        have hout := (hends _ (hmin ▸ Bound.atLeast_none _) hbelow (by omega)).high
        rw [hmax, Bound.atMost_some] at hout
        omega
    | some a =>
      cases hmax : t.max with
      | none =>
        have habove : Bound.AtLeast t.min (a.natAbs + 1) := by
          rw [hmin, Bound.atLeast_some]
          omega
        have hout := (hends _ habove (hmax ▸ Bound.atMost_none _) (by omega)).low
        rw [hmin, Bound.atLeast_some] at hout
        omega
      | some b =>
        have hlow := hn.low
        have hhigh := hn.high
        rw [hmin, Bound.atLeast_some] at hlow
        rw [hmax, Bound.atMost_some] at hhigh
        -- An end that has no partner on the other side is itself a value.
        rw [Option.map_some, Option.some.injEq]
        rcases Int.lt_trichotomy a (-b) with hlt | heq | hgt
        · have hout := (hends a (by simp [hmin]) (by simp [hmax]; omega) (by omega)).high
          rw [hmax, Bound.atMost_some] at hout
          omega
        · exact heq
        · have hout := (hends b (by simp [hmin]; omega) (by simp [hmax]) (by omega)).low
          rw [hmin, Bound.atLeast_some] at hout
          omega
  · intro h m hm
    have hlow := hm.low
    have hhigh := hm.high
    refine ⟨?_, ?_, fun hz => Int.neg_ne_zero.mpr (hm.zero hz)⟩
    · cases hmax : t.max with
      | none => simp [h, hmax]
      | some b =>
        rw [hmax, Bound.atMost_some] at hhigh
        rw [h, hmax, Option.map_some, Bound.atLeast_some]
        omega
    · cases hmax : t.max with
      | none => simp
      | some b =>
        rw [h, hmax, Option.map_some, Bound.atLeast_some] at hlow
        rw [Bound.atMost_some]
        omega

namespace Checker

theorem atLeast_negate {b : Option Int} {n : Int} (h : Bound.AtMost b n) :
    Bound.AtLeast (negate b) (-n) := by
  intro a ha
  obtain ⟨m, hm, ha⟩ := Option.bind_eq_some_iff.mp ha
  rw [Bound.eq_of_checked ha]
  have := h m hm
  omega

theorem atMost_negate {b : Option Int} {n : Int} (h : Bound.AtLeast b n) :
    Bound.AtMost (negate b) (-n) := by
  intro a ha
  obtain ⟨m, hm, ha⟩ := Option.bind_eq_some_iff.mp ha
  rw [Bound.eq_of_checked ha]
  have := h m hm
  omega

theorem negation_describes {operand t : TypeInfo} {loc : Option Loc} {n : Int}
    (h : unary .neg operand loc = .ok t) (hm : operand.isUnknown = true → operand.Mirrored)
    (hd : operand.Describes (.int n)) : t.Describes (.int (-n)) := by
  have hn := hd.admits n rfl
  rw [unary] at h
  split at h
  · rename_i hunknown
    cases h
    exact TypeInfo.describes_int hd.notFloat
      ((TypeInfo.admits_neg_iff_mirrored ⟨n, hn⟩).mpr (hm hunknown) n hn)
  · split at h
    · cases h
      apply TypeInfo.describes_int
      · rw [TypeInfo.withBounds_name]
        exact hd.notFloat
      · exact TypeInfo.admits_withBounds (atLeast_negate hn.high) (atMost_negate hn.low)
          fun hz => Int.neg_ne_zero.mpr (hn.zero hz)
    · cases h

end Checker

/-- The operand, where a part is a negation. -/
def Part.negated? : Part → Option Expr
  | .expr (.unary .neg e _) => some e
  | _ => none

/-- Every negation that a call comes to has an operand of known type, or one whose bounds are mirror
images of each other. -/
def NegationsMirrored (c : Checker) (v : Visit) : Prop :=
  ∀ w e t flow, Reaches c v w → w.part.negated? = some e → c.expr e w.ret w.flow = .ok (t, flow) →
    t.isUnknown = true → t.Mirrored

namespace NegationsMirrored

variable {c : Checker} {v w : Visit}

theorem step (h : NegationsMirrored c v) (hl : Leads c v w) : NegationsMirrored c w :=
  fun w' e t flow hr => h w' e t flow (.head hl hr)

theorem of_leads
    (hself : ∀ e t flow, v.part.negated? = some e → c.expr e v.ret v.flow = .ok (t, flow) →
      t.isUnknown = true → t.Mirrored)
    (hsteps : ∀ w, Leads c v w → NegationsMirrored c w) : NegationsMirrored c v := by
  intro w e t flow hr
  rcases hr.cases_head with rfl | ⟨u, hl, hr⟩
  · exact hself e t flow
  · exact hsteps u hl w e t flow hr

theorem of_not_negation (hv : v.part.negated? = none)
    (hsteps : ∀ w, Leads c v w → NegationsMirrored c w) : NegationsMirrored c v := by
  apply of_leads _ hsteps
  intro e t flow h
  rw [hv] at h
  cases h

variable {ret : Option TypeInfo} {flow : Flow} {l r e : Expr} {loc : Option Loc}

theorem number {value : Int64} {suffix : Option String} :
    NegationsMirrored c ⟨.expr (.number value suffix loc), ret, flow⟩ :=
  of_not_negation rfl fun w hw => by cases hw

theorem ident {name : String} : NegationsMirrored c ⟨.expr (.ident name loc), ret, flow⟩ :=
  of_not_negation rfl fun w hw => by cases hw

theorem neg (he : NegationsMirrored c ⟨.expr e, ret, flow⟩)
    (hm : ∀ t flow', c.expr e ret flow = .ok (t, flow') → t.isUnknown = true → t.Mirrored) :
    NegationsMirrored c ⟨.expr (.unary .neg e loc), ret, flow⟩ := by
  apply of_leads
  · intro e t flow' h
    cases h
    exact hm t flow'
  · intro w hw
    cases hw
    exact he

theorem binary {op : BinaryOp} (hl : NegationsMirrored c ⟨.expr l, ret, flow⟩)
    (hr : ∀ flow', NegationsMirrored c ⟨.expr r, ret, flow'⟩) :
    NegationsMirrored c ⟨.expr (.binary op l r loc), ret, flow⟩ := by
  refine of_not_negation rfl fun w hw => ?_
  cases hw with
  | left => exact hl
  | right => exact hr _
  | guarded => exact hr _

theorem index {target position : Expr} (ht : NegationsMirrored c ⟨.expr target, ret, flow⟩)
    (hp : ∀ t flow', c.expr target ret flow = .ok (t, flow') →
      NegationsMirrored c ⟨.expr position, ret, flow'⟩) :
    NegationsMirrored c ⟨.expr (.index target position loc), ret, flow⟩ := by
  refine of_not_negation rfl fun w hw => ?_
  cases hw with
  | target => exact ht
  | position h => exact hp _ _ h

theorem ite {cond : Expr} (hc : NegationsMirrored c ⟨.expr cond, ret, flow⟩)
    (ht : ∀ t flow', c.expr cond ret flow = .ok (t, flow') →
      NegationsMirrored c ⟨.expr l, ret, flow'.under (Facts.derive cond true)⟩)
    (he : ∀ flow', NegationsMirrored c ⟨.expr r, ret, flow'⟩) :
    NegationsMirrored c ⟨.expr (.ite cond l (some r) loc), ret, flow⟩ := by
  refine of_not_negation rfl fun w hw => ?_
  cases hw with
  | condition => exact hc
  | thenBranch h => exact ht _ _ h
  | elseBranch => exact he _

end NegationsMirrored

/-! ### Names and arrays -/

namespace Checker

variable {c : Checker} {flow : Flow} {env : Env} {name : String} {b : Binding} {v : Value}

theorem lookup_eq (hb : flow.scope.get? name = some b) (hnull : b.current.nullablePointer = none) :
    c.lookup name flow =
      { b.current with
        min := (c.lookup name flow).min
        max := (c.lookup name flow).max
        nonZero := (c.lookup name flow).nonZero } := by
  unfold lookup
  rw [hb]
  dsimp only
  split
  · exact TypeInfo.narrow_eq hnull _
  · rfl

theorem lookup_describes (hd : flow.Describes env) (hv : env name = some v) :
    (c.lookup name flow).Describes v := by
  obtain ⟨b, hb, hordinary, hadmits⟩ := hd.bound name v hv
  refine ⟨?_, ?_⟩
  · rw [lookup_eq hb hordinary.notNullable]
    exact hordinary.notFloat
  · rintro n rfl
    have hn := hadmits n rfl
    unfold lookup
    rw [hb]
    dsimp only
    split
    · rename_i p hp
      exact hn.narrow (hd.facts name p n hp hv) hordinary.notNullable
    · exact hn

theorem lookup_array (c : Checker) (hd : flow.Describes env) (hv : env name = some v)
    (hb : flow.scope.get? name = some b) :
    (c.lookup name flow).name = b.current.name ∧
      (c.lookup name flow).arrayInit = b.current.arrayInit := by
  obtain ⟨b', hb', hordinary, _⟩ := hd.bound name v hv
  cases hb.symm.trans hb'
  rw [lookup_eq hb hordinary.notNullable]
  exact ⟨rfl, rfl⟩

/-- An accepted index lies within what the type of the array says is initialised. -/
theorem index_safe {array place t : TypeInfo} {loc : Option Loc} {items : List Value} {n : Int}
    (hstrict : c.strict = true) (h : c.index array place loc = .ok t)
    (harray : array.name = "Array" ∨ array.arrayInit.isSome)
    (hlen : ∀ k, array.arrayInit = some k → k ≤ items.length) (hp : place.Describes (.int n)) :
    Safe t.Describes (Value.item items n) := by
  rw [index, if_neg (by rw [hstrict]; decide)] at h
  split at h
  · cases h
  · split at h
    · rename_i length low high hinit hi
      split at h
      · cases h
      · rename_i hin
        cases h
        obtain ⟨hlow, hhigh⟩ := (hp.admits n rfl).interval_holds hi
        have hk := hlen length hinit
        have hn : n.toNat < items.length := by
          dsimp only at hlow hhigh
          omega
        have hneg : ¬ n < 0 := by
          dsimp only at hlow
          omega
        rw [Value.item, List.getElem?_eq_getElem hn]
        dsimp only
        rw [if_neg hneg]
        exact TypeInfo.describes_unknown _
    · cases h
    · rename_i hinit
      split at h
      · cases h
      · rename_i hname
        rcases harray with h' | h'
        · exact absurd h' hname
        · rw [hinit] at h'
          cases h'

end Checker

/-! ### Evaluation -/

theorem Expr.eval_ident_safe (env : Env) (name : String) (loc : Option Loc) :
    Safe (fun v => env name = some v) ((Expr.ident name loc).eval env) := by
  rw [Expr.eval]
  split
  · rename_i v hv
    exact hv
  · trivial

theorem Flow.Describes.learn {flow : Flow} {env : Env} (hd : flow.Describes env) {learned : Facts}
    (hl : learned.Hold env) : (flow.learn learned).Describes env :=
  ⟨hd.bound, hd.facts.merge hl⟩

theorem Flow.Describes.under {flow : Flow} {env : Env} (hd : flow.Describes env) {learned : Facts}
    (hl : learned.Hold env) : (flow.under learned).Describes env :=
  ⟨hd.bound, hd.facts.merge hl⟩

section

variable {c : Checker} {arrays : String → Prop} {e : Expr} {ret : Option TypeInfo}
  {flow flow' : Flow} {t : TypeInfo} {env : Env}

/-- By induction on the expression. The right operand of `&&` and `||` and the branches of an `if`
are looked at under facts that hold when they are evaluated. -/
theorem Expr.Plain.eval_safe (he : e.Plain arrays) (hstrict : c.strict = true)
    (hd : flow.Describes env)
    (harrays : ∀ name, arrays name → flow.HasArray name ∧ flow.Initialised env name)
    (hneg : NegationsMirrored c ⟨.expr e, ret, flow⟩) (h : c.expr e ret flow = .ok (t, flow')) :
    Safe t.Describes (e.eval env) := by
  induction he generalizing flow t flow' with
  | @number value suffix loc hs =>
    rw [Checker.expr] at h
    cases h
    apply TypeInfo.describes_int _ (TypeInfo.admits_literal _ _)
    cases suffix with
    | none => rfl
    | some name => exact (hs name rfl).2
  | bool =>
    rw [Checker.expr] at h
    cases h
    exact TypeInfo.describes_bool _
  | @ident name loc =>
    rw [Checker.expr] at h
    cases h
    exact (Expr.eval_ident_safe env name loc).mono fun v => Checker.lookup_describes hd
  | @neg e loc he ih =>
    obtain ⟨operand, hop, hu⟩ := Checker.expr_unary_ok h
    rw [Expr.eval]
    apply Safe.bind (ih hd harrays (hneg.step .operand) hop)
    intro v _ hv
    apply Safe.bind v.toInt_safe
    rintro n _ rfl
    exact Checker.negation_describes hu (hneg _ e operand flow' .refl rfl hop) hv
  | not _ ih =>
    obtain ⟨operand, hop, hu⟩ := Checker.expr_unary_ok h
    rw [Checker.unary] at hu
    split at hu
    · cases hu
      rw [Expr.eval]
      apply Safe.bind (ih hd harrays (hneg.step .operand) hop)
      intro v _ _
      apply Safe.bind v.toBool_safe
      intro b _ _
      exact TypeInfo.describes_bool _
    · cases hu
  | @binary op l r loc hl hr ihl ihr =>
    cases hop : op.isLogical with
    | true =>
      rw [Checker.expr, if_pos hop] at h
      obtain ⟨left, mid, right, inner, hl', hr', ht, rfl⟩ := Checker.shortCircuit_ok h
      obtain rfl := hl.flow_eq hl'
      obtain rfl := Checker.logical_ok ht
      apply Checker.logical_safe hop (ihl hd harrays (hneg.step .left) hl')
      intro hv
      exact ihr (hd.learn (Facts.derive_holds hv)) harrays (hneg.step (.guarded hop hl')) hr'
    | false =>
      obtain ⟨left, mid, right, hl', hr', ht⟩ := Checker.expr_binary_ok hop h
      obtain rfl := hl.flow_eq hl'
      rw [Expr.eval_binary hop]
      apply Safe.bind (ihl hd harrays (hneg.step .left) hl')
      intro lv _ hlv
      apply Safe.bind (ihr hd harrays (hneg.step (.right hop hl')) hr')
      intro rv _ hrv
      rcases ht with ⟨hcmp, rfl⟩ | ⟨hcmp, ht⟩
      · exact Checker.comparison_safe hcmp lv rv
      · exact Checker.arithmetic_safe hstrict hop hcmp ht hlv hrv
  | @ite cond th el loc hc hth _ ihc iht ihe =>
    rw [Checker.expr] at h
    obtain ⟨tested, mid, thenInfo, after, hc', ht, elseInfo, he, rfl⟩ := Checker.ifElse_ok h
    obtain rfl := hc.flow_eq hc'
    obtain ⟨inner, ht', rfl⟩ := Checker.nested_ok ht
    obtain ⟨inner', he', rfl⟩ := Checker.nested_ok he
    obtain rfl := hth.flow_eq ht'
    rw [Flow.settle_under] at he' ht
    rw [Expr.eval]
    apply Safe.bind (ihc hd harrays (hneg.step .condition) hc')
    intro v hv _
    apply Safe.bind v.toBool_safe
    rintro truth _ rfl
    have hlearned := Facts.derive_holds hv
    cases truth with
    | true =>
      have hthen := iht (hd.under hlearned) harrays (hneg.step (.thenBranch hc')) ht'
      exact hthen.mono fun v => TypeInfo.Describes.join_left
    | false =>
      have helse := ihe (hd.under hlearned) harrays (hneg.step (.elseBranch hc' ht)) he'
      exact helse.mono fun v => TypeInfo.Describes.join_right
  | @index name place position loc ha hp ih =>
    obtain ⟨array, mid, info, ht, hp', hi⟩ := Checker.expr_index_ok h
    rw [Expr.eval]
    apply Safe.bind (Expr.eval_ident_safe env name place)
    intro v _ hv
    cases v with
    | array items =>
      obtain ⟨⟨b, hb, harray⟩, hlen⟩ := harrays name ha
      have hknown := Checker.lookup_array c hd hv hb
      have hposition := hneg.step (.position ht)
      rw [Checker.expr] at ht
      cases ht
      apply Safe.bind (ih hd harrays hposition hp')
      intro p _ hp
      apply Safe.bind p.toInt_safe
      rintro n _ rfl
      apply Checker.index_safe hstrict hi _ _ hp
      · rwa [hknown.1, hknown.2]
      · rw [hknown.2]
        exact fun k => hlen b items k hb hv
    | int | bool => trivial

/-- An accepted expression does not crash, and an integer that it yields obeys the inferred type. -/
theorem accepted_expression_safe (hstrict : c.strict = true) (he : e.Plain flow.HasArray)
    (hd : flow.Describes env) (hlen : ∀ name, flow.Initialised env name)
    (hneg : NegationsMirrored c ⟨.expr e, ret, flow⟩) (h : c.expr e ret flow = .ok (t, flow')) :
    (∀ crash, e.eval env ≠ .error (.crash crash)) ∧ ∀ n, e.eval env = .ok (.int n) → t.Admits n := by
  have hsafe := he.eval_safe hstrict hd (fun name ha => ⟨ha, hlen name⟩) hneg h
  constructor
  · intro crash hcrash
    rw [hcrash] at hsafe
    exact hsafe
  · intro n hn
    rw [hn] at hsafe
    exact hsafe.admits n rfl

end

namespace NegatedIndex

/-- `if (x >= low && x <= high) arr[-x] else 0` -/
def element (low high : Int64) : Expr :=
  .ite
    (.binary .and (.binary .ge (.ident "x" none) (.number low none none) none)
      (.binary .le (.ident "x" none) (.number high none none) none) none)
    (.index (.ident "arr" none) (.unary .neg (.ident "x" none) none) none)
    (some (.number 0 none none)) none

/-- An array of three elements beside a number. -/
def flow (number : TypeInfo) : Flow where
  scope := (Scope.empty.declare "arr" (.fixed { TypeInfo.bare "Array" with arrayInit := some 3 })).declare
    "x" (.fixed number)

def env (n : Int) : Env := fun name =>
  if name = "x" then some (.int n)
  else if name = "arr" then some (.array [.int 7, .int 8, .int 9])
  else none

def checker : Checker := .ofDeclarations {} true

theorem get?_flow (number : TypeInfo) (name : String) :
    (flow number).scope.get? name =
      if name = "x" then some (.fixed number)
      else if name = "arr" then some (.fixed { TypeInfo.bare "Array" with arrayInit := some 3 })
      else none := by
  rw [flow, Scope.get?_declare, Scope.get?_declare]
  rfl

theorem element_plain (low high : Int64) (number : TypeInfo) :
    (element low high).Plain (flow number).HasArray := by
  refine .ite (.binary (.binary .ident (.number ?_)) (.binary .ident (.number ?_)))
    (.index ⟨_, get?_flow number "arr", .inl rfl⟩ (.neg .ident)) (.number ?_) <;> nofun

theorem flow_describes {number : TypeInfo} {n : Int} (ht : number.Ordinary) (hn : number.Admits n) :
    (flow number).Describes (env n) := by
  refine ⟨?_, Facts.hold_empty _⟩
  intro name v hv
  rw [get?_flow]
  unfold env at hv
  split at hv
  · cases hv
    exact ⟨_, if_pos ‹_›, ht, fun m hm => by cases hm; exact hn⟩
  · split at hv
    · cases hv
      exact ⟨_, by rw [if_neg ‹_›, if_pos ‹_›], ⟨by decide, rfl⟩, nofun⟩
    · cases hv

theorem flow_initialised (number : TypeInfo) (n : Int) (name : String) :
    (flow number).Initialised (env n) name := by
  intro b items k hb hv hk
  rw [get?_flow] at hb
  unfold env at hv
  split at hv
  · cases hv
  · rw [if_neg ‹_›] at hb
    split at hv
    · rw [if_pos ‹_›] at hb
      cases hb
      cases hv
      cases hk
      decide
    · cases hv

theorem lookup_isUnknown (learned : Facts) :
    (checker.lookup "x" ((flow (.named "I32")).under learned)).isUnknown = false := by
  have hb : ((flow (.named "I32")).under learned).scope.get? "x" = some (.fixed (.named "I32")) :=
    get?_flow (.named "I32") "x"
  rw [Checker.lookup_eq hb rfl]
  rfl

theorem negations_mirrored (low high : Int64) :
    NegationsMirrored checker ⟨.expr (element low high), none, flow (.named "I32")⟩ := by
  refine .ite (.binary (.binary .ident fun _ => .number) fun _ => .binary .ident fun _ => .number) ?_
    fun _ => .number
  intro t flow' hc
  refine .index .ident ?_
  intro t flow' ht
  refine .neg .ident ?_
  intro t flow' h hu
  rw [Checker.expr] at h ht
  cases h
  cases ht
  have hplain : Expr.Plain (fun _ => False) (.binary .and
      (.binary .ge (.ident "x" none) (.number low none none) none)
      (.binary .le (.ident "x" none) (.number high none none) none) none) :=
    .binary (.binary .ident (.number nofun)) (.binary .ident (.number nofun))
  obtain rfl := hplain.flow_eq hc
  rw [lookup_isUnknown] at hu
  cases hu

end NegatedIndex

theorem accepted_expression_safe_negated_index :
    (NegatedIndex.element (-2) 0).eval (NegatedIndex.env (-2)) = .ok (.int 9) ∧
      (∀ crash, (NegatedIndex.element (-2) 0).eval (NegatedIndex.env (-2)) ≠ .error (.crash crash)) ∧
      ∀ n, (NegatedIndex.element (-2) 0).eval (NegatedIndex.env (-2)) = .ok (.int n) →
        TypeInfo.unknown.Admits n :=
  ⟨rfl, accepted_expression_safe (show NegatedIndex.checker.strict = true from rfl)
    (NegatedIndex.element_plain (-2) 0 _)
    (NegatedIndex.flow_describes ⟨by decide, rfl⟩ (by decide))
    (NegatedIndex.flow_initialised _ (-2)) (NegatedIndex.negations_mirrored (-2) 0) rfl⟩

/-- With a number of unknown type the bounds that the guard gives to `x` are taken for bounds of
`-x`, and `arr[-x]` is accepted although `-x` is negative. -/
theorem negated_unknown_index_crashes :
    (NegatedIndex.element 0 2).Plain (NegatedIndex.flow .unknown).HasArray ∧
      (NegatedIndex.flow .unknown).Describes (NegatedIndex.env 2) ∧
      (∀ name, (NegatedIndex.flow .unknown).Initialised (NegatedIndex.env 2) name) ∧
      (∃ r, NegatedIndex.checker.expr (NegatedIndex.element 0 2) none (NegatedIndex.flow .unknown) =
        .ok r) ∧
      (NegatedIndex.element 0 2).eval (NegatedIndex.env 2) = .error (.crash .outOfBounds) :=
  ⟨NegatedIndex.element_plain 0 2 .unknown,
    NegatedIndex.flow_describes ⟨by decide, rfl⟩ (TypeInfo.admits_bare _ 2),
    NegatedIndex.flow_initialised .unknown 2, ⟨_, rfl⟩, rfl⟩

end TuffSafety
