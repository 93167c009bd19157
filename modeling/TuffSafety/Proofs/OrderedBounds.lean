import TuffSafety.Proofs.TypeClosure

/-!
# Bounds never contradict each other

Facts of nested guards may contradict each other, refinements and array lengths may be written with
impossible numbers, and arithmetic may leave the range of a bound. None of it gives a type whose lower
bound lies above its upper bound: whatever sets both bounds either keeps them in order or drops them.
-/
namespace TuffSafety

namespace TypeInfo

/-- The lower bound is not above the upper one, where both are known. -/
def Ordered (t : TypeInfo) : Prop :=
  ∀ a b, t.min = some a → t.max = some b → a ≤ b

theorem ordered_of_min {t : TypeInfo} (h : t.min = none) : t.Ordered := by
  intro a b ha
  cases h.symm.trans ha

/-- Whatever the bounds were before. -/
theorem normalize_ordered (t : TypeInfo) : t.normalize.Ordered := by
  unfold normalize interval
  split
  · rename_i low high hinterval
    split at hinterval
    · rename_i a b hmin hmax
      obtain ⟨rfl, rfl⟩ := Prod.mk.inj (Option.some.inj hinterval)
      have hkeep : ¬ a > b → t.Ordered := by
        intro hle a' b' ha' hb'
        cases hmin.symm.trans ha'
        cases hmax.symm.trans hb'
        exact Int.not_lt.mp hle
      split
      · exact ordered_of_min rfl
      · rename_i hle
        split
        · exact hkeep hle
        · exact hkeep hle
    · cases hinterval
  · rename_i hinterval
    intro a b ha hb
    rw [ha, hb] at hinterval
    cases hinterval

theorem range_ordered (name : String) (a b : Int) (ha : (TypeName.range name).1 = some a)
    (hb : (TypeName.range name).2 = some b) : a ≤ b := by
  unfold TypeName.range at ha hb
  split at ha
  · rename_i hname
    rw [if_pos hname] at hb
    cases ha
    cases hb
    decide
  · rename_i hname
    rw [if_neg hname] at hb
    split at hb <;> cases hb

/-- The hull of two intervals reaches from one of the lower bounds to an upper bound at least as
great as the one that belongs to it. -/
theorem Ordered.join {t u : TypeInfo} (ht : t.Ordered) : (t.join u).Ordered := by
  unfold TypeInfo.join
  split
  · intro a b ha hb
    dsimp only at ha hb
    unfold Bound.lesser at ha
    unfold Bound.greater at hb
    split at ha
    · rename_i low low' hlow _
      split at hb
      · rename_i high high' hhigh _
        cases ha
        cases hb
        calc Min.min low low'
          _ ≤ low := Int.min_le_left ..
          _ ≤ high := ht low high hlow hhigh
          _ ≤ Max.max high high' := Int.le_max_left ..
      · cases hb
    · cases ha
  · exact ordered_of_min rfl

theorem ordered_closed : Closed Ordered where
  congr h _ hmin hmax _ := by
    intro a b ha hb
    exact h a b (hmin.symm.trans ha) (hmax.symm.trans hb)
  bare _ := ordered_of_min rfl
  named name := range_ordered name
  literal _ n := by
    intro a b ha hb
    cases ha
    cases hb
    exact Int.le_refl n
  bounded _ _ _ _ := normalize_ordered _
  narrow _ _ := normalize_ordered _
  widened _ := range_ordered _
  join ht _ := ht.join
  pointer _ _ h := h

end TypeInfo

/-- From a scope that holds no contradictory interval, whatever the facts say: declared types, what
names are found to be and what expressions and statements yield are free of contradictions, and so is
the scope that is left. The check of a program is made of such calls only. -/
theorem bounds_ordered (program : Program) (strict : Bool) (flow : Flow)
    (hscope : flow.scope.Each TypeInfo.Ordered) :
    let c := program.checker strict
    (∀ type, (c.decls.resolve type).Ordered) ∧
      (∀ name, (c.lookup name flow).Ordered) ∧
      (∀ e ret t flow', c.expr e ret flow = .ok (t, flow') →
        t.Ordered ∧ flow'.scope.Each TypeInfo.Ordered) ∧
      (∀ s ret t flow', c.stmt s ret flow = .ok (t, flow') →
        t.Ordered ∧ flow'.scope.Each TypeInfo.Ordered) ∧
      ∀ v, Reaches c (program.visit strict) v → v.Each TypeInfo.Ordered := by
  intro c
  have hclosed := TypeInfo.ordered_closed
  refine ⟨?_, ?_, ?_, ?_, ?_⟩
  · intro type
    exact c.decls.resolve_closed hclosed type
  · intro name
    exact c.lookup_closed hclosed name hscope
  · intro e ret t flow' h
    exact c.expr_keeps hclosed ret e hscope h
  · intro s ret t flow' h
    exact c.stmt_keeps hclosed ret s hscope h
  · intro v hreach
    exact Program.visit_each hclosed hreach

namespace Contradicted

/-- A variable of which the guards say `x >= 5` and `x <= 3`. -/
def flow : Flow where
  scope := Scope.empty.declare "x" (.fixed (.named "I32"))
  facts := (Facts.empty.add "x" (.atLeast 5)).add "x" (.atMost 3)

/-- The program `fn f(x: I32): I32 => x;` -/
def program : Program :=
  ⟨[.fnDecl ⟨"f", [], [⟨"x", some (.named "I32" [])⟩], some (.named "I32" []),
    some (.ident "x" none), false, none⟩]⟩

/-- The statement `let y = -x;` -/
def statement : Stmt :=
  .letDecl "y" none (.unary .neg (.ident "x" none) none) none

end Contradicted

open Contradicted in
/-- The bounds of both guards are dropped, where the variable is read and where it is copied. -/
theorem bounds_ordered_contradicted :
    let c := program.checker true
    flow.scope.Each TypeInfo.Ordered ∧
      flow.facts.get? "x" = some { min := some 5, max := some 3 } ∧
      (c.lookup "x" flow).Ordered ∧ c.lookup "x" flow = .bare "I32" ∧
      ∃ flow', c.stmt statement none flow = .ok (.void, flow') ∧
        flow'.scope.Each TypeInfo.Ordered ∧
        flow'.scope.get? "y" = some ⟨.named "I32", .bare "I32"⟩ := by
  intro c
  have hscope : flow.scope.Each TypeInfo.Ordered :=
    Scope.Each.empty.declare ⟨TypeInfo.range_ordered "I32", TypeInfo.range_ordered "I32"⟩
  obtain ⟨_, hlookup, _, hstmt, _⟩ := bounds_ordered program true flow hscope
  exact ⟨hscope, rfl, hlookup "x", rfl, _, rfl, (hstmt statement none _ _ rfl).2, rfl⟩

end TuffSafety
