import Mathlib.Order.Bounds.Defs
import TuffSafety.Checker.Rules
import TuffSafety.Diagnostic.Wording
import TuffSafety.Proofs.Admits

/-!
# Interval arithmetic is exact

A sum, a difference or a product of two intervals is extremal at their ends. So the propagated bounds
are not only kept by every result: both are results themselves, and they are missing only when one of
the ends' own results is no bound. The overflow check, which sees nothing but these bounds, therefore
tells an operation that always fits into 32 bits from one that need not.
-/
namespace TuffSafety

/-- A number that a bound can hold. -/
def Bound.Representable (n : Int) : Prop :=
  least ≤ n ∧ n ≤ greatest

theorem Bound.checked_of_representable {n : Int} (h : Representable n) : checked n = some n :=
  if_pos h

theorem Bound.representable_of_checked {n m : Int} (h : checked n = some m) : Representable n := by
  unfold checked at h
  split at h
  · assumption
  · cases h

namespace Interval

open TuffSafety.Bound

variable {op : BinaryOp} {l r i : Interval} {n : Int}

/-- The results of an operation between the integers of two intervals. -/
def results (op : BinaryOp) (l r : Interval) : Set Int :=
  {n | ∃ x y, l.Holds x ∧ r.Holds y ∧ operate op x y = some n}

/-- The results at the ends of two intervals that can be extremal. -/
def extremes : BinaryOp → Interval → Interval → List Int
  | .add, l, r => [l.1 + r.1, l.2 + r.2]
  | .sub, l, r => [l.1 - r.2, l.2 - r.1]
  | .mul, l, r => [l.1 * r.1, l.1 * r.2, l.2 * r.1, l.2 * r.2]
  | _, _, _ => []

/-- The operations with an interval rule. -/
def HasRule (op : BinaryOp) : Prop :=
  op = .add ∨ op = .sub ∨ op = .mul

/-- Both ends of an interval that is not empty belong to it, so these are results. -/
theorem extremes_subset (hl : l.1 ≤ l.2) (hr : r.1 ≤ r.2) (hn : n ∈ extremes op l r) :
    n ∈ results op l r := by
  have hlow : l.Holds l.1 := ⟨Int.le_refl _, hl⟩
  have hhigh : l.Holds l.2 := ⟨hl, Int.le_refl _⟩
  have hlow' : r.Holds r.1 := ⟨Int.le_refl _, hr⟩
  have hhigh' : r.Holds r.2 := ⟨hr, Int.le_refl _⟩
  cases op with
  | add =>
    simp only [extremes, List.mem_cons, List.not_mem_nil, or_false] at hn
    rcases hn with rfl | rfl
    · exact ⟨l.1, r.1, hlow, hlow', rfl⟩
    · exact ⟨l.2, r.2, hhigh, hhigh', rfl⟩
  | sub =>
    simp only [extremes, List.mem_cons, List.not_mem_nil, or_false] at hn
    rcases hn with rfl | rfl
    · exact ⟨l.1, r.2, hlow, hhigh', rfl⟩
    · exact ⟨l.2, r.1, hhigh, hlow', rfl⟩
  | mul =>
    simp only [extremes, List.mem_cons, List.not_mem_nil, or_false] at hn
    rcases hn with rfl | rfl | rfl | rfl
    · exact ⟨l.1, r.1, hlow, hlow', rfl⟩
    · exact ⟨l.1, r.2, hlow, hhigh', rfl⟩
    · exact ⟨l.2, r.1, hhigh, hlow', rfl⟩
    · exact ⟨l.2, r.2, hhigh, hhigh', rfl⟩
  | _ => cases hn

theorem propagate_of_representable (hop : HasRule op)
    (h : ∀ n ∈ extremes op l r, Representable n) : ∃ i, propagate op l r = some i := by
  obtain ⟨a, b⟩ := l
  obtain ⟨c, d⟩ := r
  rcases hop with rfl | rfl | rfl
  all_goals
    simp only [extremes, List.forall_mem_cons, List.not_mem_nil, false_implies, implies_true,
      and_true] at h
  · simp only [propagate, checked_of_representable h.1, checked_of_representable h.2]
    exact ⟨_, rfl⟩
  · simp only [propagate, checked_of_representable h.1, checked_of_representable h.2]
    exact ⟨_, rfl⟩
  · obtain ⟨hac, had, hbc, hbd⟩ := h
    simp only [propagate, checked_of_representable hac, checked_of_representable had,
      checked_of_representable hbc, checked_of_representable hbd]
    exact ⟨_, rfl⟩

/-- What an operation that has bounds needed for them, and where they come from. -/
theorem propagate_extremes (h : propagate op l r = some i) :
    (∀ n ∈ extremes op l r, Representable n) ∧ i.1 ∈ extremes op l r ∧ i.2 ∈ extremes op l r := by
  obtain ⟨a, b⟩ := l
  obtain ⟨c, d⟩ := r
  cases op with
  | add =>
    simp only [propagate, Option.bind_eq_bind, Option.bind_eq_some_iff, Option.some.injEq] at h
    obtain ⟨low, hlow, high, hhigh, rfl⟩ := h
    cases eq_of_checked hlow
    cases eq_of_checked hhigh
    simp [extremes, representable_of_checked hlow, representable_of_checked hhigh]
  | sub =>
    simp only [propagate, Option.bind_eq_bind, Option.bind_eq_some_iff, Option.some.injEq] at h
    obtain ⟨low, hlow, high, hhigh, rfl⟩ := h
    cases eq_of_checked hlow
    cases eq_of_checked hhigh
    simp [extremes, representable_of_checked hlow, representable_of_checked hhigh]
  | mul =>
    simp only [propagate, Option.bind_eq_bind, Option.bind_eq_some_iff, Option.some.injEq] at h
    obtain ⟨ac, hac, ad, had, bc, hbc, bd, hbd, rfl⟩ := h
    cases eq_of_checked hac
    cases eq_of_checked had
    cases eq_of_checked hbc
    cases eq_of_checked hbd
    refine ⟨?_, ?_, ?_⟩
    · simp [extremes, representable_of_checked hac, representable_of_checked had,
        representable_of_checked hbc, representable_of_checked hbd]
    · simp only [extremes, List.mem_cons, List.not_mem_nil, or_false]
      omega
    · simp only [extremes, List.mem_cons, List.not_mem_nil, or_false]
      omega
  | _ => cases h

theorem propagate_isSome_iff (hop : HasRule op) :
    (∃ i, propagate op l r = some i) ↔ ∀ n ∈ extremes op l r, Representable n :=
  ⟨fun ⟨_, h⟩ => (propagate_extremes h).1, propagate_of_representable hop⟩

/-- The propagated bounds are the least and the greatest result. -/
theorem propagate_exact (hl : l.1 ≤ l.2) (hr : r.1 ≤ r.2) (h : propagate op l r = some i) :
    IsLeast (results op l r) i.1 ∧ IsGreatest (results op l r) i.2 := by
  obtain ⟨_, hlow, hhigh⟩ := propagate_extremes h
  have hholds : ∀ n ∈ results op l r, i.Holds n := by
    rintro n ⟨x, y, hx, hy, hn⟩
    exact propagate_holds h hx hy hn
  exact ⟨⟨extremes_subset hl hr hlow, fun n hn => (hholds n hn).1⟩,
    ⟨extremes_subset hl hr hhigh, fun n hn => (hholds n hn).2⟩⟩

/-- A 32-bit number can be a bound. -/
theorem representable_of_int32 (h : Interval.Holds int32 n) : Representable n := by
  obtain ⟨hlow, hhigh⟩ := h
  unfold Representable least greatest
  unfold int32 at hlow hhigh
  omega

end Interval

/-! ### The overflow check -/

namespace Checker

open TuffSafety.Interval (results extremes HasRule)

variable {op : BinaryOp} {l r i : Interval} {left right : TypeInfo}

theorem resultBounds_eq (hleft : left.interval = some l) (hright : right.interval = some r) :
    resultBounds op left right = Interval.propagate op l r := by
  unfold resultBounds
  rw [hleft, hright]

/-- Bounds leave 32 bits exactly if a result does, since they are results. -/
theorem bounds_escape_iff (hl : l.1 ≤ l.2) (hr : r.1 ≤ r.2)
    (h : Interval.propagate op l r = some i) :
    (i.1 < Bound.int32.1 ∨ Bound.int32.2 < i.2) ↔
      ∃ n ∈ results op l r, ¬ Interval.Holds Bound.int32 n := by
  obtain ⟨⟨hlow, hleast⟩, ⟨hhigh, hgreatest⟩⟩ := Interval.propagate_exact hl hr h
  constructor
  · rintro (hout | hout)
    · exact ⟨i.1, hlow, fun hin => Int.not_le.mpr hout hin.1⟩
    · exact ⟨i.2, hhigh, fun hin => Int.not_le.mpr hout hin.2⟩
  · rintro ⟨n, hn, hout⟩
    have hge := hleast hn
    have hle := hgreatest hn
    unfold Interval.Holds at hout
    omega

/-- A rule is refused at the given place with the given code. -/
def Reports (verdict : Attempt Unit) (loc : Option Loc) (code : Code) : Prop :=
  ∃ fault, verdict = .error ⟨fault, loc⟩ ∧ fault.code = code

theorem not_reports_ok (loc : Option Loc) (code : Code) : ¬ Reports (.ok ()) loc code := by
  rintro ⟨fault, h, _⟩
  cases h

theorem reports_error_iff {fault : CheckFault} {loc : Option Loc} {code : Code} :
    Reports (.error ⟨fault, loc⟩) loc code ↔ fault.code = code := by
  constructor
  · rintro ⟨_, h, hcode⟩
    cases h
    exact hcode
  · exact fun hcode => ⟨fault, rfl, hcode⟩

/-- All that the check can say, and when: the results fit, or one of them escapes and the bounds show
it, or the bounds are missing, which happens only when a result escapes. -/
theorem checkOverflow_cases (hop : HasRule op) (hl : l.1 ≤ l.2) (hr : r.1 ≤ r.2) (loc : Option Loc) :
    let verdict := checkOverflow op (Interval.propagate op l r) loc
    let representable := ∀ n ∈ extremes op l r, Bound.Representable n
    let fits := ∀ n ∈ results op l r, Interval.Holds Bound.int32 n
    (verdict = .ok () ∧ representable ∧ fits) ∨
      (∃ low high, verdict = .error ⟨.overflow op low high, loc⟩ ∧ representable ∧ ¬ fits) ∨
      (verdict = .error ⟨.overflowUnproven op, loc⟩ ∧ ¬ representable ∧ ¬ fits) := by
  intro verdict representable fits
  cases hbounds : Interval.propagate op l r with
  | none =>
    have hverdict : verdict = .error ⟨.overflowUnproven op, loc⟩ :=
      congrArg (checkOverflow op · loc) hbounds
    have hmissing : ¬ representable := by
      intro hrepresentable
      obtain ⟨i, hi⟩ := Interval.propagate_of_representable hop hrepresentable
      cases hbounds.symm.trans hi
    refine .inr (.inr ⟨hverdict, hmissing, fun hfits => hmissing fun n hn => ?_⟩)
    exact Interval.representable_of_int32 (hfits n (Interval.extremes_subset hl hr hn))
  | some i =>
    have hverdict : verdict = if i.1 < Bound.int32.1 ∨ Bound.int32.2 < i.2 then
        .error ⟨.overflow op i.1 i.2, loc⟩ else .ok () :=
      congrArg (checkOverflow op · loc) hbounds
    have hrepresentable : representable := (Interval.propagate_extremes hbounds).1
    have hescape := bounds_escape_iff hl hr hbounds
    by_cases hout : i.1 < Bound.int32.1 ∨ Bound.int32.2 < i.2
    · rw [if_pos hout] at hverdict
      obtain ⟨n, hn, hbeyond⟩ := hescape.mp hout
      exact .inr (.inl ⟨i.1, i.2, hverdict, hrepresentable, fun hfits => hbeyond (hfits n hn)⟩)
    · rw [if_neg hout] at hverdict
      refine .inl ⟨hverdict, hrepresentable, fun n hn => ?_⟩
      exact Classical.byContradiction fun hbeyond => hout (hescape.mpr ⟨n, hn, hbeyond⟩)

end Checker

open TuffSafety.Interval (results extremes HasRule) in
/-- Bounds are propagated exactly when the results at the ends are bounds, and then they are the least
and the greatest result. So the overflow check accepts exactly the operations all of whose results fit
into 32 bits, reports an overflow exactly when one does not and the bounds are known, and calls the
operation unproven in the one case that is left. -/
theorem overflow_decided {op : BinaryOp} {l r : Interval} (hop : HasRule op) (hl : l.1 ≤ l.2)
    (hr : r.1 ≤ r.2) :
    ((∃ i, Interval.propagate op l r = some i) ↔ ∀ n ∈ extremes op l r, Bound.Representable n) ∧
      (∀ i, Interval.propagate op l r = some i →
        IsLeast (results op l r) i.1 ∧ IsGreatest (results op l r) i.2) ∧
      ∀ (left right : TypeInfo) (loc : Option Loc),
        left.interval = some l → right.interval = some r →
        let verdict := Checker.checkOverflow op (Checker.resultBounds op left right) loc
        (verdict = .ok () ↔ ∀ n ∈ results op l r, Interval.Holds Bound.int32 n) ∧
          (Checker.Reports verdict loc .safetyOverflow ↔
            (∃ n ∈ results op l r, ¬ Interval.Holds Bound.int32 n) ∧
              ∀ n ∈ extremes op l r, Bound.Representable n) ∧
          (Checker.Reports verdict loc .safetyOverflowUnproven ↔
            ¬ ∀ n ∈ extremes op l r, Bound.Representable n) := by
  refine ⟨Interval.propagate_isSome_iff hop, fun i => Interval.propagate_exact hl hr, ?_⟩
  intro left right loc hleft hright verdict
  have hcases := Checker.checkOverflow_cases hop hl hr loc
  rw [← Checker.resultBounds_eq hleft hright] at hcases
  have hescapes : (∃ n ∈ results op l r, ¬ Interval.Holds Bound.int32 n) ↔
      ¬ ∀ n ∈ results op l r, Interval.Holds Bound.int32 n := by
    simp only [Classical.not_forall, exists_prop]
  rw [hescapes]
  rcases hcases with ⟨hverdict, hrepresentable, hfits⟩ | ⟨low, high, hverdict, hrepresentable, hbeyond⟩ |
    ⟨hverdict, hmissing, hbeyond⟩
  · rw [show verdict = _ from hverdict]
    exact ⟨iff_of_true rfl hfits,
      iff_of_false (Checker.not_reports_ok loc _) fun h => h.1 hfits,
      iff_of_false (Checker.not_reports_ok loc _) fun h => h hrepresentable⟩
  · rw [show verdict = _ from hverdict, Checker.reports_error_iff, Checker.reports_error_iff]
    exact ⟨iff_of_false (by rintro ⟨⟩) hbeyond, iff_of_true rfl ⟨hbeyond, hrepresentable⟩,
      iff_of_false (by rintro ⟨⟩) fun h => h hrepresentable⟩
  · rw [show verdict = _ from hverdict, Checker.reports_error_iff, Checker.reports_error_iff]
    exact ⟨iff_of_false (by rintro ⟨⟩) hbeyond, iff_of_false (by rintro ⟨⟩) fun h => hmissing h.2,
      iff_of_true rfl hmissing⟩

open TuffSafety.Interval (results) in
/-- Factors on both sides of zero, factors whose product just leaves 32 bits, and factors whose product
no bound can hold. -/
theorem overflow_decided_products :
    let within (a b : Int) : TypeInfo := { name := "I32", min := some a, max := some b }
    let verdict (left right : TypeInfo) :=
      Checker.checkOverflow .mul (Checker.resultBounds .mul left right) none
    IsLeast (results .mul (-3, 5) (-7, 4)) (-35) ∧ IsGreatest (results .mul (-3, 5) (-7, 4)) 21 ∧
      verdict (within (-3) 5) (within (-7) 4) = .ok () ∧
      (∀ n ∈ results .mul (-3, 5) (-7, 4), Interval.Holds Bound.int32 n) ∧
      Checker.Reports (verdict (within (-1) 65536) (within 0 32768)) none .safetyOverflow ∧
      (∃ n ∈ results .mul (-1, 65536) (0, 32768), ¬ Interval.Holds Bound.int32 n) ∧
      Checker.Reports (verdict (within 0 Bound.greatest) (within 1 2)) none .safetyOverflowUnproven ∧
      ¬ ∀ n ∈ Interval.extremes .mul (0, Bound.greatest) (1, 2), Bound.Representable n := by
  intro within verdict
  have hmul : Interval.HasRule .mul := .inr (.inr rfl)
  obtain ⟨_, hexact, hsmall⟩ :=
    overflow_decided (l := (-3, 5)) (r := (-7, 4)) hmul (by decide) (by decide)
  obtain ⟨_, _, hlarge⟩ :=
    overflow_decided (l := (-1, 65536)) (r := (0, 32768)) hmul (by decide) (by decide)
  obtain ⟨_, _, hhuge⟩ :=
    overflow_decided (l := (0, Bound.greatest)) (r := (1, 2)) hmul (by decide) (by decide)
  obtain ⟨hleast, hgreatest⟩ := hexact (-35, 21) rfl
  have hfits : verdict (within (-3) 5) (within (-7) 4) = .ok () := rfl
  have hescapes : Checker.Reports (verdict (within (-1) 65536) (within 0 32768)) none .safetyOverflow :=
    ⟨_, rfl, rfl⟩
  have hmissing :
      Checker.Reports (verdict (within 0 Bound.greatest) (within 1 2)) none .safetyOverflowUnproven :=
    ⟨_, rfl, rfl⟩
  exact ⟨hleast, hgreatest, hfits, (hsmall _ _ none rfl rfl).1.mp hfits, hescapes,
    ((hlarge _ _ none rfl rfl).2.1.mp hescapes).1, hmissing, (hhuge _ _ none rfl rfl).2.2.mp hmissing⟩

end TuffSafety
