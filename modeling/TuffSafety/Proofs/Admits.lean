import TuffSafety.TypeInfo.Patch

/-!
# The integers that a type admits

A type bounds the integers of its values from below and above, and may exclude zero. A patch does
the same with fields that may be absent. The operations of the checker keep every integer that their
operands admit; nothing is said here about how tight the results are.
-/
namespace TuffSafety

namespace Bound

/-- A lower bound is respected; an absent one always is. -/
def AtLeast (bound : Option Int) (n : Int) : Prop :=
  ∀ a ∈ bound, a ≤ n

/-- An upper bound is respected; an absent one always is. -/
def AtMost (bound : Option Int) (n : Int) : Prop :=
  ∀ b ∈ bound, n ≤ b

instance (bound : Option Int) (n : Int) : Decidable (AtLeast bound n) :=
  inferInstanceAs (Decidable (∀ a ∈ bound, a ≤ n))

instance (bound : Option Int) (n : Int) : Decidable (AtMost bound n) :=
  inferInstanceAs (Decidable (∀ b ∈ bound, n ≤ b))

@[simp] theorem atLeast_none (n : Int) : AtLeast none n := by
  intro a ha
  cases ha

@[simp] theorem atMost_none (n : Int) : AtMost none n := by
  intro b hb
  cases hb

@[simp] theorem atLeast_some {a n : Int} : AtLeast (some a) n ↔ a ≤ n := by
  simp [AtLeast]

@[simp] theorem atMost_some {b n : Int} : AtMost (some b) n ↔ n ≤ b := by
  simp [AtMost]

theorem atLeast_lesser {a b : Option Int} {n : Int} (h : AtLeast a n ∨ AtLeast b n) :
    AtLeast (lesser a b) n := by
  cases a with
  | none => exact atLeast_none n
  | some a =>
    cases b with
    | none => exact atLeast_none n
    | some b =>
      rw [atLeast_some, atLeast_some] at h
      rw [lesser, atLeast_some]
      omega

theorem atMost_greater {a b : Option Int} {n : Int} (h : AtMost a n ∨ AtMost b n) :
    AtMost (greater a b) n := by
  cases a with
  | none => exact atMost_none n
  | some a =>
    cases b with
    | none => exact atMost_none n
    | some b =>
      rw [atMost_some, atMost_some] at h
      rw [greater, atMost_some]
      omega

theorem eq_of_checked {n m : Int} (h : checked n = some m) : m = n := by
  unfold checked at h
  split at h
  · exact (Option.some.inj h).symm
  · cases h

end Bound

namespace Interval

open TuffSafety.Bound

/-- The integers between the two bounds. -/
def Holds (i : Interval) (n : Int) : Prop :=
  i.1 ≤ n ∧ n ≤ i.2

/-- The result of the operations that have an interval rule. -/
def operate : BinaryOp → Int → Int → Option Int
  | .add, a, b => some (a + b)
  | .sub, a, b => some (a - b)
  | .mul, a, b => some (a * b)
  | _, _, _ => none

/-- On a segment a product with a fixed factor is extremal at an end. -/
theorem mul_between (y : Int) {a b x : Int} (ha : a ≤ x) (hb : x ≤ b) :
    min (a * y) (b * y) ≤ x * y ∧ x * y ≤ max (a * y) (b * y) := by
  rcases Int.le_total 0 y with hy | hy
  · have h1 := Int.mul_le_mul_of_nonneg_right ha hy
    have h2 := Int.mul_le_mul_of_nonneg_right hb hy
    omega
  · have h1 := Int.mul_le_mul_of_nonpos_right ha hy
    have h2 := Int.mul_le_mul_of_nonpos_right hb hy
    omega

theorem mul_between_corners {a b c d x y : Int} (ha : a ≤ x) (hb : x ≤ b) (hc : c ≤ y)
    (hd : y ≤ d) :
    min (min (a * c) (a * d)) (min (b * c) (b * d)) ≤ x * y ∧
      x * y ≤ max (max (a * c) (a * d)) (max (b * c) (b * d)) := by
  have h := mul_between y ha hb
  have h1 := mul_between a hc hd
  have h2 := mul_between b hc hd
  rw [Int.mul_comm c a, Int.mul_comm d a, Int.mul_comm y a] at h1
  rw [Int.mul_comm c b, Int.mul_comm d b, Int.mul_comm y b] at h2
  omega

/-- Whatever the operands, the result lies within the propagated interval. -/
theorem propagate_holds {op : BinaryOp} {l r i : Interval} {x y n : Int}
    (h : propagate op l r = some i) (hx : l.Holds x) (hy : r.Holds y)
    (hn : operate op x y = some n) : i.Holds n := by
  obtain ⟨a, b⟩ := l
  obtain ⟨c, d⟩ := r
  obtain ⟨ha, hb⟩ := hx
  obtain ⟨hc, hd⟩ := hy
  cases op <;> simp only [operate, reduceCtorEq, Option.some.injEq] at hn
  case add =>
    simp only [propagate, Option.bind_eq_bind, Option.bind_eq_some_iff, Option.some.injEq] at h
    obtain ⟨low, hl, high, hh, rfl⟩ := h
    rw [eq_of_checked hl, eq_of_checked hh]
    constructor <;> simp only at * <;> omega
  case sub =>
    simp only [propagate, Option.bind_eq_bind, Option.bind_eq_some_iff, Option.some.injEq] at h
    obtain ⟨low, hl, high, hh, rfl⟩ := h
    rw [eq_of_checked hl, eq_of_checked hh]
    constructor <;> simp only at * <;> omega
  case mul =>
    simp only [propagate, Option.bind_eq_bind, Option.bind_eq_some_iff, Option.some.injEq] at h
    obtain ⟨ac, hac, ad, had, bc, hbc, bd, hbd, rfl⟩ := h
    rw [eq_of_checked hac, eq_of_checked had, eq_of_checked hbc, eq_of_checked hbd, ← hn]
    exact mul_between_corners ha hb hc hd

end Interval

/-- An integer value that a type allows. -/
structure TypeInfo.Admits (t : TypeInfo) (n : Int) : Prop where
  low : Bound.AtLeast t.min n
  high : Bound.AtMost t.max n
  zero : t.nonZero = true → n ≠ 0

/-- An integer value of which everything that a patch says is true. -/
structure Patch.Admits (p : Patch) (n : Int) : Prop where
  low : Bound.AtLeast p.min n
  high : Bound.AtMost p.max n
  zero : p.nonZero = some true → n ≠ 0

instance (t : TypeInfo) (n : Int) : Decidable (t.Admits n) :=
  decidable_of_iff (Bound.AtLeast t.min n ∧ Bound.AtMost t.max n ∧ (t.nonZero = true → n ≠ 0))
    ⟨fun ⟨l, h, z⟩ => ⟨l, h, z⟩, fun ⟨l, h, z⟩ => ⟨l, h, z⟩⟩

instance (p : Patch) (n : Int) : Decidable (p.Admits n) :=
  decidable_of_iff (Bound.AtLeast p.min n ∧ Bound.AtMost p.max n ∧ (p.nonZero = some true → n ≠ 0))
    ⟨fun ⟨l, h, z⟩ => ⟨l, h, z⟩, fun ⟨l, h, z⟩ => ⟨l, h, z⟩⟩

namespace TypeInfo

open TuffSafety.Bound

theorem admits_bare (name : String) (n : Int) : (bare name).Admits n := by
  constructor <;> simp [bare]

theorem admits_literal (name : String) (n : Int) : (literal name n).Admits n := by
  constructor <;> simp [literal]

theorem Admits.interval_holds {t : TypeInfo} {n : Int} (h : t.Admits n) {i : Interval}
    (hi : t.interval = some i) : i.Holds n := by
  unfold interval at hi
  split at hi
  · rename_i a b ha hb
    cases hi
    exact ⟨h.low a ha, h.high b hb⟩
  · cases hi

/-- Dropping contradictory bounds loses no value, and bounds that leave zero out are believed. -/
theorem Admits.normalize {t : TypeInfo} {n : Int} (h : t.Admits n) : t.normalize.Admits n := by
  unfold TypeInfo.normalize
  cases hi : t.interval with
  | none => exact h
  | some i =>
    obtain ⟨a, b⟩ := i
    obtain ⟨ha, hb⟩ := h.interval_holds hi
    simp only at ha hb ⊢
    split
    · exact ⟨atLeast_none n, atMost_none n, h.zero⟩
    · split
      · exact ⟨h.low, h.high, fun _ => by omega⟩
      · exact h

theorem admits_withBounds {t : TypeInfo} {n : Int} {min max : Option Int} (hl : AtLeast min n)
    (hh : AtMost max n) (hz : t.nonZero = true → n ≠ 0) : (t.withBounds min max).Admits n :=
  Admits.normalize ⟨hl, hh, hz⟩

theorem atLeast_tightenMin {a b : Option Int} {n : Int} (ha : AtLeast a n) (hb : AtLeast b n) :
    AtLeast (tightenMin a b) n := by
  cases a with
  | none => cases b <;> exact hb
  | some a =>
    cases b with
    | none => exact ha
    | some b =>
      rw [atLeast_some] at ha hb
      rw [tightenMin, atLeast_some]
      omega

theorem atMost_tightenMax {a b : Option Int} {n : Int} (ha : AtMost a n) (hb : AtMost b n) :
    AtMost (tightenMax a b) n := by
  cases a with
  | none => cases b <;> exact hb
  | some a =>
    cases b with
    | none => exact ha
    | some b =>
      rw [atMost_some] at ha hb
      rw [tightenMax, atMost_some]
      omega

theorem withoutNull_eq_self {t : TypeInfo} (h : t.nullablePointer = none) : t.withoutNull = t := by
  unfold withoutNull
  rw [h]

/-- Narrowing keeps a value that both the type and the patch allow. A nullable pointer is left out:
known not to be null it is another type. -/
theorem Admits.narrow {t : TypeInfo} {p : Patch} {n : Int} (ht : t.Admits n) (hp : p.Admits n)
    (hnull : t.nullablePointer = none) : (t.narrow p).Admits n := by
  unfold TypeInfo.narrow
  simp only [withoutNull_eq_self hnull, ite_self]
  apply Admits.normalize
  constructor
  · exact atLeast_tightenMin ht.low hp.low
  · exact atMost_tightenMax ht.high hp.high
  · intro hz
    rcases Bool.or_eq_true_iff.mp hz with h | h
    · exact ht.zero h
    · exact hp.zero (by simpa using h)

/-- A value of either type is a value of their join. -/
theorem admits_join {a b : TypeInfo} {n : Int} (h : a.Admits n ∨ b.Admits n) :
    (a.join b).Admits n := by
  unfold join
  split
  · constructor
    · exact atLeast_lesser (h.imp Admits.low Admits.low)
    · exact atMost_greater (h.imp Admits.high Admits.high)
    · intro hz
      obtain ⟨ha, hb⟩ := Bool.and_eq_true_iff.mp hz
      exact h.elim (fun h => h.zero ha) (fun h => h.zero hb)
  · exact admits_bare _ n

/-- Only the bounds and the zero flag are touched. -/
theorem normalize_eq (t : TypeInfo) :
    t.normalize =
      { t with min := t.normalize.min, max := t.normalize.max, nonZero := t.normalize.nonZero } := by
  unfold normalize
  split
  · split
    · rfl
    · split <;> rfl
  · rfl

theorem narrow_name (t : TypeInfo) (p : Patch) :
    (t.narrow p).name = (if p.nonNull then t.withoutNull else t).name := by
  rw [narrow, normalize_eq]

theorem narrow_nullablePointer (t : TypeInfo) (p : Patch) :
    (t.narrow p).nullablePointer = (if p.nonNull then t.withoutNull else t).nullablePointer := by
  rw [narrow, normalize_eq]

theorem narrow_eq {t : TypeInfo} (hnull : t.nullablePointer = none) (p : Patch) :
    t.narrow p =
      { t with
        min := (t.narrow p).min, max := (t.narrow p).max, nonZero := (t.narrow p).nonZero } := by
  unfold narrow
  simp only [withoutNull_eq_self hnull, ite_self]
  rw [normalize_eq]

end TypeInfo

namespace Patch

theorem Admits.overlay {p q : Patch} {n : Int} (hp : p.Admits n) (hq : q.Admits n) :
    (p.overlay q).Admits n := by
  obtain ⟨pmin, pmax, pzero, pnull⟩ := p
  obtain ⟨qmin, qmax, qzero, qnull⟩ := q
  constructor
  · cases qmin
    · exact hp.low
    · exact hq.low
  · cases qmax
    · exact hp.high
    · exact hq.high
  · cases qzero
    · exact hp.zero
    · exact hq.zero

theorem admits_empty (n : Int) : empty.Admits n := by
  constructor <;> simp [empty]

theorem admits_notNull (n : Int) : notNull.Admits n := by
  constructor <;> simp [notNull]

theorem admits_ofInfo {t : TypeInfo} {n : Int} (h : t.Admits n) : (ofInfo t).Admits n := by
  refine ⟨h.low, h.high, ?_⟩
  intro hz
  apply h.zero
  cases ht : t.nonZero with
  | false => simp [ofInfo, ht] at hz
  | true => rfl

end Patch

end TuffSafety
