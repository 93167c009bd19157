import TuffSafety.Proofs.OrderedBounds

/-!
# What narrowing makes of bounds

To narrow a type by a patch is to tighten each bound on its own and then to look at both: bounds that
contradict each other are dropped, and zero is noted to be out where both bounds are known and lie on
one side of it. A name is narrowed by a single patch, in which the fields of newer facts stand over
those of older ones.
-/
namespace TuffSafety

namespace Bound

open TypeInfo

theorem atLeast_tightenMin_iff {a b : Option Int} {n : Int} :
    AtLeast (tightenMin a b) n ↔ AtLeast a n ∧ AtLeast b n := by
  refine ⟨fun h => ?_, fun h => atLeast_tightenMin h.1 h.2⟩
  cases a with
  | none => cases b <;> exact ⟨atLeast_none n, h⟩
  | some a =>
    cases b with
    | none => exact ⟨h, atLeast_none n⟩
    | some b =>
      rw [tightenMin, atLeast_some] at h
      rw [atLeast_some, atLeast_some]
      omega

theorem atMost_tightenMax_iff {a b : Option Int} {n : Int} :
    AtMost (tightenMax a b) n ↔ AtMost a n ∧ AtMost b n := by
  refine ⟨fun h => ?_, fun h => atMost_tightenMax h.1 h.2⟩
  cases a with
  | none => cases b <;> exact ⟨atMost_none n, h⟩
  | some a =>
    cases b with
    | none => exact ⟨h, atMost_none n⟩
    | some b =>
      rw [tightenMax, atMost_some] at h
      rw [atMost_some, atMost_some]
      omega

end Bound

namespace TypeInfo

variable {t : TypeInfo} {p : Patch} {n : Int}

/-- Both bounds are known and lie on one side of zero. -/
def ExcludesZero (t : TypeInfo) : Prop :=
  ∃ a b, t.min = some a ∧ t.max = some b ∧ (0 < a ∨ b < 0)

/-- Both bounds allow the number. -/
structure Spans (t : TypeInfo) (n : Int) : Prop where
  low : Bound.AtLeast t.min n
  high : Bound.AtMost t.max n

theorem Spans.ordered (h : t.Spans n) : t.Ordered := by
  intro a b ha hb
  exact Int.le_trans (h.low a ha) (h.high b hb)

/-! ### Dropping contradictory bounds -/

/-- All that can happen to a type: its bounds are dropped, zero is noted to be out, or it stays. -/
theorem normalize_cases (t : TypeInfo) :
    (¬ t.Ordered ∧ t.normalize = { t with min := none, max := none }) ∨
      (t.Ordered ∧ t.ExcludesZero ∧ t.normalize = { t with nonZero := true }) ∨
      (t.Ordered ∧ ¬ t.ExcludesZero ∧ t.normalize = t) := by
  unfold normalize interval
  cases hmin : t.min with
  | none =>
    refine .inr (.inr ⟨ordered_of_min hmin, ?_, rfl⟩)
    rintro ⟨a, _, ha, _⟩
    cases hmin.symm.trans ha
  | some a =>
    cases hmax : t.max with
    | none =>
      refine .inr (.inr ⟨?_, ?_, rfl⟩)
      · intro _ b _ hb
        cases hmax.symm.trans hb
      · rintro ⟨_, b, _, hb, _⟩
        cases hmax.symm.trans hb
    | some b =>
      dsimp only
      split
      · rename_i hcross
        exact .inl ⟨fun hordered => Int.not_le.mpr hcross (hordered a b hmin hmax), rfl⟩
      · rename_i hle
        have hordered : t.Ordered := by
          intro a' b' ha hb
          cases hmin.symm.trans ha
          cases hmax.symm.trans hb
          exact Int.not_lt.mp hle
        split
        · rename_i hside
          exact .inr (.inl ⟨hordered, ⟨a, b, hmin, hmax, hside⟩, rfl⟩)
        · rename_i hside
          refine .inr (.inr ⟨hordered, ?_, rfl⟩)
          rintro ⟨a', b', ha, hb, hside'⟩
          cases hmin.symm.trans ha
          cases hmax.symm.trans hb
          exact hside hside'

theorem normalize_bounds (h : t.Ordered) : t.normalize.min = t.min ∧ t.normalize.max = t.max := by
  rcases t.normalize_cases with ⟨hcross, _⟩ | ⟨_, _, heq⟩ | ⟨_, _, heq⟩
  · exact absurd h hcross
  · rw [heq]
    exact ⟨rfl, rfl⟩
  · rw [heq]
    exact ⟨rfl, rfl⟩

theorem normalize_dropped (h : ¬ t.Ordered) : t.normalize.min = none ∧ t.normalize.max = none := by
  rcases t.normalize_cases with ⟨_, heq⟩ | ⟨hordered, _⟩ | ⟨hordered, _⟩
  · rw [heq]
    exact ⟨rfl, rfl⟩
  · exact absurd hordered h
  · exact absurd hordered h

theorem normalize_nonZero_iff :
    t.normalize.nonZero = true ↔ t.nonZero = true ∨ t.normalize.ExcludesZero := by
  rcases t.normalize_cases with ⟨_, heq⟩ | ⟨_, hzero, heq⟩ | ⟨_, hzero, heq⟩
  · rw [heq]
    refine ⟨.inl, fun h => h.resolve_right ?_⟩
    rintro ⟨_, _, ha, _⟩
    cases ha
  · rw [heq]
    exact ⟨fun _ => .inr hzero, fun _ => rfl⟩
  · rw [heq]
    exact ⟨.inl, fun h => h.resolve_right hzero⟩

/-! ### Tightening -/

@[simp] theorem withoutNull_min (t : TypeInfo) : t.withoutNull.min = t.min := by
  unfold withoutNull
  split <;> rfl

@[simp] theorem withoutNull_max (t : TypeInfo) : t.withoutNull.max = t.max := by
  unfold withoutNull
  split <;> rfl

theorem withoutNull_nonZero (h : t.nonZero = true) : t.withoutNull.nonZero = true := by
  unfold withoutNull
  split
  · rfl
  · exact h

/-- The type that a patch is laid on. -/
def base (t : TypeInfo) (p : Patch) : TypeInfo :=
  if p.nonNull then t.withoutNull else t

@[simp] theorem base_min (t : TypeInfo) (p : Patch) : (t.base p).min = t.min := by
  unfold base
  split
  · exact t.withoutNull_min
  · rfl

@[simp] theorem base_max (t : TypeInfo) (p : Patch) : (t.base p).max = t.max := by
  unfold base
  split
  · exact t.withoutNull_max
  · rfl

/-- What is laid over a patch takes back nothing that it says about null. -/
theorem base_overlay_nonZero {q : Patch} (h : (t.base p).nonZero = true) :
    (t.base (p.overlay q)).nonZero = true := by
  unfold base Patch.overlay at *
  cases hp : p.nonNull with
  | true => simpa [hp] using h
  | false =>
    rw [hp, if_neg Bool.false_ne_true] at h
    cases hq : q.nonNull with
    | true => exact withoutNull_nonZero h
    | false => exact h

/-- The type with the tighter bounds, which may contradict each other. -/
def tightened (t : TypeInfo) (p : Patch) : TypeInfo :=
  { t.base p with
    min := tightenMin t.min p.min
    max := tightenMax t.max p.max
    nonZero := (t.base p).nonZero || p.nonZero == some true }

theorem narrow_eq_normalize (t : TypeInfo) (p : Patch) : t.narrow p = (t.tightened p).normalize := by
  unfold tightened
  rw [← t.base_min p, ← t.base_max p]
  rfl

theorem tightened_nonZero_iff :
    (t.tightened p).nonZero = true ↔ (t.base p).nonZero = true ∨ p.nonZero = some true := by
  unfold tightened
  rw [Bool.or_eq_true, beq_iff_eq]

theorem spans_tightened_iff :
    (t.tightened p).Spans n ↔ t.Spans n ∧ Bound.AtLeast p.min n ∧ Bound.AtMost p.max n := by
  constructor
  · intro h
    obtain ⟨hlow, hlow'⟩ := Bound.atLeast_tightenMin_iff.mp h.low
    obtain ⟨hhigh, hhigh'⟩ := Bound.atMost_tightenMax_iff.mp h.high
    exact ⟨⟨hlow, hhigh⟩, hlow', hhigh'⟩
  · rintro ⟨h, hlow, hhigh⟩
    exact ⟨atLeast_tightenMin h.low hlow, atMost_tightenMax h.high hhigh⟩

theorem narrow_bounds (h : (t.tightened p).Ordered) :
    (t.narrow p).min = tightenMin t.min p.min ∧ (t.narrow p).max = tightenMax t.max p.max := by
  rw [narrow_eq_normalize]
  exact normalize_bounds h

theorem narrow_nonZero_iff :
    (t.narrow p).nonZero = true ↔
      (t.base p).nonZero = true ∨ p.nonZero = some true ∨ (t.narrow p).ExcludesZero := by
  rw [narrow_eq_normalize, normalize_nonZero_iff, tightened_nonZero_iff, or_assoc]

end TypeInfo

/-! ### Names under facts -/

namespace Patch

@[simp] theorem overlay_empty (p : Patch) : p.overlay .empty = p := by
  obtain ⟨min, max, nonZero, nonNull⟩ := p
  simp [overlay, empty]

end Patch

namespace Checker

variable {c : Checker} {name : String} {flow : Flow} {b : Binding}

theorem lookup_of_none (hb : flow.scope.get? name = some b) (hfacts : flow.facts.get? name = none) :
    c.lookup name flow = b.current := by
  unfold lookup
  rw [hb, hfacts]

theorem lookup_of_some {p : Patch} (hb : flow.scope.get? name = some b)
    (hfacts : flow.facts.get? name = some p) : c.lookup name flow = b.current.narrow p := by
  unfold lookup
  rw [hb, hfacts]

/-- The bounds that a name is found to have are those of its binding tightened by the facts, unless
these contradict each other. -/
theorem lookup_bounds (hb : flow.scope.get? name = some b) :
    ((c.lookup name flow).min = none ∧ (c.lookup name flow).max = none) ∨
      ((c.lookup name flow).min = (b.current.tightened (flow.facts.about name)).min ∧
        (c.lookup name flow).max = (b.current.tightened (flow.facts.about name)).max) := by
  cases hfacts : flow.facts.get? name with
  | none =>
    rw [lookup_of_none hb hfacts, Facts.about_of_none hfacts]
    right
    cases hmin : b.current.min <;> cases hmax : b.current.max <;>
      simp [TypeInfo.tightened, TypeInfo.tightenMin, TypeInfo.tightenMax, Patch.empty, hmin, hmax]
  | some p =>
    rw [lookup_of_some hb hfacts, Facts.about_of_some hfacts, TypeInfo.narrow_eq_normalize]
    by_cases hordered : (b.current.tightened p).Ordered
    · exact .inr (TypeInfo.normalize_bounds hordered)
    · exact .inl (TypeInfo.normalize_dropped hordered)

/-- Facts that say nothing about a name leave it as it was found; others are laid over what was known
about it, and its binding is narrowed by the result. -/
theorem lookup_learn (c : Checker) (hb : flow.scope.get? name = some b) (learned : Facts) :
    (learned.get? name = none ∧ c.lookup name (flow.learn learned) = c.lookup name flow) ∨
      c.lookup name (flow.learn learned) =
        b.current.narrow ((flow.facts.about name).overlay (learned.about name)) := by
  have hmerge := flow.facts.get?_merge learned name
  cases hlearned : learned.get? name with
  | none =>
    rw [hlearned] at hmerge
    refine .inl ⟨rfl, ?_⟩
    unfold lookup
    simp only [Flow.learn, hmerge, Option.map_none, Option.none_or]
  | some p =>
    rw [hlearned] at hmerge
    rw [Facts.about_of_some hlearned]
    exact .inr (lookup_of_some hb hmerge)

end Checker

end TuffSafety
