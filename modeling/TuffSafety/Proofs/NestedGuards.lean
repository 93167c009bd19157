import TuffSafety.Proofs.Narrowing
import TuffSafety.Proofs.Slots

/-!
# Guards inside guards

The facts of an inner guard are laid over those of the outer ones field by field, and the binding is
narrowed by the result. So an inner guard keeps what is known about a name, except that a bound which it
sets takes the place of a tighter bound that an outer guard has set. Bounds of the binding itself cannot
be lost. A guard that sets nothing weaker than what is known only narrows, and so do such guards nested
to any depth.
-/
namespace TuffSafety

namespace Bound

open TypeInfo (tightenMin tightenMax)

/-- A lower bound stays or is raised. -/
def Raised (before after : Option Int) : Prop :=
  ∀ a, before = some a → ∃ a', after = some a' ∧ a ≤ a'

/-- An upper bound stays or is lowered. -/
def Lowered (before after : Option Int) : Prop :=
  ∀ a, before = some a → ∃ a', after = some a' ∧ a' ≤ a

@[simp] theorem raised_none (after : Option Int) : Raised none after := by
  intro a ha
  cases ha

@[simp] theorem lowered_none (after : Option Int) : Lowered none after := by
  intro a ha
  cases ha

@[simp] theorem raised_some {a a' : Int} : Raised (some a) (some a') ↔ a ≤ a' := by
  simp [Raised]

@[simp] theorem lowered_some {a a' : Int} : Lowered (some a) (some a') ↔ a' ≤ a := by
  simp [Lowered]

theorem Raised.trans {x y z : Option Int} (h : Raised x y) (h' : Raised y z) : Raised x z := by
  intro a ha
  obtain ⟨a', ha', hle⟩ := h a ha
  obtain ⟨a'', ha'', hle'⟩ := h' a' ha'
  exact ⟨a'', ha'', Int.le_trans hle hle'⟩

theorem Lowered.trans {x y z : Option Int} (h : Lowered x y) (h' : Lowered y z) : Lowered x z := by
  intro a ha
  obtain ⟨a', ha', hle⟩ := h a ha
  obtain ⟨a'', ha'', hle'⟩ := h' a' ha'
  exact ⟨a'', ha'', Int.le_trans hle' hle⟩

theorem Raised.antisymm {a b : Option Int} (h : Raised a b) (h' : Raised b a) : a = b := by
  cases a with
  | none =>
    cases b with
    | none => rfl
    | some n =>
      obtain ⟨_, hnone, _⟩ := h' n rfl
      cases hnone
  | some m =>
    obtain ⟨n, rfl, hle⟩ := h m rfl
    rw [Int.le_antisymm hle (raised_some.mp h')]

theorem Lowered.antisymm {a b : Option Int} (h : Lowered a b) (h' : Lowered b a) : a = b := by
  cases a with
  | none =>
    cases b with
    | none => rfl
    | some n =>
      obtain ⟨_, hnone, _⟩ := h' n rfl
      cases hnone
  | some m =>
    obtain ⟨n, rfl, hle⟩ := h m rfl
    rw [Int.le_antisymm (lowered_some.mp h') hle]

variable {own outer inner : Option Int}

/-- The inner lower bound replaces the outer one, unless that is the binding's own. -/
theorem raised_iff :
    Raised (tightenMin own outer) (tightenMin own (inner <|> outer)) ↔
      ∀ a m, tightenMin own outer = some a → inner = some m → a ≤ m ∨ own = some a := by
  cases inner with
  | none =>
    refine ⟨fun _ a m _ hm => ?_, fun _ a ha => ⟨a, ha, Int.le_refl a⟩⟩
    cases hm
  | some m =>
    have hover : (some m <|> outer) = some m := rfl
    rw [hover]
    cases own with
    | none => cases outer <;> simp [tightenMin]
    | some k =>
      cases outer with
      | none => exact ⟨fun _ a _ ha _ => .inr ha, fun _ => raised_some.mpr (Int.le_max_left k m)⟩
      | some o =>
        simp only [tightenMin, raised_some, Option.some.injEq, forall_eq', forall_apply_eq_imp_iff]
        omega

theorem lowered_iff :
    Lowered (tightenMax own outer) (tightenMax own (inner <|> outer)) ↔
      ∀ a m, tightenMax own outer = some a → inner = some m → m ≤ a ∨ own = some a := by
  cases inner with
  | none =>
    refine ⟨fun _ a m _ hm => ?_, fun _ a ha => ⟨a, ha, Int.le_refl a⟩⟩
    cases hm
  | some m =>
    have hover : (some m <|> outer) = some m := rfl
    rw [hover]
    cases own with
    | none => cases outer <;> simp [tightenMax]
    | some k =>
      cases outer with
      | none => exact ⟨fun _ a _ ha _ => .inr ha, fun _ => lowered_some.mpr (Int.min_le_left k m)⟩
      | some o =>
        simp only [tightenMax, lowered_some, Option.some.injEq, forall_eq', forall_apply_eq_imp_iff]
        omega

theorem atLeast_overlay {n : Int} (hinner : AtLeast inner n) (houter : AtLeast outer n) :
    AtLeast (inner <|> outer) n := by
  cases inner with
  | none => exact houter
  | some m => exact hinner

theorem atMost_overlay {n : Int} (hinner : AtMost inner n) (houter : AtMost outer n) :
    AtMost (inner <|> outer) n := by
  cases inner with
  | none => exact houter
  | some m => exact hinner

theorem tightenMin_positive {a : Int} (hinner : ∀ m, inner = some m → 0 < m)
    (ha : tightenMin own outer = some a) (hpos : 0 < a) :
    ∃ a', tightenMin own (inner <|> outer) = some a' ∧ 0 < a' := by
  cases inner with
  | none => exact ⟨a, ha, hpos⟩
  | some m =>
    have hm := hinner m rfl
    cases own with
    | none => exact ⟨m, rfl, hm⟩
    | some k => exact ⟨Max.max k m, rfl, by omega⟩

theorem tightenMax_known {a : Int} (ha : tightenMax own outer = some a) :
    ∃ a', tightenMax own (inner <|> outer) = some a' := by
  cases inner with
  | none => exact ⟨a, ha⟩
  | some m =>
    cases own with
    | none => exact ⟨m, rfl⟩
    | some k => exact ⟨Min.min k m, rfl⟩

end Bound

namespace TypeInfo

variable {t u v : TypeInfo}

/-- Everything that is known of one type is known of the other, at least as tightly. -/
structure Narrower (after before : TypeInfo) : Prop where
  low : Bound.Raised before.min after.min
  high : Bound.Lowered before.max after.max
  zero : before.nonZero = true → after.nonZero = true

theorem Narrower.refl (t : TypeInfo) : t.Narrower t where
  low a ha := ⟨a, ha, Int.le_refl a⟩
  high a ha := ⟨a, ha, Int.le_refl a⟩
  zero h := h

theorem Narrower.trans (h : v.Narrower u) (h' : u.Narrower t) : v.Narrower t where
  low := h'.low.trans h.low
  high := h'.high.trans h.high
  zero hz := h.zero (h'.zero hz)

theorem ExcludesZero.of_narrowed (h : t.ExcludesZero) (hlow : Bound.Raised t.min u.min)
    (hhigh : Bound.Lowered t.max u.max) : u.ExcludesZero := by
  obtain ⟨a, b, ha, hb, hside⟩ := h
  obtain ⟨a', ha', hle⟩ := hlow a ha
  obtain ⟨b', hb', hle'⟩ := hhigh b hb
  exact ⟨a', b', ha', hb', by omega⟩

end TypeInfo

namespace Checker

variable {c : Checker} {name : String} {flow flow' : Flow} {learned : Facts} {b : Binding}

/-- Some number is within the bounds that are known of a name and within those of new facts. -/
def Consistent (c : Checker) (name : String) (flow : Flow) (learned : Facts) : Prop :=
  ∃ n, (c.lookup name flow).Spans n ∧ Bound.AtLeast (learned.about name).min n ∧
    Bound.AtMost (learned.about name).max n

/-- Where bounds are known, those of new facts stand over those of older ones. -/
theorem lookup_learn_bounds (hb : flow.scope.get? name = some b)
    (h : c.Consistent name flow learned) :
    let outer := flow.facts.about name
    let inner := learned.about name
    ((c.lookup name flow).min = none ∧ (c.lookup name flow).max = none) ∨
      ((c.lookup name flow).min = TypeInfo.tightenMin b.current.min outer.min ∧
        (c.lookup name flow).max = TypeInfo.tightenMax b.current.max outer.max ∧
        (c.lookup name (flow.learn learned)).min =
          TypeInfo.tightenMin b.current.min (inner.min <|> outer.min) ∧
        (c.lookup name (flow.learn learned)).max =
          TypeInfo.tightenMax b.current.max (inner.max <|> outer.max)) := by
  intro outer inner
  refine (lookup_bounds hb).imp_right ?_
  rintro ⟨hmin, hmax⟩
  refine ⟨hmin, hmax, ?_⟩
  rcases lookup_learn c hb learned with ⟨hnone, hsame⟩ | hafter
  · have hempty : inner = .empty := Facts.about_of_none hnone
    rw [hsame, hempty]
    exact ⟨hmin, hmax⟩
  · obtain ⟨n, hspans, hlow, hhigh⟩ := h
    have hbefore : (b.current.tightened outer).Spans n := ⟨hmin ▸ hspans.low, hmax ▸ hspans.high⟩
    obtain ⟨hown, hlow', hhigh'⟩ := TypeInfo.spans_tightened_iff.mp hbefore
    have hnarrowed : (b.current.tightened (outer.overlay inner)).Spans n :=
      TypeInfo.spans_tightened_iff.mpr
        ⟨hown, Bound.atLeast_overlay hlow hlow', Bound.atMost_overlay hhigh hhigh'⟩
    rw [hafter]
    exact TypeInfo.narrow_bounds hnarrowed.ordered

theorem raised_learn_iff (hb : flow.scope.get? name = some b) (h : c.Consistent name flow learned) :
    Bound.Raised (c.lookup name flow).min (c.lookup name (flow.learn learned)).min ↔
      ∀ a m, (c.lookup name flow).min = some a → (learned.about name).min = some m →
        a ≤ m ∨ b.current.min = some a := by
  rcases lookup_learn_bounds hb h with ⟨hmin, _⟩ | ⟨hmin, _, hmin', _⟩
  · simp [hmin]
  · rw [hmin, hmin']
    exact Bound.raised_iff

theorem lowered_learn_iff (hb : flow.scope.get? name = some b) (h : c.Consistent name flow learned) :
    Bound.Lowered (c.lookup name flow).max (c.lookup name (flow.learn learned)).max ↔
      ∀ a m, (c.lookup name flow).max = some a → (learned.about name).max = some m →
        m ≤ a ∨ b.current.max = some a := by
  rcases lookup_learn_bounds hb h with ⟨_, hmax⟩ | ⟨_, hmax, _, hmax'⟩
  · simp [hmax]
  · rw [hmax, hmax']
    exact Bound.lowered_iff

/-- A name is known not to be zero by its binding, by a fact or by its bounds. -/
theorem lookup_nonZero (hb : flow.scope.get? name = some b)
    (h : (c.lookup name flow).nonZero = true) :
    (b.current.base (flow.facts.about name)).nonZero = true ∨
      (flow.facts.about name).nonZero = some true ∨ (c.lookup name flow).ExcludesZero := by
  cases hfacts : flow.facts.get? name with
  | none =>
    rw [lookup_of_none hb hfacts] at h
    rw [Facts.about_of_none hfacts]
    exact .inl h
  | some p =>
    rw [lookup_of_some hb hfacts] at h ⊢
    rw [Facts.about_of_some hfacts]
    exact TypeInfo.narrow_nonZero_iff.mp h

/-- The same three reasons are left after new facts. -/
theorem lookup_learn_nonZero_iff (hb : flow.scope.get? name = some b)
    (hbefore : (c.lookup name flow).nonZero = true) (learned : Facts) :
    let patch := (flow.facts.about name).overlay (learned.about name)
    (c.lookup name (flow.learn learned)).nonZero = true ↔
      (b.current.base patch).nonZero = true ∨ patch.nonZero = some true ∨
        (c.lookup name (flow.learn learned)).ExcludesZero := by
  intro patch
  rcases lookup_learn c hb learned with ⟨hnone, hsame⟩ | hafter
  · have hpatch : patch = flow.facts.about name := by
      rw [← Patch.overlay_empty (flow.facts.about name), ← Facts.about_of_none hnone]
    rw [hsame, hpatch]
    exact ⟨lookup_nonZero hb, fun _ => hbefore⟩
  · rw [hafter]
    exact TypeInfo.narrow_nonZero_iff

theorem lookup_learn_nonZero (hb : flow.scope.get? name = some b)
    (hbefore : (c.lookup name flow).nonZero = true)
    (hinner : (learned.about name).nonZero ≠ some false)
    (hlow : Bound.Raised (c.lookup name flow).min (c.lookup name (flow.learn learned)).min)
    (hhigh : Bound.Lowered (c.lookup name flow).max (c.lookup name (flow.learn learned)).max) :
    (c.lookup name (flow.learn learned)).nonZero = true := by
  apply (lookup_learn_nonZero_iff hb hbefore learned).mpr
  rcases lookup_nonZero hb hbefore with hbase | hflag | hzero
  · exact .inl (TypeInfo.base_overlay_nonZero hbase)
  · refine .inr (.inl ?_)
    unfold Patch.overlay
    cases htest : (learned.about name).nonZero with
    | none => exact hflag
    | some notZero =>
      cases notZero with
      | true => rfl
      | false => exact absurd htest hinner
  · exact .inr (.inr (hzero.of_narrowed hlow hhigh))

theorem lookup_learn_positive {a m : Int} (hb : flow.scope.get? name = some b)
    (h : c.Consistent name flow learned) (ha : (c.lookup name flow).min = some a) (hpos : 0 < a)
    (hm : (c.lookup name flow).max = some m)
    (hinner : ∀ k, (learned.about name).min = some k → 0 < k) :
    (c.lookup name (flow.learn learned)).ExcludesZero := by
  rcases lookup_learn_bounds hb h with ⟨hnone, _⟩ | ⟨hmin, hmax, hmin', hmax'⟩
  · cases hnone.symm.trans ha
  · obtain ⟨a', ha', hpos'⟩ := Bound.tightenMin_positive hinner (hmin.symm.trans ha) hpos
    obtain ⟨m', hm'⟩ := Bound.tightenMax_known (hmax.symm.trans hm)
    exact ⟨a', m', hmin'.trans ha', hmax'.trans hm', .inl hpos'⟩

/-! ### Any depth -/

/-- New facts set nothing about a name to something weaker than what is known, apart from bounds that
its binding has itself. -/
structure Sharpens (c : Checker) (name : String) (b : Binding) (flow : Flow) (learned : Facts) :
    Prop where
  consistent : c.Consistent name flow learned
  low : ∀ a m, (c.lookup name flow).min = some a → (learned.about name).min = some m →
    a ≤ m ∨ b.current.min = some a
  high : ∀ a m, (c.lookup name flow).max = some a → (learned.about name).max = some m →
    m ≤ a ∨ b.current.max = some a
  zero : (learned.about name).nonZero ≠ some false

theorem Sharpens.narrower (h : c.Sharpens name b flow learned)
    (hb : flow.scope.get? name = some b) :
    (c.lookup name (flow.learn learned)).Narrower (c.lookup name flow) := by
  have hlow := (raised_learn_iff hb h.consistent).mpr h.low
  have hhigh := (lowered_learn_iff hb h.consistent).mpr h.high
  exact ⟨hlow, hhigh, fun hz => lookup_learn_nonZero hb hz h.zero hlow hhigh⟩

/-- One more guard, in the same frame or in a nested one, that sharpens what is known about a name. -/
structure Deepens (c : Checker) (name : String) (b : Binding) (flow flow' : Flow) : Prop where
  binding : flow'.scope.get? name = flow.scope.get? name
  guard : ∃ cond truth, flow'.facts = flow.facts.merge (Facts.derive cond truth) ∧
    c.Sharpens name b flow (Facts.derive cond truth)

theorem Deepens.narrower (h : c.Deepens name b flow flow') (hb : flow.scope.get? name = some b) :
    (c.lookup name flow').Narrower (c.lookup name flow) := by
  obtain ⟨cond, truth, hfacts, hsharpens⟩ := h.guard
  have hsame : c.lookup name flow' = c.lookup name (flow.learn (Facts.derive cond truth)) := by
    unfold lookup
    rw [h.binding, hfacts]
    rfl
  rw [hsame]
  exact hsharpens.narrower hb

theorem narrower_of_deepens (hb : flow.scope.get? name = some b)
    (h : Relation.ReflTransGen (c.Deepens name b) flow flow') :
    flow'.scope.get? name = some b ∧ (c.lookup name flow').Narrower (c.lookup name flow) := by
  induction h with
  | refl => exact ⟨hb, .refl _⟩
  | tail _ hstep ih => exact ⟨hstep.binding.trans ih.1, (hstep.narrower ih.1).trans ih.2⟩

end Checker

/-- What is known about a name after a guard that does not contradict it. A bound is lost exactly when
the guard sets a weaker one and the bound is not the binding's own. Zero stays excluded as long as the
binding, the last test for zero or the bounds exclude it: so when no bound is lost and the guard is not
`== 0`, and for a positive number with an upper bound after every guard that sets no lower bound or a
positive one. Nested guards that set nothing weaker only narrow, at any depth. -/
theorem nested_guard_kept {c : Checker} {name : String} {b : Binding} {flow : Flow}
    (hb : flow.scope.get? name = some b) :
    (∀ cond truth,
      let inner := (Facts.derive cond truth).about name
      let patch := (flow.facts.about name).overlay inner
      let before := c.lookup name flow
      let after := c.lookup name (flow.learn (Facts.derive cond truth))
      c.Consistent name flow (Facts.derive cond truth) →
        (Bound.Raised before.min after.min ↔
          ∀ a m, before.min = some a → inner.min = some m → a ≤ m ∨ b.current.min = some a) ∧
        (Bound.Lowered before.max after.max ↔
          ∀ a m, before.max = some a → inner.max = some m → m ≤ a ∨ b.current.max = some a) ∧
        (before.nonZero = true →
          (after.nonZero = true ↔ (b.current.base patch).nonZero = true ∨
            patch.nonZero = some true ∨ after.ExcludesZero) ∧
          (inner.nonZero ≠ some false → Bound.Raised before.min after.min →
            Bound.Lowered before.max after.max → after.nonZero = true) ∧
          ∀ a m, before.min = some a → 0 < a → before.max = some m →
            (∀ k, inner.min = some k → 0 < k) → after.nonZero = true)) ∧
      ∀ flow', Relation.ReflTransGen (c.Deepens name b) flow flow' →
        (c.lookup name flow').Narrower (c.lookup name flow) := by
  refine ⟨?_, fun flow' h => (Checker.narrower_of_deepens hb h).2⟩
  intro cond truth inner patch before after hconsistent
  refine ⟨Checker.raised_learn_iff hb hconsistent, Checker.lowered_learn_iff hb hconsistent, ?_⟩
  intro hzero
  have hreasons := Checker.lookup_learn_nonZero_iff hb hzero (Facts.derive cond truth)
  refine ⟨hreasons, Checker.lookup_learn_nonZero hb hzero, ?_⟩
  intro a m ha hpos hm hinner
  exact hreasons.mpr
    (.inr (.inr (Checker.lookup_learn_positive hb hconsistent ha hpos hm hinner)))

namespace Layered

open Annotated (int number)

def guard (op : BinaryOp) (value : Expr) : Expr := .binary op (.ident "x" none) value none

/-- What is known about `x: I32` under a guard `x > 5`. -/
def flow : Flow where
  scope := Scope.empty.declare "x" (.fixed (.named "I32"))
  facts := Facts.empty.add "x" (.atLeast 6)

/-- The function
`fn f(x: I32): I32 => { if (x > 5) { if (inner) { 100 / x } else { 0 } } else { 0 } }` -/
def program (inner : Expr) : Program :=
  let block (e : Expr) : Expr := .block ⟨[.expr e none], none⟩
  let quotient : Expr := .binary .div (number 100) (.ident "x" none) none
  .ofFunction [⟨"x", some int⟩] int
    [.expr (.ite (guard .gt (number 5))
      (block (.ite inner (block quotient) (some (block (number 0))) none))
      (some (block (number 0))) none) none]

end Layered

open Layered Annotated in
/-- Under `x > 5`, the guards `x < 100` and `x > 7` narrow one after the other. The weaker guard `x > 0`
loosens the lower bound and leaves zero excluded. -/
theorem nested_guard_kept_layered :
    let c := Checker.ofDeclarations {} true
    let b := Binding.fixed (.named "I32")
    let below := flow.under (Facts.derive (guard .lt (number 100)) true)
    let between := below.learn (Facts.derive (guard .gt (number 7)) true)
    let loose := flow.learn (Facts.derive (guard .gt (number 0)) true)
    flow.scope.get? "x" = some b ∧ Relation.ReflTransGen (c.Deepens "x" b) flow between ∧
      (c.lookup "x" between).Narrower (c.lookup "x" flow) ∧
      (c.lookup "x" between).interval = some (8, 99) ∧
      (c.lookup "x" flow).min = some 6 ∧ (c.lookup "x" loose).min = some 1 ∧
      ¬ Bound.Raised (c.lookup "x" flow).min (c.lookup "x" loose).min ∧
      (c.lookup "x" loose).nonZero = true := by
  intro c b below between loose
  have hb : flow.scope.get? "x" = some b := rfl
  obtain ⟨hguard, hdepth⟩ := nested_guard_kept (c := c) hb
  have hbelow : c.Deepens "x" b flow below := by
    refine ⟨rfl, _, _, rfl, ⟨6, ⟨by decide, by decide⟩, by decide, by decide⟩, ?_, ?_, by decide⟩
    · intro a m _ hm
      cases hm
    · intro a m ha hm
      cases ha
      cases hm
      decide
  have hbetween : c.Deepens "x" b below between := by
    refine ⟨rfl, _, _, rfl, ⟨8, ⟨by decide, by decide⟩, by decide, by decide⟩, ?_, ?_, by decide⟩
    · intro a m ha hm
      cases ha
      cases hm
      decide
    · intro a m _ hm
      cases hm
  have hchain : Relation.ReflTransGen (c.Deepens "x" b) flow between :=
    (Relation.ReflTransGen.single hbelow).tail hbetween
  have hconsistent : c.Consistent "x" flow (Facts.derive (guard .gt (number 0)) true) :=
    ⟨6, ⟨by decide, by decide⟩, by decide, by decide⟩
  obtain ⟨_, _, hzero⟩ := hguard _ _ hconsistent
  obtain ⟨_, _, hpositive⟩ := hzero rfl
  refine ⟨hb, hchain, hdepth _ hchain, rfl, rfl, rfl, ?_, ?_⟩
  · intro hraised
    obtain ⟨a, ha, hle⟩ := hraised 6 rfl
    cases ha
    revert hle
    decide
  · refine hpositive 6 _ rfl (by decide) rfl fun k hk => ?_
    cases hk
    decide

open Layered Annotated in
/-- Under `x > 5`, the weaker guard `x > -3` takes away the lower bound and the proof that `x` is not
zero: the division in the inner branch is rejected. A guard that says nothing about `x` leaves both. -/
theorem weaker_guard_replaces :
    let c := Checker.ofDeclarations {} true
    let weaker := guard .gt (.unary .neg (number 3) none)
    let before := c.lookup "x" flow
    let after := c.lookup "x" (flow.learn (Facts.derive weaker true))
    c.Consistent "x" flow (Facts.derive weaker true) ∧
      before.min = some 6 ∧ before.nonZero = true ∧ after.min = some (-2) ∧ after.nonZero = false ∧
      (program weaker).check true = .error ⟨.divisorMayBeZero, none⟩ ∧
      (program (.bool true none)).check true = .ok () := by
  intro c weaker before after
  exact ⟨⟨6, ⟨by decide, by decide⟩, by decide, by decide⟩, rfl, rfl, rfl, rfl, rfl, rfl⟩

end TuffSafety
