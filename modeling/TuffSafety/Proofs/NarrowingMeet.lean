import TuffSafety.Proofs.TypeJoin

/-!
# Narrowing as a meet

The numbers within the bounds of a narrowed type are those within the bounds of the type and of the
patch, as long as there is one; bounds that have no number in common are dropped. So a type that is
narrowed by one patch after the other depends only on which patches these are, not on their order or on
how often each of them comes, unless they contradict each other or the type. After a contradiction the
order matters: patches from before it are forgotten, and those behind it still narrow.
-/
namespace TuffSafety

/-- Both bounds of the patch allow the number. -/
structure Patch.Spans (p : Patch) (n : Int) : Prop where
  low : Bound.AtLeast p.min n
  high : Bound.AtMost p.max n

theorem Patch.spans_iff {p : Patch} {n : Int} :
    p.Spans n ↔ Bound.AtLeast p.min n ∧ Bound.AtMost p.max n :=
  ⟨fun h => ⟨h.low, h.high⟩, fun h => ⟨h.1, h.2⟩⟩

namespace TypeInfo

variable {t u v : TypeInfo} {p : Patch} {ps qs : List Patch} {n : Int}

/-- The types differ at most in their bounds and in what is known about zero. -/
structure SameButBounds (t u : TypeInfo) : Prop where
  name : t.name = u.name
  arrayInit : t.arrayInit = u.arrayInit
  arrayTotal : t.arrayTotal = u.arrayTotal
  unionTags : t.unionTags = u.unionTags
  nullablePointer : t.nullablePointer = u.nullablePointer

theorem SameButBounds.refl (t : TypeInfo) : t.SameButBounds t :=
  ⟨rfl, rfl, rfl, rfl, rfl⟩

theorem SameButBounds.symm (h : t.SameButBounds u) : u.SameButBounds t :=
  ⟨h.name.symm, h.arrayInit.symm, h.arrayTotal.symm, h.unionTags.symm, h.nullablePointer.symm⟩

theorem SameButBounds.trans (h : t.SameButBounds u) (h' : u.SameButBounds v) : t.SameButBounds v :=
  ⟨h.name.trans h'.name, h.arrayInit.trans h'.arrayInit, h.arrayTotal.trans h'.arrayTotal,
    h.unionTags.trans h'.unionTags, h.nullablePointer.trans h'.nullablePointer⟩

theorem SameButBounds.eq (h : t.SameButBounds u) (hmin : t.min = u.min) (hmax : t.max = u.max)
    (hzero : t.nonZero = u.nonZero) : t = u := by
  cases t
  cases u
  cases h
  simp_all

/-! ### Bounds as sets of numbers -/

theorem spans_congr (hmin : t.min = u.min) (hmax : t.max = u.max) : t.Spans n ↔ u.Spans n :=
  ⟨fun h => ⟨hmin ▸ h.low, hmax ▸ h.high⟩, fun h => ⟨hmin ▸ h.low, hmax ▸ h.high⟩⟩

theorem ordered_iff_exists_spans : t.Ordered ↔ ∃ n, t.Spans n := by
  constructor
  · intro h
    cases hmin : t.min with
    | none =>
      obtain ⟨n, -, hn⟩ := exists_spans_lt hmin 0
      exact ⟨n, hn⟩
    | some low => exact ⟨low, h.spans_min hmin⟩
  · rintro ⟨n, hn⟩
    exact hn.ordered

/-- Bounds in order are determined by the numbers within them. -/
theorem bounds_eq_of_spans_iff (ht : t.Ordered) (hu : u.Ordered) (h : ∀ n, t.Spans n ↔ u.Spans n) :
    t.min = u.min ∧ t.max = u.max := by
  have hsub : ∀ n, t.Spans n → u.Spans n := fun n => (h n).mp
  have hsup : ∀ n, u.Spans n → t.Spans n := fun n => (h n).mpr
  exact ⟨(hu.raised hsup).antisymm (ht.raised hsub), (hu.lowered hsup).antisymm (ht.lowered hsub)⟩

/-- Tighter bounds exclude zero where looser ones did. -/
theorem ExcludesZero.of_spans (h : t.ExcludesZero) (hu : u.Ordered)
    (hsub : ∀ n, u.Spans n → t.Spans n) : u.ExcludesZero := by
  obtain ⟨a, b, ha, hb, hside⟩ := h
  obtain ⟨a', ha', hlow⟩ := hu.raised hsub a ha
  obtain ⟨b', hb', hhigh⟩ := hu.lowered hsub b hb
  exact ⟨a', b', ha', hb', by omega⟩

/-! ### One patch -/

theorem base_eq_self (hp : p.nonNull = false) : t.base p = t := by
  unfold base
  rw [hp, if_neg Bool.false_ne_true]

theorem ordered_tightened_iff : (t.tightened p).Ordered ↔ ∃ n, t.Spans n ∧ p.Spans n := by
  simp only [ordered_iff_exists_spans, spans_tightened_iff, Patch.spans_iff]

theorem spans_narrow_iff (h : ∃ m, t.Spans m ∧ p.Spans m) :
    (t.narrow p).Spans n ↔ t.Spans n ∧ p.Spans n := by
  obtain ⟨hmin, hmax⟩ := narrow_bounds (ordered_tightened_iff.mpr h)
  have hbounds : (t.narrow p).Spans n ↔ (t.tightened p).Spans n := spans_congr hmin hmax
  rw [hbounds, spans_tightened_iff, Patch.spans_iff]

theorem narrow_dropped (h : ¬ ∃ m, t.Spans m ∧ p.Spans m) :
    (t.narrow p).min = none ∧ (t.narrow p).max = none := by
  rw [narrow_eq_normalize]
  exact normalize_dropped fun hordered => h (ordered_tightened_iff.mp hordered)

theorem nonZero_narrow_iff (hp : p.nonNull = false) :
    (t.narrow p).nonZero = true ↔
      t.nonZero = true ∨ p.nonZero = some true ∨ (t.narrow p).ExcludesZero := by
  rw [narrow_nonZero_iff, base_eq_self hp]

theorem sameButBounds_narrow (hp : p.nonNull = false) : (t.narrow p).SameButBounds t := by
  rw [narrow_eq_normalize, normalize_eq, tightened, base_eq_self hp]
  exact ⟨rfl, rfl, rfl, rfl, rfl⟩

/-! ### One patch after the other -/

def narrowAll (t : TypeInfo) (ps : List Patch) : TypeInfo :=
  ps.foldl narrow t

/-- Some number is within the bounds of the type and of all patches. -/
def HasRoom (t : TypeInfo) (ps : List Patch) : Prop :=
  ∃ n, t.Spans n ∧ ∀ p ∈ ps, p.Spans n

theorem HasRoom.head (h : t.HasRoom (p :: ps)) : ∃ n, t.Spans n ∧ p.Spans n := by
  obtain ⟨n, htn, hps⟩ := h
  exact ⟨n, htn, hps p List.mem_cons_self⟩

theorem HasRoom.narrow (h : t.HasRoom (p :: ps)) : (t.narrow p).HasRoom ps := by
  have hhead := h.head
  obtain ⟨n, htn, hps⟩ := h
  obtain ⟨hpn, hps⟩ := List.forall_mem_cons.mp hps
  exact ⟨n, (spans_narrow_iff hhead).mpr ⟨htn, hpn⟩, hps⟩

theorem spans_narrowAll_iff (h : t.HasRoom ps) :
    (t.narrowAll ps).Spans n ↔ t.Spans n ∧ ∀ p ∈ ps, p.Spans n := by
  induction ps generalizing t with
  | nil => simp [narrowAll]
  | cons p ps ih =>
    have hnext : t.narrowAll (p :: ps) = (t.narrow p).narrowAll ps := rfl
    rw [hnext, ih h.narrow, spans_narrow_iff h.head, List.forall_mem_cons, and_assoc]

theorem ordered_narrowAll (h : t.HasRoom ps) : (t.narrowAll ps).Ordered :=
  Exists.elim h fun _ hn => ((spans_narrowAll_iff h).mpr hn).ordered

/-- Zero is out if the type or one of the patches says so, or if the bounds that are left do. -/
theorem nonZero_narrowAll_iff (hps : ps ≠ []) (hnull : ∀ p ∈ ps, p.nonNull = false)
    (h : t.HasRoom ps) :
    (t.narrowAll ps).nonZero = true ↔
      t.nonZero = true ∨ (∃ p ∈ ps, p.nonZero = some true) ∨ (t.narrowAll ps).ExcludesZero := by
  induction ps generalizing t with
  | nil => exact absurd rfl hps
  | cons p ps ih =>
    have hnext : t.narrowAll (p :: ps) = (t.narrow p).narrowAll ps := rfl
    obtain ⟨hp, hnull⟩ := List.forall_mem_cons.mp hnull
    cases ps with
    | nil => simpa [narrowAll] using nonZero_narrow_iff hp
    | cons q ps =>
      -- What the first patch has excluded stays out, since the bounds only become tighter.
      have hfirst : (t.narrow p).ExcludesZero → (t.narrowAll (p :: q :: ps)).ExcludesZero := by
        intro hzero
        refine hzero.of_spans (ordered_narrowAll h) fun n hn => ?_
        rw [hnext, spans_narrowAll_iff h.narrow] at hn
        exact hn.1
      rw [hnext] at hfirst ⊢
      rw [ih (List.cons_ne_nil q ps) hnull h.narrow, nonZero_narrow_iff hp]
      grind

theorem sameButBounds_narrowAll (hnull : ∀ p ∈ ps, p.nonNull = false) :
    (t.narrowAll ps).SameButBounds t := by
  induction ps generalizing t with
  | nil => exact .refl t
  | cons p ps ih =>
    obtain ⟨hp, hnull⟩ := List.forall_mem_cons.mp hnull
    exact (ih hnull).trans (sameButBounds_narrow hp)

/-- Neither the order of patches that leave room for a number nor their repetition matters. -/
theorem narrowAll_eq_of_mem_iff (hnull : ∀ p ∈ ps, p.nonNull = false) (h : t.HasRoom ps)
    (hmem : ∀ p, p ∈ ps ↔ p ∈ qs) : t.narrowAll ps = t.narrowAll qs := by
  have hempty : ps = [] ↔ qs = [] := by
    simp only [List.eq_nil_iff_forall_not_mem, hmem]
  by_cases hps : ps = []
  · rw [hps, hempty.mp hps]
  · have hqs : qs ≠ [] := fun hqs => hps (hempty.mpr hqs)
    have hnull' : ∀ p ∈ qs, p.nonNull = false := fun p hp => hnull p ((hmem p).mpr hp)
    have h' : t.HasRoom qs := by
      simpa only [HasRoom, hmem] using h
    have hspans : ∀ n, (t.narrowAll ps).Spans n ↔ (t.narrowAll qs).Spans n := by
      intro n
      simp only [spans_narrowAll_iff h, spans_narrowAll_iff h', hmem]
    obtain ⟨hmin, hmax⟩ := bounds_eq_of_spans_iff (ordered_narrowAll h) (ordered_narrowAll h') hspans
    refine ((sameButBounds_narrowAll hnull).trans (sameButBounds_narrowAll hnull').symm).eq hmin hmax ?_
    rw [Bool.eq_iff_iff, nonZero_narrowAll_iff hps hnull h, nonZero_narrowAll_iff hqs hnull' h']
    unfold ExcludesZero
    simp only [hmem, hmin, hmax]

end TypeInfo

/-- Let a patch say nothing about null. If some number is within the bounds of a type and of the patch,
then the numbers within the narrowed bounds are exactly those within both; otherwise both bounds are
dropped. Zero is noted to be out if the type or the patch says so, or if both narrowed bounds are known
and leave it out. Nothing else of the type changes. So two patches that leave room for a number narrow
a type in either order to the same, and one that does so narrows it once and for all. -/
theorem narrow_exact_meet (t : TypeInfo) {p q : Patch} (hp : p.nonNull = false)
    (hq : q.nonNull = false) :
    ((∃ m, t.Spans m ∧ p.Spans m) → ∀ n, (t.narrow p).Spans n ↔ t.Spans n ∧ p.Spans n) ∧
    ((¬ ∃ m, t.Spans m ∧ p.Spans m) → (t.narrow p).min = none ∧ (t.narrow p).max = none) ∧
    ((t.narrow p).nonZero = true ↔
      t.nonZero = true ∨ p.nonZero = some true ∨ (t.narrow p).ExcludesZero) ∧
    (t.narrow p).SameButBounds t ∧
    ((∃ m, t.Spans m ∧ p.Spans m ∧ q.Spans m) → (t.narrow p).narrow q = (t.narrow q).narrow p) ∧
    ((∃ m, t.Spans m ∧ p.Spans m) → (t.narrow p).narrow p = t.narrow p) := by
  refine ⟨fun h n => TypeInfo.spans_narrow_iff h, TypeInfo.narrow_dropped,
    TypeInfo.nonZero_narrow_iff hp, TypeInfo.sameButBounds_narrow hp, ?_, ?_⟩
  · rintro ⟨m, htm, hpm, hqm⟩
    have hnull : ∀ r ∈ [p, q], r.nonNull = false := by simp [hp, hq]
    have hroom : t.HasRoom [p, q] := ⟨m, htm, by simp [hpm, hqm]⟩
    exact TypeInfo.narrowAll_eq_of_mem_iff hnull hroom fun r => (List.Perm.swap q p []).mem_iff
  · rintro ⟨m, htm, hpm⟩
    have hnull : ∀ r ∈ [p, p], r.nonNull = false := by simp [hp]
    have hroom : t.HasRoom [p, p] := ⟨m, htm, by simp [hpm]⟩
    have hmem : ∀ r, r ∈ [p, p] ↔ r ∈ [p] := by simp
    exact TypeInfo.narrowAll_eq_of_mem_iff hnull hroom hmem

/-- The guards `> 0` and `< 10` make a positive digit of an `I32` in either order, and a second guard
`> 0` adds nothing to the first. A guard `> 10` contradicts the digit and drops its bounds. -/
theorem narrow_exact_meet_digit :
    let int := TypeInfo.named "I32"
    let digit := (TypeInfo.bare "I32").withBounds (some 1) (some 9)
    ((int.narrow (.atLeast 1)).Spans 5 ∧ (int.narrow (.atLeast 1)).nonZero = true) ∧
      ((int.narrow (.atLeast 1)).narrow (.atMost 9) = digit ∧
        (int.narrow (.atMost 9)).narrow (.atLeast 1) = digit) ∧
      (int.narrow (.atLeast 1)).narrow (.atLeast 1) = int.narrow (.atLeast 1) ∧
      (digit.narrow (.atLeast 11)).min = none ∧ (digit.narrow (.atLeast 11)).max = none := by
  intro int digit
  have hint : int.Spans 5 := ⟨by decide, by decide⟩
  have hlow : (Patch.atLeast 1).Spans 5 := ⟨by decide, by decide⟩
  have hhigh : (Patch.atMost 9).Spans 5 := ⟨by decide, by decide⟩
  obtain ⟨hspans, -, hzero, -, hcomm, hidem⟩ :=
    narrow_exact_meet int (p := .atLeast 1) (q := .atMost 9) rfl rfl
  obtain ⟨-, hdropped, -⟩ := narrow_exact_meet digit (p := .atLeast 11) (q := .empty) rfl rfl
  have hdigit : (int.narrow (.atLeast 1)).narrow (.atMost 9) = digit := by decide
  refine ⟨⟨(hspans ⟨5, hint, hlow⟩ 5).mpr ⟨hint, hlow⟩, hzero.mpr (.inr (.inr ?_))⟩,
    ⟨hdigit, (hcomm ⟨5, hint, hlow, hhigh⟩).symm.trans hdigit⟩, hidem ⟨5, hint, hlow⟩, hdropped ?_⟩
  · exact ⟨1, 0x7fffffff, rfl, rfl, .inl (by decide)⟩
  · rintro ⟨m, hm, hm'⟩
    have hhigh := hm.high 9 rfl
    have hlow := hm'.low 11 rfl
    omega

-- Behind a contradiction the order matters: the patch that comes last still narrows.
example :
    let digit := (TypeInfo.bare "I32").withBounds (some 1) (some 9)
    (digit.narrow (.atLeast 11)).narrow (.atMost 5) ≠ (digit.narrow (.atMost 5)).narrow (.atLeast 11) := by
  decide

end TuffSafety
