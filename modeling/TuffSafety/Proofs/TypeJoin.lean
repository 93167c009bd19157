import Mathlib.Data.List.Perm.Basic
import TuffSafety.Proofs.NestedGuards

/-!
# Joining types

A type lies below another of the same name when it says at least as much: its bounds imply the bounds
of the other, it excludes zero where the other does, and its array lengths are at least as great. The
join of two types of one name is their least upper bound in this order. Nothing is in common between
different names, and what is joined to the unknown type has lost all its bounds, so that on what a join
is about (the outline of a type) joining is commutative, associative and idempotent without exception.
The type of a match is the join of the types of its arms, whose order therefore does not matter.
-/
namespace TuffSafety

namespace Bound

variable {a b c : Option Int}

theorem lesser_comm (a b : Option Int) : lesser a b = lesser b a := by
  cases a <;> cases b <;> simp [lesser, Int.min_comm]

theorem greater_comm (a b : Option Int) : greater a b = greater b a := by
  cases a <;> cases b <;> simp [greater, Int.max_comm]

theorem lesser_assoc (a b c : Option Int) : lesser (lesser a b) c = lesser a (lesser b c) := by
  cases a <;> cases b <;> cases c <;> simp [lesser, Int.min_assoc]

theorem greater_assoc (a b c : Option Int) : greater (greater a b) c = greater a (greater b c) := by
  cases a <;> cases b <;> cases c <;> simp [greater, Int.max_assoc]

theorem lesser_self (a : Option Int) : lesser a a = a := by
  cases a <;> simp [lesser]

theorem greater_self (a : Option Int) : greater a a = a := by
  cases a <;> simp [greater]

@[simp] theorem lesser_none (a : Option Int) : lesser a none = none := by
  cases a <;> rfl

@[simp] theorem greater_none (a : Option Int) : greater a none = none := by
  cases a <;> rfl

/-! The lesser of two lower bounds is the best one that both of them raise. -/

theorem raised_lesser_left (a b : Option Int) : Raised (lesser a b) a := by
  cases a with
  | none => exact raised_none none
  | some a =>
    cases b with
    | none => exact raised_none _
    | some b => exact raised_some.mpr (Int.min_le_left a b)

theorem raised_lesser_right (a b : Option Int) : Raised (lesser a b) b := by
  rw [lesser_comm]
  exact raised_lesser_left b a

theorem Raised.lesser (ha : Raised c a) (hb : Raised c b) : Raised c (Bound.lesser a b) := by
  intro m hm
  obtain ⟨k, rfl, hk⟩ := ha m hm
  obtain ⟨l, rfl, hl⟩ := hb m hm
  exact ⟨min k l, rfl, Int.le_min.mpr ⟨hk, hl⟩⟩

theorem Lowered.greater (ha : Lowered c a) (hb : Lowered c b) : Lowered c (Bound.greater a b) := by
  intro m hm
  obtain ⟨k, rfl, hk⟩ := ha m hm
  obtain ⟨l, rfl, hl⟩ := hb m hm
  exact ⟨max k l, rfl, Int.max_le.mpr ⟨hk, hl⟩⟩

end Bound

namespace TypeInfo

open TuffSafety.Bound (Raised Lowered)

variable {a b c : TypeInfo}

/-- Of two types of one name, the first says all that the second says. -/
structure Below (a b : TypeInfo) : Prop where
  name : a.name = b.name
  /-- The bounds of the second are implied by those of the first. -/
  bounds : ∀ n, a.Spans n → b.Spans n
  nonZero : b.nonZero = true → a.nonZero = true
  /-- A length that the second knows is at most that of the first. -/
  arrayInit : Raised b.arrayInit a.arrayInit
  arrayTotal : Raised b.arrayTotal a.arrayTotal

/-! ### Implied bounds -/

/-- Bounds in order leave room as far down as the lower one. -/
theorem Ordered.spans_min (h : a.Ordered) {low : Int} (hlow : a.min = some low) : a.Spans low := by
  refine ⟨?_, ?_⟩
  · rw [hlow]
    exact Bound.atLeast_some.mpr (Int.le_refl low)
  · intro high hhigh
    exact h low high hlow hhigh

theorem Ordered.spans_max (h : a.Ordered) {high : Int} (hhigh : a.max = some high) :
    a.Spans high := by
  refine ⟨?_, ?_⟩
  · intro low hlow
    exact h low high hlow hhigh
  · rw [hhigh]
    exact Bound.atMost_some.mpr (Int.le_refl high)

/-- Without a lower bound there is room below every number. -/
theorem exists_spans_lt (h : a.min = none) (m : Int) : ∃ n, n < m ∧ a.Spans n := by
  cases hmax : a.max with
  | none => exact ⟨m - 1, by omega, ⟨h ▸ Bound.atLeast_none _, hmax ▸ Bound.atMost_none _⟩⟩
  | some high =>
    refine ⟨Min.min high (m - 1), by omega, ⟨h ▸ Bound.atLeast_none _, ?_⟩⟩
    rw [hmax, Bound.atMost_some]
    exact Int.min_le_left high _

theorem exists_spans_gt (h : a.max = none) (m : Int) : ∃ n, m < n ∧ a.Spans n := by
  cases hmin : a.min with
  | none => exact ⟨m + 1, by omega, ⟨hmin ▸ Bound.atLeast_none _, h ▸ Bound.atMost_none _⟩⟩
  | some low =>
    refine ⟨Max.max low (m + 1), by omega, ⟨?_, h ▸ Bound.atMost_none _⟩⟩
    rw [hmin, Bound.atLeast_some]
    exact Int.le_max_left low _

/-- Bounds in order imply a lower bound only by a lower bound that is at least as great. -/
theorem Ordered.raised (h : a.Ordered) (hbounds : ∀ n, a.Spans n → b.Spans n) :
    Raised b.min a.min := by
  intro m hm
  cases hmin : a.min with
  | none =>
    -- Unbounded below, the first type spans a number that the second does not.
    obtain ⟨n, hlt, hn⟩ := exists_spans_lt hmin m
    exact absurd ((hbounds n hn).low m hm) (Int.not_le.mpr hlt)
  | some low => exact ⟨low, rfl, (hbounds low (h.spans_min hmin)).low m hm⟩

theorem Ordered.lowered (h : a.Ordered) (hbounds : ∀ n, a.Spans n → b.Spans n) :
    Lowered b.max a.max := by
  intro m hm
  cases hmax : a.max with
  | none =>
    obtain ⟨n, hlt, hn⟩ := exists_spans_gt hmax m
    exact absurd ((hbounds n hn).high m hm) (Int.not_le.mpr hlt)
  | some high => exact ⟨high, rfl, (hbounds high (h.spans_max hmax)).high m hm⟩

theorem spans_of_tighter (hlow : Raised b.min a.min) (hhigh : Lowered b.max a.max) {n : Int}
    (hn : a.Spans n) : b.Spans n := by
  refine ⟨?_, ?_⟩
  · intro m hm
    obtain ⟨low, hlow, hle⟩ := hlow m hm
    exact Int.le_trans hle (hn.low low hlow)
  · intro m hm
    obtain ⟨high, hhigh, hle⟩ := hhigh m hm
    exact Int.le_trans (hn.high high hhigh) hle

/-! ### Least upper bounds -/

theorem join_eq (h : a.name = b.name) :
    a.join b =
      { name := a.name
        min := Bound.lesser a.min b.min
        max := Bound.greater a.max b.max
        nonZero := a.nonZero && b.nonZero
        arrayInit := Bound.lesser a.arrayInit b.arrayInit
        arrayTotal := Bound.lesser a.arrayTotal b.arrayTotal
        unionTags := a.unionTags
        nullablePointer := a.nullablePointer <|> b.nullablePointer } :=
  if_pos h

theorem below_join_left (h : a.name = b.name) : a.Below (a.join b) := by
  rw [join_eq h]
  constructor
  · rfl
  · intro n hn
    exact ⟨Bound.atLeast_lesser (.inl hn.low), Bound.atMost_greater (.inl hn.high)⟩
  · intro hzero
    exact (Bool.and_eq_true_iff.mp hzero).1
  · exact Bound.raised_lesser_left a.arrayInit b.arrayInit
  · exact Bound.raised_lesser_left a.arrayTotal b.arrayTotal

theorem below_join_right (h : a.name = b.name) : b.Below (a.join b) := by
  rw [join_eq h]
  constructor
  · exact h.symm
  · intro n hn
    exact ⟨Bound.atLeast_lesser (.inr hn.low), Bound.atMost_greater (.inr hn.high)⟩
  · intro hzero
    exact (Bool.and_eq_true_iff.mp hzero).2
  · exact Bound.raised_lesser_right a.arrayInit b.arrayInit
  · exact Bound.raised_lesser_right a.arrayTotal b.arrayTotal

/-- An upper bound of both is above the join. Bounds that contradict each other would imply anything,
so they have to be in order. -/
theorem Below.join (ha : a.Ordered) (hb : b.Ordered) (hac : a.Below c) (hbc : b.Below c) :
    (a.join b).Below c := by
  rw [join_eq (hac.name.trans hbc.name.symm)]
  constructor
  · exact hac.name
  · intro n
    exact spans_of_tighter ((ha.raised hac.bounds).lesser (hb.raised hbc.bounds))
      ((ha.lowered hac.bounds).greater (hb.lowered hbc.bounds))
  · intro hzero
    exact Bool.and_eq_true_iff.mpr ⟨hac.nonZero hzero, hbc.nonZero hzero⟩
  · exact hac.arrayInit.lesser hbc.arrayInit
  · exact hac.arrayTotal.lesser hbc.arrayTotal

/-! ### Outlines -/

/-- What a join is about. -/
structure Outline where
  name : String
  min : Option Int := none
  max : Option Int := none
  nonZero : Bool := false
  arrayInit : Option Int := none
  arrayTotal : Option Int := none
deriving DecidableEq, Repr

def outline (t : TypeInfo) : Outline where
  name := t.name
  min := t.min
  max := t.max
  nonZero := t.nonZero
  arrayInit := t.arrayInit
  arrayTotal := t.arrayTotal

namespace Outline

/-- Nothing but the unknown name. -/
def blank : Outline where
  name := TypeName.unknown

/-- The fields of two outlines joined one by one, whatever the names. -/
def hull (name : String) (x y : Outline) : Outline where
  name
  min := Bound.lesser x.min y.min
  max := Bound.greater x.max y.max
  nonZero := x.nonZero && y.nonZero
  arrayInit := Bound.lesser x.arrayInit y.arrayInit
  arrayTotal := Bound.lesser x.arrayTotal y.arrayTotal

def join (x y : Outline) : Outline :=
  if x.name = y.name then hull x.name x y else blank

variable {x y z : Outline}

theorem hull_comm (name : String) (x y : Outline) : hull name x y = hull name y x := by
  rw [hull, hull, Bound.lesser_comm x.min, Bound.greater_comm, Bool.and_comm,
    Bound.lesser_comm x.arrayInit, Bound.lesser_comm x.arrayTotal]

theorem hull_assoc (name left right : String) (x y z : Outline) :
    hull name (hull left x y) z = hull name x (hull right y z) := by
  simp only [hull, Bound.lesser_assoc, Bound.greater_assoc, Bool.and_assoc]

theorem hull_blank (x : Outline) : hull TypeName.unknown x blank = blank := by
  simp only [hull, blank, Bound.lesser_none, Bound.greater_none, Bool.and_false]

theorem join_of_eq (h : x.name = y.name) : x.join y = hull x.name x y :=
  if_pos h

theorem join_of_ne (h : x.name ≠ y.name) : x.join y = blank :=
  if_neg h

theorem join_comm (x y : Outline) : x.join y = y.join x := by
  by_cases h : x.name = y.name
  · rw [join_of_eq h, join_of_eq h.symm, h, hull_comm]
  · rw [join_of_ne h, join_of_ne (Ne.symm h)]

theorem join_self (x : Outline) : x.join x = x := by
  rw [join_of_eq rfl, hull, Bound.lesser_self, Bound.greater_self, Bool.and_self,
    Bound.lesser_self, Bound.lesser_self]

/-- Also an outline of the unknown name keeps nothing when it is joined to the blank one. -/
theorem join_blank (x : Outline) : x.join blank = blank := by
  by_cases h : x.name = blank.name
  · rw [join_of_eq h, h]
    exact hull_blank x
  · exact join_of_ne h

theorem blank_join (x : Outline) : blank.join x = blank := by
  rw [join_comm, join_blank]

/-- Outlines of one name are joined field by field; as soon as two names differ, both groupings end
at the blank outline. -/
theorem join_assoc (x y z : Outline) : (x.join y).join z = x.join (y.join z) := by
  by_cases hxy : x.name = y.name
  · by_cases hyz : y.name = z.name
    · rw [join_of_eq hxy, join_of_eq hyz]
      have hleft : (hull x.name x y).name = z.name := hxy.trans hyz
      have hright : x.name = (hull y.name y z).name := hxy
      rw [join_of_eq hleft, join_of_eq hright]
      exact hull_assoc x.name x.name y.name x y z
    · have hleft : (x.join y).name ≠ z.name := by
        rw [join_of_eq hxy]
        exact fun h => hyz (hxy.symm.trans h)
      rw [join_of_ne hleft, join_of_ne hyz, join_blank]
  · rw [join_of_ne hxy, blank_join]
    by_cases hyz : y.name = z.name
    · have hright : x.name ≠ (y.join z).name := by
        rw [join_of_eq hyz]
        exact hxy
      rw [join_of_ne hright]
    · rw [join_of_ne hyz, join_blank]

instance : Std.Commutative join := ⟨join_comm⟩

instance : Std.Associative join := ⟨join_assoc⟩

end Outline

theorem outline_join (a b : TypeInfo) : (a.join b).outline = a.outline.join b.outline := by
  by_cases h : a.name = b.name
  · have houtline : a.outline.name = b.outline.name := h
    rw [join_eq h, Outline.join_of_eq houtline]
    rfl
  · have houtline : a.outline.name ≠ b.outline.name := h
    rw [join, if_neg h, Outline.join_of_ne houtline]
    rfl

/-! ### Joining many types -/

/-- The join of types from left to right. -/
def joinAll : List TypeInfo → TypeInfo
  | [] => unknown
  | t :: ts => ts.foldl join t

theorem outline_foldl_join (ts : List TypeInfo) (t : TypeInfo) :
    (ts.foldl join t).outline = (ts.map outline).foldl Outline.join t.outline := by
  induction ts generalizing t with
  | nil => rfl
  | cons u ts ih => rw [List.foldl_cons, ih, outline_join, List.map_cons, List.foldl_cons]

theorem outline_joinAll_perm {ts us : List TypeInfo} (h : ts.Perm us) :
    (joinAll ts).outline = (joinAll us).outline := by
  induction h with
  | nil => rfl
  | cons t h _ =>
    -- The induction hypothesis is about lists without a start, so the fold is permuted as a whole.
    rw [joinAll, joinAll, outline_foldl_join, outline_foldl_join]
    exact (h.map outline).foldl_op_eq
  | swap t u ts =>
    rw [joinAll, joinAll, List.foldl_cons, List.foldl_cons, outline_foldl_join, outline_foldl_join,
      outline_join, outline_join, Outline.join_comm]
  | trans _ _ ih ih' => exact ih.trans ih'

end TypeInfo

/-! ### Matches -/

namespace Checker

/-- The cases of a match are accepted one after the other, each with its type. -/
inductive ArmTypes (c : Checker) (loc : Option Loc) (ret : Option TypeInfo) :
    List MatchCase → Flow → List TypeInfo → Flow → Prop where
  | nil {flow : Flow} : ArmTypes c loc ret [] flow [] flow
  | cons {pattern : Pattern} {body : Expr} {cs : List MatchCase} {flow mid flow' : Flow}
      {t : TypeInfo} {ts : List TypeInfo}
      (arm : c.matchArm pattern loc (c.expr body ret) flow = .ok (t, mid))
      (later : ArmTypes c loc ret cs mid ts flow') :
      ArmTypes c loc ret (⟨pattern, body⟩ :: cs) flow (t :: ts) flow'

variable {c : Checker} {loc : Option Loc} {ret : Option TypeInfo} {flow flow' : Flow} {t : TypeInfo}

/-- The types of the remaining cases are joined to what was joined so far, if anything was. -/
theorem matchCases_ok {cs : List MatchCase} {joined : Option TypeInfo}
    (h : c.matchCases loc cs ret joined flow = .ok (t, flow')) :
    ∃ ts, ArmTypes c loc ret cs flow ts flow' ∧ t = TypeInfo.joinAll (joined.toList ++ ts) := by
  induction cs generalizing joined flow with
  | nil =>
    rw [matchCases] at h
    cases h
    refine ⟨[], .nil, ?_⟩
    cases joined <;> rfl
  | cons arm cs ih =>
    obtain ⟨pattern, body⟩ := arm
    obtain ⟨info, mid, harm, hlater⟩ := matchCases_cons_ok h
    obtain ⟨ts, hts, rfl⟩ := ih hlater
    refine ⟨info :: ts, .cons harm hts, ?_⟩
    cases joined <;> rfl

theorem matchOn_ok {target : Expr} {cs : List MatchCase}
    (h : c.expr (.matchOn target cs loc) ret flow = .ok (t, flow')) :
    ∃ info mid, c.expr target ret flow = .ok (info, mid) ∧
      c.matchCases loc cs ret none mid = .ok (t, flow') := by
  rw [expr] at h
  obtain ⟨⟨info, mid⟩, htarget, h⟩ := bind_eq_ok.mp h
  obtain ⟨_, _, h⟩ := bind_eq_ok.mp h
  exact ⟨info, mid, htarget, h⟩

end Checker

/-- The join of two types of one name is their least upper bound. On outlines, names that differ
included, joining is commutative, associative and idempotent. So the outline of a joined list does not
depend on its order, and the type of a match is the joined list of the types of its arms. -/
theorem join_least_upper_bound :
    (∀ a b : TypeInfo, a.Ordered → b.Ordered → a.name = b.name →
      (a.join b).Ordered ∧ a.Below (a.join b) ∧ b.Below (a.join b) ∧
        ∀ c : TypeInfo, a.Below c → b.Below c → (a.join b).Below c) ∧
    (∀ a b : TypeInfo, (a.join b).outline = (b.join a).outline) ∧
    (∀ a b c : TypeInfo, ((a.join b).join c).outline = (a.join (b.join c)).outline) ∧
    (∀ a : TypeInfo, (a.join a).outline = a.outline) ∧
    (∀ ts us : List TypeInfo, ts.Perm us →
      (TypeInfo.joinAll ts).outline = (TypeInfo.joinAll us).outline) ∧
    ∀ (c : Checker) (target : Expr) (cs : List MatchCase) (loc : Option Loc)
      (ret : Option TypeInfo) (flow flow' : Flow) (t : TypeInfo),
      c.expr (.matchOn target cs loc) ret flow = .ok (t, flow') →
      ∃ info mid ts, c.expr target ret flow = .ok (info, mid) ∧
        c.ArmTypes loc ret cs mid ts flow' ∧ t = TypeInfo.joinAll ts := by
  refine ⟨?_, ?_, ?_, ?_, fun ts us => TypeInfo.outline_joinAll_perm, ?_⟩
  · intro a b ha hb hname
    exact ⟨ha.join, TypeInfo.below_join_left hname, TypeInfo.below_join_right hname,
      fun c => TypeInfo.Below.join ha hb⟩
  · intro a b
    rw [TypeInfo.outline_join, TypeInfo.outline_join, TypeInfo.Outline.join_comm]
  · intro a b c
    simp only [TypeInfo.outline_join, TypeInfo.Outline.join_assoc]
  · intro a
    rw [TypeInfo.outline_join, TypeInfo.Outline.join_self]
  · intro c target cs loc ret flow flow' t h
    obtain ⟨info, mid, htarget, hcases⟩ := Checker.matchOn_ok h
    obtain ⟨ts, hts, rfl⟩ := Checker.matchCases_ok hcases
    exact ⟨info, mid, ts, htarget, hts, rfl⟩

namespace Sizes

def decls : Declarations :=
  .ofStatements []

/-- The cases `Small => 1, Medium => 5, Large => 9`. -/
def cases : List MatchCase :=
  [⟨.name "Small", .number 1 none none⟩, ⟨.name "Medium", .number 5 none none⟩,
    ⟨.name "Large", .number 9 none none⟩]

/-- A positive number of one digit. -/
def digit : TypeInfo :=
  (TypeInfo.bare "I32").withBounds (some 1) (some 9)

end Sizes

/-- The numbers one and five join below every positive digit, and a match over three sizes has the
outline of its arms in any other order. -/
theorem join_least_upper_bound_sizes :
    ((TypeInfo.literal "I32" 1).join (.literal "I32" 5)).Below Sizes.digit ∧
      ∃ ts, (Checker.ofDeclarations Sizes.decls true).ArmTypes none none Sizes.cases
          { scope := .empty } ts { scope := .empty } ∧
        (TypeInfo.joinAll ts.reverse).outline = Sizes.digit.outline := by
  obtain ⟨hlub, -, -, -, hperm, hmatch⟩ := join_least_upper_bound
  refine ⟨?_, ?_⟩
  · have hbelow : ∀ n : Int, 1 ≤ n → n ≤ 9 → (TypeInfo.literal "I32" n).Below Sizes.digit := by
      intro n hlow hhigh
      refine ⟨rfl, fun m hm => ?_, fun _ => ?_, Bound.raised_none _, Bound.raised_none _⟩
      · have hle := hm.low n rfl
        have hge := hm.high n rfl
        exact ⟨Bound.atLeast_some.mpr (by omega), Bound.atMost_some.mpr (by omega)⟩
      · exact bne_iff_ne.mpr (by omega)
    obtain ⟨-, -, -, hleast⟩ := hlub (.literal "I32" 1) (.literal "I32" 5)
      (fun a b ha hb => by cases ha; cases hb; decide)
      (fun a b ha hb => by cases ha; cases hb; decide) rfl
    exact hleast Sizes.digit (hbelow 1 (by decide) (by decide)) (hbelow 5 (by decide) (by decide))
  · obtain ⟨info, mid, ts, htarget, harms, hjoin⟩ :=
      hmatch (.ofDeclarations Sizes.decls true) (.number 0 none none) Sizes.cases none none
        { scope := .empty } { scope := .empty } Sizes.digit rfl
    cases htarget
    refine ⟨ts, harms, ?_⟩
    rw [hperm ts.reverse ts ts.reverse_perm, ← hjoin]

end TuffSafety
