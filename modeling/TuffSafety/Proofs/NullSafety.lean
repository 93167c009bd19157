import TuffSafety.Proofs.KnownTypes
import TuffSafety.Proofs.Pointers

/-!
# Null pointers

Expressions over pointers are evaluated on a heap of objects; a member of the null pointer is a trap
that names the object expression. The checker refuses members of nullable pointers, and a guard
against null makes a plain pointer of one. So null is a value of nullable types only, as long as the
check follows the types. It loses them in two ways: the unknown type comes up, whose members are not
refused, or an `if` without `else` has a nullable branch, which its own type does not say. A trap can
only be at an object in whose check one of the two has happened.
-/
namespace TuffSafety

/-! ### Types and values -/

namespace TypeInfo

theorem isNullable_eq_false {t : TypeInfo} : t.isNullable = false ↔ t.nullablePointer = none := by
  unfold isNullable
  cases t.nullablePointer <;> simp

end TypeInfo

/-- The declaration behind a type name is that of the object. -/
structure Heap.Named (heap : Heap) (c : Checker) (name : String) (id : Nat) : Prop where
  notArray : name ≠ "Array"
  struct : ∀ decl, c.decls.structs.get? (Checker.pointee name) = some decl →
    c.decls.structs.get? (heap.shape id) = some decl

/-- A value of a type. Of an object behind a nullable pointer nothing is said. -/
def TypeInfo.Shows (c : Checker) (heap : Heap) (t : TypeInfo) : Datum → Prop
  | .null => t.isNullable = true
  | .object id => t.isNullable = false → heap.Named c t.name id
  | _ => True

/-- A value of a variable that is a pointer, nullable or not. -/
structure TypeInfo.Points (c : Checker) (heap : Heap) (t : TypeInfo) (d : Datum) : Prop where
  null : d = .null → t.isNullable = true
  object : ∀ id, d = .object id → heap.Named c t.withoutNull.name id

/-- The fields of the objects have values of their declared types, if those are known. -/
def Heap.Fits (heap : Heap) (c : Checker) : Prop :=
  ∀ id decl f property d, c.decls.structs.get? (heap.shape id) = some decl →
    decl.field? property = some f → heap.field id property = some d →
    (c.decls.resolve f.type).isUnknown = false → (c.decls.resolve f.type).Shows c heap d

/-- The variables with values are bound to pointers, and those known not to be null are not. -/
structure Flow.Sees (c : Checker) (heap : Heap) (vars : Pointers) (flow : Flow) : Prop where
  bound : ∀ name d, vars name = some d →
    ∃ b, flow.scope.get? name = some b ∧ b.current.Points c heap d
  notNull : ∀ name p, flow.facts.get? name = some p → p.nonNull = true → vars name ≠ some .null

section

variable {c : Checker} {heap : Heap} {vars : Pointers}

namespace TypeInfo

variable {t u : TypeInfo} {d : Datum}

theorem Shows.congr (h : t.Shows c heap d) (hname : u.name = t.name)
    (hnull : u.nullablePointer = t.nullablePointer) : u.Shows c heap d := by
  cases d with
  | null =>
    change u.nullablePointer.isSome = true
    rw [hnull]
    exact h
  | object id =>
    intro hnullable
    rw [hname]
    apply h
    rwa [isNullable, ← hnull]
  | array | bool | scalar => trivial

theorem Points.shows (h : t.Points c heap d) : t.Shows c heap d := by
  cases d with
  | null => exact h.null rfl
  | object id =>
    intro hnullable
    have hnamed := h.object id rfl
    rwa [withoutNull_eq_self (isNullable_eq_false.mp hnullable)] at hnamed
  | array | bool | scalar => trivial

theorem Points.withoutNull_shows (h : t.Points c heap d) (hd : d ≠ .null) :
    t.withoutNull.Shows c heap d := by
  cases d with
  | null => exact absurd rfl hd
  | object id => exact fun _ => h.object id rfl
  | array | bool | scalar => trivial

theorem Points.narrow_shows (h : t.Points c heap d) {p : Patch} (hp : p.nonNull = true → d ≠ .null) :
    (t.narrow p).Shows c heap d := by
  cases hnonNull : p.nonNull with
  | true =>
    refine (h.withoutNull_shows (hp hnonNull)).congr ?_ ?_
    · rw [narrow_name, hnonNull, if_pos rfl]
    · rw [narrow_nullablePointer, hnonNull, if_pos rfl]
  | false =>
    refine h.shows.congr ?_ ?_
    · rw [narrow_name, hnonNull, if_neg (by decide)]
    · rw [narrow_nullablePointer, hnonNull, if_neg (by decide)]

/-- A value of either of two types of one name. -/
theorem shows_join {a b : TypeInfo} (hname : a.name = b.name)
    (h : a.Shows c heap d ∨ b.Shows c heap d) : (a.join b).Shows c heap d := by
  rw [join, if_pos hname]
  cases d with
  | null =>
    change (a.nullablePointer <|> b.nullablePointer).isSome = true
    rcases h with h | h
    · obtain ⟨pointer, hpointer⟩ := Option.isSome_iff_exists.mp h
      rw [hpointer]
      rfl
    · obtain ⟨pointer, hpointer⟩ := Option.isSome_iff_exists.mp h
      rw [hpointer]
      cases a.nullablePointer <;> rfl
  | object id =>
    intro hnullable
    obtain ⟨ha, hb⟩ : a.nullablePointer = none ∧ b.nullablePointer = none := by
      simpa using isNullable_eq_false.mp hnullable
    rcases h with h | h
    · exact h (isNullable_eq_false.mpr ha)
    · rw [hname]
      exact h (isNullable_eq_false.mpr hb)
  | array | bool | scalar => trivial

end TypeInfo

theorem Checker.lookup_shows {flow : Flow} (h : flow.Sees c heap vars) {name : String} {d : Datum}
    (hd : vars name = some d) : (c.lookup name flow).Shows c heap d := by
  obtain ⟨b, hb, hpoints⟩ := h.bound name d hd
  rw [lookup, hb]
  dsimp only
  split
  · rename_i p hp
    refine hpoints.narrow_shows fun hnonNull hnull => ?_
    exact h.notNull name p hp hnonNull (hnull ▸ hd)
  · exact hpoints.shows

theorem Checker.member_shows {t u : TypeInfo} {object : Expr} {property : String} {loc : Option Loc}
    {d d' : Datum} (hstrict : c.strict = true) (hheap : heap.Fits c) (hshows : u.Shows c heap d)
    (h : c.member u property loc = .ok t) (ht : t.isUnknown = false)
    (hd : d.member heap object property = .ok d') : t.Shows c heap d' := by
  cases d with
  | null | bool | scalar => cases hd
  | array =>
    rw [Datum.member] at hd
    split at hd
    · cases hd
      trivial
    · cases hd
  | object id =>
    rw [member, hstrict] at h
    split at h
    · cases h
    rename_i hnullable
    have hnamed := hshows (eq_false_of_ne_true hnullable)
    split at h
    · rename_i harray
      exact absurd (of_decide_eq_true (Bool.and_eq_true_iff.mp harray).2) hnamed.notArray
    split at h
    · rename_i decl hdecl
      rw [field] at h
      split at h
      · rename_i f hf
        cases h
        rw [Datum.member] at hd
        split at hd
        · rename_i value hvalue
          cases hd
          exact hheap id decl f property _ (hnamed.struct decl hdecl) hf hvalue ht
        · cases hd
      · cases h
    · cases h
      cases ht

/-! ### Guards against null -/

namespace Facts

theorem nonNull_ofComparison? {op : BinaryOp} {n : Int} {p : Patch}
    (h : Patch.ofComparison? op n = some p) : p.nonNull = false := by
  cases op <;> simp [Patch.ofComparison?] at h
  case ne => rw [← h.2]; rfl
  all_goals
    rw [← h]
    rfl

/-- Only a comparison with the null literal tells that a pointer is not null. -/
theorem ofComparison_nonNull {left right : Expr} {op : BinaryOp} {e : String × Patch}
    (he : e ∈ ofComparison left op right) (hnonNull : e.2.nonNull = true) :
    op = .ne ∧ ((∃ loc, left = .ident e.1 loc) ∧ right.isNullLiteral = true ∨
      left.isNullLiteral = true ∧ ∃ loc, right = .ident e.1 loc) := by
  rcases mem_ofComparison he with ⟨_, m, _, _, hp⟩ | ⟨_, hoperands⟩
  · cases (nonNull_ofComparison? hp).symm.trans hnonNull
  · exact hoperands

/-- Both operands of such a comparison are null when the pointer is. -/
theorem access_null {left right : Expr} {name : String} (hname : vars name = some .null)
    (h : (∃ loc, left = .ident name loc) ∧ right.isNullLiteral = true ∨
      left.isNullLiteral = true ∧ ∃ loc, right = .ident name loc) :
    left.access vars heap = .ok .null ∧ right.access vars heap = .ok .null := by
  rcases h with ⟨⟨loc, rfl⟩, hnull⟩ | ⟨hnull, loc, rfl⟩
  · exact ⟨Expr.access_ident hname loc, Expr.access_nullLiteral hnull⟩
  · exact ⟨Expr.access_nullLiteral hnull, Expr.access_ident hname loc⟩

theorem cumulative_notNull (vars : Pointers) :
    Cumulative fun name p => p.nonNull = true → vars name ≠ some .null :=
  ⟨fun _ h => (by cases h), fun hp hq h => (Bool.or_eq_true_iff.mp h).elim hp hq⟩

theorem derive_notNull {cond : Expr} {truth : Bool}
    (h : cond.access vars heap = .ok (.bool truth)) :
    ∀ name p, (derive cond truth).get? name = some p → p.nonNull = true → vars name ≠ some .null := by
  refine (cumulative_notNull vars).addAll (fun _ _ hget => by cases hget) ?_
  refine learned_forall (R := fun cond truth => cond.access vars heap = .ok (.bool truth))
    (Q := fun name p => p.nonNull = true → vars name ≠ some .null)
    Datum.operands_of_shortCircuit Datum.operands_of_shortCircuit ?_ ?_ cond truth h
  · intro op left right loc _ _ h e he hnonNull hnull
    obtain ⟨rfl, hoperands⟩ := ofComparison_nonNull he hnonNull
    obtain ⟨hl, hr⟩ := access_null hnull hoperands
    rw [Expr.access, hl, hr] at h
    cases h
  · intro op op' left right loc _ _ hop h e he hnonNull hnull
    obtain ⟨rfl, hoperands⟩ := ofComparison_nonNull he hnonNull
    obtain ⟨hl, hr⟩ := access_null hnull hoperands
    cases op <;> cases hop
    rw [Expr.access, hl, hr] at h
    cases h

end Facts

namespace Flow.Sees

variable {flow flow' : Flow}

theorem of_moves (h : flow.Sees c heap vars) {P : String → Prop} (hm : flow.Moves P flow')
    (hP : ∀ name, ¬ P name) : flow'.Sees c heap vars := by
  constructor
  · intro name d hd
    rw [hm.get?_eq (hP name)]
    exact h.bound name d hd
  · intro name p hget
    rw [hm.facts_eq (hP name)] at hget
    exact h.notNull name p hget

theorem learn (h : flow.Sees c heap vars) {learned : Facts}
    (hl : ∀ name p, learned.get? name = some p → p.nonNull = true → vars name ≠ some .null) :
    (flow.learn learned).Sees c heap vars :=
  ⟨h.bound, (Facts.cumulative_notNull vars).merge h.notNull hl⟩

theorem under (h : flow.Sees c heap vars) {learned : Facts}
    (hl : ∀ name p, learned.get? name = some p → p.nonNull = true → vars name ≠ some .null) :
    (flow.under learned).Sees c heap vars :=
  ⟨h.bound, (Facts.cumulative_notNull vars).merge h.notNull hl⟩

end Flow.Sees

end

/-! ### Traps -/

/-- An `if` without `else` whose branch is nullable. Its type does not say so. -/
inductive DropsNull (c : Checker) : Visit → Prop where
  | mk {cond t loc ret flow tested mid thenInfo after} (hc : c.expr cond ret flow = .ok (tested, mid))
      (ht : Checker.nested (Facts.derive cond true) (c.expr t ret) mid = .ok (thenInfo, after))
      (h : thenInfo.isNullable = true) : DropsNull c ⟨.expr (.ite cond t none loc), ret, flow⟩

/-- The check loses neither a type nor that a pointer may be null. -/
structure Followed (c : Checker) (v : Visit) : Prop where
  tracked : Tracked c v
  keepsNull : ∀ w, Reaches c v w → ¬ DropsNull c w

namespace Followed

variable {c : Checker} {v w : Visit}

theorem of_reaches (h : Followed c v) (hr : Reaches c v w) : Followed c w :=
  ⟨h.tracked.of_reaches hr, fun x hx => h.keepsNull x (hr.trans hx)⟩

theorem step (h : Followed c v) (hl : Leads c v w) : Followed c w :=
  h.of_reaches (.single hl)

theorem of_leads (htracked : ¬ Untracked c v) (hkeeps : ¬ DropsNull c v)
    (hnext : ∀ w, Leads c v w → Followed c w) : Followed c v := by
  constructor
  · intro w hw
    rcases hw.cases_head with rfl | ⟨u, hl, hw⟩
    · exact htracked
    · exact (hnext u hl).tracked w hw
  · intro w hw
    rcases hw.cases_head with rfl | ⟨u, hl, hw⟩
    · exact hkeeps
    · exact (hnext u hl).keepsNull w hw

end Followed

/-- The check comes to a member of the object, and it has not followed the type of the object. -/
def Unexplained (c : Checker) (v : Visit) (object : Expr) : Prop :=
  ∃ property loc ret flow, Reaches c v ⟨.expr (.member object property loc), ret, flow⟩ ∧
    ¬ Followed c ⟨.expr object, ret, flow⟩

theorem Unexplained.of_leads {c : Checker} {v w : Visit} {object : Expr} (h : Unexplained c w object)
    (hl : Leads c v w) : Unexplained c v object := by
  obtain ⟨property, loc, ret, flow, hreach, hobject⟩ := h
  exact ⟨property, loc, ret, flow, .head hl hreach, hobject⟩

theorem BinaryOp.isLogical_of_and_or (op : BinaryOp) (h : op = .and ∨ op = .or) :
    op.isLogical = true := by
  rcases h with rfl | rfl <;> rfl

/-- What the check of an expression says about its evaluation. -/
structure Accounts (c : Checker) (heap : Heap) (v : Visit) (t : TypeInfo) (r : Except Trap Datum) :
    Prop where
  value : ∀ d, r = .ok d → Followed c v → t.Shows c heap d
  nullAccess : ∀ object, r = .error (.nullAccess object) → Unexplained c v object

namespace Accounts

variable {c : Checker} {heap : Heap} {vars : Pointers} {flow flow' : Flow} {ret : Option TypeInfo}
  {t : TypeInfo}

theorem of_ok {v : Visit} {d : Datum} (h : Followed c v → t.Shows c heap d) :
    Accounts c heap v t (.ok d) := by
  constructor
  · intro d' hd
    cases hd
    exact h
  · intro object hobject
    cases hobject

theorem of_trap {v : Visit} {trap : Trap}
    (h : ∀ object, trap = .nullAccess object → Unexplained c v object) :
    Accounts c heap v t (.error trap) := by
  constructor
  · intro d hd
    cases hd
  · intro object hobject
    cases hobject
    exact h object rfl

theorem undefined {v : Visit} : Accounts c heap v t (.error .undefined) :=
  of_trap fun object hobject => by cases hobject

theorem ident {name : String} {loc : Option Loc} (hsees : flow.Sees c heap vars)
    (h : c.expr (.ident name loc) ret flow = .ok (t, flow')) :
    Accounts c heap ⟨.expr (.ident name loc), ret, flow⟩ t ((Expr.ident name loc).access vars heap) := by
  cases h
  rw [Expr.access]
  cases hd : vars name with
  | none => exact .undefined
  | some d => exact of_ok fun _ => Checker.lookup_shows hsees hd

/-- Names and numbers are evaluated without an access. -/
theorem comparison {v : Visit} {op : BinaryOp} {left right : Expr} {loc : Option Loc}
    (hop : op = .eq ∨ op = .ne)
    (hleft : ∀ object, left.access vars heap ≠ .error (.nullAccess object))
    (hright : ∀ object, right.access vars heap ≠ .error (.nullAccess object)) :
    Accounts c heap v t ((Expr.binary op left right loc).access vars heap) := by
  obtain ⟨wanted, hcompare⟩ : ∃ wanted, (Expr.binary op left right loc).access vars heap =
      Datum.compare wanted (left.access vars heap) (right.access vars heap) := by
    rcases hop with rfl | rfl
    · exact ⟨true, by rw [Expr.access]⟩
    · exact ⟨false, by rw [Expr.access]⟩
  rw [hcompare]
  constructor
  · intro d hd _
    obtain ⟨b, rfl⟩ := Datum.bool_of_compare hd
    trivial
  · intro object hobject
    rcases Datum.nullAccess_of_compare hobject with hl | hr
    · exact absurd hl (hleft object)
    · exact absurd hr (hright object)

theorem logical {op : BinaryOp} {left right : Expr} {loc : Option Loc} {l r : TypeInfo}
    {mid : Flow} (hop : op = .and ∨ op = .or) (hl : c.expr left ret flow = .ok (l, mid))
    (hleft : Accounts c heap ⟨.expr left, ret, flow⟩ l (left.access vars heap))
    (hright : left.access vars heap = .ok (.bool (decide (op = .and))) →
      Accounts c heap ⟨.expr right, ret, mid.learn (Facts.derive left (op = .and))⟩ r
        (right.access vars heap)) :
    Accounts c heap ⟨.expr (.binary op left right loc), ret, flow⟩ t
      ((Expr.binary op left right loc).access vars heap) := by
  have hshort : (Expr.binary op left right loc).access vars heap =
      Datum.shortCircuit (op = .and) (left.access vars heap) (right.access vars heap) := by
    rcases hop with rfl | rfl
    · rw [Expr.access]
      rfl
    · rw [Expr.access]
      rfl
  rw [hshort]
  constructor
  · intro d hd _
    obtain ⟨b, rfl⟩ := Datum.bool_of_shortCircuit hd
    trivial
  · intro object hobject
    rcases Datum.nullAccess_of_shortCircuit hobject with ho | ⟨hneeds, ho⟩
    · exact (hleft.nullAccess object ho).of_leads .left
    · exact ((hright hneeds).nullAccess object ho).of_leads (.guarded (op.isLogical_of_and_or hop) hl)

/-- A branch that is taken accounts for the whole. -/
theorem branch {v w : Visit} {u : TypeInfo} {r : Except Trap Datum} (h : Accounts c heap w u r)
    (hl : Leads c v w) (hshows : Followed c v → ∀ d, u.Shows c heap d → t.Shows c heap d) :
    Accounts c heap v t r :=
  ⟨fun d hd hfollowed => hshows hfollowed d (h.value d hd (hfollowed.step hl)),
    fun object hobject => (h.nullAccess object hobject).of_leads hl⟩

theorem ite {cond thenBranch : Expr} {elseBranch : Option Expr} {loc : Option Loc} {tested : TypeInfo}
    (hcond : Accounts c heap ⟨.expr cond, ret, flow⟩ tested (cond.access vars heap))
    (hthen : cond.access vars heap = .ok (.bool true) →
      Accounts c heap ⟨.expr (.ite cond thenBranch elseBranch loc), ret, flow⟩ t
        (thenBranch.access vars heap))
    (helse : ∀ e ∈ elseBranch, cond.access vars heap = .ok (.bool false) →
      Accounts c heap ⟨.expr (.ite cond thenBranch elseBranch loc), ret, flow⟩ t
        (e.access vars heap)) :
    Accounts c heap ⟨.expr (.ite cond thenBranch elseBranch loc), ret, flow⟩ t
      ((Expr.ite cond thenBranch elseBranch loc).access vars heap) := by
  obtain ⟨elseValue, hite, helseValue⟩ : ∃ elseValue,
      (Expr.ite cond thenBranch elseBranch loc).access vars heap =
        Datum.branch (cond.access vars heap) (thenBranch.access vars heap) elseValue ∧
      (elseValue = .error .undefined ∨ ∃ e ∈ elseBranch, elseValue = e.access vars heap) := by
    cases elseBranch with
    | none => exact ⟨_, by rw [Expr.access], .inl rfl⟩
    | some e => exact ⟨_, by rw [Expr.access], .inr ⟨e, rfl, rfl⟩⟩
  rw [hite]
  rcases Datum.branch_cases (cond.access vars heap) (thenBranch.access vars heap) elseValue with
    ⟨trap, htrap, h⟩ | h | ⟨htrue, h⟩ | ⟨hfalse, h⟩
  · rw [h]
    refine of_trap fun object hobject => ?_
    rw [hobject] at htrap
    exact (hcond.nullAccess object htrap).of_leads .condition
  · rw [h]
    exact .undefined
  · rw [h]
    exact hthen htrue
  · rw [h]
    rcases helseValue with rfl | ⟨e, he, rfl⟩
    · exact .undefined
    · exact helse e he hfalse

theorem member {object : Expr} {property : String} {loc : Option Loc} {u : TypeInfo}
    (hstrict : c.strict = true) (hheap : heap.Fits c) (ho : c.expr object ret flow = .ok (u, flow'))
    (hobject : Accounts c heap ⟨.expr object, ret, flow⟩ u (object.access vars heap))
    (h : c.member u property loc = .ok t) :
    Accounts c heap ⟨.expr (.member object property loc), ret, flow⟩ t
      ((Expr.member object property loc).access vars heap) := by
  rw [Expr.access]
  constructor
  · intro d hd hfollowed
    obtain ⟨d', hd', hd⟩ := bind_eq_ok.mp hd
    have hshows := hobject.value d' hd' (hfollowed.step .object)
    have hknown : t.isUnknown = false := by
      by_contra hunknown
      exact hfollowed.tracked.here (.member ho h (eq_true_of_ne_false hunknown))
    exact Checker.member_shows hstrict hheap hshows h hknown hd
  · intro object' htrap
    rcases bind_eq_error.mp htrap with htrap | ⟨d, hd, htrap⟩
    · exact (hobject.nullAccess object' htrap).of_leads .object
    · obtain ⟨rfl, rfl⟩ := Datum.null_of_member htrap
      refine ⟨property, loc, ret, flow, .refl, fun hfollowed => ?_⟩
      have hnullable : u.isNullable = true := hobject.value .null hd hfollowed
      rw [Checker.member, hstrict, hnullable] at h
      cases h

end Accounts

/-- Along the evaluation of an accepted expression over pointers, types account for values. -/
theorem Expr.Pointing.accounts {c : Checker} {heap : Heap} {vars : Pointers} {e : Expr}
    {ret : Option TypeInfo} {flow flow' : Flow} {t : TypeInfo} (he : e.Pointing)
    (hstrict : c.strict = true) (hheap : heap.Fits c) (hsees : flow.Sees c heap vars)
    (h : c.expr e ret flow = .ok (t, flow')) :
    Accounts c heap ⟨.expr e, ret, flow⟩ t (e.access vars heap) := by
  induction he generalizing flow t flow' with
  | ident => exact .ident hsees h
  | isNull hop => exact .comparison hop Expr.access_ident_safe Expr.access_number_safe
  | nullIs hop => exact .comparison hop Expr.access_number_safe Expr.access_ident_safe
  | @logical op left right loc hop hleft hright ihl ihr =>
    have hlogical := op.isLogical_of_and_or hop
    rw [Checker.expr, if_pos hlogical] at h
    obtain ⟨l, mid, r, inner, hl, hr, _⟩ := Checker.shortCircuit_ok h
    have hmid : mid.Sees c heap vars := hsees.of_moves (c.expr_moves left ret hl) hleft.not_assigns
    refine .logical (r := r) hop hl (ihl hsees hl) fun hneeds => ?_
    exact ihr (hmid.learn (Facts.derive_notNull hneeds)) hr
  | @ite cond thenBranch elseBranch loc hcond hthen helse ihc iht ihe =>
    rw [Checker.expr] at h
    cases elseBranch with
    | none =>
      obtain ⟨tested, mid, thenInfo, after, hc, ht, _, rfl⟩ := Checker.ifElse_ok h
      have hmid : mid.Sees c heap vars := hsees.of_moves (c.expr_moves cond ret hc) hcond.not_assigns
      refine .ite (ihc hsees hc) (fun htrue => ?_) nofun
      obtain ⟨inner, ht', _⟩ := Checker.nested_ok ht
      refine (iht (hmid.under (Facts.derive_notNull htrue)) ht').branch (.thenBranch hc)
        fun hfollowed d hd => ?_
      have hnull : thenInfo.nullablePointer = none := by
        rw [← TypeInfo.isNullable_eq_false]
        by_contra hnullable
        exact hfollowed.keepsNull _ .refl (.mk hc ht (eq_true_of_ne_false hnullable))
      exact hd.congr rfl hnull.symm
    | some e =>
      obtain ⟨tested, mid, thenInfo, after, hc, ht, elseInfo, he, rfl⟩ := Checker.ifElse_ok h
      have hmid : mid.Sees c heap vars := hsees.of_moves (c.expr_moves cond ret hc) hcond.not_assigns
      have hafter : after.Sees c heap vars :=
        hmid.of_moves (Checker.nested_moves _ (c.expr_moves thenBranch ret).notes ht)
          hthen.not_assigns
      have hname : Followed c ⟨.expr (.ite cond thenBranch (some e) loc), ret, flow⟩ →
          thenInfo.name = elseInfo.name := by
        intro hfollowed
        by_contra hname
        exact hfollowed.tracked.here (.branches hc ht he hname)
      obtain ⟨inner, ht', _⟩ := Checker.nested_ok ht
      obtain ⟨inner', he', _⟩ := Checker.nested_ok he
      refine .ite (ihc hsees hc) (fun htrue => ?_) fun e' he'' hfalse => ?_
      · refine (iht (hmid.under (Facts.derive_notNull htrue)) ht').branch (.thenBranch hc)
          fun hfollowed d hd => ?_
        exact TypeInfo.shows_join (hname hfollowed) (.inl hd)
      · cases he''
        refine (ihe e rfl (hafter.under (Facts.derive_notNull hfalse)) he').branch
          (.elseBranch hc ht) fun hfollowed d hd => ?_
        exact TypeInfo.shows_join (hname hfollowed) (.inr hd)
  | @member object property loc hobject iho =>
    rw [Checker.expr] at h
    obtain ⟨⟨u, last⟩, ho, h⟩ := bind_eq_ok.mp h
    obtain ⟨result, hmember, h⟩ := bind_eq_ok.mp h
    cases h
    exact .member hstrict hheap ho (iho hsees ho) hmember

/-- The evaluation of an accepted expression over pointers accesses a member of null only at an object
whose type the check has not followed. Where the check follows all types it never does, and its value
is one of the type. -/
theorem accepted_pointer_expression_safe {c : Checker} {heap : Heap} {vars : Pointers} {e : Expr}
    {ret : Option TypeInfo} {flow flow' : Flow} {t : TypeInfo} (hstrict : c.strict = true)
    (he : e.Pointing) (hsees : flow.Sees c heap vars) (hheap : heap.Fits c)
    (h : c.expr e ret flow = .ok (t, flow')) :
    (∀ object, e.access vars heap = .error (.nullAccess object) →
      Unexplained c ⟨.expr e, ret, flow⟩ object) ∧
      (Followed c ⟨.expr e, ret, flow⟩ →
        (∀ object, e.access vars heap ≠ .error (.nullAccess object)) ∧
          ∀ d, e.access vars heap = .ok d → t.Shows c heap d) := by
  have haccounts := he.accounts hstrict hheap hsees h
  refine ⟨haccounts.nullAccess, fun hfollowed => ⟨?_, fun d hd => haccounts.value d hd hfollowed⟩⟩
  intro object hobject
  obtain ⟨property, loc, ret', flow₁, hreach, hlost⟩ := haccounts.nullAccess object hobject
  exact hlost ((hfollowed.of_reaches hreach).step .object)

namespace Dereferenced

def pointer : TypeExpr := .pointer false (.named "S" [])

def nullPointer : Expr := .number 0 (some "USize") none

def nullable : TypeExpr := .union pointer (.refined (.named "USize" []) .eq nullPointer)

def p : Expr := .ident "p" none

def q : Expr := .ident "q" none

def chosen (op : BinaryOp) : Expr := .ite (.binary op p nullPointer none) p (some q) none

def params : List Param := [⟨"p", some nullable⟩, ⟨"q", some pointer⟩]

/-- The program `struct S { x: I32 }`
`fn f(p: *S | USize == 0USize, q: *S): I32 => (if (p op 0USize) p else q).x;` -/
def program (op : BinaryOp) : Program :=
  ⟨[.structDecl ⟨"S", [], [⟨"x", .named "I32" []⟩], false, none⟩,
    .fnDecl ⟨"f", [], params, some (.named "I32" []), some (.member (chosen op) "x" none), false,
      none⟩]⟩

/-- The null pointer in `p`, and one to an object in `q`. -/
def vars : Pointers := fun name =>
  if name = "p" then some .null else if name = "q" then some (.object 0) else none

def heap : Heap where
  shape := fun _ => "S"
  field := fun _ property => if property = "x" then some .scalar else none

theorem chosen_pointing {op : BinaryOp} (hop : op = .eq ∨ op = .ne) :
    (Expr.member (chosen op) "x" none).Pointing := by
  refine .member (.ite (.isNull hop) .ident fun e he => ?_)
  cases he
  exact .ident

theorem heap_fits (op : BinaryOp) : heap.Fits ((program op).checker true) := by
  intro id decl f property d _ _ hd _
  rw [heap] at hd
  dsimp only at hd
  split at hd
  · cases hd
    trivial
  · cases hd

theorem fnStart_sees (op : BinaryOp) :
    (((program op).checker true).fnStart params).Sees ((program op).checker true) heap vars := by
  refine ⟨?_, fun _ _ hget => by cases hget⟩
  intro name d hd
  unfold vars at hd
  split at hd
  · rename_i hname
    subst hname
    cases hd
    exact ⟨_, rfl, fun _ => rfl, nofun⟩
  · split at hd
    · rename_i hname
      subst hname
      cases hd
      refine ⟨_, rfl, nofun, fun id _ => ?_⟩
      change heap.Named _ "*S" id
      have hpointee : Checker.pointee "*S" = "S" := by decide
      refine ⟨by decide, fun decl hdecl => ?_⟩
      rw [hpointee] at hdecl
      exact hdecl
    · cases hd

theorem member_x {op : BinaryOp} {t : TypeInfo} (hname : t.name = "*S") (hnull : t.isNullable = false) :
    ((program op).checker true).member t "x" none = .ok (.named "I32") := by
  have hpointee : Checker.pointee "*S" = "S" := by decide
  rw [Checker.member, hnull, hname, hpointee]
  rfl

theorem ident_followed {c : Checker} {name : String} {loc : Option Loc} {ret : Option TypeInfo}
    {flow : Flow} (h : (flow.scope.get? name).isSome) :
    Followed c ⟨.expr (.ident name loc), ret, flow⟩ := by
  refine .of_leads (fun hu => ?_) (fun hd => by cases hd) fun w hl => by cases hl
  cases hu with
  | name hfree _ =>
    rw [hfree] at h
    cases h

theorem chosen_followed (ret : Option TypeInfo) :
    let c := (program .ne).checker true
    Followed c ⟨.expr (.member (chosen .ne) "x" none), ret, c.fnStart params⟩ := by
  intro c
  refine .of_leads (fun hu => ?_) (fun hd => by cases hd) fun w hl => ?_
  · cases hu with
    | member ho h hu =>
      cases ho
      rw [member_x rfl rfl] at h
      cases h
      cases hu
  cases hl
  refine .of_leads (fun hu => ?_) (fun hd => by cases hd) fun w hl => ?_
  · cases hu with
    | branches hc ht he h =>
      cases hc
      cases ht
      cases he
      exact h rfl
  cases hl with
  | condition =>
    refine .of_leads (fun hu => by cases hu) (fun hd => by cases hd) fun w hl => ?_
    cases hl with
    | left => exact ident_followed rfl
    | right _ h =>
      refine .of_leads (fun hu => ?_) (fun hd => by cases hd) fun w hl => by cases hl
      cases hu with
      | literal h => exact absurd h (by decide)
    | guarded hop => cases hop
  | thenBranch h =>
    cases h
    exact ident_followed rfl
  | elseBranch h ht =>
    cases h
    cases ht
    exact ident_followed rfl

end Dereferenced

open Dereferenced in
theorem accepted_pointer_expression_safe_guarded :
    let c := (program .ne).checker true
    let e := Expr.member (chosen .ne) "x" none
    ∃ t flow', e.Pointing ∧ (c.fnStart params).Sees c heap vars ∧ heap.Fits c ∧
      c.expr e none (c.fnStart params) = .ok (t, flow') ∧ vars "p" = some .null ∧
      e.access vars heap = .ok .scalar ∧ t.Shows c heap .scalar ∧
      ∀ object, e.access vars heap ≠ .error (.nullAccess object) := by
  intro c e
  obtain ⟨t, flow', h⟩ : ∃ t flow', c.expr e none (c.fnStart params) = .ok (t, flow') :=
    ⟨_, _, bind_eq_ok.mpr ⟨_, rfl, bind_eq_ok.mpr ⟨_, member_x rfl rfl, rfl⟩⟩⟩
  have he : e.Pointing := chosen_pointing (.inr rfl)
  have hsees := fnStart_sees .ne
  have hheap := heap_fits .ne
  obtain ⟨hsafe, hvalue⟩ :=
    (accepted_pointer_expression_safe rfl he hsees hheap h).2 (chosen_followed none)
  exact ⟨t, flow', he, hsees, hheap, h, rfl, rfl, hvalue _ rfl, hsafe⟩

open Dereferenced in
/-- The join of a nullable pointer with a pointer has the unknown type, whose members are not refused,
so that a null pointer gets through. -/
theorem null_accessed_through_join :
    let c := (program .eq).checker true
    (program .eq).check true = .ok () ∧
      ∃ ret t flow', Reaches c ((program .eq).visit true)
          ⟨.expr (.member (chosen .eq) "x" none), ret, c.fnStart params⟩ ∧
        (Expr.member (chosen .eq) "x" none).Pointing ∧ (c.fnStart params).Sees c heap vars ∧
        heap.Fits c ∧
        c.expr (.member (chosen .eq) "x" none) ret (c.fnStart params) = .ok (t, flow') ∧
        (Expr.member (chosen .eq) "x" none).access vars heap = .error (.nullAccess (chosen .eq)) := by
  intro c
  have hreach : Reaches c ((program .eq).visit true) _ :=
    ((Relation.ReflTransGen.refl.tail (.later rfl)).tail .first).tail .function
  have haccepted : (program .eq).check true = .ok () := rfl
  obtain ⟨⟨t, flow'⟩, h⟩ := hreach.accepted (Program.visit_accepted haccepted)
  exact ⟨haccepted, _, t, flow', hreach, chosen_pointing (.inl rfl), fnStart_sees .eq, heap_fits .eq,
    h, rfl⟩

end TuffSafety
