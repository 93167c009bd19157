import Mathlib.Tactic.ByContra
import TuffSafety.Proofs.Frame

/-!
# Where the unknown type comes from

A value of unknown type is exempt from most of what is asked of values. The type is given where the
checker does not follow the value: to names that are not declared, array elements, results and
fields without a known type, and to branches that have different types. `Untracked` lists these
places. Nothing else makes a type unknown: where a check comes to no such place, every variable and
every expression has a known type.
-/
namespace TuffSafety

namespace TypeInfo

/-- The pointer behind a nullable pointer is not the unknown type. -/
def NamesPointer (t : TypeInfo) : Prop :=
  ∀ p, t.nullablePointer = some p → p ≠ TypeName.unknown

/-- A type that is not unknown, and does not become so for a pointer that is not null. -/
structure Known (t : TypeInfo) : Prop where
  name : t.name ≠ TypeName.unknown
  pointer : t.NamesPointer

variable {t u : TypeInfo}

theorem isUnknown_eq_false : t.isUnknown = false ↔ t.name ≠ TypeName.unknown := by
  unfold isUnknown
  rw [beq_eq_false_iff_ne]

namespace NamesPointer

theorem of_none (h : t.nullablePointer = none) : t.NamesPointer := by
  intro p hp
  rw [h] at hp
  cases hp

theorem congr (h : t.NamesPointer) (hnull : u.nullablePointer = t.nullablePointer) :
    u.NamesPointer := by
  intro p hp
  rw [hnull] at hp
  exact h p hp

theorem withoutNull (t : TypeInfo) : t.withoutNull.NamesPointer := by
  apply of_none
  unfold TypeInfo.withoutNull
  split
  · rfl
  · assumption

theorem narrow (h : t.NamesPointer) (p : Patch) : (t.narrow p).NamesPointer := by
  refine congr ?_ (t.narrow_nullablePointer p)
  split
  · exact withoutNull t
  · exact h

end NamesPointer

namespace Known

theorem of_plain (hname : t.name ≠ TypeName.unknown) (hnull : t.nullablePointer = none) : t.Known :=
  ⟨hname, .of_none hnull⟩

theorem congr (h : t.Known) (hname : u.name = t.name) (hnull : u.nullablePointer = t.nullablePointer) :
    u.Known := by
  refine ⟨?_, h.pointer.congr hnull⟩
  rw [hname]
  exact h.name

theorem narrow (h : t.Known) (p : Patch) : (t.narrow p).Known := by
  refine ⟨?_, h.pointer.narrow p⟩
  rw [narrow_name]
  split
  · unfold TypeInfo.withoutNull
    split
    · rename_i pointer hp
      exact h.pointer pointer hp
    · exact h.name
  · exact h.name

theorem widened (h : t.Known) : t.widened.Known :=
  h.congr rfl rfl

theorem join (h : t.Known) (h' : u.Known) (hname : t.name = u.name) : (t.join u).Known := by
  rw [TypeInfo.join, if_pos hname]
  refine ⟨h.name, ?_⟩
  intro p hp
  cases ht : t.nullablePointer with
  | some q =>
    rw [ht] at hp
    cases hp
    exact h.pointer _ ht
  | none =>
    rw [ht] at hp
    exact h'.pointer p hp

end Known

end TypeInfo

/-! ### Declared types -/

namespace TypeExpr

variable {meaning : String → TypeInfo}

theorem name_of_isPointer {type : TypeExpr} (h : type.isPointer = true) :
    (type.resolve meaning).name ≠ TypeName.unknown := by
  cases type with
  | pointer mutable target =>
    intro hname
    have hchars := congrArg String.toList hname
    cases mutable <;> simp [resolve, TypeName.unknown] at hchars
  | _ => cases h

theorem nullablePointer?_namesPointer {left right : TypeExpr} {p : String}
    (h : nullablePointer? left right (left.resolve meaning) (right.resolve meaning) = some p) :
    p ≠ TypeName.unknown := by
  unfold nullablePointer? at h
  split at h
  · rename_i hsides
    cases h
    exact name_of_isPointer (Bool.and_eq_true_iff.mp hsides).1
  · split at h
    · rename_i hsides
      cases h
      exact name_of_isPointer (Bool.and_eq_true_iff.mp hsides).1
    · cases h

theorem resolve_namesPointer (hmeaning : ∀ name, (meaning name).NamesPointer) :
    ∀ type : TypeExpr, (type.resolve meaning).NamesPointer
  | named name _ => hmeaning name
  | refined base op value => by
    rw [resolve]
    split
    · exact (resolve_namesPointer hmeaning base).narrow _
    · exact resolve_namesPointer hmeaning base
  | union left right => fun _ hp => nullablePointer?_namesPointer hp
  | array _ _ _ => .of_none rfl
  | pointer _ target => (resolve_namesPointer hmeaning target).congr rfl
  | tuple _ => .of_none rfl

end TypeExpr

namespace Declarations

variable (d : Declarations)

theorem meaning_namesPointer (depth : Nat) (visited : List String) (name : String) :
    (d.meaning depth visited name).NamesPointer := by
  induction depth generalizing visited name with
  | zero => exact .of_none rfl
  | succ depth ih =>
    rw [meaning]
    split
    · split
      · exact .of_none rfl
      · rename_i target _ _
        have htarget := target.resolve_namesPointer (ih (name :: visited))
        unfold aliasMeaning
        split
        · exact htarget.congr rfl
        · split
          · exact .of_none rfl
          · exact htarget
    · exact .of_none rfl

/-- A declared type is known unless its own name is unknown. -/
theorem resolve_known {type : TypeExpr} (h : (d.resolve type).isUnknown = false) :
    (d.resolve type).Known :=
  ⟨TypeInfo.isUnknown_eq_false.mp h, type.resolve_namesPointer fun _ => d.meaning_namesPointer _ _ _⟩

theorem resolve?_known {type : Option TypeExpr} (h : (d.resolve? type).isUnknown = false) :
    (d.resolve? type).Known := by
  cases type with
  | some type => exact d.resolve_known h
  | none => cases h

end Declarations

/-! ### Scopes of known types -/

/-- Every visible name has a known type. -/
def Scope.Known (s : Scope) : Prop :=
  ∀ name b, s.get? name = some b → b.declared.Known ∧ b.current.Known

namespace Scope.Known

variable {s : Scope}

theorem child (h : s.Known) : s.child.Known := h

theorem declare (h : s.Known) (name : String) {b : Binding} (hdeclared : b.declared.Known)
    (hcurrent : b.current.Known) : (s.declare name b).Known := by
  intro key b' hb'
  rw [get?_declare] at hb'
  split at hb'
  · cases hb'
    exact ⟨hdeclared, hcurrent⟩
  · exact h key b' hb'

theorem declareAll {α : Type} {key : α → String} {type : α → TypeInfo} {xs : List α} (h : s.Known)
    (hx : ∀ x ∈ xs, (type x).Known) :
    (xs.foldl (fun s x => s.declare (key x) (.fixed (type x))) s).Known := by
  induction xs generalizing s with
  | nil => exact h
  | cons x rest ih =>
    have hfirst := hx x (List.mem_cons_self ..)
    exact ih (h.declare (key x) hfirst hfirst) fun y hy => hx y (List.mem_cons_of_mem _ hy)

theorem update (h : s.Known) (name : String) {t : TypeInfo} (ht : t.Known) : (s.update name t).Known := by
  intro key b hb
  rw [get?_update] at hb
  split at hb
  · obtain ⟨before, hbefore, rfl⟩ := Option.map_eq_some_iff.mp hb
    exact ⟨(h name before hbefore).1, ht⟩
  · exact h key b hb

/-- What is widened was declared with a known type. -/
theorem of_moves {P : String → Prop} {flow flow' : Flow} (h : flow.scope.Known)
    (hm : flow.Moves P flow') : flow'.scope.Known := by
  intro name b hb
  rcases hm.binding name with hsame | ⟨_, hfixed⟩
  · exact h name b (hsame.symm.trans hb)
  · obtain ⟨before, hbefore, rfl⟩ := Option.map_eq_some_iff.mp (hfixed.symm.trans hb)
    have hdeclared := (h name before hbefore).1
    exact ⟨hdeclared, hdeclared⟩

theorem loopStart {body : Block} {flow : Flow} (h : flow.scope.Known) :
    (Checker.loopStart body flow).scope.Known := by
  have hchild : flow.child.scope.Known := h.child
  exact hchild.of_moves (Flow.loosen_moves (fun _ hname => hname) flow.child)

end Scope.Known

/-! ### Places where the unknown type comes up -/

/-- A call of the checker that gives the unknown type to a value or to a variable. -/
inductive Untracked (c : Checker) : Visit → Prop where
  | literal {value suffix loc ret flow} (h : suffix = some TypeName.unknown) :
      Untracked c ⟨.expr (.number value suffix loc), ret, flow⟩
  | name {name loc ret flow} (hfree : flow.scope.get? name = none)
      (h : (c.lookup name flow).isUnknown = true) : Untracked c ⟨.expr (.ident name loc), ret, flow⟩
  | result {callee args loc ret flow}
      (h : ∀ sig, c.signature? callee = some sig →
        (c.decls.resolve? sig.decl.returnType).isUnknown = true) :
      Untracked c ⟨.expr (.call callee args loc), ret, flow⟩
  | member {object property loc ret flow t flow' u} (ho : c.expr object ret flow = .ok (t, flow'))
      (h : c.member t property loc = .ok u) (hu : u.isUnknown = true) :
      Untracked c ⟨.expr (.member object property loc), ret, flow⟩
  | element {target position loc ret flow} :
      Untracked c ⟨.expr (.index target position loc), ret, flow⟩
  | struct {name fields loc ret flow} (h : name = TypeName.unknown) :
      Untracked c ⟨.expr (.structInit name fields loc), ret, flow⟩
  | branches {cond t e loc ret flow tested mid thenInfo after elseInfo flow'}
      (hc : c.expr cond ret flow = .ok (tested, mid))
      (ht : Checker.nested (Facts.derive cond true) (c.expr t ret) mid = .ok (thenInfo, after))
      (he : Checker.nested (Facts.derive cond false) (c.expr e ret) after = .ok (elseInfo, flow'))
      (h : thenInfo.name ≠ elseInfo.name) :
      Untracked c ⟨.expr (.ite cond t (some e) loc), ret, flow⟩
  | noArms {loc ret flow} : Untracked c ⟨.arms loc none [], ret, flow⟩
  | arms {loc previous pattern body cs ret flow t flow'}
      (ha : c.matchArm pattern loc (c.expr body ret) flow = .ok (t, flow'))
      (h : previous.name ≠ t.name) :
      Untracked c ⟨.arms loc (some previous) (⟨pattern, body⟩ :: cs), ret, flow⟩
  | pattern {loc joined struct fields body cs ret flow} {f : PatternField} (hf : f ∈ fields)
      (h : ∀ decl field, c.decls.structs.get? struct = some decl → decl.field? f.field = some field →
        (c.decls.resolve field.type).isUnknown = true) :
      Untracked c ⟨.arms loc joined (⟨.struct struct fields, body⟩ :: cs), ret, flow⟩
  | annotated {name type value loc ret flow} (h : (c.decls.resolve type).isUnknown = true) :
      Untracked c ⟨.stmt (.letDecl name (some type) value loc), ret, flow⟩
  | foreignLet {name type loc ret flow} (h : (c.decls.resolve type).isUnknown = true) :
      Untracked c ⟨.stmt (.foreignLet name type loc), ret, flow⟩
  | parameter {name generics params returnType body exported loc ret flow} {p : Param}
      (hp : p ∈ params) (h : (c.decls.resolve? p.type).isUnknown = true) :
      Untracked c
        ⟨.stmt (.fnDecl ⟨name, generics, params, returnType, some body, exported, loc⟩), ret, flow⟩

/-- The check comes to no place that gives the unknown type. -/
def Tracked (c : Checker) (v : Visit) : Prop :=
  ∀ w, Reaches c v w → ¬ Untracked c w

namespace Tracked

variable {c : Checker} {v w : Visit}

theorem here (h : Tracked c v) : ¬ Untracked c v :=
  h v .refl

theorem of_reaches (h : Tracked c v) (hr : Reaches c v w) : Tracked c w :=
  fun x hx => h x (hr.trans hx)

theorem step (h : Tracked c v) (hl : Leads c v w) : Tracked c w :=
  h.of_reaches (.single hl)

end Tracked

/-- The statements whose type is that of a value. -/
def Stmt.hasValue : Stmt → Bool
  | .expr .. => true
  | .block _ => true
  | .ite .. => true
  | _ => false

namespace Checker

variable {c : Checker} {flow flow' : Flow} {ret : Option TypeInfo} {t u : TypeInfo} {loc : Option Loc}

/-! ### Rules on known types -/

theorem lookup_known {name : String} (hscope : flow.scope.Known)
    (htracked : Tracked c ⟨.expr (.ident name loc), ret, flow⟩) : (c.lookup name flow).Known := by
  cases hb : flow.scope.get? name with
  | some b =>
    have hcurrent := (hscope name b hb).2
    rw [lookup, hb]
    dsimp only
    split
    · exact hcurrent.narrow _
    · exact hcurrent
  | none =>
    refine .of_plain ?_ ?_
    · intro hname
      exact htracked.here (.name hb (beq_iff_eq.mpr hname))
    · rw [lookup, hb]
      dsimp only
      split
      · rfl
      · split <;> rfl

theorem arithmetic_known {op : BinaryOp} {left right : TypeInfo} (hl : left.Known) (hr : right.Known)
    (h : c.arithmetic op left right loc = .ok t) : t.Known := by
  refine .of_plain ?_ (arithmetic_notNullable h)
  have hknown : (left.isUnknown || right.isUnknown) ≠ true := by
    rw [TypeInfo.isUnknown_eq_false.mpr hl.name, TypeInfo.isUnknown_eq_false.mpr hr.name]
    decide
  have hname : arithmeticName left right ≠ TypeName.unknown := by
    unfold arithmeticName
    split
    · exact hr.name
    · exact hl.name
  rcases arithmetic_ok h with ⟨_, _, ⟨hu, _⟩ | rfl⟩ | ⟨_, _, ⟨hu, _⟩ | rfl⟩
  · exact absurd hu hknown
  · exact hname
  · exact absurd hu hknown
  · rw [TypeInfo.withBounds_name]
    exact hname

theorem unary_known {op : UnaryOp} (ht : t.Known) (h : unary op t loc = .ok u) : u.Known := by
  cases op with
  | not =>
    unfold unary at h
    dsimp only at h
    split at h
    · cases h
      exact .of_plain (by decide) rfl
    · cases h
  | neg =>
    unfold unary at h
    dsimp only at h
    split at h
    · cases h
      exact ht
    · split at h
      · cases h
        exact .of_plain (by rw [TypeInfo.withBounds_name]; exact ht.name)
          (TypeInfo.withBounds_nullablePointer _ _ _)
      · cases h
  | ref | refMut =>
    cases h
    refine .of_plain ?_ rfl
    intro hname
    have hchars := congrArg String.toList hname
    simp [TypeName.unknown] at hchars

theorem call_type {sig : FnSignature} {infos : List (TypeInfo × Option Loc)}
    (h : c.call sig infos loc = .ok t) : t = c.decls.resolve? sig.decl.returnType := by
  unfold call at h
  dsimp only at h
  split at h
  · cases h
  · obtain ⟨_, _, h⟩ := bind_eq_ok.mp h
    cases h
    rfl

theorem member_known {object : TypeInfo} {property : String}
    (h : c.member object property loc = .ok t) (ht : t.isUnknown = false) : t.Known := by
  unfold member at h
  split at h
  · cases h
  split at h
  · cases h
    exact .of_plain (TypeInfo.isUnknown_eq_false.mp ht) (TypeInfo.withBounds_nullablePointer _ _ _)
  split at h
  · unfold field at h
    split at h
    · cases h
      exact c.decls.resolve_known ht
    · cases h
  · cases h
    cases ht

theorem bindFields_known {struct : String} {fields : List PatternField} (hscope : flow.scope.Known)
    (hfields : ∀ f ∈ fields, ∃ decl field, c.decls.structs.get? struct = some decl ∧
      decl.field? f.field = some field ∧ (c.decls.resolve field.type).isUnknown = false)
    (h : c.bindFields struct loc fields flow = .ok flow') : flow'.scope.Known := by
  induction fields generalizing flow with
  | nil =>
    cases h
    exact hscope
  | cons f rest ih =>
    obtain ⟨decl, declared, hdecl, hfield, hknown⟩ := hfields f (List.mem_cons_self ..)
    rw [bindFields, hdecl] at h
    dsimp only at h
    rw [field, hfield] at h
    have hinfo := c.decls.resolve_known hknown
    exact ih (hscope.declare f.bind hinfo hinfo) (fun g hg => hfields g (List.mem_cons_of_mem _ hg)) h

theorem bindPattern_known {pattern : Pattern} {body : Expr} {cs : List MatchCase}
    {joined : Option TypeInfo} (hscope : flow.scope.Known)
    (htracked : Tracked c ⟨.arms loc joined (⟨pattern, body⟩ :: cs), ret, flow⟩)
    (h : c.bindPattern pattern loc flow.child = .ok flow') : flow'.scope.Known := by
  cases pattern with
  | struct name fields =>
    have hchild : flow.child.scope.Known := hscope.child
    refine bindFields_known hchild ?_ h
    intro f hf
    by_contra hnone
    refine htracked.here (.pattern hf fun decl field hdecl hfield => ?_)
    by_contra hknown
    exact hnone ⟨decl, field, hdecl, hfield, eq_false_of_ne_true hknown⟩
  | _ =>
    cases h
    exact hscope.child

theorem fnStart_known {name : String} {generics : List String} {params : List Param}
    {returnType : Option TypeExpr} {body : Expr} {exported : Bool} (hglobals : c.globals.Known)
    (htracked : Tracked c
      ⟨.stmt (.fnDecl ⟨name, generics, params, returnType, some body, exported, loc⟩), ret, flow⟩) :
    (c.fnStart params).scope.Known := by
  refine hglobals.child.declareAll fun p hp => c.decls.resolve?_known ?_
  by_contra hunknown
  exact htracked.here (.parameter hp (eq_true_of_ne_false hunknown))

/-! ### Expressions and statements of known types -/

/-- In a scope of known types, a part that is tracked has a known type. -/
def GivesKnown (c : Checker) (part : Part) (ret : Option TypeInfo) (step : Step) : Prop :=
  ∀ ⦃flow t flow'⦄, Tracked c ⟨part, ret, flow⟩ → flow.scope.Known → step flow = .ok (t, flow') →
    t.Known

/-- The scope behind the part is one of known types as well. -/
def KeepsKnown (c : Checker) (part : Part) (ret : Option TypeInfo) (step : Step) : Prop :=
  ∀ ⦃flow t flow'⦄, Tracked c ⟨part, ret, flow⟩ → flow.scope.Known → step flow = .ok (t, flow') →
    t.Known ∧ flow'.scope.Known

theorem void_known : TypeInfo.void.Known := .of_plain (by decide) rfl

theorem iteratorInfo_known : iteratorInfo.Known := .of_plain (by decide) rfl

theorem bool_known : TypeInfo.bool.Known := .of_plain (by decide) rfl

theorem ite_known {cond thenBranch : Expr} {elseBranch : Option Expr}
    (hthen : GivesKnown c (.expr thenBranch) ret (c.expr thenBranch ret))
    (helse : ∀ e ∈ elseBranch, GivesKnown c (.expr e) ret (c.expr e ret)) :
    GivesKnown c (.expr (.ite cond thenBranch elseBranch loc)) ret
      (c.expr (.ite cond thenBranch elseBranch loc) ret) := by
  intro flow t flow' htracked hscope h
  rw [expr] at h
  cases elseBranch with
  | none =>
    obtain ⟨tested, mid, thenInfo, after, hc, ht, _, rfl⟩ := ifElse_ok h
    have hmid := hscope.of_moves (c.expr_moves cond ret hc)
    obtain ⟨inner, ht, _⟩ := nested_ok ht
    exact .of_plain (hthen (htracked.step (.thenBranch hc)) hmid.child ht).name rfl
  | some e =>
    obtain ⟨tested, mid, thenInfo, after, hc, ht, elseInfo, he, rfl⟩ := ifElse_ok h
    have hmid := hscope.of_moves (c.expr_moves cond ret hc)
    have hafter := hmid.of_moves (nested_moves _ (c.expr_moves thenBranch ret).notes ht)
    obtain ⟨inner, ht', _⟩ := nested_ok ht
    obtain ⟨inner', he', _⟩ := nested_ok he
    refine (hthen (htracked.step (.thenBranch hc)) hmid.child ht').join
      (helse e rfl (htracked.step (.elseBranch hc ht)) hafter.child he') ?_
    by_contra hname
    exact htracked.here (.branches hc ht he hname)

theorem stmt_void {s : Stmt} (hs : s.hasValue = false) (h : c.stmt s ret flow = .ok (t, flow')) :
    t = .void := by
  cases s with
  | expr | block | ite => cases hs
  | fnDecl decl =>
    rw [stmt] at h
    obtain ⟨_, _, h⟩ := bind_eq_ok.mp h
    cases h
    rfl
  | letDecl name type value loc =>
    rw [stmt] at h
    obtain ⟨_, _, h⟩ := bind_eq_ok.mp h
    obtain ⟨_, _, h⟩ := bind_eq_ok.mp h
    cases h
    rfl
  | assign target value loc =>
    rw [stmt] at h
    obtain ⟨_, _, h⟩ := bind_eq_ok.mp h
    cases target with
    | ident | _ =>
      obtain ⟨_, _, h⟩ := bind_eq_ok.mp h
      cases h
      rfl
  | ret value loc =>
    cases value with
    | none =>
      rw [stmt] at h
      obtain ⟨_, _, h⟩ := bind_eq_ok.mp h
      cases h
      rfl
    | some value =>
      rw [stmt] at h
      obtain ⟨_, _, h⟩ := bind_eq_ok.mp h
      obtain ⟨_, _, h⟩ := bind_eq_ok.mp h
      cases h
      rfl
  | whileLoop cond body loc =>
    obtain ⟨statements, place⟩ := body
    rw [stmt] at h
    obtain ⟨_, _, h⟩ := bind_eq_ok.mp h
    obtain ⟨_, _, h⟩ := bind_eq_ok.mp h
    obtain ⟨_, _, h⟩ := bind_eq_ok.mp h
    cases h
    rfl
  | forLoop iterator first last body loc =>
    obtain ⟨statements, place⟩ := body
    rw [stmt] at h
    obtain ⟨_, _, h⟩ := bind_eq_ok.mp h
    obtain ⟨_, _, h⟩ := bind_eq_ok.mp h
    obtain ⟨_, _, h⟩ := bind_eq_ok.mp h
    cases h
    rfl
  | _ =>
    cases h
    rfl

/-- A statement that has no value and binds no name. -/
theorem quiet_known {s : Stmt} (hvalue : s.hasValue = false) (hbinds : s.binds = false) :
    KeepsKnown c (.stmt s) ret (c.stmt s ret) := by
  intro flow t flow' _ hscope h
  rw [stmt_void hvalue h]
  exact ⟨void_known, hscope.of_moves ((c.stmt_changes s ret).moves hbinds h)⟩

mutual

theorem expr_known (c : Checker) : ∀ e ret, GivesKnown c (.expr e) ret (c.expr e ret)
  | .number value suffix loc, ret => by
    intro flow t flow' htracked _ h
    cases h
    refine .of_plain ?_ rfl
    cases suffix with
    | none =>
      change "I32" ≠ TypeName.unknown
      decide
    | some suffix =>
      rintro rfl
      exact htracked.here (.literal rfl)
  | .float .., _ | .string .., _ | .char .., _ => by
    intro flow t flow' _ _ h
    cases h
    exact .of_plain (by decide) rfl
  | .bool .., _ => by
    intro flow t flow' _ _ h
    cases h
    exact bool_known
  | .ident name loc, ret => by
    intro flow t flow' htracked hscope h
    cases h
    exact lookup_known hscope htracked
  | .binary op left right loc, ret => by
    intro flow t flow' htracked hscope h
    cases hop : op.isLogical with
    | true =>
      rw [expr, if_pos hop] at h
      obtain ⟨l, mid, r, inner, _, _, hlogical, _⟩ := shortCircuit_ok h
      rw [logical_ok hlogical]
      exact bool_known
    | false =>
      obtain ⟨l, mid, r, hl, hr, ⟨_, rfl⟩ | ⟨_, harithmetic⟩⟩ := expr_binary_ok hop h
      · exact bool_known
      · have hleft := expr_known c left ret (htracked.step .left) hscope hl
        have hmid := hscope.of_moves (c.expr_moves left ret hl)
        have hright := expr_known c right ret (htracked.step (.right hop hl)) hmid hr
        exact arithmetic_known hleft hright harithmetic
  | .unary op operand loc, ret => by
    intro flow t flow' htracked hscope h
    obtain ⟨info, he, hunary⟩ := expr_unary_ok h
    exact unary_known (expr_known c operand ret (htracked.step .operand) hscope he) hunary
  | .call callee args loc, ret => by
    intro flow t flow' htracked _ h
    rw [expr] at h
    obtain ⟨⟨infos, mid⟩, _, h⟩ := bind_eq_ok.mp h
    cases callee with
    | ident name place =>
      dsimp only at h
      split at h
      · rename_i sig hsig
        obtain ⟨result, hcall, h⟩ := bind_eq_ok.mp h
        cases h
        rw [call_type hcall]
        apply c.decls.resolve?_known
        by_contra hunknown
        refine htracked.here (.result fun sig' hsig' => ?_)
        cases hsig.symm.trans hsig'
        exact eq_true_of_ne_false hunknown
      · rename_i hnone
        refine absurd (.result fun sig hsig => ?_) htracked.here
        cases hnone.symm.trans hsig
    | _ => exact absurd (.result nofun) htracked.here
  | .member object property loc, ret => by
    intro flow t flow' htracked _ h
    rw [expr] at h
    obtain ⟨⟨info, last⟩, ho, h⟩ := bind_eq_ok.mp h
    obtain ⟨result, hmember, h⟩ := bind_eq_ok.mp h
    cases h
    apply member_known hmember
    by_contra hunknown
    exact htracked.here (.member ho hmember (eq_true_of_ne_false hunknown))
  | .index target position loc, ret => by
    intro flow t flow' htracked _ _
    exact absurd .element htracked.here
  | .structInit name fields loc, ret => by
    intro flow t flow' htracked _ h
    rw [expr] at h
    split at h
    · cases h
    · obtain ⟨last, _, h⟩ := bind_eq_ok.mp h
      cases h
      refine .of_plain ?_ rfl
      rintro rfl
      exact htracked.here (.struct rfl)
  | .ite condition thenBranch elseBranch loc, ret =>
    ite_known (expr_known c thenBranch ret) (expr?_known c elseBranch ret)
  | .matchOn target cs loc, ret => by
    intro flow t flow' htracked hscope h
    rw [expr] at h
    obtain ⟨⟨info, mid⟩, ht, h⟩ := bind_eq_ok.mp h
    obtain ⟨_, _, h⟩ := bind_eq_ok.mp h
    have hmid := hscope.of_moves (c.expr_moves target ret ht)
    have hnone : ∀ t ∈ (none : Option TypeInfo), t.Known := fun _ hmem => by cases hmem
    exact matchCases_known c cs ret hnone (htracked.step (.arms ht)) hmid h
  | .isPattern operand pattern loc, ret => by
    intro flow t flow' _ _ h
    rw [expr] at h
    obtain ⟨_, _, h⟩ := bind_eq_ok.mp h
    cases h
    exact bool_known
  | .unwrap operand loc, ret => by
    intro flow t flow' htracked hscope h
    rw [expr] at h
    exact expr_known c operand ret (htracked.step .unwrapped) hscope h
  | .block ⟨ss, place⟩, ret => by
    intro flow t flow' htracked hscope h
    rw [expr] at h
    obtain ⟨inner, hss, _⟩ := nested_ok h
    exact (stmts_known c ss ret void_known (htracked.step .block) hscope.child hss).1

theorem expr?_known (c : Checker) : ∀ (e : Option Expr) ret, ∀ e' ∈ e,
    GivesKnown c (.expr e') ret (c.expr e' ret)
  | some e, ret, e', he => by
    cases he
    exact expr_known c e ret
  | none, ret, e', he => by
    cases he

theorem matchCases_known (c : Checker) : ∀ cs ret {loc joined}, (∀ t ∈ joined, t.Known) →
    GivesKnown c (.arms loc joined cs) ret (c.matchCases loc cs ret joined)
  | [], ret, loc, joined, hjoined => by
    intro flow t flow' htracked _ h
    cases h
    cases joined with
    | some previous => exact hjoined previous rfl
    | none => exact absurd .noArms htracked.here
  | ⟨pattern, body⟩ :: cs, ret, loc, joined, hjoined => by
    intro flow t flow' htracked hscope h
    obtain ⟨info, mid, harm, hcs⟩ := matchCases_cons_ok h
    have hmid := hscope.of_moves (c.matchArm_moves pattern (c.expr_moves body ret) harm)
    have hinfo : info.Known := by
      obtain ⟨start, hstart, harm⟩ := bind_eq_ok.mp harm
      obtain ⟨⟨result, inner⟩, hbody, harm⟩ := bind_eq_ok.mp harm
      cases harm
      exact expr_known c body ret (htracked.step (.arm hstart))
        (bindPattern_known hscope htracked hstart) hbody
    refine matchCases_known c cs ret ?_ (htracked.step (.laterArms harm)) hmid hcs
    intro next hnext
    cases hnext
    cases joined with
    | none => exact hinfo
    | some previous =>
      refine (hjoined previous rfl).join hinfo ?_
      by_contra hname
      exact htracked.here (.arms harm hname)

theorem stmts_known (c : Checker) : ∀ ss ret {last}, last.Known →
    KeepsKnown c (.stmts last ss) ret (c.stmts ss ret last)
  | [], ret, last, hlast => by
    intro flow t flow' _ hscope h
    cases h
    exact ⟨hlast, hscope⟩
  | s :: ss, ret, last, hlast => by
    intro flow t flow' htracked hscope h
    obtain ⟨info, mid, hs, hss⟩ := stmts_cons_ok h
    obtain ⟨hinfo, hmid⟩ := stmt_known c s ret (htracked.step .first) hscope hs
    exact stmts_known c ss ret hinfo (htracked.step (.later hs)) hmid hss

theorem stmt_known (c : Checker) : ∀ s ret, KeepsKnown c (.stmt s) ret (c.stmt s ret)
  | .letDecl name type value loc, ret => by
    intro flow t flow' htracked hscope h
    rw [stmt_void rfl h]
    obtain ⟨info, mid, hv, hd⟩ := letDecl_ok h
    have hinfo := expr_known c value ret (htracked.step .initializer) hscope hv
    have hmid := hscope.of_moves (c.expr_moves value ret hv)
    obtain ⟨b, rfl, hb⟩ := declare_ok hd
    refine ⟨void_known, ?_⟩
    cases type with
    | none =>
      cases hb
      exact hmid.declare name hinfo.widened hinfo
    | some type =>
      obtain ⟨_, rfl⟩ := hb
      have htype : (c.decls.resolve type).Known := by
        apply c.decls.resolve_known
        by_contra hunknown
        exact htracked.here (.annotated (eq_true_of_ne_false hunknown))
      exact hmid.declare name htype (htype.narrow _)
  | .assign target value loc, ret => by
    have hvalue := c.expr_moves value ret
    cases target with
    | ident name place =>
      intro flow t flow' htracked hscope h
      rw [stmt_void rfl h]
      obtain ⟨info, mid, hv, ha⟩ := assign_ident_ok h
      have hmid := hscope.of_moves (hvalue hv)
      refine ⟨void_known, ?_⟩
      rcases assign_ok ha with ⟨_, rfl⟩ | ⟨b, hb, _, rfl⟩
      · exact hmid
      · exact hmid.update name ((hmid name b hb).1.narrow _)
    | _ => exact quiet_known rfl rfl
  | .expr e loc, ret => by
    intro flow t flow' htracked hscope h
    refine ⟨?_, hscope.of_moves ((c.stmt_changes _ ret).moves rfl h)⟩
    rw [stmt] at h
    exact expr_known c e ret (htracked.step .exprStmt) hscope h
  | .block ⟨ss, place⟩, ret => by
    intro flow t flow' htracked hscope h
    refine ⟨?_, hscope.of_moves ((c.stmt_changes _ ret).moves rfl h)⟩
    rw [stmt] at h
    obtain ⟨inner, hss, _⟩ := nested_ok h
    exact (stmts_known c ss ret void_known ((htracked.step .blockStmt).step .block) hscope.child hss).1
  | .ite condition thenBranch elseBranch loc, ret => by
    intro flow t flow' htracked hscope h
    refine ⟨?_, hscope.of_moves ((c.stmt_changes _ ret).moves rfl h)⟩
    have hite := (c.stmt_ofBranch (.ite condition thenBranch elseBranch loc) ret flow).symm.trans h
    exact ite_known (expr_known c thenBranch ret) (expr?_known c elseBranch ret)
      (htracked.step .ifStmt) hscope hite
  | .fnDecl _, _ => quiet_known rfl rfl
  | .ret _ _, _ => quiet_known rfl rfl
  | .whileLoop _ _ _, _ => quiet_known rfl rfl
  | .forLoop _ _ _ _ _, _ => quiet_known rfl rfl
  | .foreignFn _, _ => quiet_known rfl rfl
  | .structDecl _, _ => quiet_known rfl rfl
  | .enumDecl _, _ => quiet_known rfl rfl
  | .typeAlias .., _ => quiet_known rfl rfl
  | .foreignType .., _ => quiet_known rfl rfl
  | .foreignLet .., _ => quiet_known rfl rfl
  | .breakLoop _, _ => quiet_known rfl rfl
  | .continueLoop _, _ => quiet_known rfl rfl

end

theorem args_known {es : List Expr} {infos : List (TypeInfo × Option Loc)}
    (htracked : Tracked c ⟨.args loc es, ret, flow⟩) (hscope : flow.scope.Known)
    (h : c.args es ret loc flow = .ok (infos, flow')) : ∀ info ∈ infos, info.1.Known := by
  induction es generalizing flow infos with
  | nil =>
    cases h
    intro info hinfo
    cases hinfo
  | cons e es ih =>
    obtain ⟨first, mid, rest, he, hes, rfl⟩ := args_cons_ok h
    have hfirst := c.expr_known e ret (htracked.step .arg) hscope he
    have hmid := hscope.of_moves (c.expr_moves e ret he)
    exact List.forall_mem_cons.mpr ⟨hfirst, ih (htracked.step (.laterArgs he)) hmid hes⟩

end Checker

/-! ### Runs of the checker -/

/-- What a call hands on is a scope of known types. -/
theorem Leads.known {c : Checker} {v w : Visit} (hglobals : c.globals.Known) (hl : Leads c v w)
    (htracked : Tracked c v) (hscope : v.flow.scope.Known) : w.flow.scope.Known := by
  cases hl with
  | left | operand | args | object | target | fields | condition | scrutinee | tested | unwrapped
  | arg | field | first | initializer | assigned | returned | exprStmt | blockStmt | ifStmt
  | rangeFirst => exact hscope
  | block => exact hscope.child
  | right _ h | position h | arms h | laterArgs h | laterFields h | place _ h | rangeLast h =>
    exact hscope.of_moves (c.expr_moves _ _ h)
  | guarded _ h =>
    have hmid := hscope.of_moves (c.expr_moves _ _ h)
    exact hmid
  | @callee callee es loc ret flow infos flow' _ h =>
    have hpart : ∀ e ∈ es, (Node.expr (.call callee es loc)).Has (.expr e) := fun _ he => .arg he
    exact hscope.of_moves (c.args_moves es ret hpart h)
  | thenBranch h => exact (hscope.of_moves (c.expr_moves _ _ h)).child
  | elseBranch h ht =>
    have hmid := hscope.of_moves (c.expr_moves _ _ h)
    exact (hmid.of_moves (Checker.nested_moves _ (c.expr_moves _ _).notes ht)).child
  | arm h => exact Checker.bindPattern_known hscope htracked h
  | laterArms h => exact hscope.of_moves (c.matchArm_moves _ (c.expr_moves _ _) h)
  | later h => exact (c.stmt_known _ _ (htracked.step .first) hscope h).2
  | function => exact Checker.fnStart_known hglobals htracked
  | whileCondition => exact hscope.loopStart
  | whileBody h =>
    have hstart := hscope.loopStart.of_moves (c.expr_moves _ _ h)
    exact hstart
  | forBody hlow hhigh =>
    have hmid := hscope.of_moves (c.expr_moves _ _ hlow)
    have hstart := hmid.of_moves (c.expr_moves _ _ hhigh)
    exact hstart.loopStart.declare _ Checker.iteratorInfo_known Checker.iteratorInfo_known

theorem Reaches.known {c : Checker} {v w : Visit} (hglobals : c.globals.Known) (hr : Reaches c v w)
    (htracked : Tracked c v) (hscope : v.flow.scope.Known) : w.flow.scope.Known := by
  induction hr with
  | refl => exact hscope
  | tail hr hl ih => exact hl.known hglobals (htracked.of_reaches hr) ih

/-- Every statement of an accepted list is come to. -/
theorem reaches_stmt {c : Checker} {ss : List Stmt} {last : TypeInfo} {ret : Option TypeInfo}
    {flow : Flow} (h : Visit.Accepted c ⟨.stmts last ss, ret, flow⟩) {s : Stmt} (hs : s ∈ ss) :
    ∃ flow', Reaches c ⟨.stmts last ss, ret, flow⟩ ⟨.stmt s, ret, flow'⟩ := by
  induction ss generalizing last flow with
  | nil => cases hs
  | cons first rest ih =>
    obtain ⟨⟨t, after⟩, h⟩ := h
    obtain ⟨info, mid, hfirst, hrest⟩ := Checker.stmts_cons_ok h
    rcases List.mem_cons.mp hs with rfl | hs
    · exact ⟨flow, .single .first⟩
    · obtain ⟨flow', hreach⟩ := ih ⟨_, hrest⟩ hs
      exact ⟨flow', .head (.later hfirst) hreach⟩

/-- A statement that declares an annotated variable. -/
inductive Stmt.Annotates (g : Global) : Stmt → Prop where
  | letDecl {value loc} : Annotates g (.letDecl g.name (some g.type) value loc)
  | foreignLet {loc} : Annotates g (.foreignLet g.name g.type loc)

namespace Declarations

theorem mem_globals_add {d : Declarations} {s : Stmt} {g : Global} (h : g ∈ (d.add s).globals) :
    g ∈ d.globals ∨ s.Annotates g := by
  cases s with
  | letDecl name type value loc =>
    cases type with
    | none => exact .inl h
    | some type =>
      rcases List.mem_append.mp h with hold | hnew
      · exact .inl hold
      · cases List.mem_singleton.mp hnew
        exact .inr .letDecl
  | foreignLet name type loc =>
    rcases List.mem_append.mp h with hold | hnew
    · exact .inl hold
    · cases List.mem_singleton.mp hnew
      exact .inr .foreignLet
  | _ => exact .inl h

theorem mem_globals_foldl {body : List Stmt} {d : Declarations} {g : Global}
    (h : g ∈ (body.foldl add d).globals) : g ∈ d.globals ∨ ∃ s ∈ body, s.Annotates g := by
  induction body generalizing d with
  | nil => exact .inl h
  | cons s rest ih =>
    rcases ih h with hadd | ⟨s', hs', hg⟩
    · refine (mem_globals_add hadd).imp_right fun hg => ?_
      exact ⟨s, List.mem_cons_self .., hg⟩
    · exact .inr ⟨s', List.mem_cons_of_mem _ hs', hg⟩

theorem mem_globals {program : Program} {g : Global} (h : g ∈ (ofProgram program).globals) :
    ∃ s ∈ program.body, s.Annotates g :=
  (mem_globals_foldl h).resolve_left List.not_mem_nil

end Declarations

theorem Program.globals_known {program : Program} {strict : Bool}
    (haccepted : program.check strict = .ok ())
    (htracked : Tracked (program.checker strict) (program.visit strict)) :
    (program.checker strict).globals.Known := by
  have hempty : Scope.empty.Known := fun _ _ hb => by cases hb
  refine hempty.declareAll fun g hg => Declarations.resolve_known _ ?_
  obtain ⟨s, hs, hdeclares⟩ := Declarations.mem_globals hg
  obtain ⟨flow, hreach⟩ := reaches_stmt (Program.visit_accepted haccepted) hs
  have hs := htracked _ hreach
  by_contra hunknown
  have hunknown := eq_true_of_ne_false hunknown
  cases hdeclares with
  | letDecl => exact hs (.annotated hunknown)
  | foreignLet => exact hs (.foreignLet hunknown)

end TuffSafety
