import TuffSafety.Proofs.KnownTypes

/-!
# Properties of types that a check keeps

A check makes types in a few ways: from names and literals, by narrowing, widening and joining, and by
giving bounds to the result of an operation. A property that all of these give or keep is called
closed. It then holds of every declared type, of everything that a name, an expression or a statement
is found to be in a scope where it holds, and of all that the scope holds afterwards. In the check of
a program it holds at every call.
-/
namespace TuffSafety

/-- A property of types that is about the name, the bounds and zero only, and that every way of making
a type gives or keeps. -/
structure TypeInfo.Closed (P : TypeInfo → Prop) : Prop where
  congr : ∀ {t u : TypeInfo}, P t → u.name = t.name → u.min = t.min → u.max = t.max →
    u.nonZero = t.nonZero → P u
  bare : ∀ name, P (.bare name)
  named : ∀ name, P (.named name)
  literal : ∀ name n, P (.literal name n)
  bounded : ∀ name nonZero min max, P (withBounds { TypeInfo.bare name with nonZero } min max)
  narrow : ∀ {t} p, P t → P (t.narrow p)
  widened : ∀ {t}, P t → P t.widened
  join : ∀ {t u}, P t → P u → P (t.join u)
  pointer : ∀ {t} (mutable nonZero : Bool), P t →
    P { t with name := (if mutable then "*mut " else "*") ++ t.name, nonZero }

variable {P : TypeInfo → Prop}

/-! ### Declared types -/

namespace TypeExpr

theorem resolve_closed (hP : TypeInfo.Closed P) {meaning : String → TypeInfo}
    (hmeaning : ∀ name, P (meaning name)) : ∀ type : TypeExpr, P (type.resolve meaning)
  | named name _ => hmeaning name
  | refined base op value => by
    rw [resolve]
    split
    · exact hP.narrow _ (resolve_closed hP hmeaning base)
    · exact resolve_closed hP hmeaning base
  | union _ _ => hP.congr (hP.bare _) rfl rfl rfl rfl
  | array _ _ _ => hP.congr (hP.bare "Array") rfl rfl rfl rfl
  | pointer mutable target => hP.pointer mutable _ (resolve_closed hP hmeaning target)
  | tuple _ => hP.bare _

end TypeExpr

namespace Declarations

theorem aliasMeaning_closed (hP : TypeInfo.Closed P) (name : String) {target : TypeInfo}
    (h : P target) : P (aliasMeaning name target) := by
  unfold aliasMeaning
  split
  · exact hP.congr (hP.named name) rfl rfl rfl rfl
  · split
    · exact hP.named name
    · exact h

theorem meaning_closed (hP : TypeInfo.Closed P) (d : Declarations) (depth : Nat)
    (visited : List String) (name : String) : P (d.meaning depth visited name) := by
  induction depth generalizing visited name with
  | zero => exact hP.named name
  | succ depth ih =>
    rw [meaning]
    split
    · split
      · exact hP.named name
      · exact aliasMeaning_closed hP name (TypeExpr.resolve_closed hP (ih _) _)
    · exact hP.named name

theorem resolve_closed (hP : TypeInfo.Closed P) (d : Declarations) (type : TypeExpr) :
    P (d.resolve type) :=
  TypeExpr.resolve_closed hP (fun _ => d.meaning_closed hP _ _ _) type

theorem resolve?_closed (hP : TypeInfo.Closed P) (d : Declarations) (type : Option TypeExpr) :
    P (d.resolve? type) := by
  cases type with
  | some type => exact d.resolve_closed hP type
  | none => exact hP.bare _

end Declarations

/-! ### Scopes -/

/-- Everything that a scope holds has the property, shadowed or not. -/
def Scope.Each (P : TypeInfo → Prop) (s : Scope) : Prop :=
  ∀ f ∈ s.frames, ∀ name b, f.bindings.get? name = some b → P b.declared ∧ P b.current

namespace Scope.Each

variable {s : Scope} {name : String}

theorem empty : Scope.empty.Each P := by
  intro f hf
  cases hf

theorem get? {b : Binding} (h : s.Each P) (hb : s.get? name = some b) : P b.declared ∧ P b.current := by
  obtain ⟨f, hf, hname⟩ := List.exists_of_findSome?_eq_some hb
  exact h f hf name b hname

theorem child (h : s.Each P) : s.child.Each P := by
  intro f hf key b hb
  rcases List.mem_cons.mp hf with rfl | hf
  · cases hb
  · exact h f hf key b hb

/-- A new binding goes into the innermost frame; the other frames stay. -/
theorem modifyHead {change : Frame → Frame} {b : Binding} (h : s.Each P)
    (hchange : ∀ f : Frame, (change f).bindings = f.bindings.insert name b)
    (hb : P b.declared ∧ P b.current) : (s.modifyHead change).Each P := by
  have hframe : ∀ f : Frame,
      (∀ key b, f.bindings.get? key = some b → P b.declared ∧ P b.current) →
        ∀ key b, (change f).bindings.get? key = some b → P b.declared ∧ P b.current := by
    intro f hf key b' hb'
    rw [hchange, OrderedMap.get?_insert] at hb'
    split at hb'
    · cases hb'
      exact hb
    · exact hf key b' hb'
  obtain ⟨frames⟩ := s
  intro f hf
  cases frames with
  | nil =>
    cases List.mem_singleton.mp hf
    refine hframe {} fun key b' hb' => ?_
    cases hb'
  | cons first rest =>
    rcases List.mem_cons.mp hf with rfl | hf
    · exact hframe first (h first List.mem_cons_self)
    · exact h f (List.mem_cons_of_mem _ hf)

theorem declare {b : Binding} (h : s.Each P) (hb : P b.declared ∧ P b.current) :
    (s.declare name b).Each P :=
  h.modifyHead (fun _ => rfl) hb

theorem declareAll {α : Type} {key : α → String} {type : α → TypeInfo} {xs : List α} (h : s.Each P)
    (hx : ∀ x, P (type x)) :
    (xs.foldl (fun s x => s.declare (key x) (.fixed (type x))) s).Each P := by
  induction xs generalizing s with
  | nil => exact h
  | cons x rest ih => exact ih (h.declare ⟨hx x, hx x⟩)

theorem update {t : TypeInfo} (h : s.Each P) (ht : P t) : (s.update name t).Each P := by
  unfold Scope.update
  split
  · rename_i b hb
    exact h.modifyHead (fun _ => rfl) ⟨(h.get? hb).1, ht⟩
  · exact h

theorem widen (h : s.Each P) : (s.widen name).Each P := by
  unfold Scope.widen
  split
  · rename_i b hb
    exact h.update (h.get? hb).1
  · exact h

theorem widenAll (h : s.Each P) (names : List String) : (s.widenAll names).Each P := by
  unfold Scope.widenAll
  induction names generalizing s with
  | nil => exact h
  | cons name rest ih => exact ih h.widen

theorem settle {flow : Flow} (h : flow.scope.Each P) (inner : Flow) :
    (flow.settle inner).scope.Each P :=
  h.widenAll _

theorem loopStart {flow : Flow} (h : flow.scope.Each P) (body : Block) :
    (Checker.loopStart body flow).scope.Each P := by
  have hchild : flow.child.scope.Each P := h.child
  exact hchild.widenAll _

end Scope.Each

/-! ### Rules -/

namespace Checker

variable {c : Checker} {loc : Option Loc} {flow flow' : Flow} {t u : TypeInfo}

theorem lookup_closed (hP : TypeInfo.Closed P) (c : Checker) (name : String)
    (hscope : flow.scope.Each P) : P (c.lookup name flow) := by
  unfold lookup
  split
  · rename_i b hb
    have hcurrent := (hscope.get? hb).2
    split
    · exact hP.narrow _ hcurrent
    · exact hcurrent
  · split
    · exact hP.bare _
    · split <;> exact hP.bare _

theorem arithmetic_closed (hP : TypeInfo.Closed P) {op : BinaryOp} {left right : TypeInfo}
    (h : c.arithmetic op left right loc = .ok t) : P t := by
  rcases arithmetic_ok h with ⟨_, _, ⟨_, rfl⟩ | rfl⟩ | ⟨_, _, ⟨_, rfl⟩ | rfl⟩
  · exact hP.bare _
  · exact hP.bare _
  · exact hP.bare _
  · exact hP.bounded _ false _ _

theorem unary_closed (hP : TypeInfo.Closed P) {op : UnaryOp} (ht : P t)
    (h : unary op t loc = .ok u) : P u := by
  cases op with
  | not =>
    unfold unary at h
    dsimp only at h
    split at h
    · cases h
      exact hP.bare _
    · cases h
  | neg =>
    unfold unary at h
    dsimp only at h
    split at h
    · cases h
      exact ht
    · split at h
      · cases h
        exact hP.bounded _ _ _ _
      · cases h
  | ref =>
    cases h
    exact hP.congr (hP.pointer false true ht) rfl rfl rfl rfl
  | refMut =>
    cases h
    exact hP.congr (hP.pointer true true ht) rfl rfl rfl rfl

theorem call_closed (hP : TypeInfo.Closed P) {sig : FnSignature}
    {infos : List (TypeInfo × Option Loc)} (h : c.call sig infos loc = .ok t) : P t := by
  rw [call_type h]
  exact c.decls.resolve?_closed hP _

theorem field_closed (hP : TypeInfo.Closed P) {decl : StructDecl} {name : String}
    (h : c.field decl name loc = .ok t) : P t := by
  unfold field at h
  split at h
  · cases h
    exact c.decls.resolve_closed hP _
  · cases h

theorem member_closed (hP : TypeInfo.Closed P) {object : TypeInfo} {property : String}
    (h : c.member object property loc = .ok t) : P t := by
  unfold member at h
  split at h
  · cases h
  split at h
  · cases h
    exact hP.bounded "USize" false _ _
  split at h
  · exact field_closed hP h
  · cases h
    exact hP.bare _

theorem index_closed (hP : TypeInfo.Closed P) {target position : TypeInfo}
    (h : c.index target position loc = .ok t) : P t := by
  have hunknown : t = .unknown := by
    unfold index at h
    repeat' split at h
    all_goals cases h
    all_goals rfl
  rw [hunknown]
  exact hP.bare _

theorem bindFields_closed (hP : TypeInfo.Closed P) {struct : String} {fields : List PatternField}
    (hscope : flow.scope.Each P) (h : c.bindFields struct loc fields flow = .ok flow') :
    flow'.scope.Each P := by
  induction fields generalizing flow with
  | nil =>
    cases h
    exact hscope
  | cons f rest ih =>
    rw [bindFields] at h
    split at h
    · obtain ⟨info, hinfo, h⟩ := bind_eq_ok.mp h
      have hfield := field_closed hP hinfo
      exact ih (hscope.declare ⟨hfield, hfield⟩) h
    · exact ih (hscope.declare ⟨hP.bare _, hP.bare _⟩) h

theorem bindPattern_closed (hP : TypeInfo.Closed P) {pattern : Pattern}
    (hscope : flow.scope.Each P) (h : c.bindPattern pattern loc flow = .ok flow') :
    flow'.scope.Each P := by
  cases pattern with
  | struct name fields => exact bindFields_closed hP hscope h
  | _ =>
    cases h
    exact hscope

theorem fnStart_closed (hP : TypeInfo.Closed P) (hglobals : c.globals.Each P) (params : List Param) :
    (c.fnStart params).scope.Each P :=
  hglobals.child.declareAll fun _ => c.decls.resolve?_closed hP _

theorem declare_closed (hP : TypeInfo.Closed P) {name : String} {type : Option TypeExpr}
    (hscope : flow.scope.Each P) (ht : P t) (h : c.declare name type t loc flow = .ok flow') :
    flow'.scope.Each P := by
  obtain ⟨b, rfl, hb⟩ := declare_ok h
  refine hscope.declare ?_
  cases type with
  | none =>
    cases hb
    exact ⟨hP.widened ht, ht⟩
  | some type =>
    obtain ⟨_, rfl⟩ := hb
    have htype := c.decls.resolve_closed hP type
    exact ⟨htype, hP.narrow _ htype⟩

theorem assign_closed (hP : TypeInfo.Closed P) {name : String} (hscope : flow.scope.Each P)
    (h : c.assign name t loc flow = .ok flow') : flow'.scope.Each P := by
  rcases assign_ok h with ⟨_, rfl⟩ | ⟨b, hb, _, rfl⟩
  · exact hscope
  · exact hscope.update (hP.narrow _ (hscope.get? hb).1)

theorem iteratorInfo_closed (hP : TypeInfo.Closed P) : P iteratorInfo :=
  hP.bounded "I32" false _ _

/-! ### Expressions and statements -/

/-- From a scope that has the property, a part gives a type that has it and leaves a scope that does. -/
def StepKeeps (P : TypeInfo → Prop) (step : Step) : Prop :=
  ∀ ⦃flow t flow'⦄, flow.scope.Each P → step flow = .ok (t, flow') → P t ∧ flow'.scope.Each P

theorem nested_keeps {body : Step} (learned : Facts) (hbody : StepKeeps P body) :
    StepKeeps P (nested learned body) := by
  intro flow t flow' hscope h
  obtain ⟨inner, hb, rfl⟩ := nested_ok h
  have hstart : (flow.under learned).scope.Each P := hscope.child
  exact ⟨(hbody hstart hb).1, hscope.settle inner⟩

theorem shortCircuit_keeps (hP : TypeInfo.Closed P) {op : BinaryOp} {left right : Expr}
    {first second : Step} (hfirst : StepKeeps P first) (hsecond : StepKeeps P second) :
    StepKeeps P (shortCircuit op left right loc first second) := by
  intro flow t flow' hscope h
  obtain ⟨l, mid, r, inner, hl, hr, hlogical, rfl⟩ := shortCircuit_ok h
  have hmid : (mid.learn (Facts.derive left (op = .and))).scope.Each P := (hfirst hscope hl).2
  rw [logical_ok hlogical]
  exact ⟨hP.bare _, (hsecond hmid hr).2⟩

theorem ifElse_keeps (hP : TypeInfo.Closed P) {condition : Expr} {first second : Step}
    {otherwise : Option Step} (hfirst : StepKeeps P first) (hsecond : StepKeeps P second)
    (helse : ∀ step ∈ otherwise, StepKeeps P step) :
    StepKeeps P (ifElse condition loc first second otherwise) := by
  intro flow t flow' hscope h
  cases otherwise with
  | none =>
    obtain ⟨tested, mid, thenInfo, after, hc, ht, rfl, rfl⟩ := ifElse_ok h
    exact ⟨hP.bare _, (nested_keeps _ hsecond (hfirst hscope hc).2 ht).2⟩
  | some step =>
    obtain ⟨tested, mid, thenInfo, after, hc, ht, elseInfo, he, rfl⟩ := ifElse_ok h
    obtain ⟨hthen, hafter⟩ := nested_keeps _ hsecond (hfirst hscope hc).2 ht
    obtain ⟨helse, hlast⟩ := nested_keeps _ (helse step rfl) hafter he
    exact ⟨hP.join hthen helse, hlast⟩

theorem matchArm_keeps (hP : TypeInfo.Closed P) {pattern : Pattern} {body : Step}
    (hbody : StepKeeps P body) : StepKeeps P (c.matchArm pattern loc body) := by
  intro flow t flow' hscope h
  obtain ⟨start, hstart, h⟩ := bind_eq_ok.mp h
  obtain ⟨⟨result, inner⟩, hb, h⟩ := bind_eq_ok.mp h
  cases h
  have hchild : flow.child.scope.Each P := hscope.child
  exact ⟨(hbody (bindPattern_closed hP hchild hstart) hb).1, hscope.settle inner⟩

/-- Of a statement that has no value, only the scope behind it has to be looked at. -/
theorem quiet_keeps (hP : TypeInfo.Closed P) {s : Stmt} {ret : Option TypeInfo}
    (hs : s.hasValue = false)
    (h : ∀ ⦃flow t flow'⦄, flow.scope.Each P → c.stmt s ret flow = .ok (t, flow') →
      flow'.scope.Each P) : StepKeeps P (c.stmt s ret) := by
  intro flow t flow' hscope hstmt
  rw [stmt_void hs hstmt]
  exact ⟨hP.bare _, h hscope hstmt⟩

mutual

theorem expr_keeps (hP : TypeInfo.Closed P) (c : Checker) (ret : Option TypeInfo) :
    ∀ e, StepKeeps P (c.expr e ret)
  | .number .. => by
    intro flow t flow' hscope h
    cases h
    exact ⟨hP.literal _ _, hscope⟩
  | .float .. | .bool .. | .string .. | .char .. => by
    intro flow t flow' hscope h
    cases h
    exact ⟨hP.bare _, hscope⟩
  | .ident name _ => by
    intro flow t flow' hscope h
    cases h
    exact ⟨c.lookup_closed hP name hscope, hscope⟩
  | .binary op left right loc => by
    intro flow t flow' hscope h
    cases hop : op.isLogical with
    | true =>
      rw [expr, if_pos hop] at h
      exact shortCircuit_keeps hP (expr_keeps hP c ret left) (expr_keeps hP c ret right) hscope h
    | false =>
      obtain ⟨l, mid, r, hl, hr, hresult⟩ := expr_binary_ok hop h
      have hmid := (expr_keeps hP c ret left hscope hl).2
      refine ⟨?_, (expr_keeps hP c ret right hmid hr).2⟩
      rcases hresult with ⟨_, rfl⟩ | ⟨_, harithmetic⟩
      · exact hP.bare _
      · exact arithmetic_closed hP harithmetic
  | .unary op operand loc => by
    intro flow t flow' hscope h
    obtain ⟨info, he, hunary⟩ := expr_unary_ok h
    obtain ⟨hinfo, hlast⟩ := expr_keeps hP c ret operand hscope he
    exact ⟨unary_closed hP hinfo hunary, hlast⟩
  | .call callee args loc => by
    intro flow t flow' hscope h
    rw [expr] at h
    obtain ⟨⟨infos, mid⟩, hargs, h⟩ := bind_eq_ok.mp h
    have hmid := args_keeps hP c ret loc args hscope hargs
    have hcallee := expr_keeps hP c ret callee
    cases callee with
    | ident name place =>
      dsimp only at h
      split at h
      · obtain ⟨result, hcall, h⟩ := bind_eq_ok.mp h
        cases h
        exact ⟨call_closed hP hcall, hmid⟩
      · cases h
        exact ⟨hP.bare _, hmid⟩
    | _ =>
      obtain ⟨⟨info, last⟩, he, h⟩ := bind_eq_ok.mp h
      cases h
      exact ⟨hP.bare _, (hcallee hmid he).2⟩
  | .member object property loc => by
    intro flow t flow' hscope h
    rw [expr] at h
    obtain ⟨⟨info, last⟩, ho, h⟩ := bind_eq_ok.mp h
    obtain ⟨result, hmember, h⟩ := bind_eq_ok.mp h
    cases h
    exact ⟨member_closed hP hmember, (expr_keeps hP c ret object hscope ho).2⟩
  | .index target position loc => by
    intro flow t flow' hscope h
    obtain ⟨array, mid, place, ht, hp, hindex⟩ := expr_index_ok h
    have hmid := (expr_keeps hP c ret target hscope ht).2
    exact ⟨index_closed hP hindex, (expr_keeps hP c ret position hmid hp).2⟩
  | .structInit name fields loc => by
    intro flow t flow' hscope h
    rw [expr] at h
    split at h
    · cases h
    · obtain ⟨last, hfields, h⟩ := bind_eq_ok.mp h
      cases h
      exact ⟨hP.bare _, fieldInits_keeps hP c ret _ loc fields hscope hfields⟩
  | .ite condition thenBranch elseBranch loc => by
    intro flow t flow' hscope h
    rw [expr] at h
    exact ifElse_keeps hP (expr_keeps hP c ret condition) (expr_keeps hP c ret thenBranch)
      (expr?_keeps hP c ret elseBranch) hscope h
  | .matchOn target cs loc => by
    intro flow t flow' hscope h
    rw [expr] at h
    obtain ⟨⟨info, mid⟩, ht, h⟩ := bind_eq_ok.mp h
    obtain ⟨_, _, h⟩ := bind_eq_ok.mp h
    have hnone : ∀ t ∈ (none : Option TypeInfo), P t := fun _ hmem => by cases hmem
    exact matchCases_keeps hP c ret loc cs hnone (expr_keeps hP c ret target hscope ht).2 h
  | .isPattern operand _ _ => by
    intro flow t flow' hscope h
    rw [expr] at h
    obtain ⟨⟨info, last⟩, he, h⟩ := bind_eq_ok.mp h
    cases h
    exact ⟨hP.bare _, (expr_keeps hP c ret operand hscope he).2⟩
  | .unwrap operand _ => by
    intro flow t flow' hscope h
    rw [expr] at h
    exact expr_keeps hP c ret operand hscope h
  | .block ⟨ss, _⟩ => by
    intro flow t flow' hscope h
    rw [expr] at h
    exact nested_keeps .empty (stmts_keeps hP c ret ss (hP.bare _)) hscope h

theorem expr?_keeps (hP : TypeInfo.Closed P) (c : Checker) (ret : Option TypeInfo) :
    ∀ e, ∀ step ∈ c.expr? e ret, StepKeeps P step
  | some e, step, hstep => by
    cases hstep
    exact expr_keeps hP c ret e
  | none, step, hstep => by
    cases hstep

theorem args_keeps (hP : TypeInfo.Closed P) (c : Checker) (ret : Option TypeInfo)
    (loc : Option Loc) : ∀ es {flow infos flow'}, flow.scope.Each P →
      c.args es ret loc flow = .ok (infos, flow') → flow'.scope.Each P
  | [], flow, infos, flow', hscope, h => by
    cases h
    exact hscope
  | e :: es, flow, infos, flow', hscope, h => by
    obtain ⟨info, mid, rest, he, hes, _⟩ := args_cons_ok h
    exact args_keeps hP c ret loc es (expr_keeps hP c ret e hscope he).2 hes

theorem fieldInits_keeps (hP : TypeInfo.Closed P) (c : Checker) (ret : Option TypeInfo)
    (decl : StructDecl) (loc : Option Loc) : ∀ fs {flow flow'}, flow.scope.Each P →
      c.fieldInits decl loc fs ret flow = .ok flow' → flow'.scope.Each P
  | [], flow, flow', hscope, h => by
    cases h
    exact hscope
  | ⟨key, value⟩ :: fs, flow, flow', hscope, h => by
    obtain ⟨info, mid, _, _, he, _, hfs⟩ := fieldInits_cons_ok h
    exact fieldInits_keeps hP c ret decl loc fs (expr_keeps hP c ret value hscope he).2 hfs

theorem matchCases_keeps (hP : TypeInfo.Closed P) (c : Checker) (ret : Option TypeInfo)
    (loc : Option Loc) : ∀ cs {joined}, (∀ t ∈ joined, P t) →
      StepKeeps P (c.matchCases loc cs ret joined)
  | [], joined, hjoined => by
    intro flow t flow' hscope h
    cases h
    refine ⟨?_, hscope⟩
    cases joined with
    | some previous => exact hjoined previous rfl
    | none => exact hP.bare _
  | ⟨pattern, body⟩ :: cs, joined, hjoined => by
    intro flow t flow' hscope h
    obtain ⟨info, mid, harm, hcs⟩ := matchCases_cons_ok h
    obtain ⟨hinfo, hmid⟩ := matchArm_keeps hP (expr_keeps hP c ret body) hscope harm
    refine matchCases_keeps hP c ret loc cs ?_ hmid hcs
    intro next hnext
    cases hnext
    cases joined with
    | none => exact hinfo
    | some previous => exact hP.join (hjoined previous rfl) hinfo

theorem stmts_keeps (hP : TypeInfo.Closed P) (c : Checker) (ret : Option TypeInfo) :
    ∀ ss {last}, P last → StepKeeps P (c.stmts ss ret last)
  | [], last, hlast => by
    intro flow t flow' hscope h
    cases h
    exact ⟨hlast, hscope⟩
  | s :: ss, last, _ => by
    intro flow t flow' hscope h
    obtain ⟨info, mid, hs, hss⟩ := stmts_cons_ok h
    obtain ⟨hinfo, hmid⟩ := stmt_keeps hP c ret s hscope hs
    exact stmts_keeps hP c ret ss hinfo hmid hss

theorem stmt_keeps (hP : TypeInfo.Closed P) (c : Checker) (ret : Option TypeInfo) :
    ∀ s, StepKeeps P (c.stmt s ret)
  | .fnDecl _ => quiet_keeps hP rfl fun flow t flow' hscope h => by
    rw [stmt] at h
    obtain ⟨_, _, h⟩ := bind_eq_ok.mp h
    cases h
    exact hscope
  | .letDecl name type value loc => quiet_keeps hP rfl fun flow t flow' hscope h => by
    obtain ⟨info, mid, hv, hd⟩ := letDecl_ok h
    obtain ⟨hinfo, hmid⟩ := expr_keeps hP c ret value hscope hv
    exact declare_closed hP hmid hinfo hd
  | .assign target value loc => quiet_keeps hP rfl fun flow t flow' hscope h => by
    have hvalue := expr_keeps hP c ret value
    have htarget := expr_keeps hP c ret target
    cases target with
    | ident name place =>
      obtain ⟨info, mid, hv, ha⟩ := assign_ident_ok h
      exact assign_closed hP (hvalue hscope hv).2 ha
    | _ =>
      rw [stmt] at h
      obtain ⟨⟨info, mid⟩, hv, h⟩ := bind_eq_ok.mp h
      obtain ⟨⟨place, last⟩, ht, h⟩ := bind_eq_ok.mp h
      cases h
      exact (htarget (hvalue hscope hv).2 ht).2
  | .ret none loc => quiet_keeps hP rfl fun flow t flow' hscope h => by
    rw [stmt] at h
    obtain ⟨_, _, h⟩ := bind_eq_ok.mp h
    cases h
    exact hscope
  | .ret (some value) loc => quiet_keeps hP rfl fun flow t flow' hscope h => by
    rw [stmt] at h
    obtain ⟨⟨info, last⟩, hv, h⟩ := bind_eq_ok.mp h
    obtain ⟨_, _, h⟩ := bind_eq_ok.mp h
    cases h
    exact (expr_keeps hP c ret value hscope hv).2
  | .expr e _ => by
    intro flow t flow' hscope h
    rw [stmt] at h
    exact expr_keeps hP c ret e hscope h
  | .block ⟨ss, _⟩ => by
    intro flow t flow' hscope h
    rw [stmt] at h
    exact nested_keeps .empty (stmts_keeps hP c ret ss (hP.bare _)) hscope h
  | .ite condition thenBranch elseBranch loc => by
    intro flow t flow' hscope h
    rw [stmt] at h
    exact ifElse_keeps hP (expr_keeps hP c ret condition) (expr_keeps hP c ret thenBranch)
      (expr?_keeps hP c ret elseBranch) hscope h
  | .whileLoop condition body loc => quiet_keeps hP rfl fun flow t flow' hscope h => by
    obtain ⟨tested, start, result, inner, _, _, rfl⟩ := whileLoop_stmt_ok h
    exact hscope.settle inner
  | .forLoop iterator first last body loc => quiet_keeps hP rfl fun flow t flow' hscope h => by
    obtain ⟨low, mid, hl, high, start, hh, result, inner, _, rfl⟩ := forLoop_stmt_ok h
    have hmid := (expr_keeps hP c ret first hscope hl).2
    exact (expr_keeps hP c ret last hmid hh).2.settle inner
  | .foreignFn _ | .structDecl _ | .enumDecl _ | .typeAlias .. | .foreignType .. | .foreignLet ..
  | .breakLoop _ | .continueLoop _ => by
    intro flow t flow' hscope h
    cases h
    exact ⟨hP.bare _, hscope⟩

end

end Checker

/-! ### Runs of the checker -/

/-- The types that a call is handed along with its part. -/
def Part.types : Part → List TypeInfo
  | .arms _ joined _ => joined.toList
  | .stmts last _ => [last]
  | _ => []

/-- Every type that a call is given has the property. -/
structure Visit.Each (P : TypeInfo → Prop) (v : Visit) : Prop where
  scope : v.flow.scope.Each P
  part : ∀ t ∈ v.part.types, P t
  ret : ∀ t ∈ v.ret, P t

theorem Leads.each (hP : TypeInfo.Closed P) {c : Checker} {v w : Visit} (hglobals : c.globals.Each P)
    (hl : Leads c v w) (hv : v.Each P) : w.Each P := by
  obtain ⟨hscope, hpart, hret⟩ := hv
  have hnone : ∀ t ∈ ([] : List TypeInfo), P t := fun t ht => by cases ht
  have hvoid : ∀ t ∈ [TypeInfo.void], P t := List.forall_mem_singleton.mpr (hP.bare _)
  cases hl with
  | left | operand | args | object | target | fields | condition | scrutinee | tested | unwrapped
  | arg | field | first | initializer | assigned | returned | exprStmt | blockStmt | ifStmt
  | rangeFirst => exact ⟨hscope, hnone, hret⟩
  | block => exact ⟨hscope.child, hvoid, hret⟩
  | right _ h | position h | arms h | laterArgs h | laterFields h | place _ h | rangeLast h =>
    exact ⟨(c.expr_keeps hP _ _ hscope h).2, hnone, hret⟩
  | guarded _ h => exact ⟨(c.expr_keeps hP _ _ hscope h).2, hnone, hret⟩
  | callee _ h => exact ⟨c.args_keeps hP _ _ _ hscope h, hnone, hret⟩
  | thenBranch h => exact ⟨(c.expr_keeps hP _ _ hscope h).2.child, hnone, hret⟩
  | elseBranch h ht =>
    have hmid := (c.expr_keeps hP _ _ hscope h).2
    have hafter := (Checker.nested_keeps _ (c.expr_keeps hP _ _) hmid ht).2
    exact ⟨hafter.child, hnone, hret⟩
  | arm h =>
    have hchild := hscope.child
    exact ⟨Checker.bindPattern_closed hP hchild h, hnone, hret⟩
  | @laterArms loc joined pattern body cs ret flow t flow' h =>
    obtain ⟨ht, hafter⟩ := Checker.matchArm_keeps hP (c.expr_keeps hP _ _) hscope h
    refine ⟨hafter, List.forall_mem_singleton.mpr ?_, hret⟩
    cases joined with
    | none => exact ht
    | some previous => exact hP.join (hpart previous List.mem_cons_self) ht
  | later h =>
    obtain ⟨ht, hafter⟩ := c.stmt_keeps hP _ _ hscope h
    exact ⟨hafter, List.forall_mem_singleton.mpr ht, hret⟩
  | function =>
    refine ⟨Checker.fnStart_closed hP hglobals _, hnone, fun t ht => ?_⟩
    obtain ⟨type, _, rfl⟩ := Option.map_eq_some_iff.mp ht
    exact c.decls.resolve_closed hP type
  | whileCondition => exact ⟨hscope.loopStart _, hnone, hret⟩
  | whileBody h => exact ⟨(c.expr_keeps hP _ _ (hscope.loopStart _) h).2, hnone, hret⟩
  | forBody hlow hhigh =>
    have hmid := (c.expr_keeps hP _ _ hscope hlow).2
    have hstart := (c.expr_keeps hP _ _ hmid hhigh).2
    have hiterator := Checker.iteratorInfo_closed hP
    exact ⟨(hstart.loopStart _).declare ⟨hiterator, hiterator⟩, hnone, hret⟩

/-- A closed property holds of all that the check of a program ever works with. -/
theorem Program.visit_each (hP : TypeInfo.Closed P) {program : Program} {strict : Bool} {v : Visit}
    (hr : Reaches (program.checker strict) (program.visit strict) v) : v.Each P := by
  have hglobals : (program.checker strict).globals.Each P :=
    Scope.Each.empty.declareAll fun _ => Declarations.resolve_closed hP _ _
  induction hr with
  | refl =>
    refine ⟨hglobals.child, List.forall_mem_singleton.mpr (hP.bare _), fun t ht => ?_⟩
    cases ht
  | tail _ hl ih => exact hl.each hP hglobals ih

end TuffSafety
