import Mathlib.Logic.Relation
import TuffSafety.Checker
import TuffSafety.Proofs.Elementary

/-!
# The parts that a check goes through

The checker is one recursion over a program. `Leads` lists its calls: a part, the return type of the
function around it and the flow in which the part is looked at. A part is accepted when its call
succeeds, and then every call below it has succeeded too. Properties of an accepted program can so
be read off one part at a time.
-/
namespace TuffSafety

/-- The flow where something more is known. -/
def Flow.learn (flow : Flow) (learned : Facts) : Flow :=
  { flow with facts := flow.facts.merge learned }

/-- The flow at the start of a nested part. -/
def Flow.under (flow : Flow) (learned : Facts) : Flow :=
  flow.child.learn learned

namespace Checker

theorem nested_ok {learned : Facts} {body : Step} {flow flow' : Flow} {t : TypeInfo}
    (h : nested learned body flow = .ok (t, flow')) :
    ∃ inner, body (flow.under learned) = .ok (t, inner) ∧ flow' = flow.settle inner := by
  obtain ⟨⟨t', inner⟩, hb, h⟩ := bind_eq_ok.mp h
  cases h
  exact ⟨inner, hb, rfl⟩

theorem shortCircuit_ok {op : BinaryOp} {left right : Expr} {loc : Option Loc}
    {inferLeft inferRight : Step} {flow flow' : Flow} {t : TypeInfo}
    (h : shortCircuit op left right loc inferLeft inferRight flow = .ok (t, flow')) :
    ∃ l mid r inner, inferLeft flow = .ok (l, mid) ∧
      inferRight (mid.learn (Facts.derive left (op = .and))) = .ok (r, inner) ∧
      logical op l r loc = .ok t ∧
      flow' = ⟨inner.scope, mid.facts.forgetAll right.assigned⟩ := by
  obtain ⟨⟨l, mid⟩, hl, h⟩ := bind_eq_ok.mp h
  obtain ⟨⟨r, inner⟩, hr, h⟩ := bind_eq_ok.mp h
  obtain ⟨result, ht, h⟩ := bind_eq_ok.mp h
  cases h
  exact ⟨l, mid, r, inner, hl, hr, ht, rfl⟩

theorem ifElse_ok {condition : Expr} {loc : Option Loc} {inferCondition inferThen : Step}
    {inferElse : Option Step} {flow flow' : Flow} {t : TypeInfo}
    (h : ifElse condition loc inferCondition inferThen inferElse flow = .ok (t, flow')) :
    ∃ tested mid thenInfo after, inferCondition flow = .ok (tested, mid) ∧
      nested (Facts.derive condition true) inferThen mid = .ok (thenInfo, after) ∧
      match inferElse with
      | some inferElse => ∃ elseInfo,
          nested (Facts.derive condition false) inferElse after = .ok (elseInfo, flow') ∧
          t = thenInfo.join elseInfo
      | none => flow' = after ∧ t = .bare thenInfo.name := by
  obtain ⟨⟨tested, mid⟩, hc, h⟩ := bind_eq_ok.mp h
  obtain ⟨_, _, h⟩ := bind_eq_ok.mp h
  obtain ⟨⟨thenInfo, after⟩, ht, h⟩ := bind_eq_ok.mp h
  refine ⟨tested, mid, thenInfo, after, hc, ht, ?_⟩
  cases inferElse with
  | some inferElse =>
    obtain ⟨⟨elseInfo, last⟩, he, h⟩ := bind_eq_ok.mp h
    cases h
    exact ⟨elseInfo, he, rfl⟩
  | none =>
    cases h
    exact ⟨rfl, rfl⟩

theorem whileLoop_ok {condition : Expr} {body : Block} {loc : Option Loc}
    {inferCondition inferBody : Step} {flow flow' : Flow} {t : TypeInfo}
    (h : whileLoop condition body loc inferCondition inferBody flow = .ok (t, flow')) :
    ∃ tested start result inner, inferCondition (loopStart body flow) = .ok (tested, start) ∧
      inferBody (start.learn (Facts.derive condition true)) = .ok (result, inner) ∧
      flow' = flow.settle inner := by
  obtain ⟨⟨tested, start⟩, hc, h⟩ := bind_eq_ok.mp h
  obtain ⟨_, _, h⟩ := bind_eq_ok.mp h
  obtain ⟨⟨result, inner⟩, hb, h⟩ := bind_eq_ok.mp h
  cases h
  exact ⟨tested, start, result, inner, hc, hb, rfl⟩

end Checker

/-- What one call of the checker looks at. -/
inductive Part where
  | expr (e : Expr)
  | args (loc : Option Loc) (es : List Expr)
  | fields (decl : StructDecl) (loc : Option Loc) (fs : List FieldInit)
  | arms (loc : Option Loc) (joined : Option TypeInfo) (cs : List MatchCase)
  | stmts (last : TypeInfo) (ss : List Stmt)
  | stmt (s : Stmt)

/-- A call of the checker. -/
structure Visit where
  part : Part
  ret : Option TypeInfo
  flow : Flow

/-- The call succeeds. -/
def Visit.Accepted (c : Checker) : Visit → Prop
  | ⟨.expr e, ret, flow⟩ => ∃ r, c.expr e ret flow = .ok r
  | ⟨.args loc es, ret, flow⟩ => ∃ r, c.args es ret loc flow = .ok r
  | ⟨.fields decl loc fs, ret, flow⟩ => ∃ r, c.fieldInits decl loc fs ret flow = .ok r
  | ⟨.arms loc joined cs, ret, flow⟩ => ∃ r, c.matchCases loc cs ret joined flow = .ok r
  | ⟨.stmts last ss, ret, flow⟩ => ∃ r, c.stmts ss ret last flow = .ok r
  | ⟨.stmt s, ret, flow⟩ => ∃ r, c.stmt s ret flow = .ok r

/-- A call makes another one directly. Where a part is looked at after another part, the flow is the
one that the earlier part left. -/
inductive Leads (c : Checker) : Visit → Visit → Prop where
  | left {op l r loc ret flow} : Leads c ⟨.expr (.binary op l r loc), ret, flow⟩ ⟨.expr l, ret, flow⟩
  | right {op l r loc ret flow t flow'} (hop : op.isLogical = false)
      (h : c.expr l ret flow = .ok (t, flow')) :
      Leads c ⟨.expr (.binary op l r loc), ret, flow⟩ ⟨.expr r, ret, flow'⟩
  | guarded {op l r loc ret flow t flow'} (hop : op.isLogical = true)
      (h : c.expr l ret flow = .ok (t, flow')) :
      Leads c ⟨.expr (.binary op l r loc), ret, flow⟩
        ⟨.expr r, ret, flow'.learn (Facts.derive l (op = .and))⟩
  | operand {op e loc ret flow} : Leads c ⟨.expr (.unary op e loc), ret, flow⟩ ⟨.expr e, ret, flow⟩
  | args {callee es loc ret flow} :
      Leads c ⟨.expr (.call callee es loc), ret, flow⟩ ⟨.args loc es, ret, flow⟩
  | callee {callee es loc ret flow infos flow'} (hc : ∀ name l, callee ≠ .ident name l)
      (h : c.args es ret loc flow = .ok (infos, flow')) :
      Leads c ⟨.expr (.call callee es loc), ret, flow⟩ ⟨.expr callee, ret, flow'⟩
  | object {object property loc ret flow} :
      Leads c ⟨.expr (.member object property loc), ret, flow⟩ ⟨.expr object, ret, flow⟩
  | target {target position loc ret flow} :
      Leads c ⟨.expr (.index target position loc), ret, flow⟩ ⟨.expr target, ret, flow⟩
  | position {target position loc ret flow t flow'} (h : c.expr target ret flow = .ok (t, flow')) :
      Leads c ⟨.expr (.index target position loc), ret, flow⟩ ⟨.expr position, ret, flow'⟩
  | fields {name fs loc ret flow decl} (h : c.decls.structs.get? name = some decl) :
      Leads c ⟨.expr (.structInit name fs loc), ret, flow⟩ ⟨.fields decl loc fs, ret, flow⟩
  | condition {cond t e loc ret flow} :
      Leads c ⟨.expr (.ite cond t e loc), ret, flow⟩ ⟨.expr cond, ret, flow⟩
  | thenBranch {cond t e loc ret flow tested mid} (h : c.expr cond ret flow = .ok (tested, mid)) :
      Leads c ⟨.expr (.ite cond t e loc), ret, flow⟩
        ⟨.expr t, ret, mid.under (Facts.derive cond true)⟩
  | elseBranch {cond t e loc ret flow tested mid thenInfo after}
      (h : c.expr cond ret flow = .ok (tested, mid))
      (ht : Checker.nested (Facts.derive cond true) (c.expr t ret) mid = .ok (thenInfo, after)) :
      Leads c ⟨.expr (.ite cond t (some e) loc), ret, flow⟩
        ⟨.expr e, ret, after.under (Facts.derive cond false)⟩
  | scrutinee {target cs loc ret flow} :
      Leads c ⟨.expr (.matchOn target cs loc), ret, flow⟩ ⟨.expr target, ret, flow⟩
  | arms {target cs loc ret flow t flow'} (h : c.expr target ret flow = .ok (t, flow')) :
      Leads c ⟨.expr (.matchOn target cs loc), ret, flow⟩ ⟨.arms loc none cs, ret, flow'⟩
  | tested {e pattern loc ret flow} :
      Leads c ⟨.expr (.isPattern e pattern loc), ret, flow⟩ ⟨.expr e, ret, flow⟩
  | unwrapped {e loc ret flow} : Leads c ⟨.expr (.unwrap e loc), ret, flow⟩ ⟨.expr e, ret, flow⟩
  | block {ss loc ret flow} :
      Leads c ⟨.expr (.block ⟨ss, loc⟩), ret, flow⟩ ⟨.stmts .void ss, ret, flow.under .empty⟩
  | arg {e es loc ret flow} : Leads c ⟨.args loc (e :: es), ret, flow⟩ ⟨.expr e, ret, flow⟩
  | laterArgs {e es loc ret flow t flow'} (h : c.expr e ret flow = .ok (t, flow')) :
      Leads c ⟨.args loc (e :: es), ret, flow⟩ ⟨.args loc es, ret, flow'⟩
  | field {decl loc key value fs ret flow} :
      Leads c ⟨.fields decl loc (⟨key, value⟩ :: fs), ret, flow⟩ ⟨.expr value, ret, flow⟩
  | laterFields {decl loc key value fs ret flow t flow'} (h : c.expr value ret flow = .ok (t, flow')) :
      Leads c ⟨.fields decl loc (⟨key, value⟩ :: fs), ret, flow⟩ ⟨.fields decl loc fs, ret, flow'⟩
  | arm {loc joined pattern body cs ret flow start}
      (h : c.bindPattern pattern loc flow.child = .ok start) :
      Leads c ⟨.arms loc joined (⟨pattern, body⟩ :: cs), ret, flow⟩ ⟨.expr body, ret, start⟩
  | laterArms {loc joined pattern body cs ret flow t flow'}
      (h : c.matchArm pattern loc (c.expr body ret) flow = .ok (t, flow')) :
      Leads c ⟨.arms loc joined (⟨pattern, body⟩ :: cs), ret, flow⟩
        ⟨.arms loc (some (joined.elim t fun previous => previous.join t)) cs, ret, flow'⟩
  | first {last s ss ret flow} : Leads c ⟨.stmts last (s :: ss), ret, flow⟩ ⟨.stmt s, ret, flow⟩
  | later {last s ss ret flow t flow'} (h : c.stmt s ret flow = .ok (t, flow')) :
      Leads c ⟨.stmts last (s :: ss), ret, flow⟩ ⟨.stmts t ss, ret, flow'⟩
  | function {name generics params returnType body exported loc ret flow} :
      Leads c ⟨.stmt (.fnDecl ⟨name, generics, params, returnType, some body, exported, loc⟩), ret,
        flow⟩ ⟨.expr body, returnType.map c.decls.resolve, c.fnStart params⟩
  | initializer {name type value loc ret flow} :
      Leads c ⟨.stmt (.letDecl name type value loc), ret, flow⟩ ⟨.expr value, ret, flow⟩
  | assigned {target value loc ret flow} :
      Leads c ⟨.stmt (.assign target value loc), ret, flow⟩ ⟨.expr value, ret, flow⟩
  | place {target value loc ret flow t flow'} (ht : ∀ name l, target ≠ .ident name l)
      (h : c.expr value ret flow = .ok (t, flow')) :
      Leads c ⟨.stmt (.assign target value loc), ret, flow⟩ ⟨.expr target, ret, flow'⟩
  | returned {value loc ret flow} :
      Leads c ⟨.stmt (.ret (some value) loc), ret, flow⟩ ⟨.expr value, ret, flow⟩
  | exprStmt {e loc ret flow} : Leads c ⟨.stmt (.expr e loc), ret, flow⟩ ⟨.expr e, ret, flow⟩
  | blockStmt {body ret flow} :
      Leads c ⟨.stmt (.block body), ret, flow⟩ ⟨.expr (.block body), ret, flow⟩
  | ifStmt {cond t e loc ret flow} :
      Leads c ⟨.stmt (.ite cond t e loc), ret, flow⟩ ⟨.expr (.ite cond t e loc), ret, flow⟩
  | whileCondition {cond body loc ret flow} :
      Leads c ⟨.stmt (.whileLoop cond body loc), ret, flow⟩
        ⟨.expr cond, ret, Checker.loopStart body flow⟩
  | whileBody {cond body loc ret flow tested start}
      (h : c.expr cond ret (Checker.loopStart body flow) = .ok (tested, start)) :
      Leads c ⟨.stmt (.whileLoop cond body loc), ret, flow⟩
        ⟨.expr (.block body), ret, start.learn (Facts.derive cond true)⟩
  | rangeFirst {iterator low high body loc ret flow} :
      Leads c ⟨.stmt (.forLoop iterator low high body loc), ret, flow⟩ ⟨.expr low, ret, flow⟩
  | rangeLast {iterator low high body loc ret flow t mid} (h : c.expr low ret flow = .ok (t, mid)) :
      Leads c ⟨.stmt (.forLoop iterator low high body loc), ret, flow⟩ ⟨.expr high, ret, mid⟩
  | forBody {iterator low high body loc ret flow t mid t' start}
      (hl : c.expr low ret flow = .ok (t, mid)) (hh : c.expr high ret mid = .ok (t', start)) :
      Leads c ⟨.stmt (.forLoop iterator low high body loc), ret, flow⟩
        ⟨.expr (.block body), ret,
          ⟨(Checker.loopStart body start).scope.declare iterator (.fixed Checker.iteratorInfo),
            (Checker.loopStart body start).facts.forget iterator⟩⟩

/-- A call makes another one, directly or through others. -/
def Reaches (c : Checker) : Visit → Visit → Prop :=
  Relation.ReflTransGen (Leads c)

namespace Checker

variable {c : Checker} {ret : Option TypeInfo} {flow flow' : Flow} {t : TypeInfo}

theorem expr_binary_ok {op : BinaryOp} {l r : Expr} {loc : Option Loc} (hop : op.isLogical = false)
    (h : c.expr (.binary op l r loc) ret flow = .ok (t, flow')) :
    ∃ left mid right, c.expr l ret flow = .ok (left, mid) ∧ c.expr r ret mid = .ok (right, flow') ∧
      (op.isComparison = true ∧ t = .bool ∨
        op.isComparison = false ∧ c.arithmetic op left right loc = .ok t) := by
  rw [expr, if_neg (by rw [hop]; decide)] at h
  obtain ⟨⟨left, mid⟩, hl, h⟩ := bind_eq_ok.mp h
  obtain ⟨⟨right, last⟩, hr, h⟩ := bind_eq_ok.mp h
  refine ⟨left, mid, right, hl, ?_⟩
  cases hcmp : op.isComparison with
  | true =>
    rw [hcmp] at h
    cases h
    exact ⟨hr, .inl ⟨rfl, rfl⟩⟩
  | false =>
    rw [hcmp] at h
    obtain ⟨result, ha, h⟩ := bind_eq_ok.mp h
    cases h
    exact ⟨hr, .inr ⟨rfl, ha⟩⟩

theorem expr_unary_ok {op : UnaryOp} {e : Expr} {loc : Option Loc}
    (h : c.expr (.unary op e loc) ret flow = .ok (t, flow')) :
    ∃ operand, c.expr e ret flow = .ok (operand, flow') ∧ unary op operand loc = .ok t := by
  rw [expr] at h
  obtain ⟨⟨operand, last⟩, he, h⟩ := bind_eq_ok.mp h
  obtain ⟨result, hu, h⟩ := bind_eq_ok.mp h
  cases h
  exact ⟨operand, he, hu⟩

theorem expr_index_ok {target position : Expr} {loc : Option Loc}
    (h : c.expr (.index target position loc) ret flow = .ok (t, flow')) :
    ∃ array mid place, c.expr target ret flow = .ok (array, mid) ∧
      c.expr position ret mid = .ok (place, flow') ∧ c.index array place loc = .ok t := by
  rw [expr] at h
  obtain ⟨⟨array, mid⟩, ht, h⟩ := bind_eq_ok.mp h
  obtain ⟨⟨place, last⟩, hp, h⟩ := bind_eq_ok.mp h
  obtain ⟨result, hi, h⟩ := bind_eq_ok.mp h
  cases h
  exact ⟨array, mid, place, ht, hp, hi⟩

theorem args_cons_ok {e : Expr} {es : List Expr} {loc : Option Loc}
    {infos : List (TypeInfo × Option Loc)} (h : c.args (e :: es) ret loc flow = .ok (infos, flow')) :
    ∃ info mid rest, c.expr e ret flow = .ok (info, mid) ∧
      c.args es ret loc mid = .ok (rest, flow') ∧ infos = (info, e.loc? <|> loc) :: rest := by
  rw [args] at h
  obtain ⟨⟨info, mid⟩, he, h⟩ := bind_eq_ok.mp h
  obtain ⟨⟨rest, last⟩, hes, h⟩ := bind_eq_ok.mp h
  cases h
  exact ⟨info, mid, rest, he, hes, rfl⟩

theorem fieldInits_cons_ok {decl : StructDecl} {loc : Option Loc} {key : String} {value : Expr}
    {fs : List FieldInit} (h : c.fieldInits decl loc (⟨key, value⟩ :: fs) ret flow = .ok flow') :
    ∃ info mid declared, decl.field? key = some declared ∧ c.expr value ret flow = .ok (info, mid) ∧
      c.requireAssignable (.field key decl.name) (c.decls.resolve declared.type) info
        (value.loc? <|> loc) = .ok () ∧
      c.fieldInits decl loc fs ret mid = .ok flow' := by
  rw [fieldInits] at h
  cases hf : decl.field? key with
  | none =>
    rw [hf] at h
    cases h
  | some declared =>
    rw [hf] at h
    obtain ⟨⟨info, mid⟩, he, h⟩ := bind_eq_ok.mp h
    obtain ⟨_, ha, h⟩ := bind_eq_ok.mp h
    exact ⟨info, mid, declared, rfl, he, ha, h⟩

theorem matchCases_cons_ok {loc : Option Loc} {joined : Option TypeInfo} {pattern : Pattern}
    {body : Expr} {cs : List MatchCase}
    (h : c.matchCases loc (⟨pattern, body⟩ :: cs) ret joined flow = .ok (t, flow')) :
    ∃ info mid, c.matchArm pattern loc (c.expr body ret) flow = .ok (info, mid) ∧
      c.matchCases loc cs ret (some (joined.elim info fun previous => previous.join info)) mid =
        .ok (t, flow') := by
  rw [matchCases] at h
  obtain ⟨⟨info, mid⟩, harm, h⟩ := bind_eq_ok.mp h
  refine ⟨info, mid, harm, ?_⟩
  cases joined <;> exact h

theorem stmts_cons_ok {s : Stmt} {ss : List Stmt} {last : TypeInfo}
    (h : c.stmts (s :: ss) ret last flow = .ok (t, flow')) :
    ∃ info mid, c.stmt s ret flow = .ok (info, mid) ∧ c.stmts ss ret info mid = .ok (t, flow') := by
  rw [stmts] at h
  obtain ⟨⟨info, mid⟩, hs, h⟩ := bind_eq_ok.mp h
  exact ⟨info, mid, hs, h⟩

theorem letDecl_ok {name : String} {type : Option TypeExpr} {value : Expr} {loc : Option Loc}
    (h : c.stmt (.letDecl name type value loc) ret flow = .ok (t, flow')) :
    ∃ info mid, c.expr value ret flow = .ok (info, mid) ∧
      c.declare name type info (value.loc? <|> loc) mid = .ok flow' := by
  rw [stmt] at h
  obtain ⟨⟨info, mid⟩, hv, h⟩ := bind_eq_ok.mp h
  obtain ⟨last, hd, h⟩ := bind_eq_ok.mp h
  cases h
  exact ⟨info, mid, hv, hd⟩

theorem assign_ident_ok {name : String} {place : Option Loc} {value : Expr} {loc : Option Loc}
    (h : c.stmt (.assign (.ident name place) value loc) ret flow = .ok (t, flow')) :
    ∃ info mid, c.expr value ret flow = .ok (info, mid) ∧
      c.assign name info (value.loc? <|> loc) mid = .ok flow' := by
  rw [stmt] at h
  obtain ⟨⟨info, mid⟩, hv, h⟩ := bind_eq_ok.mp h
  obtain ⟨last, ha, h⟩ := bind_eq_ok.mp h
  cases h
  exact ⟨info, mid, hv, ha⟩

/-- A new variable is bound to its annotation, narrowed by the initial value, or to the type of the
initial value. -/
theorem declare_ok {name : String} {type : Option TypeExpr} {info : TypeInfo} {loc : Option Loc}
    (h : c.declare name type info loc flow = .ok flow') :
    ∃ b, flow' = ⟨flow.scope.declare name b, flow.facts.forget name⟩ ∧
      match type with
      | some annotation =>
        c.requireFit (.initializer name) (c.decls.resolve annotation) info loc = .ok () ∧
          b = ⟨c.decls.resolve annotation, (c.decls.resolve annotation).narrow (.ofInfo info)⟩
      | none => b = ⟨info.widened, info⟩ := by
  cases type with
  | some annotation =>
    obtain ⟨_, hfit, h⟩ := bind_eq_ok.mp h
    cases h
    exact ⟨_, rfl, hfit, rfl⟩
  | none =>
    cases h
    exact ⟨_, rfl, rfl⟩

theorem assign_ok {name : String} {info : TypeInfo} {loc : Option Loc}
    (h : c.assign name info loc flow = .ok flow') :
    (flow.scope.get? name = none ∧ flow' = flow) ∨
      ∃ b, flow.scope.get? name = some b ∧
        c.requireFit (.assignment name) b.declared info loc = .ok () ∧
        flow' =
          ⟨flow.scope.update name (b.declared.narrow (.ofInfo info)), flow.facts.forget name⟩ := by
  rw [assign] at h
  split at h
  · rename_i hnone
    cases h
    exact .inl ⟨hnone, rfl⟩
  · rename_i b hb
    obtain ⟨_, hfit, h⟩ := bind_eq_ok.mp h
    cases h
    exact .inr ⟨b, hb, hfit, rfl⟩

theorem ite_stmt_ok {cond thenBranch : Expr} {elseBranch : Option Expr} {loc : Option Loc}
    (h : c.stmt (.ite cond thenBranch elseBranch loc) ret flow = .ok (t, flow')) :
    ∃ tested mid thenInfo after, c.expr cond ret flow = .ok (tested, mid) ∧
      nested (Facts.derive cond true) (c.expr thenBranch ret) mid = .ok (thenInfo, after) ∧
      ((∃ e elseInfo, elseBranch = some e ∧
          nested (Facts.derive cond false) (c.expr e ret) after = .ok (elseInfo, flow')) ∨
        elseBranch = none ∧ flow' = after) := by
  rw [stmt] at h
  cases elseBranch with
  | some e =>
    obtain ⟨tested, mid, thenInfo, after, hc, ht, elseInfo, he, _⟩ := ifElse_ok h
    exact ⟨tested, mid, thenInfo, after, hc, ht, .inl ⟨e, elseInfo, rfl, he⟩⟩
  | none =>
    obtain ⟨tested, mid, thenInfo, after, hc, ht, hflow, _⟩ := ifElse_ok h
    exact ⟨tested, mid, thenInfo, after, hc, ht, .inr ⟨rfl, hflow⟩⟩

theorem whileLoop_stmt_ok {cond : Expr} {body : Block} {loc : Option Loc}
    (h : c.stmt (.whileLoop cond body loc) ret flow = .ok (t, flow')) :
    ∃ tested start result inner, c.expr cond ret (loopStart body flow) = .ok (tested, start) ∧
      c.expr (.block body) ret (start.learn (Facts.derive cond true)) = .ok (result, inner) ∧
      flow' = flow.settle inner := by
  obtain ⟨statements, place⟩ := body
  rw [stmt] at h
  obtain ⟨tested, start, result, inner, hc, hb, rfl⟩ := whileLoop_ok h
  refine ⟨tested, start, result, inner, hc, ?_, rfl⟩
  rw [expr]
  exact hb

theorem rangeBound_ok {e : Expr} {loc : Option Loc} {infer : Step}
    (h : rangeBound e loc infer flow = .ok flow') : ∃ info, infer flow = .ok (info, flow') := by
  obtain ⟨⟨info, last⟩, hi, h⟩ := bind_eq_ok.mp h
  dsimp only at h
  split at h
  · cases h
    exact ⟨info, hi⟩
  · cases h

theorem forLoop_stmt_ok {iterator : String} {first last : Expr} {body : Block} {loc : Option Loc}
    (h : c.stmt (.forLoop iterator first last body loc) ret flow = .ok (t, flow')) :
    ∃ low mid, c.expr first ret flow = .ok (low, mid) ∧
      ∃ high start, c.expr last ret mid = .ok (high, start) ∧
        ∃ result inner, c.expr (.block body) ret
          ⟨(loopStart body start).scope.declare iterator (.fixed iteratorInfo),
            (loopStart body start).facts.forget iterator⟩ = .ok (result, inner) ∧
          flow' = start.settle inner := by
  obtain ⟨statements, place⟩ := body
  rw [stmt] at h
  obtain ⟨mid, hl, h⟩ := bind_eq_ok.mp h
  obtain ⟨start, hh, h⟩ := bind_eq_ok.mp h
  obtain ⟨low, hl⟩ := rangeBound_ok hl
  obtain ⟨high, hh⟩ := rangeBound_ok hh
  obtain ⟨⟨result, inner⟩, hb, h⟩ := bind_eq_ok.mp h
  cases h
  refine ⟨low, mid, hl, high, start, hh, result, inner, ?_, rfl⟩
  rw [expr]
  exact hb

end Checker

/-- What an accepted part calls is accepted. -/
theorem Leads.accepted {c : Checker} {v w : Visit} (hl : Leads c v w) (hv : v.Accepted c) :
    w.Accepted c := by
  cases hl with
  | @left op l r loc ret flow =>
    obtain ⟨⟨t, flow'⟩, h⟩ := hv
    cases hop : op.isLogical with
    | true =>
      rw [Checker.expr, if_pos hop] at h
      obtain ⟨left, mid, right, inner, hl, _⟩ := Checker.shortCircuit_ok h
      exact ⟨_, hl⟩
    | false =>
      obtain ⟨left, mid, right, hl, _⟩ := Checker.expr_binary_ok hop h
      exact ⟨_, hl⟩
  | right hop hl =>
    obtain ⟨⟨t, flow'⟩, h⟩ := hv
    obtain ⟨left, mid, right, hl', hr, _⟩ := Checker.expr_binary_ok hop h
    cases hl.symm.trans hl'
    exact ⟨_, hr⟩
  | guarded hop hl =>
    obtain ⟨⟨t, flow'⟩, h⟩ := hv
    rw [Checker.expr, if_pos hop] at h
    obtain ⟨left, mid, right, inner, hl', hr, _⟩ := Checker.shortCircuit_ok h
    cases hl.symm.trans hl'
    exact ⟨_, hr⟩
  | operand =>
    obtain ⟨⟨t, flow'⟩, h⟩ := hv
    obtain ⟨operand, he, _⟩ := Checker.expr_unary_ok h
    exact ⟨_, he⟩
  | args =>
    obtain ⟨r, h⟩ := hv
    rw [Checker.expr] at h
    obtain ⟨infos, ha, _⟩ := bind_eq_ok.mp h
    exact ⟨infos, ha⟩
  | @callee callee es loc ret flow infos flow' hc ha =>
    obtain ⟨r, h⟩ := hv
    rw [Checker.expr] at h
    obtain ⟨_, ha', h⟩ := bind_eq_ok.mp h
    cases ha.symm.trans ha'
    cases callee with
    | ident name l => exact absurd rfl (hc name l)
    | _ =>
      obtain ⟨t, hcallee, _⟩ := bind_eq_ok.mp h
      exact ⟨t, hcallee⟩
  | object =>
    obtain ⟨r, h⟩ := hv
    rw [Checker.expr] at h
    obtain ⟨t, ho, _⟩ := bind_eq_ok.mp h
    exact ⟨t, ho⟩
  | target =>
    obtain ⟨⟨t, flow'⟩, h⟩ := hv
    obtain ⟨array, mid, place, ht, _⟩ := Checker.expr_index_ok h
    exact ⟨_, ht⟩
  | position ht =>
    obtain ⟨⟨t, flow'⟩, h⟩ := hv
    obtain ⟨array, mid, place, ht', hp, _⟩ := Checker.expr_index_ok h
    cases ht.symm.trans ht'
    exact ⟨_, hp⟩
  | fields hd =>
    obtain ⟨r, h⟩ := hv
    rw [Checker.expr, hd] at h
    obtain ⟨flow', hf, _⟩ := bind_eq_ok.mp h
    exact ⟨flow', hf⟩
  | condition =>
    obtain ⟨⟨t, flow'⟩, h⟩ := hv
    rw [Checker.expr] at h
    obtain ⟨tested, mid, thenInfo, after, hc, _⟩ := Checker.ifElse_ok h
    exact ⟨_, hc⟩
  | thenBranch hc =>
    obtain ⟨⟨t, flow'⟩, h⟩ := hv
    rw [Checker.expr] at h
    obtain ⟨tested, mid, thenInfo, after, hc', ht, _⟩ := Checker.ifElse_ok h
    cases hc.symm.trans hc'
    obtain ⟨inner, ht, _⟩ := Checker.nested_ok ht
    exact ⟨_, ht⟩
  | elseBranch hc ht =>
    obtain ⟨⟨t, flow'⟩, h⟩ := hv
    rw [Checker.expr] at h
    obtain ⟨tested, mid, thenInfo, after, hc', ht', elseInfo, he, _⟩ := Checker.ifElse_ok h
    cases hc.symm.trans hc'
    cases ht.symm.trans ht'
    obtain ⟨inner, he, _⟩ := Checker.nested_ok he
    exact ⟨_, he⟩
  | scrutinee =>
    obtain ⟨r, h⟩ := hv
    rw [Checker.expr] at h
    obtain ⟨t, ht, _⟩ := bind_eq_ok.mp h
    exact ⟨t, ht⟩
  | arms ht =>
    obtain ⟨r, h⟩ := hv
    rw [Checker.expr] at h
    obtain ⟨_, ht', h⟩ := bind_eq_ok.mp h
    cases ht.symm.trans ht'
    obtain ⟨_, _, h⟩ := bind_eq_ok.mp h
    exact ⟨r, h⟩
  | tested =>
    obtain ⟨r, h⟩ := hv
    rw [Checker.expr] at h
    obtain ⟨t, he, _⟩ := bind_eq_ok.mp h
    exact ⟨t, he⟩
  | unwrapped =>
    obtain ⟨r, h⟩ := hv
    rw [Checker.expr] at h
    exact ⟨r, h⟩
  | block =>
    obtain ⟨⟨t, flow'⟩, h⟩ := hv
    rw [Checker.expr] at h
    obtain ⟨inner, hs, _⟩ := Checker.nested_ok h
    exact ⟨_, hs⟩
  | arg =>
    obtain ⟨⟨infos, flow'⟩, h⟩ := hv
    obtain ⟨info, mid, rest, he, _⟩ := Checker.args_cons_ok h
    exact ⟨_, he⟩
  | laterArgs he =>
    obtain ⟨⟨infos, flow'⟩, h⟩ := hv
    obtain ⟨info, mid, rest, he', hes, _⟩ := Checker.args_cons_ok h
    cases he.symm.trans he'
    exact ⟨_, hes⟩
  | field =>
    obtain ⟨r, h⟩ := hv
    obtain ⟨info, mid, _, _, he, _⟩ := Checker.fieldInits_cons_ok h
    exact ⟨_, he⟩
  | laterFields he =>
    obtain ⟨r, h⟩ := hv
    obtain ⟨info, mid, _, _, he', _, hfs⟩ := Checker.fieldInits_cons_ok h
    cases he.symm.trans he'
    exact ⟨_, hfs⟩
  | arm hb =>
    obtain ⟨⟨t, flow'⟩, h⟩ := hv
    obtain ⟨info, mid, harm, _⟩ := Checker.matchCases_cons_ok h
    obtain ⟨_, hb', harm⟩ := bind_eq_ok.mp harm
    cases hb.symm.trans hb'
    obtain ⟨t, hbody, _⟩ := bind_eq_ok.mp harm
    exact ⟨t, hbody⟩
  | laterArms harm =>
    obtain ⟨⟨t, flow'⟩, h⟩ := hv
    obtain ⟨info, mid, harm', hcs⟩ := Checker.matchCases_cons_ok h
    cases harm.symm.trans harm'
    exact ⟨_, hcs⟩
  | first =>
    obtain ⟨⟨t, flow'⟩, h⟩ := hv
    obtain ⟨info, mid, hs, _⟩ := Checker.stmts_cons_ok h
    exact ⟨_, hs⟩
  | later hs =>
    obtain ⟨⟨t, flow'⟩, h⟩ := hv
    obtain ⟨info, mid, hs', hss⟩ := Checker.stmts_cons_ok h
    cases hs.symm.trans hs'
    exact ⟨_, hss⟩
  | function =>
    obtain ⟨r, h⟩ := hv
    rw [Checker.stmt] at h
    obtain ⟨_, hf, _⟩ := bind_eq_ok.mp h
    rw [Checker.fnDecl] at hf
    obtain ⟨t, hb, _⟩ := bind_eq_ok.mp hf
    exact ⟨t, hb⟩
  | initializer =>
    obtain ⟨⟨t, flow'⟩, h⟩ := hv
    obtain ⟨info, mid, hvalue, _⟩ := Checker.letDecl_ok h
    exact ⟨_, hvalue⟩
  | assigned =>
    obtain ⟨r, h⟩ := hv
    rw [Checker.stmt] at h
    obtain ⟨t, hvalue, _⟩ := bind_eq_ok.mp h
    exact ⟨t, hvalue⟩
  | @place target value loc ret flow t flow' ht hvalue =>
    obtain ⟨r, h⟩ := hv
    rw [Checker.stmt] at h
    obtain ⟨_, hvalue', h⟩ := bind_eq_ok.mp h
    cases hvalue.symm.trans hvalue'
    cases target with
    | ident name l => exact absurd rfl (ht name l)
    | _ =>
      obtain ⟨t, htarget, _⟩ := bind_eq_ok.mp h
      exact ⟨t, htarget⟩
  | returned =>
    obtain ⟨r, h⟩ := hv
    rw [Checker.stmt] at h
    obtain ⟨t, hvalue, _⟩ := bind_eq_ok.mp h
    exact ⟨t, hvalue⟩
  | exprStmt =>
    obtain ⟨r, h⟩ := hv
    rw [Checker.stmt] at h
    exact ⟨r, h⟩
  | @blockStmt body ret flow =>
    obtain ⟨r, h⟩ := hv
    obtain ⟨statements, place⟩ := body
    rw [Checker.stmt] at h
    refine ⟨r, ?_⟩
    rw [Checker.expr, h]
  | ifStmt =>
    obtain ⟨r, h⟩ := hv
    rw [Checker.stmt] at h
    refine ⟨r, ?_⟩
    rw [Checker.expr, h]
  | whileCondition =>
    obtain ⟨⟨t, flow'⟩, h⟩ := hv
    obtain ⟨tested, start, result, inner, hc, _⟩ := Checker.whileLoop_stmt_ok h
    exact ⟨_, hc⟩
  | whileBody hc =>
    obtain ⟨⟨t, flow'⟩, h⟩ := hv
    obtain ⟨tested, start, result, inner, hc', hb, _⟩ := Checker.whileLoop_stmt_ok h
    cases hc.symm.trans hc'
    exact ⟨_, hb⟩
  | rangeFirst =>
    obtain ⟨⟨t, flow'⟩, h⟩ := hv
    obtain ⟨info, mid, hl, _⟩ := Checker.forLoop_stmt_ok h
    exact ⟨_, hl⟩
  | rangeLast hl =>
    obtain ⟨⟨t, flow'⟩, h⟩ := hv
    obtain ⟨info, mid, hl', info', start, hh, _⟩ := Checker.forLoop_stmt_ok h
    cases hl.symm.trans hl'
    exact ⟨_, hh⟩
  | forBody hl hh =>
    obtain ⟨⟨t, flow'⟩, h⟩ := hv
    obtain ⟨info, mid, hl', info', start, hh', result, inner, hb, _⟩ := Checker.forLoop_stmt_ok h
    cases hl.symm.trans hl'
    cases hh.symm.trans hh'
    exact ⟨_, hb⟩

theorem Reaches.accepted {c : Checker} {v w : Visit} (hr : Reaches c v w) (hv : v.Accepted c) :
    w.Accepted c := by
  induction hr with
  | refl => exact hv
  | tail _ hl ih => exact hl.accepted ih

/-- The checker of a program. -/
def Program.checker (program : Program) (strict : Bool) : Checker :=
  .ofDeclarations (.ofProgram program) strict

/-- The call that checks a whole program. -/
def Program.visit (program : Program) (strict : Bool) : Visit :=
  ⟨.stmts .void program.body, none, { scope := (program.checker strict).globals.child }⟩

theorem Program.visit_accepted {program : Program} {strict : Bool}
    (h : program.check strict = .ok ()) :
    (program.visit strict).Accepted (program.checker strict) := by
  obtain ⟨r, hr, _⟩ := bind_eq_ok.mp h
  exact ⟨r, hr⟩

end TuffSafety
