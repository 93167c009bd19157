import TuffSafety.Proofs.Elementary
import TuffSafety.Checker

/-!
# Faults are blamed on nodes

Every rule of the checker blames its faults on the node it is about, or on an operand of it. So when
every node of a tree carries a location with some property, every fault of a check does.
-/
namespace TuffSafety

/-- The location is known and has the property. -/
def Marked (Q : Loc → Prop) (loc : Option Loc) : Prop :=
  ∃ l, loc = some l ∧ Q l

namespace Marked

variable {Q : Loc → Prop} {loc : Option Loc}

theorem some {l : Loc} (h : Q l) : Marked Q (some l) :=
  ⟨l, rfl, h⟩

/-- A known location wins over its replacement. -/
theorem orElse (h : Marked Q loc) (other : Option Loc) : Marked Q (loc <|> other) := by
  obtain ⟨l, rfl, hl⟩ := h
  exact .some hl

end Marked

/-! ### Trees whose nodes are marked -/

mutual

/-- Every node of the expression carries a location with the property. Types are left out: no fault
is blamed on them. -/
inductive Expr.Placed (Q : Loc → Prop) : Expr → Prop where
  | number {value suffix loc} (h : Marked Q loc) : Expr.Placed Q (.number value suffix loc)
  | float {value loc} (h : Marked Q loc) : Expr.Placed Q (.float value loc)
  | bool {value loc} (h : Marked Q loc) : Expr.Placed Q (.bool value loc)
  | string {value loc} (h : Marked Q loc) : Expr.Placed Q (.string value loc)
  | char {value loc} (h : Marked Q loc) : Expr.Placed Q (.char value loc)
  | ident {name loc} (h : Marked Q loc) : Expr.Placed Q (.ident name loc)
  | binary {op left right loc} (hleft : left.Placed Q) (hright : right.Placed Q)
      (h : Marked Q loc) : Expr.Placed Q (.binary op left right loc)
  | unary {op operand loc} (hoperand : operand.Placed Q) (h : Marked Q loc) :
      Expr.Placed Q (.unary op operand loc)
  | call {callee args loc} (hcallee : callee.Placed Q) (hargs : ∀ e ∈ args, e.Placed Q)
      (h : Marked Q loc) : Expr.Placed Q (.call callee args loc)
  | member {object property loc} (hobject : object.Placed Q) (h : Marked Q loc) :
      Expr.Placed Q (.member object property loc)
  | index {target position loc} (htarget : target.Placed Q) (hposition : position.Placed Q)
      (h : Marked Q loc) : Expr.Placed Q (.index target position loc)
  | structInit {name fields loc} (hfields : ∀ f ∈ fields, f.value.Placed Q) (h : Marked Q loc) :
      Expr.Placed Q (.structInit name fields loc)
  | ite {condition thenBranch elseBranch loc} (hcondition : condition.Placed Q)
      (hthen : thenBranch.Placed Q) (helse : ∀ e, elseBranch = some e → e.Placed Q)
      (h : Marked Q loc) : Expr.Placed Q (.ite condition thenBranch elseBranch loc)
  | matchOn {target cases loc} (htarget : target.Placed Q)
      (hcases : ∀ arm ∈ cases, arm.body.Placed Q) (h : Marked Q loc) :
      Expr.Placed Q (.matchOn target cases loc)
  | isPattern {operand pattern loc} (hoperand : operand.Placed Q) (h : Marked Q loc) :
      Expr.Placed Q (.isPattern operand pattern loc)
  | unwrap {operand loc} (hoperand : operand.Placed Q) (h : Marked Q loc) :
      Expr.Placed Q (.unwrap operand loc)
  | block {statements loc} (hstatements : ∀ s ∈ statements, s.Placed Q) (h : Marked Q loc) :
      Expr.Placed Q (.block ⟨statements, loc⟩)

/-- Every node of the statement carries a location with the property. -/
inductive Stmt.Placed (Q : Loc → Prop) : Stmt → Prop where
  | fnDecl {name generics params returnType body exported loc}
      (hbody : ∀ e, body = some e → e.Placed Q) (h : Marked Q loc) :
      Stmt.Placed Q (.fnDecl ⟨name, generics, params, returnType, body, exported, loc⟩)
  | foreignFn {decl} (h : Marked Q decl.loc) : Stmt.Placed Q (.foreignFn decl)
  | structDecl {decl} (h : Marked Q decl.loc) : Stmt.Placed Q (.structDecl decl)
  | enumDecl {decl} (h : Marked Q decl.loc) : Stmt.Placed Q (.enumDecl decl)
  | typeAlias {name generics target exported loc} (h : Marked Q loc) :
      Stmt.Placed Q (.typeAlias name generics target exported loc)
  | foreignType {name generics loc} (h : Marked Q loc) :
      Stmt.Placed Q (.foreignType name generics loc)
  | letDecl {name type value loc} (hvalue : value.Placed Q) (h : Marked Q loc) :
      Stmt.Placed Q (.letDecl name type value loc)
  | foreignLet {name type loc} (h : Marked Q loc) : Stmt.Placed Q (.foreignLet name type loc)
  | block {body} (hbody : Expr.Placed Q (.block body)) : Stmt.Placed Q (.block body)
  | expr {e loc} (he : e.Placed Q) (h : Marked Q loc) : Stmt.Placed Q (.expr e loc)
  | assign {target value loc} (htarget : target.Placed Q) (hvalue : value.Placed Q)
      (h : Marked Q loc) : Stmt.Placed Q (.assign target value loc)
  | ret {value loc} (hvalue : ∀ e, value = some e → e.Placed Q) (h : Marked Q loc) :
      Stmt.Placed Q (.ret value loc)
  | ite {condition thenBranch elseBranch loc}
      (hite : Expr.Placed Q (.ite condition thenBranch elseBranch loc)) :
      Stmt.Placed Q (.ite condition thenBranch elseBranch loc)
  | whileLoop {condition body loc} (hcondition : condition.Placed Q)
      (hbody : Expr.Placed Q (.block body)) (h : Marked Q loc) :
      Stmt.Placed Q (.whileLoop condition body loc)
  | forLoop {iterator first last body loc} (hfirst : first.Placed Q) (hlast : last.Placed Q)
      (hbody : Expr.Placed Q (.block body)) (h : Marked Q loc) :
      Stmt.Placed Q (.forLoop iterator first last body loc)
  | breakLoop {loc} (h : Marked Q loc) : Stmt.Placed Q (.breakLoop loc)
  | continueLoop {loc} (h : Marked Q loc) : Stmt.Placed Q (.continueLoop loc)

end

theorem Expr.Placed.loc? {Q : Loc → Prop} {e : Expr} (h : e.Placed Q) : Marked Q e.loc? := by
  cases h
  case binary _ _ h => exact h.orElse _
  case call _ _ h => exact h.orElse _
  case member _ h => exact h.orElse _
  case index _ _ h => exact h.orElse _
  case isPattern _ h => exact h.orElse _
  case unwrap _ h => exact h.orElse _
  all_goals assumption

/-! ### Attempts that blame marked places -/

/-- A failure is blamed on a location with the property. -/
def Blames {φ α : Type} (Q : Loc → Prop) (r : Except (Located φ) α) : Prop :=
  ∀ fault, r = .error fault → Marked Q fault.loc

namespace Blames

variable {φ α β : Type} {Q : Loc → Prop} {loc : Option Loc}

theorem ok (a : α) : Blames Q (.ok a : Except (Located φ) α) := by
  intro fault h
  cases h

theorem error {cause : φ} (h : Marked Q loc) : Blames Q (.error ⟨cause, loc⟩ : Except _ α) := by
  intro fault heq
  obtain rfl := Except.error.inj heq
  exact h

theorem bind {r : Except (Located φ) α} {f : α → Except (Located φ) β} (h : Blames Q r)
    (hf : ∀ a, r = .ok a → Blames Q (f a)) : Blames Q (r >>= f) := by
  intro fault heq
  rcases bind_eq_error.mp heq with hr | ⟨a, ha, hfa⟩
  · exact h fault hr
  · exact hf a ha fault hfa

/-- A rule that refuses, or goes on. -/
theorem guarded {refuses : Prop} [Decidable refuses] {check : Except (Located φ) Unit}
    {k : Unit → Except (Located φ) α} (h : Blames Q check) (hk : Blames Q (k ())) :
    Blames Q (if refuses then check >>= k else k ()) := by
  split
  · exact h.bind fun _ _ => hk
  · exact hk

end Blames

namespace Checker

variable {Q : Loc → Prop} {loc : Option Loc} {c : Checker}

/-! ### Rules -/

theorem reject_blames {α : Type} {cause : CheckFault} (h : Marked Q loc) :
    Blames Q (reject cause loc : Attempt α) :=
  .error h

section

variable (h : Marked Q loc)

include h

theorem requireAssignable_blames (slot : Slot) (expected actual : TypeInfo) :
    Blames Q (c.requireAssignable slot expected actual loc) := by
  unfold requireAssignable
  split
  · exact .ok ()
  · exact reject_blames h

theorem requireNonZero_blames (slot : Slot) (expected actual : TypeInfo) :
    Blames Q (c.requireNonZero slot expected actual loc) := by
  unfold requireNonZero
  split
  · exact reject_blames h
  · exact .ok ()

theorem requireFit_blames (slot : Slot) (expected actual : TypeInfo) :
    Blames Q (c.requireFit slot expected actual loc) :=
  (requireAssignable_blames h slot expected actual).bind fun _ _ =>
    requireNonZero_blames h slot expected actual

theorem checkOverflow_blames (op : BinaryOp) (bounds : Option Interval) :
    Blames Q (checkOverflow op bounds loc) := by
  unfold checkOverflow
  split
  · exact reject_blames h
  · split
    · exact reject_blames h
    · exact .ok ()

theorem arithmetic_blames (op : BinaryOp) (left right : TypeInfo) :
    Blames Q (c.arithmetic op left right loc) := by
  unfold arithmetic
  dsimp only
  refine .guarded (reject_blames h) (.guarded (reject_blames h) ?_)
  split
  · exact .guarded (reject_blames h) (.ok _)
  · exact .guarded (checkOverflow_blames h _ _) (.ok _)

theorem logical_blames (op : BinaryOp) (left right : TypeInfo) :
    Blames Q (logical op left right loc) := by
  unfold logical
  dsimp only
  exact .guarded (reject_blames h) (.guarded (reject_blames h) (.ok _))

theorem unary_blames (op : UnaryOp) (operand : TypeInfo) :
    Blames Q (Checker.unary op operand loc) := by
  unfold Checker.unary
  split
  · split
    · exact .ok _
    · exact reject_blames h
  · split
    · exact .ok _
    · split
      · exact .ok _
      · exact reject_blames h
  · exact .ok _
  · exact .ok _

theorem argument_blames (sig : FnSignature) (param : Param) (actual : TypeInfo) :
    Blames Q (c.argument sig param actual loc) := by
  unfold argument
  dsimp only
  exact .guarded (reject_blames h)
    (.guarded (requireAssignable_blames h _ _ _) (requireNonZero_blames h _ _ _))

theorem field_blames (decl : StructDecl) (name : String) : Blames Q (c.field decl name loc) := by
  unfold field
  split
  · exact .ok _
  · exact reject_blames h

theorem member_blames (object : TypeInfo) (property : String) :
    Blames Q (c.member object property loc) := by
  unfold member
  split
  · exact reject_blames h
  · split
    · exact .ok _
    · split
      · exact field_blames h _ _
      · exact .ok _

theorem index_blames (target position : TypeInfo) : Blames Q (c.index target position loc) := by
  unfold index
  split
  · exact .ok _
  · split
    · exact reject_blames h
    · split
      · split
        · exact reject_blames h
        · exact .ok _
      · exact reject_blames h
      · split
        · exact reject_blames h
        · exact .ok _

theorem requireCondition_blames (guard : Guard) (condition : TypeInfo) :
    Blames Q (requireCondition guard condition loc) := by
  unfold requireCondition
  split
  · exact .ok ()
  · exact reject_blames h

theorem requireExhaustive_blames (target : TypeInfo) (patterns : List Pattern) :
    Blames Q (c.requireExhaustive target patterns loc) := by
  unfold requireExhaustive
  split
  · split
    · exact .ok ()
    · exact reject_blames h
  · exact .ok ()

theorem bindFields_blames (struct : String) (fields : List PatternField) (flow : Flow) :
    Blames Q (c.bindFields struct loc fields flow) := by
  induction fields generalizing flow with
  | nil => exact .ok flow
  | cons f fs ih =>
    rw [bindFields]
    cases c.decls.structs.get? struct with
    | some decl => exact (field_blames h decl f.field).bind fun _ _ => ih _
    | none => exact ih _

theorem bindPattern_blames (pattern : Pattern) (flow : Flow) :
    Blames Q (c.bindPattern pattern loc flow) := by
  cases pattern with
  | struct name fields => exact bindFields_blames h name fields flow
  | _ => exact .ok flow

theorem declare_blames (name : String) (type : Option TypeExpr) (value : TypeInfo) (flow : Flow) :
    Blames Q (c.declare name type value loc flow) := by
  cases type with
  | none => exact .ok _
  | some type => exact (requireFit_blames h _ _ _).bind fun _ _ => .ok _

theorem assign_blames (name : String) (value : TypeInfo) (flow : Flow) :
    Blames Q (c.assign name value loc flow) := by
  unfold assign
  split
  · exact .ok flow
  · exact (requireFit_blames h _ _ _).bind fun _ _ => .ok _

theorem returnValue_blames (expected : Option TypeInfo) (value : TypeInfo) :
    Blames Q (c.returnValue expected value loc) := by
  unfold returnValue
  split
  · exact .ok ()
  · split
    · split
      · exact .ok ()
      · exact reject_blames h
    · exact requireFit_blames h _ _ _

theorem fnResult_blames (name : String) (expected : Option TypeInfo) (value : TypeInfo) :
    Blames Q (c.fnResult name expected value loc) := by
  unfold fnResult
  split
  · exact .ok ()
  · split
    · exact .ok ()
    · exact requireFit_blames h _ _ _

end

theorem arguments_blames (sig : FnSignature) (params : List Param)
    {infos : List (TypeInfo × Option Loc)} (h : ∀ info ∈ infos, Marked Q info.2) :
    Blames Q (c.arguments sig params infos) := by
  induction infos generalizing params with
  | nil => cases params <;> exact .ok ()
  | cons info infos ih =>
    cases params with
    | nil => exact .ok ()
    | cons param params =>
      have hrest : ∀ info ∈ infos, Marked Q info.2 := fun i hi => h i (List.mem_cons_of_mem _ hi)
      exact (argument_blames (h info List.mem_cons_self) sig param info.1).bind fun _ _ =>
        ih params hrest

theorem call_blames (sig : FnSignature) {infos : List (TypeInfo × Option Loc)}
    (hinfos : ∀ info ∈ infos, Marked Q info.2) (h : Marked Q loc) :
    Blames Q (c.call sig infos loc) := by
  unfold call
  dsimp only
  exact .guarded (reject_blames h) ((arguments_blames sig _ hinfos).bind fun _ _ => .ok _)

/-! ### Constructs, given what is known about their parts -/

/-- Wherever the part is checked from, it blames marked places only. -/
def StepBlames (Q : Loc → Prop) (step : Step) : Prop :=
  ∀ flow, Blames Q (step flow)

section

variable {first second : Step}

theorem shortCircuit_blames (op : BinaryOp) (left right : Expr) (h : Marked Q loc)
    (hfirst : StepBlames Q first) (hsecond : StepBlames Q second) :
    StepBlames Q (shortCircuit op left right loc first second) := fun flow =>
  (hfirst flow).bind fun _ _ => (hsecond _).bind fun _ _ =>
    (logical_blames h _ _ _).bind fun _ _ => .ok _

theorem nested_blames (learned : Facts) (hfirst : StepBlames Q first) :
    StepBlames Q (nested learned first) := fun _ =>
  (hfirst _).bind fun _ _ => .ok _

theorem ifElse_blames (condition : Expr) (h : Marked Q (condition.loc? <|> loc))
    {otherwise : Option Step} (hfirst : StepBlames Q first) (hsecond : StepBlames Q second)
    (helse : ∀ step, otherwise = some step → StepBlames Q step) :
    StepBlames Q (ifElse condition loc first second otherwise) := by
  intro flow
  refine (hfirst flow).bind fun _ _ => (requireCondition_blames h _ _).bind fun _ _ => ?_
  refine (nested_blames _ hsecond _).bind fun _ _ => ?_
  cases otherwise with
  | none => exact .ok _
  | some step => exact (nested_blames _ (helse step rfl) _).bind fun _ _ => .ok _

theorem matchArm_blames (pattern : Pattern) (h : Marked Q loc) (hfirst : StepBlames Q first) :
    StepBlames Q (c.matchArm pattern loc first) := fun flow =>
  (bindPattern_blames h pattern flow.child).bind fun _ _ => (hfirst _).bind fun _ _ => .ok _

theorem whileLoop_blames (condition : Expr) (body : Block) (h : Marked Q (condition.loc? <|> loc))
    (hfirst : StepBlames Q first) (hsecond : StepBlames Q second) :
    StepBlames Q (whileLoop condition body loc first second) := fun _ =>
  (hfirst _).bind fun _ _ => (requireCondition_blames h _ _).bind fun _ _ =>
    (hsecond _).bind fun _ _ => .ok _

theorem rangeBound_blames (bound : Expr) (h : Marked Q (bound.loc? <|> loc))
    (hfirst : StepBlames Q first) (flow : Flow) : Blames Q (rangeBound bound loc first flow) := by
  refine (hfirst flow).bind fun _ _ => ?_
  dsimp only
  split
  · exact .ok _
  · exact reject_blames h

theorem forLoop_blames (iterator : String) (body : Block) (hfirst : StepBlames Q first) :
    StepBlames Q (forLoop iterator body first) := fun _ =>
  (hfirst _).bind fun _ _ => .ok _

end

/-- Every argument is blamed on itself. -/
theorem args_marked {es : List Expr} (hes : ∀ e ∈ es, e.Placed Q) {ret : Option TypeInfo}
    {flow flow' : Flow} {infos : List (TypeInfo × Option Loc)}
    (h : c.args es ret loc flow = .ok (infos, flow')) : ∀ info ∈ infos, Marked Q info.2 := by
  induction es generalizing flow flow' infos with
  | nil =>
    cases h
    intro info hinfo
    cases hinfo
  | cons e es ih =>
    rw [args] at h
    obtain ⟨⟨info, mid⟩, -, h⟩ := bind_eq_ok.mp h
    obtain ⟨⟨rest, last⟩, hrest, h⟩ := bind_eq_ok.mp h
    cases h
    intro i hi
    rcases List.mem_cons.mp hi with rfl | hi
    · exact (hes e List.mem_cons_self).loc?.orElse _
    · exact ih (fun e he => hes e (List.mem_cons_of_mem _ he)) hrest i hi

/-! ### The checker -/

mutual

theorem expr_blames (c : Checker) (ret : Option TypeInfo) :
    ∀ {e : Expr}, e.Placed Q → StepBlames Q (c.expr e ret)
  | .number .., _, _ => .ok _
  | .float .., _, _ => .ok _
  | .bool .., _, _ => .ok _
  | .string .., _, _ => .ok _
  | .char .., _, _ => .ok _
  | .ident .., _, _ => .ok _
  | .binary op left right loc, .binary hleft hright h, flow => by
    rw [expr]
    split
    · exact shortCircuit_blames op left right h (expr_blames c ret hleft) (expr_blames c ret hright) flow
    · refine (expr_blames c ret hleft flow).bind fun _ _ => (expr_blames c ret hright _).bind fun _ _ => ?_
      dsimp only
      split
      · exact .ok _
      · exact (arithmetic_blames h _ _ _).bind fun _ _ => .ok _
  | .unary op operand loc, .unary hoperand h, flow =>
    (expr_blames c ret hoperand flow).bind fun _ _ => (unary_blames h _ _).bind fun _ _ => .ok _
  | .call callee es loc, .call hcallee hargs h, flow => by
    rw [expr]
    refine (args_blames c ret loc hargs flow).bind fun (infos, mid) hinfos => ?_
    have hinfos := args_marked hargs hinfos
    dsimp only
    split
    · split
      · exact (call_blames _ hinfos h).bind fun _ _ => .ok _
      · exact .ok _
    · exact (expr_blames c ret hcallee _).bind fun _ _ => .ok _
  | .member object property loc, .member hobject h, flow =>
    (expr_blames c ret hobject flow).bind fun _ _ => (member_blames h _ _).bind fun _ _ => .ok _
  | .index target position loc, .index htarget hposition h, flow =>
    (expr_blames c ret htarget flow).bind fun _ _ => (expr_blames c ret hposition _).bind fun _ _ =>
      (index_blames h _ _).bind fun _ _ => .ok _
  | .structInit name fields loc, .structInit hfields h, flow => by
    rw [expr]
    split
    · exact reject_blames h
    · exact (fieldInits_blames c ret _ h hfields flow).bind fun _ _ => .ok _
  | .ite condition thenBranch elseBranch loc, .ite hcondition hthen helse h, flow =>
    ifElse_blames condition (hcondition.loc?.orElse _) (expr_blames c ret hcondition)
      (expr_blames c ret hthen) (expr?_blames c ret helse) flow
  | .matchOn target cases loc, .matchOn htarget hcases h, flow =>
    (expr_blames c ret htarget flow).bind fun _ _ => (requireExhaustive_blames h _ _).bind fun _ _ =>
      matchCases_blames c ret h hcases none _
  | .isPattern operand _ _, .isPattern hoperand _, flow =>
    (expr_blames c ret hoperand flow).bind fun _ _ => .ok _
  | .unwrap operand _, .unwrap hoperand _, flow => expr_blames c ret hoperand flow
  | .block ⟨statements, _⟩, .block hstatements _, flow =>
    nested_blames _ (stmts_blames c ret hstatements .void) flow

theorem expr?_blames (c : Checker) (ret : Option TypeInfo) :
    ∀ {e : Option Expr}, (∀ e', e = some e' → e'.Placed Q) →
      ∀ step, c.expr? e ret = some step → StepBlames Q step
  | some e, he, step, hstep => by
    obtain rfl := Option.some.inj hstep
    exact expr_blames c ret (he e rfl)
  | none, _, step, hstep => by cases hstep

theorem args_blames (c : Checker) (ret : Option TypeInfo) (loc : Option Loc) :
    ∀ {es : List Expr}, (∀ e ∈ es, e.Placed Q) → ∀ flow, Blames Q (c.args es ret loc flow)
  | [], _, _ => .ok _
  | e :: _, hes, flow =>
    (expr_blames c ret (hes e List.mem_cons_self) flow).bind fun _ _ =>
      (args_blames c ret loc (fun e he => hes e (List.mem_cons_of_mem _ he)) _).bind fun _ _ => .ok _

theorem fieldInits_blames (c : Checker) (ret : Option TypeInfo) (decl : StructDecl)
    {loc : Option Loc} (h : Marked Q loc) :
    ∀ {fs : List FieldInit}, (∀ f ∈ fs, f.value.Placed Q) →
      ∀ flow, Blames Q (c.fieldInits decl loc fs ret flow)
  | [], _, _ => .ok _
  | ⟨key, value⟩ :: fs, hfs, flow => by
    have hvalue : value.Placed Q := hfs ⟨key, value⟩ List.mem_cons_self
    rw [fieldInits]
    split
    · exact reject_blames (hvalue.loc?.orElse _)
    · exact (expr_blames c ret hvalue flow).bind fun _ _ =>
        (requireAssignable_blames (hvalue.loc?.orElse _) _ _ _).bind fun _ _ =>
          fieldInits_blames c ret decl h (fun f hf => hfs f (List.mem_cons_of_mem _ hf)) _

theorem matchCases_blames (c : Checker) (ret : Option TypeInfo) {loc : Option Loc}
    (h : Marked Q loc) :
    ∀ {cs : List MatchCase}, (∀ arm ∈ cs, arm.body.Placed Q) →
      ∀ joined, StepBlames Q (c.matchCases loc cs ret joined)
  | [], _, _, _ => .ok _
  | ⟨pattern, body⟩ :: _, hcs, _, flow =>
    (matchArm_blames pattern h (expr_blames c ret (hcs ⟨pattern, body⟩ List.mem_cons_self)) flow).bind
      fun _ _ => matchCases_blames c ret h (fun arm harm => hcs arm (List.mem_cons_of_mem _ harm)) _ _

theorem stmts_blames (c : Checker) (ret : Option TypeInfo) :
    ∀ {ss : List Stmt}, (∀ s ∈ ss, s.Placed Q) → ∀ last, StepBlames Q (c.stmts ss ret last)
  | [], _, _, _ => .ok _
  | s :: _, hss, _, flow =>
    (stmt_blames c ret (hss s List.mem_cons_self) flow).bind fun _ _ =>
      stmts_blames c ret (fun s hs => hss s (List.mem_cons_of_mem _ hs)) _ _

theorem stmt_blames (c : Checker) (ret : Option TypeInfo) :
    ∀ {s : Stmt}, s.Placed Q → StepBlames Q (c.stmt s ret)
  | .fnDecl ⟨name, _, params, returnType, none, _, loc⟩, _, _ => .ok _
  | .fnDecl ⟨name, _, params, returnType, some body, _, loc⟩, .fnDecl hbody h, flow =>
    ((expr_blames c _ (hbody body rfl) _).bind fun _ _ =>
      fnResult_blames ((hbody body rfl).loc?.orElse _) _ _ _).bind fun _ _ => .ok _
  | .letDecl name type value loc, .letDecl hvalue _, flow =>
    (expr_blames c ret hvalue flow).bind fun _ _ =>
      (declare_blames (hvalue.loc?.orElse _) _ _ _ _).bind fun _ _ => .ok _
  | .assign target value loc, .assign htarget hvalue _, flow => by
    rw [stmt]
    refine (expr_blames c ret hvalue flow).bind fun _ _ => ?_
    dsimp only
    split
    · exact (assign_blames (hvalue.loc?.orElse _) _ _ _).bind fun _ _ => .ok _
    · exact (expr_blames c ret htarget _).bind fun _ _ => .ok _
  | .ret none loc, .ret _ h, flow => (returnValue_blames h _ _).bind fun _ _ => .ok _
  | .ret (some value) loc, .ret hvalue _, flow =>
    (expr_blames c ret (hvalue value rfl) flow).bind fun _ _ =>
      (returnValue_blames ((hvalue value rfl).loc?.orElse _) _ _).bind fun _ _ => .ok _
  | .expr e _, .expr he _, flow => expr_blames c ret he flow
  | .block ⟨statements, _⟩, .block (.block hstatements _), flow =>
    nested_blames _ (stmts_blames c ret hstatements .void) flow
  | .ite condition thenBranch elseBranch loc, .ite (.ite hcondition hthen helse h), flow =>
    ifElse_blames condition (hcondition.loc?.orElse _) (expr_blames c ret hcondition)
      (expr_blames c ret hthen) (expr?_blames c ret helse) flow
  | .whileLoop condition ⟨statements, place⟩ loc, .whileLoop hcondition (.block hbody _) _, flow =>
    whileLoop_blames condition ⟨statements, place⟩ (hcondition.loc?.orElse _)
      (expr_blames c ret hcondition) (nested_blames _ (stmts_blames c ret hbody .void)) flow
  | .forLoop iterator first last ⟨statements, place⟩ loc,
      .forLoop hfirst hlast (.block hbody _) _, flow =>
    (rangeBound_blames first (hfirst.loc?.orElse _) (expr_blames c ret hfirst) flow).bind fun _ _ =>
      (rangeBound_blames last (hlast.loc?.orElse _) (expr_blames c ret hlast) _).bind fun _ _ =>
        forLoop_blames iterator _ (nested_blames _ (stmts_blames c ret hbody .void)) _
  | .foreignFn _, _, _ => .ok _
  | .structDecl _, _, _ => .ok _
  | .enumDecl _, _, _ => .ok _
  | .typeAlias .., _, _ => .ok _
  | .foreignType .., _, _ => .ok _
  | .foreignLet .., _, _ => .ok _
  | .breakLoop _, _, _ => .ok _
  | .continueLoop _, _, _ => .ok _

end

end Checker

/-- A fault of a program whose nodes are marked is blamed on a marked place. -/
theorem Program.check_blames {Q : Loc → Prop} {program : Program}
    (h : ∀ s ∈ program.body, s.Placed Q) (strict : Bool) : Blames Q (program.check strict) :=
  (Checker.stmts_blames _ none h .void _).bind fun _ _ => .ok ()

end TuffSafety
