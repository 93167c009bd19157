import Mathlib.Data.Option.Basic
import TuffSafety.Proofs.Elementary
import TuffSafety.Checker

/-!
# Checkers that cannot be told apart

A check reads the declarations through look-ups by name, and of a function it reads the head only. So
two checkers whose look-ups give the same answers, whatever the order of their tables and the bodies
in them, agree on every part of a program: they fail with the same fault, or give the same type and
leave flows behind that agree again.
-/
namespace TuffSafety

/-! ### Scopes and flows -/

/-- Scopes that answer alike; the order of the bindings in a frame does not count. -/
structure Scope.Alike (s s' : Scope) : Prop where
  get? : ∀ name, s.get? name = s'.get? name
  locals : s.locals = s'.locals
  assigned : s.assigned = s'.assigned

namespace Scope

theorem locals_declare (s : Scope) (name : String) (b : Binding) :
    (s.declare name b).locals = addNew name s.locals := by
  unfold declare modifyHead locals
  cases s.frames <;> rfl

theorem assigned_update (s : Scope) (name : String) (t : TypeInfo) :
    (s.update name t).assigned =
      if (s.get? name).isSome ∧ name ∉ s.locals then addNew name s.assigned else s.assigned := by
  unfold update modifyHead assigned locals
  cases hb : s.get? name with
  | none => simp
  | some b =>
    cases s.frames with
    | nil => rfl
    | cons f fs => by_cases hl : name ∈ f.locals <;> simp [Frame.update, hl]

namespace Alike

variable {s s' : Scope}

theorem child (h : s.Alike s') : s.child.Alike s'.child :=
  ⟨h.get?, rfl, rfl⟩

theorem declare (h : s.Alike s') (name : String) (b : Binding) :
    (s.declare name b).Alike (s'.declare name b) := by
  refine ⟨fun key => ?_, ?_, ?_⟩
  · rw [get?_declare, get?_declare, h.get?]
  · rw [locals_declare, locals_declare, h.locals]
  · rw [assigned_declare, assigned_declare, h.assigned]

theorem update (h : s.Alike s') (name : String) (t : TypeInfo) :
    (s.update name t).Alike (s'.update name t) := by
  refine ⟨fun key => ?_, ?_, ?_⟩
  · rw [get?_update, get?_update, h.get?, h.get?]
  · rw [locals_update, locals_update, h.locals]
  · rw [assigned_update, assigned_update, h.get?, h.locals, h.assigned]

theorem widen (h : s.Alike s') (name : String) : (s.widen name).Alike (s'.widen name) := by
  unfold Scope.widen
  rw [← h.get?]
  cases s.get? name with
  | none => exact h
  | some b => exact h.update name b.declared

theorem widenAll (h : s.Alike s') (names : List String) :
    (s.widenAll names).Alike (s'.widenAll names) := by
  unfold Scope.widenAll
  induction names generalizing s s' with
  | nil => exact h
  | cons name rest ih => exact ih (h.widen name)

end Alike

end Scope

structure Flow.Alike (flow flow' : Flow) : Prop where
  scope : flow.scope.Alike flow'.scope
  facts : flow.facts = flow'.facts

namespace Flow.Alike

variable {flow flow' inner inner' : Flow}

theorem child (h : flow.Alike flow') : flow.child.Alike flow'.child :=
  ⟨h.scope.child, h.facts⟩

theorem learn (h : flow.Alike flow') (learned : Facts) :
    Alike { flow with facts := flow.facts.merge learned }
      { flow' with facts := flow'.facts.merge learned } :=
  ⟨h.scope, by rw [h.facts]⟩

theorem declare (h : flow.Alike flow') (name : String) (b : Binding) :
    Alike ⟨flow.scope.declare name b, flow.facts.forget name⟩
      ⟨flow'.scope.declare name b, flow'.facts.forget name⟩ :=
  ⟨h.scope.declare name b, by rw [h.facts]⟩

theorem loosen (h : flow.Alike flow') (names : List String) :
    (flow.loosen names).Alike (flow'.loosen names) :=
  ⟨h.scope.widenAll names, by rw [Flow.loosen, Flow.loosen, h.facts]⟩

theorem settle (h : flow.Alike flow') (hinner : inner.Alike inner') :
    (flow.settle inner).Alike (flow'.settle inner') := by
  rw [Flow.settle, Flow.settle, hinner.scope.assigned]
  exact h.loosen _

end Flow.Alike

/-! ### Declarations -/

/-- What a call can see of a function. -/
def FnSignature.head (sig : FnSignature) : FnSignature :=
  { sig with decl := { sig.decl with body := none } }

theorem FnSignature.eq_of_head {sig sig' : FnSignature} (h : sig.head = sig'.head) :
    sig.foreign = sig'.foreign ∧ sig.decl.name = sig'.decl.name ∧
      sig.decl.params = sig'.decl.params ∧ sig.decl.returnType = sig'.decl.returnType :=
  ⟨congrArg (fun sig => sig.foreign) h, congrArg (fun sig => sig.decl.name) h,
    congrArg (fun sig => sig.decl.params) h, congrArg (fun sig => sig.decl.returnType) h⟩

structure Declarations.Alike (d d' : Declarations) : Prop where
  structs : ∀ name, d.structs.get? name = d'.structs.get? name
  enums : ∀ name, d.enums.get? name = d'.enums.get? name
  functions : ∀ name, (d.functions.get? name).map FnSignature.head =
    (d'.functions.get? name).map FnSignature.head
  aliases : ∀ name, d.aliases.get? name = d'.aliases.get? name
  aliasCount : d.aliases.size = d'.aliases.size

namespace Declarations.Alike

variable {d d' : Declarations}

theorem meaning (h : d.Alike d') (depth : Nat) (visited : List String) :
    d.meaning depth visited = d'.meaning depth visited := by
  induction depth generalizing visited with
  | zero => rfl
  | succ depth ih =>
    funext name
    rw [Declarations.meaning, Declarations.meaning, h.aliases, ih]

theorem resolve (h : d.Alike d') : d.resolve = d'.resolve := by
  have hname : d.resolveName = d'.resolveName := by
    funext name
    rw [resolveName, resolveName, h.aliasCount, h.meaning]
  funext type
  rw [Declarations.resolve, Declarations.resolve, hname]

theorem resolve? (h : d.Alike d') : d.resolve? = d'.resolve? := by
  funext type
  cases type with
  | none => rfl
  | some type => exact congrFun h.resolve type

theorem isAlias (h : d.Alike d') : d.isAlias = d'.isAlias := by
  funext name
  exact congrArg Option.isSome (h.aliases name)

theorem isFunction (h : d.Alike d') (name : String) :
    d.functions.contains name = d'.functions.contains name := by
  have hsome := congrArg Option.isSome (h.functions name)
  rw [Option.isSome_map, Option.isSome_map] at hsome
  exact hsome

end Declarations.Alike

/-! ### Rules -/

namespace Checker

/-- Only the answers of the global scope count: no part of a program is checked in its frame. -/
structure Alike (c c' : Checker) : Prop where
  decls : c.decls.Alike c'.decls
  globals : ∀ name, c.globals.get? name = c'.globals.get? name
  strict : c.strict = c'.strict

section

variable {c c' : Checker} (h : c.Alike c') {loc : Option Loc} {flow flow' : Flow}

include h

theorem Alike.lookup (hflow : flow.Alike flow') (name : String) :
    c.lookup name flow = c'.lookup name flow' := by
  have hstruct : c.decls.structs.contains name = c'.decls.structs.contains name :=
    congrArg Option.isSome (h.decls.structs name)
  have henum : c.decls.enums.contains name = c'.decls.enums.contains name :=
    congrArg Option.isSome (h.decls.enums name)
  rw [Checker.lookup, Checker.lookup, hflow.scope.get?, hflow.facts, h.decls.isFunction, hstruct, henum]

theorem Alike.requireAssignable (slot : Slot) (expected actual : TypeInfo) (loc : Option Loc) :
    c.requireAssignable slot expected actual loc = c'.requireAssignable slot expected actual loc := by
  unfold Checker.requireAssignable isAssignable
  rw [h.decls.isAlias]

theorem Alike.requireNonZero (slot : Slot) (expected actual : TypeInfo) (loc : Option Loc) :
    c.requireNonZero slot expected actual loc = c'.requireNonZero slot expected actual loc := by
  unfold Checker.requireNonZero
  rw [h.strict]

theorem Alike.requireFit (slot : Slot) (expected actual : TypeInfo) (loc : Option Loc) :
    c.requireFit slot expected actual loc = c'.requireFit slot expected actual loc := by
  unfold Checker.requireFit
  rw [h.requireAssignable, h.requireNonZero]

theorem Alike.arithmetic (op : BinaryOp) (left right : TypeInfo) (loc : Option Loc) :
    c.arithmetic op left right loc = c'.arithmetic op left right loc := by
  unfold Checker.arithmetic
  rw [h.strict]

theorem Alike.argument {sig sig' : FnSignature} (hsig : sig.head = sig'.head) (param : Param)
    (actual : TypeInfo) (loc : Option Loc) :
    c.argument sig param actual loc = c'.argument sig' param actual loc := by
  obtain ⟨hforeign, hname, _⟩ := FnSignature.eq_of_head hsig
  unfold Checker.argument
  dsimp only
  rw [h.decls.resolve?, h.strict, hforeign, hname, h.requireAssignable, h.requireNonZero]

theorem Alike.arguments {sig sig' : FnSignature} (hsig : sig.head = sig'.head) (params : List Param)
    (args : List (TypeInfo × Option Loc)) :
    c.arguments sig params args = c'.arguments sig' params args := by
  induction params generalizing args with
  | nil => rfl
  | cons param params ih =>
    cases args with
    | nil => rfl
    | cons arg args => rw [Checker.arguments, Checker.arguments, h.argument hsig, ih]

/-- A call sees the heads of functions only. -/
theorem Alike.call {sig sig' : FnSignature} (hsig : sig.head = sig'.head)
    (args : List (TypeInfo × Option Loc)) (loc : Option Loc) :
    c.call sig args loc = c'.call sig' args loc := by
  obtain ⟨hforeign, hname, hparams, hreturn⟩ := FnSignature.eq_of_head hsig
  unfold Checker.call
  dsimp only
  rw [hforeign, hname, hparams, hreturn, h.decls.resolve?, h.arguments hsig]

theorem Alike.field (decl : StructDecl) (name : String) (loc : Option Loc) :
    c.field decl name loc = c'.field decl name loc := by
  unfold Checker.field
  rw [h.decls.resolve]

theorem Alike.member (object : TypeInfo) (property : String) (loc : Option Loc) :
    c.member object property loc = c'.member object property loc := by
  unfold Checker.member
  rw [h.strict, h.decls.structs]
  simp only [h.field]

theorem Alike.index (target position : TypeInfo) (loc : Option Loc) :
    c.index target position loc = c'.index target position loc := by
  unfold Checker.index
  rw [h.strict]

theorem Alike.requireExhaustive (target : TypeInfo) (patterns : List Pattern) (loc : Option Loc) :
    c.requireExhaustive target patterns loc = c'.requireExhaustive target patterns loc := by
  unfold Checker.requireExhaustive
  rw [h.strict]

theorem Alike.returnValue (expected : Option TypeInfo) (value : TypeInfo) (loc : Option Loc) :
    c.returnValue expected value loc = c'.returnValue expected value loc := by
  unfold Checker.returnValue
  simp only [h.requireFit]

theorem Alike.fnResult (name : String) (expected : Option TypeInfo) (value : TypeInfo)
    (loc : Option Loc) :
    c.fnResult name expected value loc = c'.fnResult name expected value loc := by
  unfold Checker.fnResult
  simp only [h.requireFit]

theorem Alike.fnStart (params : List Param) : (c.fnStart params).Alike (c'.fnStart params) := by
  refine ⟨?_, rfl⟩
  unfold Checker.fnStart
  rw [h.decls.resolve?]
  have hglobals : c.globals.child.Alike c'.globals.child := ⟨h.globals, rfl, rfl⟩
  revert hglobals
  generalize c.globals.child = s
  generalize c'.globals.child = s'
  intro hs
  induction params generalizing s s' with
  | nil => exact hs
  | cons p ps ih => exact ih _ _ (hs.declare p.name _)

end

/-! ### Two attempts side by side -/

/-- Both attempts succeed, with related results, or both fail with the same fault. -/
inductive Agrees {α β : Type} (R : α → β → Prop) : Attempt α → Attempt β → Prop where
  | ok {a b} (h : R a b) : Agrees R (.ok a) (.ok b)
  | error (fault : Located CheckFault) : Agrees R (.error fault) (.error fault)

/-- The same result, with flows that are alike. -/
inductive Same {α : Type} : α × Flow → α × Flow → Prop where
  | mk (a : α) {flow flow' : Flow} (h : flow.Alike flow') : Same (a, flow) (a, flow')

section

variable {α α' β β' : Type} {R : α → α' → Prop} {S : β → β' → Prop}

theorem Agrees.bind {x : Attempt α} {y : Attempt α'} {f : α → Attempt β} {g : α' → Attempt β'}
    (h : Agrees R x y) (hf : ∀ a b, R a b → Agrees S (f a) (g b)) :
    Agrees S (x >>= f) (y >>= g) := by
  cases h with
  | ok hab => exact hf _ _ hab
  | error fault => exact .error fault

/-- A rule that gives both the same answer. -/
theorem Agrees.bind_eq {x y : Attempt α} {f : α → Attempt β} {g : α → Attempt β'} (h : x = y)
    (hf : ∀ a, Agrees S (f a) (g a)) : Agrees S (x >>= f) (y >>= g) := by
  subst h
  cases x with
  | ok a => exact hf a
  | error fault => exact .error fault

theorem Agrees.of_eq {x y : Attempt α} (h : x = y) : Agrees Eq x y := by
  subst h
  cases x with
  | ok a => exact .ok rfl
  | error fault => exact .error fault

theorem Agrees.eq {x y : Attempt α} (h : Agrees Eq x y) : x = y := by
  cases h with
  | ok hab => rw [hab]
  | error fault => rfl

end

/-- What a part does from flows that are alike. -/
def StepsAgree (step step' : Step) : Prop :=
  ∀ {flow flow'}, flow.Alike flow' → Agrees Same (step flow) (step' flow')

section

variable {first first' second second' : Step} {loc : Option Loc}

theorem shortCircuit_agrees (op : BinaryOp) (left right : Expr) (hleft : StepsAgree first first')
    (hright : StepsAgree second second') :
    StepsAgree (shortCircuit op left right loc first second)
      (shortCircuit op left right loc first' second') := by
  intro flow flow' hflow
  refine (hleft hflow).bind ?_
  rintro _ _ ⟨l, hmid⟩
  refine (hright (hmid.learn _)).bind ?_
  rintro _ _ ⟨r, hinner⟩
  refine .bind_eq rfl fun result => .ok (.mk _ ⟨hinner.scope, ?_⟩)
  rw [hmid.facts]

theorem nested_agrees (learned : Facts) (hbody : StepsAgree first first') :
    StepsAgree (nested learned first) (nested learned first') := by
  intro flow flow' hflow
  refine (hbody (hflow.child.learn learned)).bind ?_
  rintro _ _ ⟨result, hinner⟩
  exact .ok (.mk _ (hflow.settle hinner))

theorem ifElse_agrees (condition : Expr) {otherwise otherwise' : Option Step}
    (hcondition : StepsAgree first first') (hthen : StepsAgree second second')
    (helse : Option.Rel StepsAgree otherwise otherwise') :
    StepsAgree (ifElse condition loc first second otherwise)
      (ifElse condition loc first' second' otherwise') := by
  intro flow flow' hflow
  refine (hcondition hflow).bind ?_
  rintro _ _ ⟨tested, hmid⟩
  refine .bind_eq rfl fun _ => (nested_agrees _ hthen hmid).bind ?_
  rintro _ _ ⟨thenInfo, hafter⟩
  cases helse with
  | some helse =>
    refine (nested_agrees _ helse hafter).bind ?_
    rintro _ _ ⟨elseInfo, hlast⟩
    exact .ok (.mk _ hlast)
  | none => exact .ok (.mk _ hafter)

theorem bindFields_agrees {c c' : Checker} (h : c.Alike c') (struct : String)
    (fields : List PatternField) {flow flow' : Flow} (hflow : flow.Alike flow') :
    Agrees Flow.Alike (c.bindFields struct loc fields flow) (c'.bindFields struct loc fields flow') := by
  induction fields generalizing flow flow' with
  | nil => exact .ok hflow
  | cons f fs ih =>
    rw [bindFields, bindFields, h.decls.structs]
    cases c'.decls.structs.get? struct with
    | some decl => exact .bind_eq (h.field decl f.field loc) fun info => ih (hflow.declare _ _)
    | none => exact ih (hflow.declare _ _)

theorem bindPattern_agrees {c c' : Checker} (h : c.Alike c') (pattern : Pattern) {flow flow' : Flow}
    (hflow : flow.Alike flow') :
    Agrees Flow.Alike (c.bindPattern pattern loc flow) (c'.bindPattern pattern loc flow') := by
  cases pattern with
  | struct name fields => exact bindFields_agrees h name fields hflow
  | _ => exact .ok hflow

theorem matchArm_agrees {c c' : Checker} (h : c.Alike c') (pattern : Pattern)
    (hbody : StepsAgree first first') :
    StepsAgree (c.matchArm pattern loc first) (c'.matchArm pattern loc first') := by
  intro flow flow' hflow
  refine (bindPattern_agrees h pattern hflow.child).bind fun start start' hstart => ?_
  refine (hbody hstart).bind ?_
  rintro _ _ ⟨result, hinner⟩
  exact .ok (.mk _ (hflow.settle hinner))

theorem loopStart_alike (body : Block) {flow flow' : Flow} (hflow : flow.Alike flow') :
    (loopStart body flow).Alike (loopStart body flow') :=
  hflow.child.loosen _

theorem whileLoop_agrees (condition : Expr) (body : Block) (hcondition : StepsAgree first first')
    (hbody : StepsAgree second second') :
    StepsAgree (whileLoop condition body loc first second)
      (whileLoop condition body loc first' second') := by
  intro flow flow' hflow
  refine (hcondition (loopStart_alike body hflow)).bind ?_
  rintro _ _ ⟨tested, hstart⟩
  refine .bind_eq rfl fun _ => (hbody (hstart.learn _)).bind ?_
  rintro _ _ ⟨result, hinner⟩
  exact .ok (.mk _ (hflow.settle hinner))

theorem rangeBound_agrees (bound : Expr) (hbound : StepsAgree first first') {flow flow' : Flow}
    (hflow : flow.Alike flow') :
    Agrees Flow.Alike (rangeBound bound loc first flow) (rangeBound bound loc first' flow') := by
  refine (hbound hflow).bind ?_
  rintro _ _ ⟨info, hmid⟩
  dsimp only
  split
  · exact .ok hmid
  · exact .error _

theorem forLoop_agrees (iterator : String) (body : Block) (hbody : StepsAgree first first') :
    StepsAgree (forLoop iterator body first) (forLoop iterator body first') := by
  intro flow flow' hflow
  refine (hbody ((loopStart_alike body hflow).declare iterator _)).bind ?_
  rintro _ _ ⟨result, hinner⟩
  exact .ok (.mk _ (hflow.settle hinner))

theorem declare_agrees {c c' : Checker} (h : c.Alike c') (name : String) (type : Option TypeExpr)
    (value : TypeInfo) {flow flow' : Flow} (hflow : flow.Alike flow') :
    Agrees Flow.Alike (c.declare name type value loc flow) (c'.declare name type value loc flow') := by
  cases type with
  | none => exact .ok (hflow.declare _ _)
  | some type =>
    unfold declare
    dsimp only
    rw [h.decls.resolve, h.requireFit]
    exact .bind_eq rfl fun b => .ok (hflow.declare _ _)

theorem assign_agrees {c c' : Checker} (h : c.Alike c') (name : String) (value : TypeInfo)
    {flow flow' : Flow} (hflow : flow.Alike flow') :
    Agrees Flow.Alike (c.assign name value loc flow) (c'.assign name value loc flow') := by
  rw [assign, assign, hflow.scope.get?]
  cases flow'.scope.get? name with
  | none => exact .ok hflow
  | some b =>
    refine .bind_eq (h.requireFit _ _ value loc) fun _ => .ok ⟨hflow.scope.update _ _, ?_⟩
    rw [hflow.facts]

end

/-! ### The checker -/

theorem signature?_head {c c' : Checker} (h : c.Alike c') (callee : Expr) :
    (c.signature? callee).map FnSignature.head = (c'.signature? callee).map FnSignature.head := by
  cases callee with
  | ident name loc => exact h.decls.functions name
  | _ => rfl

mutual

theorem expr_agrees {c c' : Checker} (h : c.Alike c') (ret : Option TypeInfo) :
    ∀ e, StepsAgree (c.expr e ret) (c'.expr e ret)
  | .number .., _, _, hflow => .ok (.mk _ hflow)
  | .float .., _, _, hflow => .ok (.mk _ hflow)
  | .bool .., _, _, hflow => .ok (.mk _ hflow)
  | .string .., _, _, hflow => .ok (.mk _ hflow)
  | .char .., _, _, hflow => .ok (.mk _ hflow)
  | .ident name _, flow, flow', hflow => by
    rw [expr, expr, h.lookup hflow]
    exact .ok (.mk _ hflow)
  | .binary op left right loc, flow, flow', hflow => by
    rw [expr, expr]
    split
    · exact shortCircuit_agrees op left right (expr_agrees h ret left) (expr_agrees h ret right) hflow
    · refine (expr_agrees h ret left hflow).bind ?_
      rintro _ _ ⟨l, hmid⟩
      refine (expr_agrees h ret right hmid).bind ?_
      rintro _ _ ⟨r, hlast⟩
      dsimp only
      split
      · exact .ok (.mk _ hlast)
      · exact .bind_eq (h.arithmetic op l r loc) fun _ => .ok (.mk _ hlast)
  | .unary op operand loc, flow, flow', hflow => by
    rw [expr, expr]
    refine (expr_agrees h ret operand hflow).bind ?_
    rintro _ _ ⟨info, hlast⟩
    exact .bind_eq rfl fun _ => .ok (.mk _ hlast)
  | .call callee args loc, flow, flow', hflow => by
    rw [expr, expr]
    refine (args_agrees h ret loc args hflow).bind ?_
    rintro _ _ ⟨infos, hmid⟩
    dsimp only
    split
    · rename_i name place
      have hhead := signature?_head h (.ident name place)
      cases hsig : c.signature? (.ident name place) with
      | none =>
        rw [hsig, Option.map_none, eq_comm, Option.map_eq_none_iff] at hhead
        rw [hhead]
        exact .ok (.mk _ hmid)
      | some sig =>
        rw [hsig, Option.map_some, eq_comm, Option.map_eq_some_iff] at hhead
        obtain ⟨sig', hsig', hhead⟩ := hhead
        rw [hsig']
        exact .bind_eq (h.call hhead.symm infos loc) fun _ => .ok (.mk _ hmid)
    · refine (expr_agrees h ret callee hmid).bind ?_
      rintro _ _ ⟨info, hlast⟩
      exact .ok (.mk _ hlast)
  | .member object property loc, flow, flow', hflow => by
    rw [expr, expr]
    refine (expr_agrees h ret object hflow).bind ?_
    rintro _ _ ⟨info, hlast⟩
    exact .bind_eq (h.member info property loc) fun _ => .ok (.mk _ hlast)
  | .index target position loc, flow, flow', hflow => by
    rw [expr, expr]
    refine (expr_agrees h ret target hflow).bind ?_
    rintro _ _ ⟨array, hmid⟩
    refine (expr_agrees h ret position hmid).bind ?_
    rintro _ _ ⟨place, hlast⟩
    exact .bind_eq (h.index array place loc) fun _ => .ok (.mk _ hlast)
  | .structInit name fields loc, flow, flow', hflow => by
    rw [expr, expr, h.decls.structs]
    cases c'.decls.structs.get? name with
    | none => exact .error _
    | some decl =>
      exact (fieldInits_agrees h ret decl loc fields hflow).bind fun _ _ hlast => .ok (.mk _ hlast)
  | .ite condition thenBranch elseBranch loc, flow, flow', hflow => by
    rw [expr, expr]
    exact ifElse_agrees condition (expr_agrees h ret condition) (expr_agrees h ret thenBranch)
      (expr?_agrees h ret elseBranch) hflow
  | .matchOn target cases loc, flow, flow', hflow => by
    rw [expr, expr]
    refine (expr_agrees h ret target hflow).bind ?_
    rintro _ _ ⟨info, hmid⟩
    exact .bind_eq (h.requireExhaustive info _ loc) fun _ => matchCases_agrees h loc ret cases none hmid
  | .isPattern operand _ _, flow, flow', hflow => by
    rw [expr, expr]
    refine (expr_agrees h ret operand hflow).bind ?_
    rintro _ _ ⟨info, hlast⟩
    exact .ok (.mk _ hlast)
  | .unwrap operand _, flow, flow', hflow => by
    rw [expr, expr]
    exact expr_agrees h ret operand hflow
  | .block ⟨statements, _⟩, flow, flow', hflow => by
    rw [expr, expr]
    exact nested_agrees .empty (stmts_agrees h ret statements .void) hflow

theorem expr?_agrees {c c' : Checker} (h : c.Alike c') (ret : Option TypeInfo) :
    ∀ e, Option.Rel StepsAgree (c.expr? e ret) (c'.expr? e ret)
  | some e => .some (expr_agrees h ret e)
  | none => .none

theorem args_agrees {c c' : Checker} (h : c.Alike c') (ret : Option TypeInfo) (loc : Option Loc) :
    ∀ es {flow flow'}, flow.Alike flow' →
      Agrees Same (c.args es ret loc flow) (c'.args es ret loc flow')
  | [], _, _, hflow => .ok (.mk _ hflow)
  | e :: es, flow, flow', hflow => by
    rw [args, args]
    refine (expr_agrees h ret e hflow).bind ?_
    rintro _ _ ⟨info, hmid⟩
    refine (args_agrees h ret loc es hmid).bind ?_
    rintro _ _ ⟨infos, hlast⟩
    exact .ok (.mk _ hlast)

theorem fieldInits_agrees {c c' : Checker} (h : c.Alike c') (ret : Option TypeInfo)
    (decl : StructDecl) (loc : Option Loc) :
    ∀ fs {flow flow'}, flow.Alike flow' →
      Agrees Flow.Alike (c.fieldInits decl loc fs ret flow) (c'.fieldInits decl loc fs ret flow')
  | [], _, _, hflow => .ok hflow
  | ⟨key, value⟩ :: fs, flow, flow', hflow => by
    rw [fieldInits, fieldInits]
    cases decl.field? key with
    | none => exact .error _
    | some declared =>
      refine (expr_agrees h ret value hflow).bind ?_
      rintro _ _ ⟨info, hmid⟩
      dsimp only
      rw [h.decls.resolve]
      exact .bind_eq (h.requireAssignable _ _ info _) fun _ => fieldInits_agrees h ret decl loc fs hmid

theorem matchCases_agrees {c c' : Checker} (h : c.Alike c') (loc : Option Loc)
    (ret : Option TypeInfo) :
    ∀ cs joined, StepsAgree (c.matchCases loc cs ret joined) (c'.matchCases loc cs ret joined)
  | [], joined, _, _, hflow => .ok (.mk _ hflow)
  | ⟨pattern, body⟩ :: cs, joined, flow, flow', hflow => by
    rw [matchCases, matchCases]
    refine (matchArm_agrees h pattern (expr_agrees h ret body) hflow).bind ?_
    rintro _ _ ⟨info, hmid⟩
    exact matchCases_agrees h loc ret cs _ hmid

theorem stmts_agrees {c c' : Checker} (h : c.Alike c') (ret : Option TypeInfo) :
    ∀ ss last, StepsAgree (c.stmts ss ret last) (c'.stmts ss ret last)
  | [], last, _, _, hflow => .ok (.mk _ hflow)
  | s :: ss, last, flow, flow', hflow => by
    rw [stmts, stmts]
    refine (stmt_agrees h ret s hflow).bind ?_
    rintro _ _ ⟨info, hmid⟩
    exact stmts_agrees h ret ss info hmid

theorem stmt_agrees {c c' : Checker} (h : c.Alike c') (ret : Option TypeInfo) :
    ∀ s, StepsAgree (c.stmt s ret) (c'.stmt s ret)
  | .fnDecl decl, flow, flow', hflow => by
    rw [stmt, stmt]
    exact .bind_eq (fnDecl_agrees h decl).eq fun _ => .ok (.mk _ hflow)
  | .letDecl name type value loc, flow, flow', hflow => by
    rw [stmt, stmt]
    refine (expr_agrees h ret value hflow).bind ?_
    rintro _ _ ⟨info, hmid⟩
    exact (declare_agrees h name type info hmid).bind fun _ _ hlast => .ok (.mk _ hlast)
  | .assign target value loc, flow, flow', hflow => by
    rw [stmt, stmt]
    refine (expr_agrees h ret value hflow).bind ?_
    rintro _ _ ⟨info, hmid⟩
    dsimp only
    split
    · exact (assign_agrees h _ info hmid).bind fun _ _ hlast => .ok (.mk _ hlast)
    · refine (expr_agrees h ret target hmid).bind ?_
      rintro _ _ ⟨place, hlast⟩
      exact .ok (.mk _ hlast)
  | .ret none loc, flow, flow', hflow => by
    rw [stmt, stmt]
    exact .bind_eq (h.returnValue ret .void loc) fun _ => .ok (.mk _ hflow)
  | .ret (some value) loc, flow, flow', hflow => by
    rw [stmt, stmt]
    refine (expr_agrees h ret value hflow).bind ?_
    rintro _ _ ⟨info, hlast⟩
    exact .bind_eq (h.returnValue ret info _) fun _ => .ok (.mk _ hlast)
  | .expr e _, flow, flow', hflow => by
    rw [stmt, stmt]
    exact expr_agrees h ret e hflow
  | .block ⟨statements, _⟩, flow, flow', hflow => by
    rw [stmt, stmt]
    exact nested_agrees .empty (stmts_agrees h ret statements .void) hflow
  | .ite condition thenBranch elseBranch loc, flow, flow', hflow => by
    rw [stmt, stmt]
    exact ifElse_agrees condition (expr_agrees h ret condition) (expr_agrees h ret thenBranch)
      (expr?_agrees h ret elseBranch) hflow
  | .whileLoop condition ⟨statements, _⟩ loc, flow, flow', hflow => by
    rw [stmt, stmt]
    exact whileLoop_agrees condition _ (expr_agrees h ret condition)
      (nested_agrees .empty (stmts_agrees h ret statements .void)) hflow
  | .forLoop iterator first last ⟨statements, _⟩ loc, flow, flow', hflow => by
    rw [stmt, stmt]
    refine (rangeBound_agrees first (expr_agrees h ret first) hflow).bind fun _ _ hmid => ?_
    refine (rangeBound_agrees last (expr_agrees h ret last) hmid).bind fun _ _ hstart => ?_
    exact forLoop_agrees iterator _ (nested_agrees .empty (stmts_agrees h ret statements .void)) hstart
  | .foreignFn _, _, _, hflow => .ok (.mk _ hflow)
  | .structDecl _, _, _, hflow => .ok (.mk _ hflow)
  | .enumDecl _, _, _, hflow => .ok (.mk _ hflow)
  | .typeAlias .., _, _, hflow => .ok (.mk _ hflow)
  | .foreignType .., _, _, hflow => .ok (.mk _ hflow)
  | .foreignLet .., _, _, hflow => .ok (.mk _ hflow)
  | .breakLoop _, _, _, hflow => .ok (.mk _ hflow)
  | .continueLoop _, _, _, hflow => .ok (.mk _ hflow)

/-- Checkers that are alike give the same verdict on every function. -/
theorem fnDecl_agrees {c c' : Checker} (h : c.Alike c') :
    ∀ decl, Agrees Eq (c.fnDecl decl) (c'.fnDecl decl)
  | ⟨_, _, _, _, none, _, _⟩ => .ok rfl
  | ⟨name, _, params, returnType, some body, _, loc⟩ => by
    rw [fnDecl, fnDecl, h.decls.resolve]
    refine (expr_agrees h _ body (h.fnStart params)).bind ?_
    rintro _ _ ⟨info, _⟩
    exact .of_eq (h.fnResult name _ info _)

end

end Checker

end TuffSafety
