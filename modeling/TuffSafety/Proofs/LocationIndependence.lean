import Mathlib.Data.Option.Basic
import TuffSafety.Pipeline
import TuffSafety.Proofs.Positions
import TuffSafety.Proofs.Unlocated

/-!
# Verdicts do not depend on locations

Locations are handed on to be blamed and are never looked at. Checking a program and checking it with
every location erased go through the same flows, side by side: both are accepted, or both are rejected
for the same cause. So programs that differ in locations only get reports that say the same, at
whatever place.
-/
namespace TuffSafety

namespace Checker

/-- Both attempts succeed, with related results, or both fail for the same cause. -/
inductive SameVerdict {α β : Type} (R : α → β → Prop) : Attempt α → Attempt β → Prop where
  | ok {a b} (h : R a b) : SameVerdict R (.ok a) (.ok b)
  | error (cause : CheckFault) (loc loc' : Option Loc) :
      SameVerdict R (.error ⟨cause, loc⟩) (.error ⟨cause, loc'⟩)

namespace SameVerdict

variable {α α' β β' : Type} {R : α → α' → Prop} {S : β → β' → Prop}

theorem bind {x : Attempt α} {y : Attempt α'} {f : α → Attempt β} {g : α' → Attempt β'}
    (h : SameVerdict R x y) (hf : ∀ a b, R a b → SameVerdict S (f a) (g b)) :
    SameVerdict S (x >>= f) (y >>= g) := by
  cases h with
  | ok hab => exact hf _ _ hab
  | error cause loc loc' => exact .error cause loc loc'

/-- After the same result both go on from it. -/
theorem seq {x y : Attempt α} {f : α → Attempt β} {g : α → Attempt β'} (h : SameVerdict Eq x y)
    (hf : ∀ a, SameVerdict S (f a) (g a)) : SameVerdict S (x >>= f) (y >>= g) := by
  refine h.bind ?_
  rintro a _ rfl
  exact hf a

theorem symm {x y : Attempt α} (h : SameVerdict Eq x y) : SameVerdict Eq y x := by
  cases h with
  | ok hab => exact .ok hab.symm
  | error cause loc loc' => exact .error cause loc' loc

theorem trans {x y z : Attempt α} (h : SameVerdict Eq x y) (h' : SameVerdict Eq y z) :
    SameVerdict Eq x z := by
  cases h with
  | ok hab =>
    subst hab
    exact h'
  | error cause loc loc' =>
    cases h' with
    | error _ _ loc'' => exact .error cause loc loc''

end SameVerdict

/-! ### Rules -/

/-- The checker of the program with every location erased. -/
def unlocated (c : Checker) : Checker :=
  { c with decls := Unlocated.decls c.decls }

theorem ofDeclarations_unlocated (d : Declarations) (strict : Bool) :
    ofDeclarations (Unlocated.decls d) strict = (ofDeclarations d strict).unlocated := by
  have hglobals : globalScope (Unlocated.decls d) = globalScope d := by
    unfold globalScope
    change (d.globals.map Unlocated.global).foldl _ _ = _
    rw [List.foldl_map]
    simp only [Unlocated.global, Unlocated.resolve_decls]
  unfold ofDeclarations
  rw [hglobals]
  rfl

section

variable {c : Checker} {loc loc' : Option Loc}

theorem strict_unlocated (c : Checker) : c.unlocated.strict = c.strict := rfl

theorem get?_struct_unlocated (c : Checker) (name : String) :
    c.unlocated.decls.structs.get? name =
      (c.decls.structs.get? name).map Unlocated.structDecl :=
  OrderedMap.get?_map _ _ _

theorem resolve_unlocated (c : Checker) (type : TypeExpr) :
    c.unlocated.decls.resolve (Unlocated.typeExpr type) = c.decls.resolve type :=
  Unlocated.resolve_decls _ _

theorem resolve?_unlocated (c : Checker) (type : Option TypeExpr) :
    c.unlocated.decls.resolve? (Unlocated.typeExpr? type) = c.decls.resolve? type :=
  Unlocated.resolve?_decls _ _

theorem lookup_unlocated (c : Checker) (name : String) (flow : Flow) :
    c.unlocated.lookup name flow = c.lookup name flow := by
  have hfn : c.unlocated.decls.functions.contains name = c.decls.functions.contains name :=
    OrderedMap.contains_map _ _ _
  have hstruct : c.unlocated.decls.structs.contains name = c.decls.structs.contains name :=
    OrderedMap.contains_map _ _ _
  have henum : c.unlocated.decls.enums.contains name = c.decls.enums.contains name :=
    OrderedMap.contains_map _ _ _
  rw [lookup, lookup, hfn, hstruct, henum]

theorem requireAssignable_same (slot : Slot) (expected actual : TypeInfo) :
    SameVerdict Eq (c.requireAssignable slot expected actual loc)
      (c.unlocated.requireAssignable slot expected actual loc') := by
  have hassignable : c.unlocated.isAssignable expected actual = c.isAssignable expected actual := by
    unfold isAssignable
    rw [unlocated, Unlocated.isAlias_decls]
  unfold requireAssignable
  rw [hassignable]
  split
  · exact .ok rfl
  · exact .error _ _ _

theorem requireNonZero_same (slot : Slot) (expected actual : TypeInfo) :
    SameVerdict Eq (c.requireNonZero slot expected actual loc)
      (c.unlocated.requireNonZero slot expected actual loc') := by
  unfold requireNonZero
  rw [strict_unlocated]
  split
  · exact .error _ _ _
  · exact .ok rfl

theorem requireFit_same (slot : Slot) (expected actual : TypeInfo) :
    SameVerdict Eq (c.requireFit slot expected actual loc)
      (c.unlocated.requireFit slot expected actual loc') :=
  (requireAssignable_same slot expected actual).seq fun _ => requireNonZero_same slot expected actual

theorem checkOverflow_same (op : BinaryOp) (bounds : Option Interval) :
    SameVerdict Eq (checkOverflow op bounds loc) (checkOverflow op bounds loc') := by
  unfold checkOverflow
  split
  · exact .error _ _ _
  · split
    · exact .error _ _ _
    · exact .ok rfl

theorem arithmetic_same (op : BinaryOp) (left right : TypeInfo) :
    SameVerdict Eq (c.arithmetic op left right loc) (c.unlocated.arithmetic op left right loc') := by
  unfold arithmetic
  dsimp only
  rw [strict_unlocated]
  split
  · exact .error _ _ _
  split
  · exact .error _ _ _
  split
  · split
    · exact .error _ _ _
    · exact .ok rfl
  · split
    · exact (checkOverflow_same op _).seq fun _ => .ok rfl
    · exact .ok rfl

theorem logical_same (op : BinaryOp) (left right : TypeInfo) :
    SameVerdict Eq (logical op left right loc) (logical op left right loc') := by
  unfold logical
  dsimp only
  split
  · exact .error _ _ _
  split
  · exact .error _ _ _
  · exact .ok rfl

theorem unary_same (op : UnaryOp) (operand : TypeInfo) :
    SameVerdict Eq (unary op operand loc) (unary op operand loc') := by
  cases op with
  | not =>
    unfold unary
    dsimp only
    split
    · exact .ok rfl
    · exact .error _ _ _
  | neg =>
    unfold unary
    dsimp only
    split
    · exact .ok rfl
    · split
      · exact .ok rfl
      · exact .error _ _ _
  | ref | refMut => exact .ok rfl

theorem argument_same (sig : FnSignature) (name : String) (type : Option TypeExpr)
    (actual : TypeInfo) :
    SameVerdict Eq (c.argument sig ⟨name, type⟩ actual loc)
      (c.unlocated.argument (Unlocated.signature sig) ⟨name, Unlocated.typeExpr? type⟩ actual loc') := by
  have hname : (Unlocated.signature sig).decl.name = sig.decl.name := Unlocated.fnDecl_name _
  have hforeign : (Unlocated.signature sig).foreign = sig.foreign := rfl
  unfold argument
  dsimp only
  rw [resolve?_unlocated, strict_unlocated, hname, hforeign]
  split
  · exact .error _ _ _
  split
  · exact (requireAssignable_same _ _ actual).seq fun _ => requireNonZero_same _ _ actual
  · exact requireNonZero_same _ _ actual

/-- The places that arguments are blamed on apart, both lists are the same. -/
def SameTypes (infos infos' : List (TypeInfo × Option Loc)) : Prop :=
  infos.map Prod.fst = infos'.map Prod.fst

theorem arguments_same (sig : FnSignature) (params : List Param)
    {infos infos' : List (TypeInfo × Option Loc)} (h : SameTypes infos infos') :
    SameVerdict Eq (c.arguments sig params infos)
      (c.unlocated.arguments (Unlocated.signature sig) (Unlocated.params params) infos') := by
  induction params generalizing infos infos' with
  | nil => exact .ok rfl
  | cons param params ih =>
    obtain ⟨name, type⟩ := param
    cases infos with
    | nil =>
      rw [List.map_eq_nil_iff.mp h.symm]
      exact .ok rfl
    | cons info infos =>
      obtain ⟨actual, place⟩ := info
      obtain ⟨⟨_, place'⟩, infos', rfl, rfl, hrest⟩ := List.map_eq_cons_iff.mp h.symm
      rw [Unlocated.params, arguments, arguments]
      exact (argument_same sig name type _).seq fun _ => ih hrest.symm

theorem call_same (sig : FnSignature) {infos infos' : List (TypeInfo × Option Loc)}
    (h : SameTypes infos infos') :
    SameVerdict Eq (c.call sig infos loc)
      (c.unlocated.call (Unlocated.signature sig) infos' loc') := by
  have hparams : (Unlocated.signature sig).decl.params = Unlocated.params sig.decl.params := by
    obtain ⟨⟨⟩, _⟩ := sig
    rfl
  have hreturn : (Unlocated.signature sig).decl.returnType =
      Unlocated.typeExpr? sig.decl.returnType := by
    obtain ⟨⟨⟩, _⟩ := sig
    rfl
  have hname : (Unlocated.signature sig).decl.name = sig.decl.name := Unlocated.fnDecl_name _
  have hforeign : (Unlocated.signature sig).foreign = sig.foreign := rfl
  have hcount : infos'.length = infos.length := by
    have hlength := congrArg List.length h
    rw [List.length_map, List.length_map] at hlength
    exact hlength.symm
  unfold call
  dsimp only
  rw [hparams, hreturn, hname, hforeign, hcount, Unlocated.params_eq_map, List.length_map,
    resolve?_unlocated]
  split
  · exact .error _ _ _
  · rw [← Unlocated.params_eq_map]
    exact (arguments_same sig sig.decl.params h).seq fun _ => .ok rfl

theorem signature?_unlocated (c : Checker) (callee : Expr) :
    c.unlocated.signature? (Unlocated.expr callee) =
      (c.signature? callee).map Unlocated.signature := by
  cases callee with
  | ident name place => exact OrderedMap.get?_map _ _ _
  | _ => rfl

theorem field_same (decl : StructDecl) (name : String) :
    SameVerdict Eq (c.field decl name loc)
      (c.unlocated.field (Unlocated.structDecl decl) name loc') := by
  unfold field
  rw [Unlocated.field?_structDecl, Unlocated.structDecl_name]
  cases decl.field? name with
  | none => exact .error _ _ _
  | some f =>
    refine .ok ?_
    exact (resolve_unlocated c f.type).symm

theorem member_same (object : TypeInfo) (property : String) :
    SameVerdict Eq (c.member object property loc) (c.unlocated.member object property loc') := by
  unfold member
  rw [strict_unlocated, get?_struct_unlocated]
  split
  · exact .error _ _ _
  split
  · exact .ok rfl
  cases c.decls.structs.get? (pointee object.name) with
  | none => exact .ok rfl
  | some decl => exact field_same decl property

theorem index_same (target position : TypeInfo) :
    SameVerdict Eq (c.index target position loc) (c.unlocated.index target position loc') := by
  unfold index
  rw [strict_unlocated]
  split
  · exact .ok rfl
  split
  · exact .error _ _ _
  split
  · split
    · exact .error _ _ _
    · exact .ok rfl
  · exact .error _ _ _
  · split
    · exact .error _ _ _
    · exact .ok rfl

theorem requireCondition_same (guard : Guard) (condition : TypeInfo) :
    SameVerdict Eq (requireCondition guard condition loc)
      (requireCondition guard condition loc') := by
  unfold requireCondition
  split
  · exact .ok rfl
  · exact .error _ _ _

theorem requireExhaustive_same (target : TypeInfo) (patterns : List Pattern) :
    SameVerdict Eq (c.requireExhaustive target patterns loc)
      (c.unlocated.requireExhaustive target patterns loc') := by
  unfold requireExhaustive
  rw [strict_unlocated]
  split
  · split
    · exact .ok rfl
    · exact .error _ _ _
  · exact .ok rfl

theorem bindFields_same (struct : String) (fields : List PatternField) (flow : Flow) :
    SameVerdict Eq (c.bindFields struct loc fields flow)
      (c.unlocated.bindFields struct loc' fields flow) := by
  induction fields generalizing flow with
  | nil => exact .ok rfl
  | cons f fs ih =>
    rw [bindFields, bindFields, get?_struct_unlocated]
    cases c.decls.structs.get? struct with
    | none => exact ih _
    | some decl => exact (field_same decl f.field).seq fun _ => ih _

theorem bindPattern_same (pattern : Pattern) (flow : Flow) :
    SameVerdict Eq (c.bindPattern pattern loc flow) (c.unlocated.bindPattern pattern loc' flow) := by
  cases pattern with
  | struct name fields => exact bindFields_same name fields flow
  | _ => exact .ok rfl

theorem declare_same (name : String) (type : Option TypeExpr) (value : TypeInfo) (flow : Flow) :
    SameVerdict Eq (c.declare name type value loc flow)
      (c.unlocated.declare name (Unlocated.typeExpr? type) value loc' flow) := by
  cases type with
  | none => exact .ok rfl
  | some type =>
    unfold declare
    dsimp only [Unlocated.typeExpr?]
    rw [resolve_unlocated]
    refine (requireFit_same _ _ value).bind ?_
    rintro _ _ rfl
    exact .ok rfl

theorem assign_same (name : String) (value : TypeInfo) (flow : Flow) :
    SameVerdict Eq (c.assign name value loc flow) (c.unlocated.assign name value loc' flow) := by
  unfold assign
  cases flow.scope.get? name with
  | none => exact .ok rfl
  | some b => exact (requireFit_same _ _ value).seq fun _ => .ok rfl

theorem returnValue_same (expected : Option TypeInfo) (value : TypeInfo) :
    SameVerdict Eq (c.returnValue expected value loc)
      (c.unlocated.returnValue expected value loc') := by
  cases expected with
  | none => exact .ok rfl
  | some expected =>
    unfold returnValue
    dsimp only
    split
    · split
      · exact .ok rfl
      · exact .error _ _ _
    · exact requireFit_same _ _ value

theorem fnResult_same (name : String) (expected : Option TypeInfo) (value : TypeInfo) :
    SameVerdict Eq (c.fnResult name expected value loc)
      (c.unlocated.fnResult name expected value loc') := by
  cases expected with
  | none => exact .ok rfl
  | some expected =>
    unfold fnResult
    dsimp only
    split
    · exact .ok rfl
    · exact requireFit_same _ _ value

theorem fnStart_unlocated (c : Checker) (params : List Param) :
    c.unlocated.fnStart (Unlocated.params params) = c.fnStart params := by
  have hglobals : c.unlocated.globals = c.globals := rfl
  rw [fnStart, fnStart, Unlocated.params_eq_map, List.foldl_map, hglobals]
  simp only [resolve?_unlocated]

end

/-! ### Steps -/

/-- From every flow, two parts come to the same verdict and leave the same flow. -/
def StepsSame (step step' : Step) : Prop :=
  ∀ flow, SameVerdict Eq (step flow) (step' flow)

section

variable {c : Checker} {first first' second second' : Step} {loc loc' : Option Loc}

theorem nested_same (learned : Facts) (hbody : StepsSame first first') :
    StepsSame (nested learned first) (nested learned first') :=
  fun _ => (hbody _).seq fun _ => .ok rfl

theorem shortCircuit_same (op : BinaryOp) (left right : Expr) (hleft : StepsSame first first')
    (hright : StepsSame second second') :
    StepsSame (shortCircuit op left right loc first second)
      (shortCircuit op (Unlocated.expr left) (Unlocated.expr right) loc' first' second') := by
  intro flow
  unfold shortCircuit
  rw [Unlocated.derive_expr, Unlocated.expr_assigned]
  exact (hleft flow).seq fun l => (hright _).seq fun r => (logical_same op l.1 r.1).seq fun _ =>
    .ok rfl

theorem ifElse_same (condition : Expr) {otherwise otherwise' : Option Step}
    (hcondition : StepsSame first first') (hthen : StepsSame second second')
    (helse : Option.Rel StepsSame otherwise otherwise') :
    StepsSame (ifElse condition loc first second otherwise)
      (ifElse (Unlocated.expr condition) loc' first' second' otherwise') := by
  intro flow
  unfold ifElse
  rw [Unlocated.derive_expr, Unlocated.derive_expr]
  refine (hcondition flow).seq fun tested => (requireCondition_same _ tested.1).seq fun _ =>
    (nested_same _ hthen _).seq fun after => ?_
  cases helse with
  | some helse => exact (nested_same _ helse _).seq fun _ => .ok rfl
  | none => exact .ok rfl

theorem matchArm_same (pattern : Pattern) (hbody : StepsSame first first') :
    StepsSame (c.matchArm pattern loc first) (c.unlocated.matchArm pattern loc' first') :=
  fun _ => (bindPattern_same pattern _).seq fun start => (hbody start).seq fun _ => .ok rfl

theorem loopStart_unlocated (body : Block) (flow : Flow) :
    loopStart (Unlocated.block body) flow = loopStart body flow := by
  rw [loopStart, loopStart, Unlocated.block_assigned]

theorem whileLoop_same (condition : Expr) (body : Block) (hcondition : StepsSame first first')
    (hbody : StepsSame second second') :
    StepsSame (whileLoop condition body loc first second)
      (whileLoop (Unlocated.expr condition) (Unlocated.block body) loc' first' second') := by
  intro flow
  unfold whileLoop
  rw [loopStart_unlocated, Unlocated.derive_expr]
  exact (hcondition _).seq fun tested => (requireCondition_same _ tested.1).seq fun _ =>
    (hbody _).seq fun _ => .ok rfl

theorem rangeBound_same (bound bound' : Expr) (hbound : StepsSame first first') (flow : Flow) :
    SameVerdict Eq (rangeBound bound loc first flow) (rangeBound bound' loc' first' flow) := by
  refine (hbound flow).seq fun info => ?_
  dsimp only
  split
  · exact .ok rfl
  · exact .error _ _ _

theorem forLoop_same (iterator : String) (body : Block) (hbody : StepsSame first first') :
    StepsSame (forLoop iterator body first) (forLoop iterator (Unlocated.block body) first') := by
  intro flow
  unfold forLoop
  rw [loopStart_unlocated]
  exact (hbody _).seq fun _ => .ok rfl

end

/-! ### The checker -/

/-- The same arguments and the same flow. -/
inductive SameArgs : List (TypeInfo × Option Loc) × Flow → List (TypeInfo × Option Loc) × Flow → Prop
  where
  | mk {infos infos'} (h : SameTypes infos infos') (flow : Flow) : SameArgs (infos, flow) (infos', flow)

mutual

theorem expr_same (c : Checker) (ret : Option TypeInfo) :
    ∀ e, StepsSame (c.expr e ret) (c.unlocated.expr (Unlocated.expr e) ret)
  | .number .., flow | .float .., flow | .bool .., flow | .string .., flow | .char .., flow => by
    rw [Unlocated.expr, expr, expr]
    exact .ok rfl
  | .ident name _, flow => by
    rw [Unlocated.expr, expr, expr, lookup_unlocated]
    exact .ok rfl
  | .binary op left right loc, flow => by
    rw [Unlocated.expr, expr, expr]
    split
    · exact shortCircuit_same op left right (expr_same c ret left) (expr_same c ret right) flow
    · refine (expr_same c ret left flow).seq fun l => (expr_same c ret right _).seq fun r => ?_
      dsimp only
      split
      · exact .ok rfl
      · exact (arithmetic_same op l.1 r.1).seq fun _ => .ok rfl
  | .unary op operand loc, flow => by
    rw [Unlocated.expr, expr, expr]
    exact (expr_same c ret operand flow).seq fun info => (unary_same op info.1).seq fun _ => .ok rfl
  | .call callee args loc, flow => by
    have hcallee := expr_same c ret callee
    rw [Unlocated.expr, expr, expr]
    refine (args_same c ret loc none args flow).bind ?_
    rintro _ _ ⟨hinfos, mid⟩
    cases callee with
    | ident name place =>
      have hsig := signature?_unlocated c (.ident name place)
      dsimp only [Unlocated.expr] at hsig ⊢
      rw [hsig]
      cases c.signature? (.ident name place) with
      | none => exact .ok rfl
      | some sig => exact (call_same sig hinfos).seq fun _ => .ok rfl
    | _ => exact (hcallee mid).seq fun _ => .ok rfl
  | .member object property loc, flow => by
    rw [Unlocated.expr, expr, expr]
    exact (expr_same c ret object flow).seq fun info =>
      (member_same info.1 property).seq fun _ => .ok rfl
  | .index target position loc, flow => by
    rw [Unlocated.expr, expr, expr]
    exact (expr_same c ret target flow).seq fun array => (expr_same c ret position _).seq fun place =>
      (index_same array.1 place.1).seq fun _ => .ok rfl
  | .structInit name fields loc, flow => by
    rw [Unlocated.expr, expr, expr, get?_struct_unlocated]
    cases c.decls.structs.get? name with
    | none => exact .error _ _ _
    | some decl => exact (fieldInits_same c ret decl loc none fields flow).seq fun _ => .ok rfl
  | .ite condition thenBranch elseBranch loc, flow => by
    rw [Unlocated.expr, expr, expr]
    exact ifElse_same condition (expr_same c ret condition) (expr_same c ret thenBranch)
      (expr?_same c ret elseBranch) flow
  | .matchOn target cases loc, flow => by
    rw [Unlocated.expr, expr, expr, Unlocated.matchCases_pattern]
    exact (expr_same c ret target flow).seq fun info => (requireExhaustive_same info.1 _).seq fun _ =>
      matchCases_same c ret loc none cases none info.2
  | .isPattern operand _ _, flow => by
    rw [Unlocated.expr, expr, expr]
    exact (expr_same c ret operand flow).seq fun _ => .ok rfl
  | .unwrap operand _, flow => by
    rw [Unlocated.expr, expr, expr]
    exact expr_same c ret operand flow
  | .block ⟨statements, _⟩, flow => by
    rw [Unlocated.expr, Unlocated.block, expr, expr]
    exact nested_same .empty (stmts_same c ret statements .void) flow

theorem expr?_same (c : Checker) (ret : Option TypeInfo) :
    ∀ e, Option.Rel StepsSame (c.expr? e ret) (c.unlocated.expr? (Unlocated.expr? e) ret)
  | some e => .some (expr_same c ret e)
  | none => .none

theorem args_same (c : Checker) (ret : Option TypeInfo) (loc loc' : Option Loc) :
    ∀ es flow, SameVerdict SameArgs (c.args es ret loc flow)
      (c.unlocated.args (Unlocated.exprs es) ret loc' flow)
  | [], flow => .ok (.mk rfl flow)
  | e :: es, flow => by
    rw [Unlocated.exprs, args, args]
    refine (expr_same c ret e flow).seq fun info => (args_same c ret loc loc' es info.2).bind ?_
    rintro _ _ ⟨hinfos, last⟩
    refine .ok (.mk ?_ last)
    exact congrArg (info.1 :: ·) hinfos

theorem fieldInits_same (c : Checker) (ret : Option TypeInfo) (decl : StructDecl)
    (loc loc' : Option Loc) :
    ∀ fs flow, SameVerdict Eq (c.fieldInits decl loc fs ret flow)
      (c.unlocated.fieldInits (Unlocated.structDecl decl) loc' (Unlocated.fieldInits fs) ret flow)
  | [], _ => .ok rfl
  | ⟨key, value⟩ :: fs, flow => by
    rw [Unlocated.fieldInits, fieldInits, fieldInits, Unlocated.field?_structDecl,
      Unlocated.structDecl_name]
    cases decl.field? key with
    | none => exact .error _ _ _
    | some declared =>
      dsimp only [Option.map_some]
      rw [resolve_unlocated]
      exact (expr_same c ret value flow).seq fun info => (requireAssignable_same _ _ info.1).seq fun _ =>
        fieldInits_same c ret decl loc loc' fs info.2

theorem matchCases_same (c : Checker) (ret : Option TypeInfo) (loc loc' : Option Loc) :
    ∀ cs joined, StepsSame (c.matchCases loc cs ret joined)
      (c.unlocated.matchCases loc' (Unlocated.matchCases cs) ret joined)
  | [], _, _ => .ok rfl
  | ⟨pattern, body⟩ :: cs, joined, flow => by
    rw [Unlocated.matchCases, matchCases, matchCases]
    exact (matchArm_same pattern (expr_same c ret body) flow).seq fun info =>
      matchCases_same c ret loc loc' cs _ info.2

theorem stmts_same (c : Checker) (ret : Option TypeInfo) :
    ∀ ss last, StepsSame (c.stmts ss ret last) (c.unlocated.stmts (Unlocated.stmts ss) ret last)
  | [], _, _ => .ok rfl
  | s :: ss, last, flow => by
    rw [Unlocated.stmts, stmts, stmts]
    exact (stmt_same c ret s flow).seq fun info => stmts_same c ret ss info.1 info.2

theorem stmt_same (c : Checker) (ret : Option TypeInfo) :
    ∀ s, StepsSame (c.stmt s ret) (c.unlocated.stmt (Unlocated.stmt s) ret)
  | .fnDecl decl, flow => by
    rw [Unlocated.stmt, stmt, stmt]
    exact (fnDecl_same c decl).seq fun _ => .ok rfl
  | .letDecl name type value loc, flow => by
    rw [Unlocated.stmt, stmt, stmt]
    exact (expr_same c ret value flow).seq fun info =>
      (declare_same name type info.1 info.2).seq fun _ => .ok rfl
  | .assign target value loc, flow => by
    have htarget := expr_same c ret target
    rw [Unlocated.stmt, stmt, stmt]
    refine (expr_same c ret value flow).seq fun info => ?_
    cases target with
    | ident name place => exact (assign_same name info.1 info.2).seq fun _ => .ok rfl
    | _ => exact (htarget info.2).seq fun _ => .ok rfl
  | .ret none loc, flow => by
    rw [Unlocated.stmt, Unlocated.expr?, stmt, stmt]
    exact (returnValue_same ret .void).seq fun _ => .ok rfl
  | .ret (some value) loc, flow => by
    rw [Unlocated.stmt, Unlocated.expr?, stmt, stmt]
    exact (expr_same c ret value flow).seq fun info => (returnValue_same ret info.1).seq fun _ => .ok rfl
  | .expr e _, flow => by
    rw [Unlocated.stmt, stmt, stmt]
    exact expr_same c ret e flow
  | .block ⟨statements, _⟩, flow => by
    rw [Unlocated.stmt, Unlocated.block, stmt, stmt]
    exact nested_same .empty (stmts_same c ret statements .void) flow
  | .ite condition thenBranch elseBranch loc, flow => by
    rw [Unlocated.stmt, stmt, stmt]
    exact ifElse_same condition (expr_same c ret condition) (expr_same c ret thenBranch)
      (expr?_same c ret elseBranch) flow
  | .whileLoop condition ⟨statements, place⟩ loc, flow => by
    rw [Unlocated.stmt, Unlocated.block, stmt, stmt]
    exact whileLoop_same condition ⟨statements, place⟩ (expr_same c ret condition)
      (nested_same .empty (stmts_same c ret statements .void)) flow
  | .forLoop iterator first last ⟨statements, place⟩ loc, flow => by
    rw [Unlocated.stmt, Unlocated.block, stmt, stmt]
    exact (rangeBound_same first _ (expr_same c ret first) flow).seq fun mid =>
      (rangeBound_same last _ (expr_same c ret last) mid).seq fun start =>
        forLoop_same iterator ⟨statements, place⟩
          (nested_same .empty (stmts_same c ret statements .void)) start
  | .foreignFn _, _ | .structDecl _, _ | .enumDecl _, _ | .typeAlias .., _ | .foreignType .., _
  | .foreignLet .., _ | .breakLoop _, _ | .continueLoop _, _ => by
    rw [Unlocated.stmt, stmt, stmt]
    exact .ok rfl

theorem fnDecl_same (c : Checker) :
    ∀ decl, SameVerdict Eq (c.fnDecl decl) (c.unlocated.fnDecl (Unlocated.fnDecl decl))
  | ⟨_, _, _, _, none, _, _⟩ => .ok rfl
  | ⟨name, _, params, returnType, some body, _, loc⟩ => by
    have hreturn : (Unlocated.typeExpr? returnType).map c.unlocated.decls.resolve =
        returnType.map c.decls.resolve := by
      cases returnType with
      | none => rfl
      | some type => exact congrArg some (resolve_unlocated c type)
    rw [Unlocated.fnDecl, Unlocated.expr?, fnDecl, fnDecl, hreturn, fnStart_unlocated]
    exact (expr_same c _ body _).seq fun info => fnResult_same name _ info.1

end

/-! ### Programs -/

/-- A program and the program without locations are accepted together or rejected for one cause. -/
theorem check_unlocated (program : Program) (strict : Bool) :
    SameVerdict Eq (program.check strict) (program.unlocated.check strict) := by
  have hdecls : Declarations.ofProgram program.unlocated =
      Unlocated.decls (Declarations.ofProgram program) :=
    (Unlocated.decls_ofStatements program.body).symm
  unfold Program.check
  rw [hdecls, ofDeclarations_unlocated]
  exact (stmts_same _ none program.body .void _).seq fun _ => .ok rfl

/-- Erasing is a way to compare: programs that are equal up to locations have the same verdict. -/
theorem check_same {program program' : Program} (h : program.unlocated = program'.unlocated)
    (strict : Bool) : SameVerdict Eq (program.check strict) (program'.check strict) := by
  have hleft := check_unlocated program strict
  rw [h] at hleft
  exact hleft.trans (check_unlocated program' strict).symm

end Checker

namespace Report

/-- Two reports tell the same fault in the same words, at whatever places. -/
structure SaysSame (r r' : Report) : Prop where
  code : r.code = r'.code
  message : r.message = r'.message
  hint : r.hint = r'.hint
  details : r.details = r'.details

namespace SaysSame

variable {r r' r'' : Report}

theorem symm (h : SaysSame r r') : SaysSame r' r :=
  ⟨h.code.symm, h.message.symm, h.hint.symm, h.details.symm⟩

theorem trans (h : SaysSame r r') (h' : SaysSame r' r'') : SaysSame r r'' :=
  ⟨h.code.trans h'.code, h.message.trans h'.message, h.hint.trans h'.hint,
    h.details.trans h'.details⟩

end SaysSame

theorem inFile_saysSame (p : Pipeline) (r : Report) : SaysSame (p.inFile r) r := by
  unfold Pipeline.inFile
  split <;> exact ⟨rfl, rfl, rfl, rfl⟩

theorem withExcerpt_saysSame (r : Report) (source : String) : SaysSame (r.withExcerpt source) r := by
  unfold withExcerpt
  split <;> exact ⟨rfl, rfl, rfl, rfl⟩

theorem locate_saysSame (p : Pipeline) (source : String) (r : Report) :
    SaysSame (p.locate source r) r :=
  (inFile_saysSame p _).trans (withExcerpt_saysSame r source)

end Report

/-- Both verdicts accept, or both reject with reports that say the same. -/
inductive SameOutcome : Except Report Program → Except Report Program → Prop where
  | accepted (program program' : Program) : SameOutcome (.ok program) (.ok program')
  | rejected {r r' : Report} (h : r.SaysSame r') : SameOutcome (.error r) (.error r')

theorem SameOutcome.of_fault {cause : CheckFault} {loc loc' : Option Loc} {r r' : Report}
    (h : r.SaysSame (cause.report loc)) (h' : r'.SaysSame (cause.report loc')) :
    SameOutcome (.error r) (.error r') := by
  have hfault : (cause.report loc).SaysSame (cause.report loc') := ⟨rfl, rfl, rfl, rfl⟩
  exact .rejected (h.trans (hfault.trans h'.symm))

/-- Programs that are equal up to their locations get the same verdict in both modes: both are
accepted, or both are rejected with the same code, message, hint and details. The verdict on a source
text is that of every program that equals what the text spells up to locations. -/
theorem verdict_ignores_locations {program program' : Program}
    (h : program.unlocated = program'.unlocated) (p : Pipeline) :
    SameOutcome (p.checkProgram program) (p.checkProgram program') ∧
      ∀ source, p.parse source = .ok program →
        SameOutcome (p.check source) (p.checkProgram program') := by
  have hsame := Checker.check_same h p.strict
  constructor
  · unfold Pipeline.checkProgram
    generalize program.check p.strict = verdict, program'.check p.strict = verdict' at hsame
    cases hsame with
    | ok _ => exact .accepted program program'
    | error => exact .of_fault (Report.inFile_saysSame p _) (Report.inFile_saysSame p _)
  · intro source hparse
    unfold Pipeline.check Pipeline.checkProgram
    rw [hparse]
    dsimp only [bind, Except.bind]
    generalize program.check p.strict = verdict, program'.check p.strict = verdict' at hsame
    cases hsame with
    | ok _ => exact .accepted program program'
    | error => exact .of_fault (Report.locate_saysSame p source _) (Report.inFile_saysSame p _)

namespace Refined

/-- Zero goes into a slot that excludes it. The bound of the type is an expression with a place. -/
def source : String := "let x:I32!=0=0;"

def tokens : List Token :=
  [⟨.symbol .kwLet, ⟨1, 1⟩⟩, ⟨.ident "x", ⟨1, 5⟩⟩, ⟨.symbol .colon, ⟨1, 6⟩⟩, ⟨.ident "I32", ⟨1, 7⟩⟩,
    ⟨.symbol .ne, ⟨1, 10⟩⟩, ⟨.number 0 none, ⟨1, 12⟩⟩, ⟨.symbol .assign, ⟨1, 13⟩⟩,
    ⟨.number 0 none, ⟨1, 14⟩⟩, ⟨.symbol .semicolon, ⟨1, 15⟩⟩]

theorem passes : Scan.Passes ⟨Pos.start, source.toList⟩ tokens ⟨⟨1, 16⟩, []⟩ := by
  refine .take (show Scan.step _ = .found _ ⟨⟨1, 4⟩, " x:I32!=0=0;".toList⟩ from rfl) ?_
  refine .skip (show Scan.step _ = .skipped ⟨⟨1, 5⟩, "x:I32!=0=0;".toList⟩ from rfl) ?_
  refine .take (show Scan.step _ = .found _ ⟨⟨1, 6⟩, ":I32!=0=0;".toList⟩ from rfl) ?_
  refine .take (show Scan.step _ = .found _ ⟨⟨1, 7⟩, "I32!=0=0;".toList⟩ from rfl) ?_
  refine .take (show Scan.step _ = .found _ ⟨⟨1, 10⟩, "!=0=0;".toList⟩ from rfl) ?_
  refine .take (show Scan.step _ = .found _ ⟨⟨1, 12⟩, "0=0;".toList⟩ from rfl) ?_
  refine .take (show Scan.step _ = .found _ ⟨⟨1, 13⟩, "=0;".toList⟩ from rfl) ?_
  refine .take (show Scan.step _ = .found _ ⟨⟨1, 14⟩, "0;".toList⟩ from rfl) ?_
  refine .take (show Scan.step _ = .found _ ⟨⟨1, 15⟩, ";".toList⟩ from rfl) ?_
  exact .take (show Scan.step _ = .found _ ⟨⟨1, 16⟩, []⟩ from rfl) .here

/-- The program that the text spells, with places of the bound, of the value and of the statement. -/
def program (bound value statement : Option Loc) : Program :=
  ⟨[.letDecl "x" (some (.refined (.named "I32" []) .ne (.number 0 none bound)))
    (.number 0 none value) statement]⟩

theorem parse_source (p : Pipeline) : p.parse source =
    .ok (program (some ⟨none, 1, 12⟩) (some ⟨none, 1, 14⟩) (some ⟨none, 1, 1⟩)) := by
  have hscan : Token.scan source = .ok (tokens ++ [⟨.eof, ⟨1, 16⟩⟩]) := passes.tokens_eq rfl
  unfold Pipeline.parse
  rw [hscan]
  rfl

end Refined

open Refined in
/-- The report about the text says what the report about the bare tree says, which has no place. -/
theorem verdict_ignores_locations_refined :
    let located := program (some ⟨none, 1, 12⟩) (some ⟨none, 1, 14⟩) (some ⟨none, 1, 1⟩)
    let bare := program none none none
    located.unlocated = bare.unlocated ∧ Pipeline.parse {} source = .ok located ∧
      ∃ r r', Pipeline.check {} source = .error r ∧ Pipeline.checkProgram {} bare = .error r' ∧
        r.SaysSame r' ∧ r'.code = .safetyNonZeroRefinement ∧ r'.loc = none := by
  intro located bare
  have hbare : Pipeline.checkProgram {} bare =
      .error (CheckFault.report (.mayBeZero (.initializer "x")) none) := rfl
  have hsame := (verdict_ignores_locations (show located.unlocated = bare.unlocated from rfl) {}).2
    source (parse_source {})
  rw [hbare] at hsame
  cases hcheck : Pipeline.check {} source with
  | ok =>
    rw [hcheck] at hsame
    cases hsame
  | error r =>
    rw [hcheck] at hsame
    cases hsame with
    | rejected h => exact ⟨rfl, parse_source {}, r, _, rfl, hbare, h, rfl, rfl⟩

end TuffSafety
