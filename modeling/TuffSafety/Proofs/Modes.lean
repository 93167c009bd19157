import TuffSafety.Pipeline

/-!
# Strict and relaxed checks

A relaxed check makes the same inferences as a strict one and leaves the safety rules out. The two
are compared call by call: a relaxed call never fails for a safety reason, and a strict call gives
the same answer unless it fails for one. In the end the same holds of the reports about a program.
-/
namespace TuffSafety

namespace Checker

/-- The same checker without the safety rules. -/
def relaxed (c : Checker) : Checker :=
  { c with strict := false }

theorem relaxed_decls (c : Checker) : c.relaxed.decls = c.decls := rfl

theorem relaxed_signature? (c : Checker) (callee : Expr) :
    c.relaxed.signature? callee = c.signature? callee := rfl

/-- A failure that is not a matter of safety. -/
def Structural {α : Type} (x : Attempt α) : Prop :=
  ∀ fault, x = .error fault → fault.cause.code.isSafety = false

/-- The second attempt is the first one without its safety faults. -/
structure Relaxes {α : Type} (x y : Attempt α) : Prop where
  structural : Structural y
  agrees : x = y ∨ ∃ fault, x = .error fault ∧ fault.cause.code.isSafety = true

section

variable {α β : Type} {x y : Attempt α}

theorem relaxes_ok (a : α) : Relaxes (.ok a) (.ok a) :=
  ⟨nofun, .inl rfl⟩

theorem relaxes_reject {cause : CheckFault} (h : cause.code.isSafety = false) (loc : Option Loc) :
    Relaxes (reject cause loc : Attempt α) (reject cause loc) :=
  ⟨fun _ hf => Except.error.inj hf ▸ h, .inl rfl⟩

theorem relaxes_safety {cause : CheckFault} (h : cause.code.isSafety = true) (loc : Option Loc)
    (a : α) : Relaxes (reject cause loc) (.ok a) :=
  ⟨nofun, .inr ⟨⟨cause, loc⟩, rfl, h⟩⟩

/-- A safety fault stands for anything that a relaxed attempt may do. -/
theorem Relaxes.orSafety {cause : CheckFault} {loc : Option Loc} {p : Prop} [Decidable p]
    (hsafety : cause.code.isSafety = true) (h : Relaxes x y) :
    Relaxes (if p then reject cause loc else x) y := by
  split
  · exact ⟨h.structural, .inr ⟨⟨cause, loc⟩, rfl, hsafety⟩⟩
  · exact h

theorem Relaxes.bind (h : Relaxes x y) {f g : α → Attempt β} (hf : ∀ a, Relaxes (f a) (g a)) :
    Relaxes (x >>= f) (y >>= g) := by
  rcases h.agrees with rfl | ⟨fault, rfl, hsafety⟩
  · cases x with
    | ok a => exact hf a
    | error fault =>
      exact ⟨fun _ he => Except.error.inj he ▸ h.structural fault rfl, .inl rfl⟩
  · refine ⟨?_, .inr ⟨fault, rfl, hsafety⟩⟩
    cases y with
    | ok a => exact (hf a).structural
    | error fault' => exact fun _ he => Except.error.inj he ▸ h.structural fault' rfl

/-- A rule that both modes have. -/
theorem Relaxes.unless {refuses : Bool} {cause : CheckFault} {loc : Option Loc}
    {k k' : Unit → Attempt α} (h : cause.code.isSafety = false) (hk : Relaxes (k ()) (k' ())) :
    Relaxes (if refuses = true then reject cause loc >>= k else k ())
      (if refuses = true then reject cause loc >>= k' else k' ()) := by
  cases refuses with
  | true => exact relaxes_reject h loc
  | false => exact hk

/-- A rule that only the strict mode has. -/
theorem Relaxes.whenStrict {applies applies' : Bool} {check : Attempt Unit} {k k' : Unit → Attempt α}
    (happlies' : applies' = false) (h : Relaxes check (.ok ())) (hk : Relaxes (k ()) (k' ())) :
    Relaxes (if applies = true then check >>= k else k ())
      (if applies' = true then check >>= k' else k' ()) := by
  subst happlies'
  change Relaxes _ (k' ())
  split
  · exact h.bind fun _ => hk
  · exact hk

end

/-! ### Rules -/

section

variable (c : Checker) (slot : Slot) (expected actual : TypeInfo) (loc : Option Loc)

theorem requireAssignable_relaxes :
    Relaxes (c.requireAssignable slot expected actual loc)
      (c.relaxed.requireAssignable slot expected actual loc) := by
  change Relaxes (c.requireAssignable slot expected actual loc)
    (c.requireAssignable slot expected actual loc)
  unfold requireAssignable
  split
  · exact relaxes_ok ()
  · exact relaxes_reject rfl loc

theorem requireNonZero_relaxes :
    Relaxes (c.requireNonZero slot expected actual loc)
      (c.relaxed.requireNonZero slot expected actual loc) := by
  change Relaxes _ (.ok ())
  exact .orSafety rfl (relaxes_ok ())

theorem requireFit_relaxes :
    Relaxes (c.requireFit slot expected actual loc)
      (c.relaxed.requireFit slot expected actual loc) :=
  (c.requireAssignable_relaxes slot expected actual loc).bind fun _ =>
    c.requireNonZero_relaxes slot expected actual loc

theorem divisionFault_isSafety (op : BinaryOp) : (divisionFault op).code.isSafety = true := by
  cases op <;> rfl

theorem checkOverflow_relaxes (op : BinaryOp) (bounds : Option Interval) :
    Relaxes (checkOverflow op bounds loc) (.ok ()) := by
  unfold checkOverflow
  split
  · exact relaxes_safety rfl loc ()
  · split
    · exact relaxes_safety rfl loc ()
    · exact relaxes_ok ()

theorem arithmetic_relaxes (op : BinaryOp) (left right : TypeInfo) :
    Relaxes (c.arithmetic op left right loc) (c.relaxed.arithmetic op left right loc) := by
  unfold arithmetic
  dsimp only
  refine .unless rfl (.unless rfl ?_)
  split
  · exact .whenStrict rfl (relaxes_safety (divisionFault_isSafety op) loc ()) (relaxes_ok _)
  · exact .whenStrict rfl (checkOverflow_relaxes loc op _) (relaxes_ok _)

theorem logical_relaxes (op : BinaryOp) (left right : TypeInfo) :
    Relaxes (logical op left right loc) (logical op left right loc) := by
  unfold logical
  dsimp only
  exact .unless rfl (.unless rfl (relaxes_ok _))

theorem unary_relaxes (op : UnaryOp) (operand : TypeInfo) :
    Relaxes (unary op operand loc) (unary op operand loc) := by
  unfold unary
  split
  · split
    · exact relaxes_ok _
    · exact relaxes_reject rfl loc
  · split
    · exact relaxes_ok _
    · split
      · exact relaxes_ok _
      · exact relaxes_reject rfl loc
  · exact relaxes_ok _
  · exact relaxes_ok _

theorem argument_relaxes (sig : FnSignature) (param : Param) :
    Relaxes (c.argument sig param actual loc) (c.relaxed.argument sig param actual loc) := by
  unfold argument
  dsimp only
  refine .whenStrict rfl (relaxes_safety rfl loc ()) ?_
  cases sig.foreign with
  | true => exact c.requireNonZero_relaxes _ _ actual loc
  | false => exact c.requireFit_relaxes _ _ actual loc

theorem arguments_relaxes (sig : FnSignature) (params : List Param)
    (args : List (TypeInfo × Option Loc)) :
    Relaxes (c.arguments sig params args) (c.relaxed.arguments sig params args) := by
  induction params generalizing args with
  | nil => exact relaxes_ok ()
  | cons param params ih =>
    cases args with
    | nil => exact relaxes_ok ()
    | cons arg args => exact (c.argument_relaxes arg.1 arg.2 sig param).bind fun _ => ih args

theorem call_relaxes (sig : FnSignature) (args : List (TypeInfo × Option Loc)) :
    Relaxes (c.call sig args loc) (c.relaxed.call sig args loc) := by
  unfold call
  dsimp only
  exact .unless rfl ((c.arguments_relaxes sig _ args).bind fun _ => relaxes_ok _)

theorem field_relaxes (decl : StructDecl) (name : String) :
    Relaxes (c.field decl name loc) (c.relaxed.field decl name loc) := by
  change Relaxes (c.field decl name loc) (c.field decl name loc)
  unfold field
  split
  · exact relaxes_ok _
  · exact relaxes_reject rfl loc

theorem member_relaxes (object : TypeInfo) (property : String) :
    Relaxes (c.member object property loc) (c.relaxed.member object property loc) := by
  rw [member, member, if_neg (show ¬ (c.relaxed.strict && object.isNullable) = true from nofun)]
  refine .orSafety rfl ?_
  split
  · exact relaxes_ok _
  · rw [relaxed_decls]
    split
    · exact c.field_relaxes loc _ property
    · exact relaxes_ok _

theorem index_relaxes (target position : TypeInfo) :
    Relaxes (c.index target position loc) (c.relaxed.index target position loc) := by
  change Relaxes _ (.ok TypeInfo.unknown)
  unfold index
  split
  · exact relaxes_ok _
  · refine .orSafety rfl ?_
    split
    · exact .orSafety rfl (relaxes_ok _)
    · exact relaxes_safety rfl loc _
    · exact .orSafety rfl (relaxes_ok _)

theorem requireExhaustive_relaxes (target : TypeInfo) (patterns : List Pattern) :
    Relaxes (c.requireExhaustive target patterns loc)
      (c.relaxed.requireExhaustive target patterns loc) := by
  change Relaxes _ (.ok ())
  unfold requireExhaustive
  split
  · split
    · exact relaxes_ok ()
    · exact relaxes_safety rfl loc ()
  · exact relaxes_ok ()

theorem requireCondition_relaxes (guard : Guard) (condition : TypeInfo) :
    Relaxes (requireCondition guard condition loc) (requireCondition guard condition loc) := by
  unfold requireCondition
  split
  · exact relaxes_ok ()
  · exact relaxes_reject rfl loc

theorem bindFields_relaxes (struct : String) (fields : List PatternField) (flow : Flow) :
    Relaxes (c.bindFields struct loc fields flow) (c.relaxed.bindFields struct loc fields flow) := by
  induction fields generalizing flow with
  | nil => exact relaxes_ok flow
  | cons f fs ih =>
    rw [bindFields, bindFields, relaxed_decls]
    cases c.decls.structs.get? struct with
    | some decl => exact (c.field_relaxes loc decl f.field).bind fun _ => ih _
    | none => exact ih _

theorem bindPattern_relaxes (pattern : Pattern) (flow : Flow) :
    Relaxes (c.bindPattern pattern loc flow) (c.relaxed.bindPattern pattern loc flow) := by
  cases pattern with
  | struct name fields => exact c.bindFields_relaxes loc name fields flow
  | _ => exact relaxes_ok flow

theorem declare_relaxes (name : String) (type : Option TypeExpr) (value : TypeInfo) (flow : Flow) :
    Relaxes (c.declare name type value loc flow) (c.relaxed.declare name type value loc flow) := by
  cases type with
  | some type => exact (c.requireFit_relaxes _ _ value loc).bind fun _ => relaxes_ok _
  | none => exact relaxes_ok _

theorem assign_relaxes (name : String) (value : TypeInfo) (flow : Flow) :
    Relaxes (c.assign name value loc flow) (c.relaxed.assign name value loc flow) := by
  rw [assign, assign]
  cases flow.scope.get? name with
  | some b => exact (c.requireFit_relaxes _ _ value loc).bind fun _ => relaxes_ok _
  | none => exact relaxes_ok flow

theorem returnValue_relaxes (expected : Option TypeInfo) (value : TypeInfo) :
    Relaxes (c.returnValue expected value loc) (c.relaxed.returnValue expected value loc) := by
  cases expected with
  | some expected =>
    rw [returnValue, returnValue]
    split
    · split
      · exact relaxes_ok ()
      · exact relaxes_reject rfl loc
    · exact c.requireFit_relaxes _ _ value loc
  | none => exact relaxes_ok ()

theorem fnResult_relaxes (name : String) (expected : Option TypeInfo) (value : TypeInfo) :
    Relaxes (c.fnResult name expected value loc) (c.relaxed.fnResult name expected value loc) := by
  cases expected with
  | some expected =>
    rw [fnResult, fnResult]
    split
    · exact relaxes_ok ()
    · exact c.requireFit_relaxes _ _ value loc
  | none => exact relaxes_ok ()

end

/-! ### Parts -/

/-- What a part does in the two modes. -/
def StepRelaxes (step step' : Step) : Prop :=
  ∀ flow, Relaxes (step flow) (step' flow)

section

variable {first first' second second' : Step} {loc : Option Loc}

theorem shortCircuit_relaxes (op : BinaryOp) (left right : Expr) (hleft : StepRelaxes first first')
    (hright : StepRelaxes second second') :
    StepRelaxes (shortCircuit op left right loc first second)
      (shortCircuit op left right loc first' second') := fun flow =>
  (hleft flow).bind fun l => (hright _).bind fun r =>
    (logical_relaxes loc op l.1 r.1).bind fun _ => relaxes_ok _

theorem nested_relaxes (learned : Facts) (hbody : StepRelaxes first first') :
    StepRelaxes (nested learned first) (nested learned first') := fun _ =>
  (hbody _).bind fun _ => relaxes_ok _

theorem ifElse_relaxes (condition : Expr) {otherwise otherwise' : Option Step}
    (hcondition : StepRelaxes first first') (hthen : StepRelaxes second second')
    (helse : Option.Rel StepRelaxes otherwise otherwise') :
    StepRelaxes (ifElse condition loc first second otherwise)
      (ifElse condition loc first' second' otherwise') := fun flow =>
  (hcondition flow).bind fun tested => (requireCondition_relaxes _ _ tested.1).bind fun _ =>
    (nested_relaxes _ hthen _).bind fun _ => by
      cases helse with
      | some helse => exact (nested_relaxes _ helse _).bind fun _ => relaxes_ok _
      | none => exact relaxes_ok _

theorem matchArm_relaxes (c : Checker) (pattern : Pattern) (hbody : StepRelaxes first first') :
    StepRelaxes (c.matchArm pattern loc first) (c.relaxed.matchArm pattern loc first') := fun _ =>
  (c.bindPattern_relaxes loc pattern _).bind fun _ => (hbody _).bind fun _ => relaxes_ok _

theorem whileLoop_relaxes (condition : Expr) (body : Block) (hcondition : StepRelaxes first first')
    (hbody : StepRelaxes second second') :
    StepRelaxes (whileLoop condition body loc first second)
      (whileLoop condition body loc first' second') := fun _ =>
  (hcondition _).bind fun tested => (requireCondition_relaxes _ _ tested.1).bind fun _ =>
    (hbody _).bind fun _ => relaxes_ok _

theorem rangeBound_relaxes (bound : Expr) (hbound : StepRelaxes first first') (flow : Flow) :
    Relaxes (rangeBound bound loc first flow) (rangeBound bound loc first' flow) :=
  (hbound flow).bind fun info => by
    dsimp only
    split
    · exact relaxes_ok _
    · exact relaxes_reject rfl _

theorem forLoop_relaxes (iterator : String) (body : Block) (hbody : StepRelaxes first first') :
    StepRelaxes (forLoop iterator body first) (forLoop iterator body first') := fun _ =>
  (hbody _).bind fun _ => relaxes_ok _

end

/-! ### The checker -/

mutual

theorem expr_relaxes (c : Checker) (ret : Option TypeInfo) :
    ∀ e, StepRelaxes (c.expr e ret) (c.relaxed.expr e ret)
  | .number .., flow => relaxes_ok _
  | .float .., flow => relaxes_ok _
  | .bool .., flow => relaxes_ok _
  | .string .., flow => relaxes_ok _
  | .char .., flow => relaxes_ok _
  | .ident .., flow => relaxes_ok _
  | .binary op left right loc, flow => by
    rw [expr, expr]
    split
    · exact shortCircuit_relaxes op left right (c.expr_relaxes ret left) (c.expr_relaxes ret right) flow
    · refine (c.expr_relaxes ret left flow).bind fun l => (c.expr_relaxes ret right _).bind fun r => ?_
      dsimp only
      split
      · exact relaxes_ok _
      · exact (c.arithmetic_relaxes loc op _ _).bind fun _ => relaxes_ok _
  | .unary op operand loc, flow => by
    rw [expr, expr]
    exact (c.expr_relaxes ret operand flow).bind fun info =>
      (unary_relaxes loc op info.1).bind fun _ => relaxes_ok _
  | .call callee args loc, flow => by
    rw [expr, expr]
    refine (c.args_relaxes ret loc args flow).bind fun infos => ?_
    dsimp only
    split
    · rw [relaxed_signature?]
      split
      · exact (c.call_relaxes loc _ infos.1).bind fun _ => relaxes_ok _
      · exact relaxes_ok _
    · exact (c.expr_relaxes ret callee _).bind fun _ => relaxes_ok _
  | .member object property loc, flow => by
    rw [expr, expr]
    exact (c.expr_relaxes ret object flow).bind fun info =>
      (c.member_relaxes loc info.1 property).bind fun _ => relaxes_ok _
  | .index target position loc, flow => by
    rw [expr, expr]
    exact (c.expr_relaxes ret target flow).bind fun _ => (c.expr_relaxes ret position _).bind fun _ =>
      (c.index_relaxes loc _ _).bind fun _ => relaxes_ok _
  | .structInit name fields loc, flow => by
    rw [expr, expr, relaxed_decls]
    split
    · exact relaxes_reject rfl loc
    · exact (c.fieldInits_relaxes ret _ loc fields flow).bind fun _ => relaxes_ok _
  | .ite condition thenBranch elseBranch loc, flow => by
    rw [expr, expr]
    exact ifElse_relaxes condition (c.expr_relaxes ret condition) (c.expr_relaxes ret thenBranch)
      (c.expr?_relaxes ret elseBranch) flow
  | .matchOn target cases loc, flow => by
    rw [expr, expr]
    exact (c.expr_relaxes ret target flow).bind fun info =>
      (c.requireExhaustive_relaxes loc info.1 _).bind fun _ => c.matchCases_relaxes loc ret cases none _
  | .isPattern operand _ _, flow => by
    rw [expr, expr]
    exact (c.expr_relaxes ret operand flow).bind fun _ => relaxes_ok _
  | .unwrap operand _, flow => by
    rw [expr, expr]
    exact c.expr_relaxes ret operand flow
  | .block ⟨statements, _⟩, flow => by
    rw [expr, expr]
    exact nested_relaxes .empty (c.stmts_relaxes ret statements .void) flow

theorem expr?_relaxes (c : Checker) (ret : Option TypeInfo) :
    ∀ e, Option.Rel StepRelaxes (c.expr? e ret) (c.relaxed.expr? e ret)
  | some e => .some (c.expr_relaxes ret e)
  | none => .none

theorem args_relaxes (c : Checker) (ret : Option TypeInfo) (loc : Option Loc) :
    ∀ es flow, Relaxes (c.args es ret loc flow) (c.relaxed.args es ret loc flow)
  | [], flow => relaxes_ok _
  | e :: es, flow => by
    rw [args, args]
    exact (c.expr_relaxes ret e flow).bind fun _ => (c.args_relaxes ret loc es _).bind fun _ =>
      relaxes_ok _

theorem fieldInits_relaxes (c : Checker) (ret : Option TypeInfo) (decl : StructDecl)
    (loc : Option Loc) :
    ∀ fs flow, Relaxes (c.fieldInits decl loc fs ret flow) (c.relaxed.fieldInits decl loc fs ret flow)
  | [], flow => relaxes_ok flow
  | ⟨key, value⟩ :: fs, flow => by
    rw [fieldInits, fieldInits]
    split
    · exact relaxes_reject rfl _
    · exact (c.expr_relaxes ret value flow).bind fun info =>
        (c.requireAssignable_relaxes _ _ info.1 _).bind fun _ => c.fieldInits_relaxes ret decl loc fs _

theorem matchCases_relaxes (c : Checker) (loc : Option Loc) (ret : Option TypeInfo) :
    ∀ cs joined, StepRelaxes (c.matchCases loc cs ret joined) (c.relaxed.matchCases loc cs ret joined)
  | [], joined, flow => relaxes_ok _
  | ⟨pattern, body⟩ :: cs, joined, flow => by
    rw [matchCases, matchCases]
    exact (matchArm_relaxes c pattern (c.expr_relaxes ret body) flow).bind fun _ =>
      c.matchCases_relaxes loc ret cs _ _

theorem stmts_relaxes (c : Checker) (ret : Option TypeInfo) :
    ∀ ss last, StepRelaxes (c.stmts ss ret last) (c.relaxed.stmts ss ret last)
  | [], last, flow => relaxes_ok _
  | s :: ss, last, flow => by
    rw [stmts, stmts]
    exact (c.stmt_relaxes ret s flow).bind fun info => c.stmts_relaxes ret ss info.1 _

theorem stmt_relaxes (c : Checker) (ret : Option TypeInfo) :
    ∀ s, StepRelaxes (c.stmt s ret) (c.relaxed.stmt s ret)
  | .fnDecl decl, flow => by
    rw [stmt, stmt]
    exact (c.fnDecl_relaxes decl).bind fun _ => relaxes_ok _
  | .letDecl name type value loc, flow => by
    rw [stmt, stmt]
    exact (c.expr_relaxes ret value flow).bind fun info =>
      (c.declare_relaxes _ name type info.1 _).bind fun _ => relaxes_ok _
  | .assign target value loc, flow => by
    rw [stmt, stmt]
    refine (c.expr_relaxes ret value flow).bind fun info => ?_
    dsimp only
    split
    · exact (c.assign_relaxes _ _ info.1 _).bind fun _ => relaxes_ok _
    · exact (c.expr_relaxes ret target _).bind fun _ => relaxes_ok _
  | .ret none loc, flow => by
    rw [stmt, stmt]
    exact (c.returnValue_relaxes loc ret .void).bind fun _ => relaxes_ok _
  | .ret (some value) loc, flow => by
    rw [stmt, stmt]
    exact (c.expr_relaxes ret value flow).bind fun info =>
      (c.returnValue_relaxes _ ret info.1).bind fun _ => relaxes_ok _
  | .expr e _, flow => by
    rw [stmt, stmt]
    exact c.expr_relaxes ret e flow
  | .block ⟨statements, _⟩, flow => by
    rw [stmt, stmt]
    exact nested_relaxes .empty (c.stmts_relaxes ret statements .void) flow
  | .ite condition thenBranch elseBranch loc, flow => by
    rw [stmt, stmt]
    exact ifElse_relaxes condition (c.expr_relaxes ret condition) (c.expr_relaxes ret thenBranch)
      (c.expr?_relaxes ret elseBranch) flow
  | .whileLoop condition ⟨statements, _⟩ loc, flow => by
    rw [stmt, stmt]
    exact whileLoop_relaxes condition _ (c.expr_relaxes ret condition)
      (nested_relaxes .empty (c.stmts_relaxes ret statements .void)) flow
  | .forLoop iterator first last ⟨statements, _⟩ loc, flow => by
    rw [stmt, stmt]
    exact (rangeBound_relaxes first (c.expr_relaxes ret first) flow).bind fun _ =>
      (rangeBound_relaxes last (c.expr_relaxes ret last) _).bind fun _ =>
        forLoop_relaxes iterator _ (nested_relaxes .empty (c.stmts_relaxes ret statements .void)) _
  | .foreignFn _, flow => relaxes_ok _
  | .structDecl _, flow => relaxes_ok _
  | .enumDecl _, flow => relaxes_ok _
  | .typeAlias .., flow => relaxes_ok _
  | .foreignType .., flow => relaxes_ok _
  | .foreignLet .., flow => relaxes_ok _
  | .breakLoop _, flow => relaxes_ok _
  | .continueLoop _, flow => relaxes_ok _

theorem fnDecl_relaxes (c : Checker) : ∀ decl, Relaxes (c.fnDecl decl) (c.relaxed.fnDecl decl)
  | ⟨_, _, _, _, none, _, _⟩ => relaxes_ok ()
  | ⟨name, _, params, returnType, some body, _, loc⟩ => by
    rw [fnDecl, fnDecl]
    exact (c.expr_relaxes _ body _).bind fun info => c.fnResult_relaxes _ name _ info.1

end

end Checker

theorem Program.check_relaxes (program : Program) :
    Checker.Relaxes (program.check true) (program.check false) :=
  (Checker.stmts_relaxes (.ofDeclarations (.ofProgram program) true) none program.body .void _).bind
    fun _ => Checker.relaxes_ok ()

/-! ### Reports -/

namespace Pipeline

/-- The report about a fault. -/
def blame (p : Pipeline) (fault : Located CheckFault) : Report :=
  p.inFile (fault.cause.report fault.loc)

theorem blame_code (p : Pipeline) (fault : Located CheckFault) :
    (p.blame fault).code = fault.cause.code := by
  unfold blame inFile
  split <;> rfl

theorem checkProgram_eq (p : Pipeline) (program : Program) :
    p.checkProgram program =
      match program.check p.strict with
      | .error fault => .error (p.blame fault)
      | .ok () => .ok program := by
  unfold checkProgram
  cases program.check p.strict <;> rfl

theorem checkProgram_structural {file : Option String} {program : Program} {report : Report}
    (h : checkProgram ⟨false, file⟩ program = .error report) : report.code.isSafety = false := by
  rw [checkProgram_eq] at h
  split at h
  · rename_i fault hfault
    cases h
    rw [blame_code]
    exact program.check_relaxes.structural fault hfault
  · cases h

theorem checkProgram_agrees (file : Option String) (program : Program) :
    checkProgram ⟨true, file⟩ program = checkProgram ⟨false, file⟩ program ∨
      ∃ report, checkProgram ⟨true, file⟩ program = .error report ∧ report.code.isSafety = true := by
  rw [checkProgram_eq, checkProgram_eq]
  dsimp only
  rcases program.check_relaxes.agrees with hsame | ⟨fault, hfault, hsafety⟩
  · left
    rw [hsame]
    rfl
  · right
    rw [hfault]
    exact ⟨_, rfl, by rw [blame_code]; exact hsafety⟩

/-- A relaxed check never reports a safety fault. It gives the answer of the strict check, unless that
is such a fault. -/
theorem checkProgram_modes (file : Option String) (program : Program) :
    let strict := checkProgram ⟨true, file⟩ program
    let relaxed := checkProgram ⟨false, file⟩ program
    (∀ report, relaxed = .error report → report.code.isSafety = false) ∧
      (strict = .ok program → relaxed = .ok program) ∧
      (∀ report, strict = .error report → report.code.isSafety = false → relaxed = .error report) ∧
      ∀ report, relaxed = .error report →
        strict = .error report ∨ ∃ other, strict = .error other ∧ other.code.isSafety = true := by
  intro strict relaxed
  have hagrees := checkProgram_agrees file program
  refine ⟨fun _ => checkProgram_structural, ?_, ?_, ?_⟩
  · intro hok
    rcases hagrees with hsame | ⟨other, hother, _⟩
    · exact hsame.symm.trans hok
    · cases hother.symm.trans hok
  · intro report hreport hcode
    rcases hagrees with hsame | ⟨other, hother, hsafety⟩
    · exact hsame.symm.trans hreport
    · cases hother.symm.trans hreport
      rw [hsafety] at hcode
      cases hcode
  · intro report hreport
    rcases hagrees with hsame | hother
    · exact .inl (hsame.trans hreport)
    · exact .inr hother

end Pipeline

end TuffSafety
