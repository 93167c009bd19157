import TuffSafety.Proofs.Execution
import TuffSafety.Proofs.Occurrence
import TuffSafety.Proofs.Visits

/-!
# What an expression does to the flow

Whatever blocks, branches, loops and patterns an expression holds, the flow behind it is the flow
before it, except that names that are assigned in the expression may have been widened to what was
declared and lost their facts. A declaration, a branch fact or a narrowing never gets out.
-/
namespace TuffSafety

/-- Whether a statement declares a variable or assigns one. -/
def Stmt.binds : Stmt → Bool
  | .letDecl .. => true
  | .assign (.ident ..) .. => true
  | _ => false

namespace Flow

variable {P Q : String → Prop} {flow mid flow' : Flow}

/-- Nothing is hidden or unnoted, and only the given names are newly noted as assigned. -/
structure Notes (P : String → Prop) (flow flow' : Flow) : Prop extends Extends flow flow' where
  noted : ∀ name ∈ flow'.scope.assigned, name ∈ flow.scope.assigned ∨ P name

theorem Notes.refl (flow : Flow) : flow.Notes P flow :=
  ⟨.refl flow, fun _ h => .inl h⟩

theorem Notes.trans (h : flow.Notes P mid) (h' : mid.Notes P flow') : flow.Notes P flow' := by
  refine ⟨h.toExtends.trans h'.toExtends, ?_⟩
  intro name hname
  rcases h'.noted name hname with hmid | hp
  · exact h.noted name hmid
  · exact .inr hp

theorem Notes.mono (h : flow.Notes P flow') (hPQ : ∀ name, P name → Q name) : flow.Notes Q flow' :=
  ⟨h.toExtends, fun name hname => (h.noted name hname).imp_right (hPQ name)⟩

/-- Facts are not spoken of. -/
theorem Notes.of_scope {a a' : Flow} (h : flow.Notes P flow') (hscope : a.scope = flow.scope)
    (hscope' : a'.scope = flow'.scope) : a.Notes P a' := by
  refine ⟨⟨?_, ?_⟩, ?_⟩
  · rw [hscope, hscope']
    exact h.visible
  · rw [hscope, hscope']
    exact h.assigned
  · rw [hscope, hscope']
    exact h.noted

/-- Only the given names are touched: they may be widened, lose their facts and be noted. -/
structure Moves (P : String → Prop) (flow flow' : Flow) : Prop where
  binding : ∀ name, flow'.scope.get? name = flow.scope.get? name ∨
    P name ∧ flow'.scope.get? name = (flow.scope.get? name).map fun b => .fixed b.declared
  fact : ∀ name, flow'.facts.get? name = flow.facts.get? name ∨
    P name ∧ flow'.facts.get? name = none
  locals : flow'.scope.locals = flow.scope.locals
  notes : flow.Notes P flow'

namespace Moves

theorem refl (flow : Flow) : flow.Moves P flow :=
  ⟨fun _ => .inl rfl, fun _ => .inl rfl, rfl, .refl flow⟩

theorem mono (h : flow.Moves P flow') (hPQ : ∀ name, P name → Q name) : flow.Moves Q flow' :=
  ⟨fun name => (h.binding name).imp_right fun hb => ⟨hPQ name hb.1, hb.2⟩,
    fun name => (h.fact name).imp_right fun hf => ⟨hPQ name hf.1, hf.2⟩, h.locals, h.notes.mono hPQ⟩

theorem trans (h : flow.Moves P mid) (h' : mid.Moves P flow') : flow.Moves P flow' := by
  refine ⟨?_, ?_, h'.locals.trans h.locals, h.notes.trans h'.notes⟩
  · intro name
    rcases h'.binding name with hb' | ⟨hp, hb'⟩
    · rw [hb']
      exact h.binding name
    · refine .inr ⟨hp, ?_⟩
      rw [hb']
      rcases h.binding name with hb | ⟨_, hb⟩
      · rw [hb]
      · rw [hb]
        cases flow.scope.get? name <;> rfl
  · intro name
    rcases h'.fact name with hf' | hf'
    · rw [hf']
      exact h.fact name
    · exact .inr hf'

/-- What is not among the given names means the same as before. -/
theorem get?_eq (h : flow.Moves P flow') {name : String} (hname : ¬ P name) :
    flow'.scope.get? name = flow.scope.get? name :=
  (h.binding name).resolve_right fun hb => hname hb.1

theorem facts_eq (h : flow.Moves P flow') {name : String} (hname : ¬ P name) :
    flow'.facts.get? name = flow.facts.get? name :=
  (h.fact name).resolve_right fun hf => hname hf.1

theorem lookup_eq (h : flow.Moves P flow') {name : String} (hname : ¬ P name) (c : Checker) :
    c.lookup name flow' = c.lookup name flow := by
  rw [Checker.lookup, Checker.lookup, h.get?_eq hname, h.facts_eq hname]

end Moves

theorem loosen_moves {names : List String} (h : ∀ name ∈ names, P name) (flow : Flow) :
    flow.Moves P (flow.loosen names) := by
  refine ⟨?_, ?_, flow.locals_loosen names, flow.extends_loosen names, ?_⟩
  · intro name
    by_cases hname : name ∈ names
    · exact .inr ⟨h name hname, by rw [loosen, Scope.get?_widenAll, if_pos hname]⟩
    · exact .inl (by rw [loosen, Scope.get?_widenAll, if_neg hname])
  · intro name
    by_cases hname : name ∈ names
    · exact .inr ⟨h name hname, by rw [loosen, Facts.get?_forgetAll, if_pos hname]⟩
    · exact .inl (by rw [loosen, Facts.get?_forgetAll, if_neg hname])
  · intro name hname
    rcases (Scope.mem_assigned_widenAll _ _ _).mp hname with hold | ⟨hnew, _⟩
    · exact .inl hold
    · exact .inr (h name hnew)

/-- Behind a frame that started without notes, only what the frame noted has moved. -/
theorem settle_moves {inner : Flow} (start : Flow) (hstart : start.scope.assigned = [])
    (h : start.Notes P inner) (flow : Flow) : flow.Moves P (flow.settle inner) := by
  apply loosen_moves
  intro name hname
  rcases h.noted name hname with hold | hp
  · rw [hstart] at hold
    exact (List.not_mem_nil hold).elim
  · exact hp

end Flow

namespace Checker

variable {P : String → Prop} {loc : Option Loc} {flow flow' : Flow} {t : TypeInfo}

/-- What a part of an expression does. -/
def StepMoves (P : String → Prop) (step : Step) : Prop :=
  ∀ ⦃flow t flow'⦄, step flow = .ok (t, flow') → flow.Moves P flow'

def StepNotes (P : String → Prop) (step : Step) : Prop :=
  ∀ ⦃flow t flow'⦄, step flow = .ok (t, flow') → flow.Notes P flow'

theorem StepMoves.mono {Q : String → Prop} {step : Step} (h : StepMoves P step)
    (hPQ : ∀ name, P name → Q name) : StepMoves Q step :=
  fun _ _ _ hs => (h hs).mono hPQ

theorem StepMoves.notes {step : Step} (h : StepMoves P step) : StepNotes P step :=
  fun _ _ _ hs => (h hs).notes

theorem nested_moves {body : Step} (learned : Facts) (hbody : StepNotes P body) :
    StepMoves P (nested learned body) := by
  intro flow t flow' h
  obtain ⟨inner, hb, rfl⟩ := nested_ok h
  exact Flow.settle_moves (flow.under learned) rfl (hbody hb) flow

/-- Behind a guarded operand the facts are those before it, less what the operand assigns. -/
theorem guarded_moves {right : Expr} {second : Step} (learned : Facts) (hsecond : StepMoves P second)
    (hright : ∀ name ∈ Assigned.expr right, P name)
    (h : second (flow.learn learned) = .ok (t, flow')) :
    flow.Moves P ⟨flow'.scope, flow.facts.forgetAll right.assigned⟩ := by
  have hinner := hsecond h
  refine ⟨hinner.binding, ?_, hinner.locals, hinner.notes.of_scope rfl rfl⟩
  intro name
  by_cases hname : name ∈ right.assigned
  · exact .inr ⟨hright name (mem_distinctNames.mp hname),
      by rw [Facts.get?_forgetAll, if_pos hname]⟩
  · exact .inl (by rw [Facts.get?_forgetAll, if_neg hname])

theorem shortCircuit_moves {op : BinaryOp} {left right : Expr} {first second : Step}
    (hfirst : StepMoves P first) (hsecond : StepMoves P second)
    (hright : ∀ name ∈ Assigned.expr right, P name) :
    StepMoves P (shortCircuit op left right loc first second) := by
  intro flow t flow' h
  obtain ⟨l, mid, r, inner, hl, hr, _, rfl⟩ := shortCircuit_ok h
  exact (hfirst hl).trans (guarded_moves _ hsecond hright hr)

theorem ifElse_moves {condition : Expr} {first second : Step} {otherwise : Option Step}
    (hcondition : StepMoves P first) (hthen : StepMoves P second)
    (helse : ∀ step ∈ otherwise, StepMoves P step) :
    StepMoves P (ifElse condition loc first second otherwise) := by
  intro flow t flow' h
  obtain ⟨tested, mid, thenInfo, after, hc, ht, h⟩ := ifElse_ok h
  have hafter := (hcondition hc).trans (nested_moves _ hthen.notes ht)
  cases otherwise with
  | some step =>
    obtain ⟨elseInfo, he, _⟩ := h
    exact hafter.trans (nested_moves _ (helse step rfl).notes he)
  | none =>
    obtain ⟨rfl, _⟩ := h
    exact hafter

theorem bindFields_assigned {c : Checker} {struct : String} {fields : List PatternField}
    (h : c.bindFields struct loc fields flow = .ok flow') :
    flow'.scope.assigned = flow.scope.assigned := by
  induction fields generalizing flow with
  | nil =>
    cases h
    rfl
  | cons f fs ih =>
    rw [bindFields] at h
    split at h
    all_goals
      obtain ⟨info, _, h⟩ := bind_eq_ok.mp h
      exact (ih h).trans (Scope.assigned_declare _ _ _)

theorem bindPattern_assigned {c : Checker} {pattern : Pattern}
    (h : c.bindPattern pattern loc flow = .ok flow') :
    flow'.scope.assigned = flow.scope.assigned := by
  cases pattern with
  | struct name fields => exact bindFields_assigned h
  | _ =>
    cases h
    rfl

theorem matchArm_moves (c : Checker) (pattern : Pattern) {body : Step} (hbody : StepMoves P body) :
    StepMoves P (c.matchArm pattern loc body) := by
  intro flow t flow' h
  obtain ⟨start, hstart, h⟩ := bind_eq_ok.mp h
  obtain ⟨⟨result, inner⟩, hb, h⟩ := bind_eq_ok.mp h
  cases h
  exact Flow.settle_moves start (bindPattern_assigned hstart) (hbody hb).notes flow

theorem loopStart_notes {body : Block} (hassigned : ∀ name ∈ Assigned.stmts body.statements, P name)
    (flow : Flow) : flow.child.Notes P (loopStart body flow) :=
  (Flow.loosen_moves (fun name hname => hassigned name (mem_distinctNames.mp hname)) _).notes

theorem whileLoop_moves {condition : Expr} {body : Block} {first second : Step}
    (hcondition : StepMoves P first) (hbody : StepMoves P second)
    (hassigned : ∀ name ∈ Assigned.stmts body.statements, P name) :
    StepMoves P (whileLoop condition body loc first second) := by
  intro flow t flow' h
  obtain ⟨tested, start, result, inner, hc, hb, rfl⟩ := whileLoop_ok h
  have hinner : start.Notes P inner := (hbody hb).notes.of_scope rfl rfl
  have hnotes := ((loopStart_notes hassigned flow).trans (hcondition hc).notes).trans hinner
  exact Flow.settle_moves flow.child rfl hnotes flow

theorem declared_notes {facts : Facts} (flow : Flow) (name : String) (b : Binding) :
    flow.Notes P ⟨flow.scope.declare name b, facts⟩ := by
  refine ⟨flow.extends_declare name b facts, ?_⟩
  intro key hkey
  rw [Scope.assigned_declare] at hkey
  exact .inl hkey

theorem forLoop_moves {iterator : String} {body : Block} {step : Step} (hbody : StepMoves P step)
    (hassigned : ∀ name ∈ Assigned.stmts body.statements, P name) :
    StepMoves P (forLoop iterator body step) := by
  intro flow t flow' h
  obtain ⟨⟨result, inner⟩, hb, h⟩ := bind_eq_ok.mp h
  cases h
  have hdeclared : (loopStart body flow).Notes P
      ⟨(loopStart body flow).scope.declare iterator (.fixed iteratorInfo),
        (loopStart body flow).facts.forget iterator⟩ := declared_notes _ _ _
  have hnotes := ((loopStart_notes hassigned flow).trans hdeclared).trans (hbody hb).notes
  exact Flow.settle_moves flow.child rfl hnotes flow

theorem declare_notes {c : Checker} {name : String} {type : Option TypeExpr} {value : TypeInfo}
    (h : c.declare name type value loc flow = .ok flow') : flow.Notes P flow' := by
  obtain ⟨b, rfl, _⟩ := declare_ok h
  exact declared_notes _ _ _

theorem assign_notes {c : Checker} {name : String} {value : TypeInfo}
    (h : c.assign name value loc flow = .ok flow') (hname : P name) : flow.Notes P flow' := by
  rcases assign_ok h with ⟨_, rfl⟩ | ⟨b, _, _, rfl⟩
  · exact .refl _
  · refine ⟨flow.extends_update _ _ _, ?_⟩
    intro key hkey
    rcases (Scope.mem_assigned_update _ _ _ _).mp hkey with hold | ⟨rfl, _⟩
    · exact .inl hold
    · exact .inr hname

open Node (Assigns)

theorem StepMoves.within {node part : Node} {step : Step} (h : StepMoves (Assigns part) step)
    (hpart : node.Has part) : StepMoves (Assigns node) step :=
  h.mono fun _ hassigns => hassigns.of_has hpart

theorem pure_moves (t : TypeInfo) : StepMoves P fun flow => .ok (t, flow) := by
  intro flow t' flow' h
  cases h
  exact .refl flow

/-- What a statement does: all but those that bind a name do what expressions do. -/
structure StmtMoves (s : Stmt) (step : Step) : Prop where
  notes : StepNotes (Assigns (.stmt s)) step
  moves : s.binds = false → StepMoves (Assigns (.stmt s)) step

theorem StmtMoves.of_moves {s : Stmt} {step : Step} (h : StepMoves (Assigns (.stmt s)) step) :
    StmtMoves s step :=
  ⟨h.notes, fun _ => h⟩

theorem block_assigns {ss : List Stmt} {place : Option Loc} {name : String}
    (hname : name ∈ Assigned.stmts ss) : Assigns (.expr (.block ⟨ss, place⟩)) name :=
  Assigned.expr_assigns (.block ⟨ss, place⟩) hname

mutual

/-- The frame law: an expression moves only names that are assigned in it. -/
theorem expr_moves (c : Checker) : ∀ e ret, StepMoves (Assigns (.expr e)) (c.expr e ret)
  | .number .., _ => pure_moves _
  | .float .., _ => pure_moves _
  | .bool .., _ => pure_moves _
  | .string .., _ => pure_moves _
  | .char .., _ => pure_moves _
  | .ident .., _ => by
    intro flow t flow' h
    cases h
    exact .refl flow
  | .binary op left right loc, ret => by
    intro flow t flow' h
    have hleft : StepMoves (Assigns (.expr (.binary op left right loc))) (c.expr left ret) :=
      (expr_moves c left ret).within .left
    have hright : StepMoves (Assigns (.expr (.binary op left right loc))) (c.expr right ret) :=
      (expr_moves c right ret).within .right
    cases hop : op.isLogical with
    | true =>
      rw [expr, if_pos hop] at h
      exact shortCircuit_moves hleft hright
        (fun name hname => (Assigned.expr_assigns right hname).of_has .right) h
    | false =>
      obtain ⟨l, mid, r, hl, hr, _⟩ := expr_binary_ok hop h
      exact (hleft hl).trans (hright hr)
  | .unary op operand loc, ret => by
    intro flow t flow' h
    obtain ⟨info, he, _⟩ := expr_unary_ok h
    exact (expr_moves c operand ret).within .operand he
  | .call callee es loc, ret => by
    intro flow t flow' h
    have hcallee : StepMoves (Assigns (.expr (.call callee es loc))) (c.expr callee ret) :=
      (expr_moves c callee ret).within .callee
    rw [expr] at h
    obtain ⟨⟨infos, mid⟩, ha, h⟩ := bind_eq_ok.mp h
    refine (args_moves c es ret (fun e he => .arg he) ha).trans ?_
    cases callee with
    | ident name place =>
      dsimp only at h
      split at h
      · obtain ⟨result, _, h⟩ := bind_eq_ok.mp h
        cases h
        exact .refl _
      · cases h
        exact .refl _
    | _ =>
      obtain ⟨⟨info, last⟩, hc, h⟩ := bind_eq_ok.mp h
      cases h
      exact hcallee hc
  | .member object property loc, ret => by
    intro flow t flow' h
    rw [expr] at h
    obtain ⟨⟨info, last⟩, ho, h⟩ := bind_eq_ok.mp h
    obtain ⟨result, _, h⟩ := bind_eq_ok.mp h
    cases h
    exact (expr_moves c object ret).within .object ho
  | .index target position loc, ret => by
    intro flow t flow' h
    obtain ⟨array, mid, place, ht, hp, _⟩ := expr_index_ok h
    exact ((expr_moves c target ret).within .target ht).trans
      ((expr_moves c position ret).within .position hp)
  | .structInit name fields loc, ret => by
    intro flow t flow' h
    rw [expr] at h
    split at h
    · cases h
    · obtain ⟨last, hf, h⟩ := bind_eq_ok.mp h
      cases h
      exact fieldInits_moves c _ fields ret (fun f hf => .field hf) hf
  | .ite condition thenBranch elseBranch loc, ret => by
    intro flow t flow' h
    rw [expr] at h
    exact ifElse_moves ((expr_moves c condition ret).within .condition)
      ((expr_moves c thenBranch ret).within .thenBranch)
      (expr?_moves c elseBranch ret fun e he => by
        subst he
        exact .elseBranch) h
  | .matchOn target cs loc, ret => by
    intro flow t flow' h
    rw [expr] at h
    obtain ⟨⟨info, mid⟩, ht, h⟩ := bind_eq_ok.mp h
    obtain ⟨_, _, h⟩ := bind_eq_ok.mp h
    exact ((expr_moves c target ret).within .scrutinee ht).trans
      (matchCases_moves c cs ret (fun arm harm => .arm harm) h)
  | .isPattern operand pattern loc, ret => by
    intro flow t flow' h
    rw [expr] at h
    obtain ⟨⟨info, last⟩, he, h⟩ := bind_eq_ok.mp h
    cases h
    exact (expr_moves c operand ret).within .tested he
  | .unwrap operand loc, ret => by
    intro flow t flow' h
    rw [expr] at h
    exact (expr_moves c operand ret).within .unwrapped h
  | .block ⟨ss, place⟩, ret => by
    intro flow t flow' h
    rw [expr] at h
    exact block_moves c ⟨ss, place⟩ ret h

theorem block_moves (c : Checker) : ∀ body ret,
    StepMoves (Assigns (.expr (.block body))) (nested .empty (c.stmts body.statements ret .void))
  | ⟨ss, _⟩, ret => nested_moves _ (stmts_notes c ss ret fun _ hs => .block hs)

theorem expr?_moves (c : Checker) : ∀ e ret {node : Node}, (∀ e' ∈ e, node.Has (.expr e')) →
    ∀ step ∈ c.expr? e ret, StepMoves (Assigns node) step
  | some e, ret, node, hpart => by
    intro step hstep
    cases hstep
    exact (expr_moves c e ret).within (hpart e rfl)
  | none, ret, node, hpart => by
    intro step hstep
    cases hstep

theorem args_moves (c : Checker) : ∀ es ret {node : Node}, (∀ e ∈ es, node.Has (.expr e)) →
    ∀ {loc flow infos flow'}, c.args es ret loc flow = .ok (infos, flow') →
      flow.Moves (Assigns node) flow'
  | [], ret, node, hpart, loc, flow, infos, flow', h => by
    cases h
    exact .refl flow
  | e :: es, ret, node, hpart, loc, flow, infos, flow', h => by
    obtain ⟨info, mid, rest, he, hes, _⟩ := args_cons_ok h
    exact ((expr_moves c e ret).within (hpart e (List.mem_cons_self ..)) he).trans
      (args_moves c es ret (fun e he => hpart e (List.mem_cons_of_mem _ he)) hes)

theorem fieldInits_moves (c : Checker) (decl : StructDecl) : ∀ fs ret {node : Node},
    (∀ f ∈ fs, node.Has (.expr f.value)) →
    ∀ {loc flow flow'}, c.fieldInits decl loc fs ret flow = .ok flow' →
      flow.Moves (Assigns node) flow'
  | [], ret, node, hpart, loc, flow, flow', h => by
    cases h
    exact .refl flow
  | ⟨key, value⟩ :: fs, ret, node, hpart, loc, flow, flow', h => by
    obtain ⟨info, mid, declared, _, he, _, hfs⟩ := fieldInits_cons_ok h
    exact ((expr_moves c value ret).within (hpart ⟨key, value⟩ (List.mem_cons_self ..)) he).trans
      (fieldInits_moves c decl fs ret (fun f hf => hpart f (List.mem_cons_of_mem _ hf)) hfs)

theorem matchCases_moves (c : Checker) : ∀ cs ret {node : Node},
    (∀ arm ∈ cs, node.Has (.expr arm.body)) →
    ∀ {loc joined}, StepMoves (Assigns node) (c.matchCases loc cs ret joined)
  | [], ret, node, hpart, loc, joined => by
    intro flow t flow' h
    cases h
    exact .refl flow
  | ⟨pattern, body⟩ :: cs, ret, node, hpart, loc, joined => by
    intro flow t flow' h
    obtain ⟨info, mid, harm, hcs⟩ := matchCases_cons_ok h
    have hbody : StepMoves (Assigns node) (c.expr body ret) :=
      (expr_moves c body ret).within (hpart ⟨pattern, body⟩ (List.mem_cons_self ..))
    exact (matchArm_moves c pattern hbody harm).trans
      (matchCases_moves c cs ret (fun arm harm => hpart arm (List.mem_cons_of_mem _ harm)) hcs)

/-- Statements of a block may bind names, so that only what they note is said about them. -/
theorem stmts_notes (c : Checker) : ∀ ss ret {node : Node}, (∀ s ∈ ss, node.Has (.stmt s)) →
    ∀ {last}, StepNotes (Assigns node) (c.stmts ss ret last)
  | [], ret, node, hpart, last => by
    intro flow t flow' h
    cases h
    exact .refl flow
  | s :: ss, ret, node, hpart, last => by
    intro flow t flow' h
    obtain ⟨info, mid, hs, hss⟩ := stmts_cons_ok h
    have hfirst := ((stmt_changes c s ret).notes hs).mono fun name hname =>
      Node.Assigns.of_has hname (hpart s (List.mem_cons_self ..))
    exact hfirst.trans
      (stmts_notes c ss ret (fun s hs => hpart s (List.mem_cons_of_mem _ hs)) hss)

theorem stmt_changes (c : Checker) : ∀ s ret, StmtMoves s (c.stmt s ret)
  | .fnDecl decl, ret => by
    refine .of_moves fun flow t flow' h => ?_
    rw [stmt] at h
    obtain ⟨_, _, h⟩ := bind_eq_ok.mp h
    cases h
    exact .refl flow
  | .letDecl name type value loc, ret => by
    refine ⟨fun flow t flow' h => ?_, nofun⟩
    obtain ⟨info, mid, hv, hd⟩ := letDecl_ok h
    exact ((expr_moves c value ret).within .initializer hv).notes.trans (declare_notes hd)
  | .assign target value loc, ret => by
    have hvalue : StepMoves (Assigns (.stmt (.assign target value loc))) (c.expr value ret) :=
      (expr_moves c value ret).within .assigned
    have htarget : StepMoves (Assigns (.stmt (.assign target value loc))) (c.expr target ret) :=
      (expr_moves c target ret).within .place
    cases target with
    | ident name place =>
      refine ⟨fun flow t flow' h => ?_, nofun⟩
      obtain ⟨info, mid, hv, ha⟩ := assign_ident_ok h
      exact (hvalue hv).notes.trans (assign_notes ha (Node.assigns_assign name place value loc))
    | _ =>
      refine .of_moves fun flow t flow' h => ?_
      rw [stmt] at h
      obtain ⟨⟨info, mid⟩, hv, h⟩ := bind_eq_ok.mp h
      obtain ⟨⟨_, last⟩, ht, h⟩ := bind_eq_ok.mp h
      cases h
      exact (hvalue hv).trans (htarget ht)
  | .ret none loc, ret => by
    refine .of_moves fun flow t flow' h => ?_
    rw [stmt] at h
    obtain ⟨_, _, h⟩ := bind_eq_ok.mp h
    cases h
    exact .refl flow
  | .ret (some value) loc, ret => by
    refine .of_moves fun flow t flow' h => ?_
    rw [stmt] at h
    obtain ⟨⟨info, last⟩, hv, h⟩ := bind_eq_ok.mp h
    obtain ⟨_, _, h⟩ := bind_eq_ok.mp h
    cases h
    exact (expr_moves c value ret).within .returned hv
  | .expr e loc, ret => by
    refine .of_moves fun flow t flow' h => ?_
    rw [stmt] at h
    exact (expr_moves c e ret).within .exprStmt h
  | .block ⟨ss, place⟩, ret => by
    refine .of_moves fun flow t flow' h => ?_
    rw [stmt] at h
    exact (block_moves c ⟨ss, place⟩ ret).within .blockStmt h
  | .ite condition thenBranch elseBranch loc, ret => by
    refine .of_moves fun flow t flow' h => ?_
    rw [stmt] at h
    have hmoves : flow.Moves (Assigns (.expr (.ite condition thenBranch elseBranch loc))) flow' :=
      ifElse_moves ((expr_moves c condition ret).within .condition)
        ((expr_moves c thenBranch ret).within .thenBranch)
        (expr?_moves c elseBranch ret fun e he => by
          subst he
          exact .elseBranch) h
    exact hmoves.mono fun name hname => hname.of_has .ifStmt
  | .whileLoop condition ⟨ss, place⟩ loc, ret => by
    refine .of_moves fun flow t flow' h => ?_
    rw [stmt] at h
    exact whileLoop_moves ((expr_moves c condition ret).within .whileCondition)
      ((block_moves c ⟨ss, place⟩ ret).within .whileBody)
      (fun name hname => (block_assigns hname).of_has .whileBody) h
  | .forLoop iterator first last ⟨ss, place⟩ loc, ret => by
    refine .of_moves fun flow t flow' h => ?_
    rw [stmt] at h
    obtain ⟨mid, hlow, h⟩ := bind_eq_ok.mp h
    obtain ⟨start, hhigh, h⟩ := bind_eq_ok.mp h
    obtain ⟨low, hlow⟩ := rangeBound_ok hlow
    obtain ⟨high, hhigh⟩ := rangeBound_ok hhigh
    refine Flow.Moves.trans ((expr_moves c first ret).within .rangeFirst hlow) ?_
    refine Flow.Moves.trans ((expr_moves c last ret).within .rangeLast hhigh) ?_
    exact forLoop_moves ((block_moves c ⟨ss, place⟩ ret).within .forBody)
      (fun name hname => (block_assigns hname).of_has .forBody) h
  | .foreignFn _, _ => .of_moves (pure_moves _)
  | .structDecl _, _ => .of_moves (pure_moves _)
  | .enumDecl _, _ => .of_moves (pure_moves _)
  | .typeAlias .., _ => .of_moves (pure_moves _)
  | .foreignType .., _ => .of_moves (pure_moves _)
  | .foreignLet .., _ => .of_moves (pure_moves _)
  | .breakLoop _, _ => .of_moves (pure_moves _)
  | .continueLoop _, _ => .of_moves (pure_moves _)

end

theorem stmts_extends {c : Checker} {ss : List Stmt} {ret : Option TypeInfo} {last : TypeInfo}
    (h : c.stmts ss ret last flow = .ok (t, flow')) : flow.Extends flow' := by
  have hpart : ∀ s ∈ ss, (Node.expr (.block ⟨ss, none⟩)).Has (.stmt s) := fun _ hs => .block hs
  exact (c.stmts_notes ss ret hpart h).toExtends

end Checker

end TuffSafety
