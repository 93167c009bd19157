import TuffSafety.Proofs.Noticing

/-!
# What a run writes to

A run writes only to variables that the code assigns, or that a function called in it may write to. A
check of the same code notices what the code assigns.
-/
namespace TuffSafety

/-- What running a node may do to a store. -/
def Node.Effect (far : Expr → String → Prop) (node : Node) : Store → Store → Prop :=
  Store.Alters (node.WritesFar far) node.Reassigns

theorem Node.Effect.trans {far : Expr → String → Prop} {node : Node} {s s₁ s' : Store}
    (h : node.Effect far s s₁) (h' : node.Effect far s₁ s') : node.Effect far s s' :=
  Store.Alters.trans h h'

theorem Node.Effect.conveyed {far : Expr → String → Prop} {part node : Node} {s s' : Store}
    (h : part.Effect far s s') (hpart : part.Conveys node) : node.Effect far s s' :=
  Store.Alters.mono (fun _ hfar => hfar.of_has hpart.has) hpart.reassigns h

/-- What a statement does to a store: it writes, and a declaration that comes to its end declares a
variable. -/
inductive Stmt.Effect (far : Expr → String → Prop) : Stmt → Outcome → Store → Store → Prop where
  | writes {st o s s'} (hlet : st.isLet = false) (h : (Node.stmt st).Effect far s s') :
      Effect far st o s s'
  | cut {st j s s'} (h : (Node.stmt st).Effect far s s') : Effect far st (.jump j) s s'
  | declares {name type value loc o s s₁ v s'}
      (h : (Node.stmt (.letDecl name type value loc)).Effect far s s₁)
      (hd : s₁.declare name ⟨.unknown, v⟩ = .ok s') :
      Effect far (.letDecl name type value loc) o s s'

theorem Stmt.Effect.node {far : Expr → String → Prop} {st : Stmt} {o : Outcome} {s s' : Store}
    (h : st.Effect far o s s') (hlet : st.isLet = false) : (Node.stmt st).Effect far s s' := by
  cases h with
  | writes _ h => exact h
  | cut h => exact h
  | declares => cases hlet

theorem Stmt.isLet_of_isDeclaration {st : Stmt} (h : st.isDeclaration = true) : st.isLet = false := by
  cases st <;> first | rfl | cases h

/-- In a layer of its own a statement changes that layer and writes to those around it. -/
theorem Stmt.Effect.escapes {far : Expr → String → Prop} {st : Stmt} {o : Outcome}
    {layer : OrderedMap Cell} {rest s' : Store} (h : st.Effect far o (layer :: rest) s') :
    ∃ layer' rest', s' = layer' :: rest' ∧
      (∀ v, o = .value v → ∀ {c ret flow t flow'}, Checker.stmt c st ret flow = .ok (t, flow') →
        flow.CoveredBy layer → flow'.CoveredBy layer') ∧
      Store.Alters ((Node.stmt st).WritesFar far) (st.Escapes layer) rest rest' := by
  cases h with
  | writes hlet hw =>
    obtain ⟨layer', rest', rfl, hkeys, hrest⟩ := Store.Alters.cons hw
    refine ⟨layer', rest', rfl, ?_, hrest.mono (fun _ hfar => hfar) fun _ hname => hname.1.escapes hname.2⟩
    intro _ _ c ret flow t flow' hs hcovered name hname
    rw [hkeys]
    rw [Checker.stmt_locals hlet hs] at hname
    exact hcovered name hname
  | cut hw =>
    obtain ⟨layer', rest', rfl, _, hrest⟩ := Store.Alters.cons hw
    refine ⟨layer', rest', rfl, ?_, hrest.mono (fun _ hfar => hfar) fun _ hname => hname.1.escapes hname.2⟩
    intro v hv
    cases hv
  | @declares key type value loc o s s₁ v s' hw hd =>
    obtain ⟨layer₁, rest₁, rfl, hkeys, hrest⟩ := Store.Alters.cons hw
    refine ⟨_, rest₁, Store.declare_cons_ok hd, ?_,
      hrest.mono (fun _ hfar => hfar) fun _ hname => hname.1.escapes hname.2⟩
    intro _ _ c ret flow t flow' hs hcovered name hname
    obtain ⟨info, mid, hv, hdeclare⟩ := Checker.letDecl_ok hs
    obtain ⟨b, rfl, _⟩ := Checker.declare_ok hdeclare
    rw [OrderedMap.get?_insert]
    split
    · rfl
    · rename_i hne
      rw [hkeys]
      apply hcovered
      rw [← (c.expr_moves value ret hv).locals]
      exact ((Scope.mem_locals_declare _ _ _ _).mp hname).resolve_left hne

/-- The effect of a run, by what is run. -/
def Runnable.Effect (far : Expr → String → Prop) : Runnable → Outcome → Store → Store → Prop
  | .expr e, _, s, s' => (Node.expr e).Effect far s s'
  | .operands es, _, s, s' => Store.Alters (fun name => ∃ e ∈ es, (Node.expr e).WritesFar far name)
      (fun name => ∃ e ∈ es, (Node.expr e).Reassigns name) s s'
  | .stmt st, o, s, s' => st.Effect far o s s'
  | .stmts _ ss, _, s, s' => ∀ layer rest, s = layer :: rest →
      ∃ layer' rest', s' = layer' :: rest' ∧
        Store.Alters (fun name => ∃ st ∈ ss, (Node.stmt st).WritesFar far name) (Escapes layer ss)
          rest rest'
  | .rounds iterator _ _ body, _, s, s' => Store.Alters ((Node.expr (.block body)).WritesFar far)
      (fun name => (Node.expr (.block body)).Reassigns name ∧ name ≠ iterator) s s'

theorem Node.effect_operands {far : Expr → String → Prop} (node : Node) {o : Outcome} {s s' : Store}
    (h : (Runnable.operands node.operands).Effect far o s s') : node.Effect far s s' := by
  refine Store.Alters.mono ?_ ?_ h
  · rintro name ⟨e, he, hfar⟩
    exact hfar.of_has (has_operand he)
  · rintro name ⟨e, he, hname⟩
    exact (Conveys.operand he).reassigns name hname

namespace Ends

variable {far : Expr → String → Prop}

theorem first_operand {e : Expr} {s s' : Store} (h : (Node.expr e).Effect far s s') (es : List Expr) :
    Store.Alters (fun name => ∃ e' ∈ e :: es, (Node.expr e').WritesFar far name)
      (fun name => ∃ e' ∈ e :: es, (Node.expr e').Reassigns name) s s' :=
  Store.Alters.mono (fun _ hfar => ⟨e, List.mem_cons_self, hfar⟩)
    (fun _ hname => ⟨e, List.mem_cons_self, hname⟩) h

/-- A round writes to the layers behind the one of its variable. -/
theorem round_effect {iterator : String} {cell : Cell} {body : Block} {layer : OrderedMap Cell}
    {s s' : Store}
    (h : (Node.expr (.block body)).Effect far (OrderedMap.empty.insert iterator cell :: s) (layer :: s')) :
    Store.Alters ((Node.expr (.block body)).WritesFar far)
      (fun name => (Node.expr (.block body)).Reassigns name ∧ name ≠ iterator) s s' := by
  obtain ⟨layer', rest', heq, _, hrest⟩ := Store.Alters.cons h
  cases heq
  refine hrest.mono (fun _ hfar => hfar) fun name hname => ⟨hname.1, ?_⟩
  rintro rfl
  have hnone := hname.2
  rw [OrderedMap.get?_insert, if_pos rfl] at hnone
  cases hnone

/-- A run has the effect of what is run, by induction on the run. -/
theorem effect {code : Runnable} {s s' : Store} {o : Outcome} (h : Ends far code s o s') :
    code.Effect far o s s' := by
  induction h with
  | number | bool | ident | constant | noOperand | roundsDone => exact .refl
  | vague _ _ ih | operandJumps _ ih => exact Node.effect_operands (.expr _) ih
  | neg _ ih | not _ ih => exact Node.Effect.conveyed ih (.operand (List.mem_singleton_self _))
  | andFalse _ ih | orTrue _ ih => exact Node.Effect.conveyed ih (.operand (List.mem_singleton_self _))
  | andTrue _ _ ihl ihr | orFalse _ _ ihl ihr =>
    exact (Node.Effect.conveyed ihl (.operand (List.mem_singleton_self _))).trans
      (Node.Effect.conveyed ihr (.guarded rfl _ _))
  | @binary op l r loc _ _ _ _ _ _ hop _ _ _ ihl ihr =>
    have hoperands : (Node.expr (.binary op l r loc)).operands = [l, r] := if_neg (by rw [hop]; decide)
    exact (Node.Effect.conveyed ihl (.operand (by simp [hoperands]))).trans
      (Node.Effect.conveyed ihr (.operand (by simp [hoperands])))
  | @compared op l r loc _ _ _ _ _ _ hop _ _ _ ihl ihr =>
    have hoperands : (Node.expr (.binary op l r loc)).operands = [l, r] := by
      cases op <;> first | rfl | cases hop
    exact (Node.Effect.conveyed ihl (.operand (by simp [hoperands]))).trans
      (Node.Effect.conveyed ihr (.operand (by simp [hoperands])))
  | @index target position loc _ _ _ _ _ _ _ _ _ _ iht ihp =>
    have hoperands : (Node.expr (.index target position loc)).operands = [target, position] := rfl
    exact (Node.Effect.conveyed iht (.operand (by simp [hoperands]))).trans
      (Node.Effect.conveyed ihp (.operand (by simp [hoperands])))
  | @call callee args loc _ _ _ _ _ _ hw ih =>
    refine (Node.effect_operands (.expr _) ih).trans (Store.Alters.of_writes _ (hw.mono ?_))
    exact fun name hname => ⟨callee, args, loc, .refl, hname⟩
  | iteTrue _ _ ihc iht =>
    exact (Node.Effect.conveyed ihc (.operand (List.mem_singleton_self _))).trans
      (Node.Effect.conveyed iht (.thenBranch _ _ _))
  | iteFalse _ _ ihc ihe =>
    exact (Node.Effect.conveyed ihc (.operand (List.mem_singleton_self _))).trans
      (Node.Effect.conveyed ihe (.elseBranch _ _ _))
  | iteNone _ ihc | matchNone _ ihc | unwrapReturns _ ihc =>
    exact Node.Effect.conveyed ihc (.operand (List.mem_singleton_self _))
  | matchOn _ harm hlayer _ iht ihb =>
    refine (Node.Effect.conveyed iht (.operand (List.mem_singleton_self _))).trans ?_
    obtain ⟨layer', rest', heq, _, hrest⟩ := Store.Alters.cons ihb
    cases heq
    refine hrest.mono (fun _ hfar => hfar.of_has (.arm harm)) fun name hname => hname.1.arm harm ?_
    intro hbound
    have hsome := hlayer name hbound
    rw [hname.2] at hsome
    cases hsome
  | block _ ih =>
    obtain ⟨layer, rest, heq, hrest⟩ := ih _ _ rfl
    cases heq
    refine hrest.mono ?_ fun _ hname => hname.block
    rintro name ⟨st, hst, hfar⟩
    exact hfar.of_has (.block hst)
  | operand _ _ ihe ihs =>
    refine (first_operand ihe _).trans (Store.Alters.mono ?_ ?_ ihs)
    · exact fun _ ⟨e, he, hfar⟩ => ⟨e, List.mem_cons_of_mem _ he, hfar⟩
    · exact fun _ ⟨e, he, hname⟩ => ⟨e, List.mem_cons_of_mem _ he, hname⟩
  | jumpingOperand _ ih => exact first_operand ih _
  | nil =>
    intro layer rest hs
    exact ⟨layer, rest, hs, .refl⟩
  | cons _ _ ih ihs =>
    intro layer rest hs
    subst hs
    obtain ⟨layer₁, rest₁, rfl, hlayer, hrest₁⟩ := ih.escapes
    obtain ⟨layer₂, rest₂, rfl, hrest₂⟩ := ihs layer₁ rest₁ rfl
    refine ⟨layer₂, rest₂, rfl, (hrest₁.mono ?_ ?_).trans (hrest₂.mono ?_ ?_)⟩
    · exact fun _ hfar => ⟨_, List.mem_cons_self, hfar⟩
    · exact fun _ hname => .first hname _
    · exact fun _ ⟨st, hst, hfar⟩ => ⟨st, List.mem_cons_of_mem _ hst, hfar⟩
    · exact fun _ hname => .later hname (hlayer _ rfl)
  | cut _ ih =>
    intro layer rest hs
    subst hs
    obtain ⟨layer₁, rest₁, rfl, _, hrest₁⟩ := ih.escapes
    refine ⟨layer₁, rest₁, rfl, hrest₁.mono ?_ fun _ hname => .first hname _⟩
    exact fun _ hfar => ⟨_, List.mem_cons_self, hfar⟩
  | letDecl _ _ hd ih =>
    exact .declares (Node.Effect.conveyed ih (.operand (List.mem_singleton_self _))) hd
  | @assign name place value loc _ _ _ _ _ _ _ ha ih =>
    refine .writes rfl (.trans (Node.Effect.conveyed ih (.operand (List.mem_singleton_self _))) ?_)
    exact .of_assign (Node.Reassigns.assign name place value loc) ha
  | assignInto _ _ ih => exact .writes rfl (Node.effect_operands (.stmt _) ih)
  | ret _ ih => exact .writes rfl (Node.effect_operands (.stmt _) ih)
  | stmtJumps _ ih => exact .cut (Node.effect_operands (.stmt _) ih)
  | exprStmt _ ih => exact .writes rfl (Node.Effect.conveyed ih (.exprStmt _))
  | blockStmt _ ih => exact .writes rfl (Node.Effect.conveyed ih (.blockStmt _))
  | ifStmt _ ih => exact .writes rfl (Node.Effect.conveyed ih (.ifStmt _ _ _))
  | declaration h => exact .writes (Stmt.isLet_of_isDeclaration h) .refl
  | breakLoop | continueLoop => exact .writes rfl .refl
  | whileDone _ ih | whileJumps _ ih => exact .writes rfl (Node.Effect.conveyed ih (.whileCondition _ _))
  | whileRound _ _ _ _ ihc ihb ih =>
    exact .writes rfl (((Node.Effect.conveyed ihc (.whileCondition _ _)).trans
      (Node.Effect.conveyed ihb (.whileBody _ _))).trans (ih.node rfl))
  | whileLeft _ _ _ ihc ihb =>
    exact .writes rfl ((Node.Effect.conveyed ihc (.whileCondition _ _)).trans
      (Node.Effect.conveyed ihb (.whileBody _ _)))
  | forLoop _ _ _ ihl ihh ih =>
    refine .writes rfl ((Node.Effect.conveyed ihl (.operand List.mem_cons_self)).trans
      ((Node.Effect.conveyed ihh (.operand (List.mem_cons_of_mem _ (List.mem_singleton_self _)))).trans ?_))
    exact Store.Alters.mono (fun _ hfar => hfar.of_has .forBody)
      (fun _ hname => hname.1.forBody hname.2 _ _) ih
  | roundsNext _ _ _ _ ihb ihr => exact (round_effect ihb).trans ihr
  | roundsLeft _ _ _ ihb => exact round_effect ihb

end Ends

end TuffSafety
