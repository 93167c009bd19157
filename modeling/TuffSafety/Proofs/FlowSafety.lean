import TuffSafety.Proofs.Execution

/-!
# Accepted statements do not crash

The checker's flow fits a store when every variable obeys the declared and the present type of its
name and the fact about it. Running accepted statements keeps the two in step: at each point that a
run comes through, however long it is, the flow of that point fits the store. So no expression in
them crashes. As for expressions, the negations of operands of unknown type have to be set apart.
-/
namespace TuffSafety

/-- A binding without floats and nullable pointers. -/
structure Binding.Ordinary (b : Binding) : Prop where
  declared : b.declared.Ordinary
  current : b.current.Ordinary

/-- A binding tells the truth about a variable. -/
structure Binding.Fits (b : Binding) (cell : Cell) : Prop where
  declared_eq : cell.declared = b.declared
  declared : b.declared.Allows cell.value
  current : b.current.Allows cell.value

/-- Every variable is bound, and what is known about its name is true. -/
structure Flow.Fits (flow : Flow) (store : Store) : Prop where
  ordinary : ∀ name b, flow.scope.get? name = some b → b.Ordinary
  bound : ∀ name cell, store.get? name = some cell → ∃ b, flow.scope.get? name = some b ∧ b.Fits cell
  facts : flow.facts.Hold store.env

theorem TypeInfo.Describes.allows {t : TypeInfo} {v : Value} (h : t.Describes v) : t.Allows v := by
  cases v with
  | int n => exact h.admits n rfl
  | bool | array => trivial

theorem TypeInfo.Allows.admits {t : TypeInfo} {v : Value} (h : t.Allows v) {n : Int}
    (hv : v = .int n) : t.Admits n := by
  subst hv
  exact h

theorem TypeInfo.Ordinary.narrow {t : TypeInfo} (h : t.Ordinary) (p : Patch) :
    (t.narrow p).Ordinary := by
  rw [TypeInfo.narrow_eq h.notNullable]
  exact ⟨h.notFloat, h.notNullable⟩

/-- A value of a declared type that has an inferred type too. -/
theorem TypeInfo.Allows.narrow {t info : TypeInfo} {v : Value} (ht : t.Allows v)
    (hordinary : t.Ordinary) (hinfo : info.Describes v) : (t.narrow (.ofInfo info)).Allows v := by
  cases v with
  | int n =>
    exact TypeInfo.Admits.narrow ht (Patch.admits_ofInfo (hinfo.admits n rfl)) hordinary.notNullable
  | bool | array => trivial

namespace Flow.Fits

variable {flow : Flow} {store store' : Store}

theorem env_eq_some {name : String} {v : Value} (h : store.env name = some v) :
    ∃ cell, store.get? name = some cell ∧ cell.value = v :=
  Option.map_eq_some_iff.mp h

theorem describes (h : flow.Fits store) : flow.Describes store.env := by
  refine ⟨?_, h.facts⟩
  intro name v hv
  obtain ⟨cell, hcell, rfl⟩ := env_eq_some hv
  obtain ⟨b, hb, hfits⟩ := h.bound name cell hcell
  exact ⟨b, hb, (h.ordinary name b hb).current, fun n hn => hfits.current.admits hn⟩

theorem learn (h : flow.Fits store) {learned : Facts} (hl : learned.Hold store.env) :
    (flow.learn learned).Fits store :=
  ⟨h.ordinary, h.bound, h.facts.merge hl⟩

theorem under (h : flow.Fits store) {learned : Facts} (hl : learned.Hold store.env) :
    (flow.under learned).Fits store.push :=
  ⟨h.ordinary, h.bound, h.facts.merge hl⟩

theorem child (h : flow.Fits store) : flow.child.Fits store.push :=
  ⟨h.ordinary, h.bound, h.facts⟩

/-- Admissible writes to names about which nothing more than the declared type is known. -/
theorem writes (h : flow.Fits store) {P : String → Prop} {names : List String}
    (hw : Store.Writes P store store')
    (hnames : ∀ name, P name → (flow.scope.get? name).isSome → name ∈ names) :
    (flow.loosen names).Fits store' := by
  have hkept : ∀ name cell', store'.get? name = some cell' → name ∉ names →
      store.get? name = some cell' := by
    intro name cell' hcell' hname
    obtain ⟨cell, hcell, _, rfl | ⟨hp, _⟩⟩ := hw.get? hcell'
    · exact hcell
    · obtain ⟨b, hb, _⟩ := h.bound name cell hcell
      exact absurd (hnames name hp (by rw [hb]; rfl)) hname
  constructor
  · intro name b' hb'
    rw [Flow.loosen, Scope.get?_widenAll] at hb'
    split at hb'
    · obtain ⟨b, hb, rfl⟩ := Option.map_eq_some_iff.mp hb'
      have hordinary := (h.ordinary name b hb).declared
      exact ⟨hordinary, hordinary⟩
    · exact h.ordinary name b' hb'
  · intro name cell' hcell'
    obtain ⟨cell, hcell, hdeclared, hvalue⟩ := hw.get? hcell'
    obtain ⟨b, hb, hfits⟩ := h.bound name cell hcell
    rw [Flow.loosen, Scope.get?_widenAll]
    split
    · refine ⟨.fixed b.declared, by rw [hb]; rfl, ?_⟩
      have hallows : b.declared.Allows cell'.value := by
        rcases hvalue with rfl | ⟨_, hallows⟩
        · exact hfits.declared
        · rwa [hfits.declared_eq] at hallows
      exact ⟨hdeclared.trans hfits.declared_eq, hallows, hallows⟩
    · rename_i hname
      have hsame := hkept name cell' hcell' hname
      rw [hcell] at hsame
      cases hsame
      exact ⟨b, hb, hfits⟩
  · intro name p n hp hn
    rw [Flow.loosen, Facts.get?_forgetAll] at hp
    split at hp
    · cases hp
    · rename_i hname
      obtain ⟨cell', hcell', hvalue⟩ := env_eq_some hn
      refine h.facts name p n hp ?_
      rw [Store.env, hkept name cell' hcell' hname, Option.map_some, hvalue]

theorem loosen (h : flow.Fits store) (names : List String) : (flow.loosen names).Fits store :=
  h.writes (P := fun _ => False) .refl fun _ hp => hp.elim

/-- A name that is given a new variable or a new value, and a binding that fits it. -/
theorem set (h : flow.Fits store) {name : String} {cell : Cell} {b : Binding} {scope : Scope}
    (hordinary : b.Ordinary) (hfits : b.Fits cell)
    (hscope : ∀ key, scope.get? key = if key = name then some b else flow.scope.get? key)
    (hstore : ∀ key, store'.get? key = if key = name then some cell else store.get? key) :
    Flow.Fits ⟨scope, flow.facts.forget name⟩ store' := by
  constructor
  · intro key b' hb'
    rw [hscope] at hb'
    split at hb'
    · cases hb'
      exact hordinary
    · exact h.ordinary key b' hb'
  · intro key cell' hcell'
    rw [hstore] at hcell'
    rw [hscope]
    split at hcell'
    · cases hcell'
      exact ⟨b, if_pos ‹_›, hfits⟩
    · rw [if_neg ‹_›]
      exact h.bound key cell' hcell'
  · intro key p n hp hn
    rw [Facts.get?_forget] at hp
    split at hp
    · cases hp
    · refine h.facts key p n hp ?_
      rw [Store.env, hstore, if_neg ‹_›] at hn
      exact hn

end Flow.Fits

/-! ### Types of initial values -/

theorem Checker.index_ok {c : Checker} {array place t : TypeInfo} {loc : Option Loc}
    (h : c.index array place loc = .ok t) : t = .unknown := by
  unfold index at h
  repeat' split at h
  all_goals cases h
  all_goals rfl

/-- Without nullable bindings no expression is nullable. -/
theorem Expr.Plain.notNullable {c : Checker} {arrays : String → Prop} {e : Expr}
    {ret : Option TypeInfo} {flow flow' : Flow} {t : TypeInfo} (he : e.Plain arrays)
    (hnull : ∀ name b, flow.scope.get? name = some b → b.current.nullablePointer = none)
    (h : c.expr e ret flow = .ok (t, flow')) : t.nullablePointer = none := by
  induction he generalizing flow t flow' with
  | number =>
    rw [Checker.expr] at h
    cases h
    rfl
  | bool =>
    rw [Checker.expr] at h
    cases h
    rfl
  | @ident name loc =>
    rw [Checker.expr] at h
    cases h
    cases hb : flow.scope.get? name with
    | some b =>
      rw [Checker.lookup_eq hb (hnull name b hb)]
      exact hnull name b hb
    | none =>
      rw [Checker.lookup, hb]
      dsimp only
      split
      · rfl
      · split <;> rfl
  | neg _ ih =>
    obtain ⟨operand, ho, hu⟩ := Checker.expr_unary_ok h
    rw [Checker.unary] at hu
    split at hu
    · cases hu
      exact ih hnull ho
    · split at hu
      · cases hu
        exact TypeInfo.withBounds_nullablePointer _ _ _
      · cases hu
  | not _ ih =>
    obtain ⟨operand, _, hu⟩ := Checker.expr_unary_ok h
    rw [Checker.unary] at hu
    split at hu <;> cases hu
    rfl
  | @binary op l r loc hl hr ihl ihr =>
    cases hop : op.isLogical with
    | true =>
      rw [Checker.expr, if_pos hop] at h
      obtain ⟨left, mid, right, inner, _, _, ht, _⟩ := Checker.shortCircuit_ok h
      rw [Checker.logical_ok ht]
      rfl
    | false =>
      obtain ⟨left, mid, right, _, _, ⟨_, rfl⟩ | ⟨_, ht⟩⟩ := Checker.expr_binary_ok hop h
      · rfl
      · exact Checker.arithmetic_notNullable ht
  | @ite cond th el loc hc hth _ ihc iht ihe =>
    rw [Checker.expr] at h
    obtain ⟨tested, mid, thenInfo, after, hc', ht, elseInfo, he, rfl⟩ := Checker.ifElse_ok h
    obtain rfl := hc.flow_eq hc'
    obtain ⟨inner, ht', rfl⟩ := Checker.nested_ok ht
    obtain ⟨inner', he', rfl⟩ := Checker.nested_ok he
    obtain rfl := hth.flow_eq ht'
    rw [Flow.settle_under] at he'
    rw [TypeInfo.join]
    split
    · dsimp only
      rw [iht (by exact hnull) ht', ihe (by exact hnull) he']
      rfl
    · rfl
  | index _ _ ih =>
    obtain ⟨array, mid, place, _, _, hi⟩ := Checker.expr_index_ok h
    rw [Checker.index_ok hi]
    rfl

/-! ### Parts of a run -/

theorem Store.declare_ne_crash (store : Store) (name : String) (cell : Cell) (crash : Crash) :
    store.declare name cell ≠ .error (.crash crash) := by
  intro h
  unfold declare at h
  split at h
  · split at h <;> cases h
  · cases h

theorem Store.assign_ne_crash (store : Store) (name : String) (v : Value) (crash : Crash) :
    store.assign name v ≠ .error (.crash crash) := by
  intro h
  induction store with
  | nil => cases h
  | cons layer rest ih =>
    rw [assign] at h
    split at h
    · split at h <;> cases h
    · cases hrest : assign name v rest with
      | ok =>
        rw [hrest] at h
        cases h
      | error ending =>
        rw [hrest] at h
        cases h
        exact ih hrest

theorem Store.test_holds {store : Store} {cond : Expr} {P : Value → Prop} {R : Point → Prop}
    (h : Safe P (cond.eval store.env)) :
    (store.test cond).Holds R fun truth => cond.eval store.env = .ok (.bool truth) := by
  apply Run.holds_ofHalt
  apply h.bind
  intro v hv _
  exact v.toBool_safe.mono fun truth htruth => htruth ▸ hv

/-- The points of a run that its flow describes. -/
abbrev Point.Fits (p : Point) : Prop := p.flow.Fits p.store

/-- A nested part brings back a store that fits what is known behind it. -/
theorem Store.enclosed_fits {flow inner : Flow} {store : Store} {part : Store → Run Store}
    {P : Store → Prop} (hfit : flow.Fits store) (hpart : (part store.push).Holds Point.Fits P)
    (hw : ∀ s, (part store.push).result = .ok s → ∃ layer rest, s = layer :: rest ∧
      Writes (fun name => (flow.scope.get? name).isSome → name ∈ inner.scope.assigned) store rest) :
    (store.enclosed part).Holds Point.Fits (flow.settle inner).Fits := by
  apply hpart.bind
  intro s hs _
  obtain ⟨layer, rest, rfl, hrest⟩ := hw s hs
  exact Run.holds_pure (hfit.writes hrest fun name hp hvisible => hp hvisible)

theorem NegationsMirrored.ofBranch {c : Checker} {e : Expr} {ret : Option TypeInfo} {flow : Flow}
    (h : NegationsMirrored c ⟨.expr e, ret, flow⟩) :
    NegationsMirrored c ⟨.stmt (.ofBranch e), ret, flow⟩ := by
  refine of_not_negation rfl fun w hw => ?_
  cases e with
  | block body =>
    rw [Stmt.ofBranch] at hw
    cases hw
    exact h
  | ite =>
    rw [Stmt.ofBranch] at hw
    cases hw
    exact h
  | _ =>
    replace hw : Leads c ⟨.stmt (.expr _ none), ret, flow⟩ w := hw
    cases hw
    exact h

/-- A loop that the checker has accepted, and what it starts every round from. -/
structure Checker.AcceptsLoop (c : Checker) (ret : Option TypeInfo) (cond : Expr) (body : Block)
    (start : Flow) : Prop where
  plain : cond.Plain fun _ => False
  simple : ∀ s ∈ body.statements, s.Simple c
  condition : ∃ tested, c.expr cond ret start = .ok (tested, start)
  round : ∃ result, c.expr (.block body) ret (start.learn (Facts.derive cond true)) = .ok result
  conditionNegations : NegationsMirrored c ⟨.expr cond, ret, start⟩
  roundNegations : NegationsMirrored c ⟨.expr (.block body), ret, start.learn (Facts.derive cond true)⟩

/-- What runs of at most `n` steps of accepted statements do. -/
structure Keeps (c : Checker) (ret : Option TypeInfo) (n : Nat) : Prop where
  run : ∀ {ss flow last t flow' store}, (∀ s ∈ ss, s.Simple c) →
    c.stmts ss ret last flow = .ok (t, flow') → NegationsMirrored c ⟨.stmts last ss, ret, flow⟩ →
    flow.Fits store → (c.run ret n ss flow store).Holds Point.Fits flow'.Fits
  exec : ∀ {s flow t flow' store}, s.Simple c → c.stmt s ret flow = .ok (t, flow') →
    NegationsMirrored c ⟨.stmt s, ret, flow⟩ → flow.Fits store →
    (c.exec ret n s flow store).Holds Point.Fits flow'.Fits
  rounds : ∀ {cond body flow store₀ store},
    c.AcceptsLoop ret cond body (Checker.loopStart body flow) → flow.Fits store₀ →
    Store.Writes (· ∈ Assigned.stmts body.statements) store₀.push store →
    (c.rounds ret n cond body (Checker.loopStart body flow) store).Holds Point.Fits
      (Store.Writes (· ∈ Assigned.stmts body.statements) store₀.push)

namespace Keeps

variable {c : Checker} {ret : Option TypeInfo} {n : Nat}

theorem rounds_succ (ih : Keeps c ret n) (hstrict : c.strict = true) {cond : Expr} {body : Block}
    {flow : Flow} {store₀ store : Store}
    (hloop : c.AcceptsLoop ret cond body (Checker.loopStart body flow)) (hfit : flow.Fits store₀)
    (hw : Store.Writes (· ∈ Assigned.stmts body.statements) store₀.push store) :
    (c.rounds ret (n + 1) cond body (Checker.loopStart body flow) store).Holds Point.Fits
      (Store.Writes (· ∈ Assigned.stmts body.statements) store₀.push) := by
  obtain ⟨ss, place⟩ := body
  obtain ⟨tested, hcond⟩ := hloop.condition
  obtain ⟨⟨result, inner⟩, hbody⟩ := hloop.round
  -- Whatever the earlier rounds have done, the flow at the start of the round fits.
  have hstart : (Checker.loopStart ⟨ss, place⟩ flow).Fits store :=
    hfit.child.writes hw fun name hname _ => mem_distinctNames.mpr hname
  rw [Checker.rounds]
  apply (Run.holds_reach hstart).bind
  intro _ _ _
  have hsafe := hloop.plain.eval_safe hstrict hstart.describes (fun _ h => h.elim)
    hloop.conditionNegations hcond
  apply (Store.test_holds hsafe).bind
  intro truth _ htruth
  cases truth with
  | true =>
    have hblock : c.stmt (.block ⟨ss, place⟩) ret
        ((Checker.loopStart ⟨ss, place⟩ flow).learn (Facts.derive cond true)) = .ok (result, inner) := by
      rw [← hbody]
      exact c.stmt_ofBranch (.block ⟨ss, place⟩) ret _
    have hsimple : Stmt.Simple c (.block ⟨ss, place⟩) := .block hloop.simple
    have hfirst := ih.exec hsimple hblock hloop.roundNegations.ofBranch
      (hstart.learn (Facts.derive_holds htruth))
    apply hfirst.bind
    intro store₁ hstore₁ _
    have hw₁ := (frames c ret n).exec hsimple rfl hblock hstore₁
    exact ih.rounds hloop hfit (hw.trans (hw₁.mono fun _ hname => hname.named))
  | false => exact Run.holds_pure hw

theorem letDecl_succ (hstrict : c.strict = true) {name : String} {type : Option TypeExpr}
    {value : Expr} {loc : Option Loc} {flow flow' : Flow} {store : Store} {t : TypeInfo}
    (hv : value.Plain fun _ => False)
    (htype : ∀ annotation ∈ type, (c.decls.resolve annotation).Ordinary)
    (h : c.stmt (.letDecl name type value loc) ret flow = .ok (t, flow'))
    (hneg : NegationsMirrored c ⟨.stmt (.letDecl name type value loc), ret, flow⟩)
    (hfit : flow.Fits store) :
    (c.exec ret (n + 1) (.letDecl name type value loc) flow store).Holds Point.Fits flow'.Fits := by
  have hbehind := Flow.behind_eq h
  obtain ⟨info, mid, hvalue, hd⟩ := Checker.letDecl_ok h
  obtain rfl := hv.flow_eq hvalue
  obtain ⟨b, rfl, hb⟩ := Checker.declare_ok hd
  have hbound : (mid.scope.declare name b).get? name = some b := by
    rw [Scope.get?_declare, if_pos rfl]
  rw [Checker.exec, hbehind, hbound]
  have hsafe := hv.eval_safe hstrict hfit.describes (fun _ h => h.elim) (hneg.step .initializer) hvalue
  apply (Run.holds_ofHalt hsafe).bind
  intro v _ hdescribes
  apply Run.holds_ofExcept (Store.declare_ne_crash _ _ _)
  intro store' hdeclare
  obtain ⟨hallows, hget⟩ := Store.declare_ok hdeclare
  cases type with
  | some annotation =>
    obtain ⟨_, rfl⟩ := hb
    have hordinary := htype annotation rfl
    exact hfit.set ⟨hordinary, hordinary.narrow _⟩ ⟨rfl, hallows, hallows.narrow hordinary hdescribes⟩
      (Scope.get?_declare _ _ · _) hget
  | none =>
    cases hb
    have hnull := hv.notNullable (fun name b hb => (hfit.ordinary name b hb).current.notNullable) hvalue
    have hordinary : info.Ordinary := ⟨hdescribes.notFloat, hnull⟩
    exact hfit.set ⟨⟨hdescribes.notFloat, hnull⟩, hordinary⟩ ⟨rfl, hallows, hdescribes.allows⟩
      (Scope.get?_declare _ _ · _) hget

theorem assign_succ (hstrict : c.strict = true) {name : String} {place : Option Loc} {value : Expr}
    {loc : Option Loc} {flow flow' : Flow} {store : Store} {t : TypeInfo}
    (hv : value.Plain fun _ => False)
    (h : c.stmt (.assign (.ident name place) value loc) ret flow = .ok (t, flow'))
    (hneg : NegationsMirrored c ⟨.stmt (.assign (.ident name place) value loc), ret, flow⟩)
    (hfit : flow.Fits store) :
    (c.exec ret (n + 1) (.assign (.ident name place) value loc) flow store).Holds Point.Fits
      flow'.Fits := by
  obtain ⟨info, mid, hvalue, ha⟩ := Checker.assign_ident_ok h
  obtain rfl := hv.flow_eq hvalue
  rw [Checker.exec]
  have hsafe := hv.eval_safe hstrict hfit.describes (fun _ h => h.elim) (hneg.step .assigned) hvalue
  apply (Run.holds_ofHalt hsafe).bind
  intro v _ hdescribes
  apply Run.holds_ofExcept (Store.assign_ne_crash _ _ _)
  intro store' hassign
  obtain ⟨cell, hcell, hallows, hget⟩ := Store.assign_ok hassign
  obtain ⟨b, hb, hfits⟩ := hfit.bound name cell hcell
  rcases Checker.assign_ok ha with ⟨hnone, _⟩ | ⟨b', hb', _, rfl⟩
  · rw [hnone] at hb
    cases hb
  · cases hb.symm.trans hb'
    have hordinary := (hfit.ordinary name b hb).declared
    rw [hfits.declared_eq] at hallows
    refine hfit.set (b := ⟨b.declared, b.declared.narrow (.ofInfo info)⟩) ⟨hordinary, hordinary.narrow _⟩
      ⟨?_, ?_, ?_⟩ ?_ hget
    · exact hfits.declared_eq
    · exact hallows
    · exact hallows.narrow hordinary hdescribes
    intro key
    rw [Scope.get?_update, hb]
    rfl

/-- A branch of an `if`, in its own layer. -/
theorem branch_holds (ih : Keeps c ret n) {flow flow' : Flow} {learned : Facts} {e : Expr}
    {t : TypeInfo} {store : Store} (hs : (Stmt.ofBranch e).Simple c)
    (h : Checker.nested learned (c.expr e ret) flow = .ok (t, flow'))
    (hneg : NegationsMirrored c ⟨.expr e, ret, flow.under learned⟩) (hfit : flow.Fits store)
    (hlearned : learned.Hold store.env) :
    (store.enclosed (c.exec ret n (.ofBranch e) (flow.under learned))).Holds Point.Fits flow'.Fits := by
  obtain ⟨inner, he, rfl⟩ := Checker.nested_ok h
  rw [← Checker.stmt_ofBranch] at he
  apply Store.enclosed_fits hfit (ih.exec hs he hneg.ofBranch (hfit.under hlearned))
  intro s hresult
  have hw := (frames c ret n).exec hs (Stmt.isLet_ofBranch e) he hresult
  obtain ⟨layer, rest, rfl, hrest⟩ := hw.of_push
  exact ⟨layer, rest, rfl, hrest.mono fun _ hname hvisible => hname.noted hvisible List.not_mem_nil⟩

theorem block_succ (ih : Keeps c ret n) {ss : List Stmt} {place : Option Loc} {flow flow' : Flow}
    {t : TypeInfo} {store : Store} (hs : ∀ s ∈ ss, s.Simple c)
    (h : c.stmt (.block ⟨ss, place⟩) ret flow = .ok (t, flow'))
    (hneg : NegationsMirrored c ⟨.stmt (.block ⟨ss, place⟩), ret, flow⟩) (hfit : flow.Fits store) :
    (c.exec ret (n + 1) (.block ⟨ss, place⟩) flow store).Holds Point.Fits flow'.Fits := by
  rw [Checker.stmt] at h
  obtain ⟨inner, hbody, rfl⟩ := Checker.nested_ok h
  have hnegBody := (hneg.step .blockStmt).step .block
  rw [Checker.exec]
  apply Store.enclosed_fits hfit (ih.run hs hbody hnegBody (hfit.under (Facts.hold_empty _)))
  intro s hrun
  obtain ⟨layer, rest, rfl, hrest⟩ :=
    (frames c ret n).run hs hbody (fun _ hlocal => (List.not_mem_nil hlocal).elim) hrun
  exact ⟨layer, rest, rfl, hrest.mono fun _ hname => hname.2⟩

theorem ite_succ (ih : Keeps c ret n) (hstrict : c.strict = true) {cond thenBranch : Expr}
    {elseBranch : Option Expr} {loc : Option Loc} {flow flow' : Flow} {t : TypeInfo} {store : Store}
    (hc : cond.Plain fun _ => False) (ht : (Stmt.ofBranch thenBranch).Simple c)
    (he : ∀ e ∈ elseBranch, (Stmt.ofBranch e).Simple c)
    (h : c.stmt (.ite cond thenBranch elseBranch loc) ret flow = .ok (t, flow'))
    (hneg : NegationsMirrored c ⟨.stmt (.ite cond thenBranch elseBranch loc), ret, flow⟩)
    (hfit : flow.Fits store) :
    (c.exec ret (n + 1) (.ite cond thenBranch elseBranch loc) flow store).Holds Point.Fits
      flow'.Fits := by
  obtain ⟨tested, mid, thenInfo, after, hcond, hthen, helse⟩ := Checker.ite_stmt_ok h
  obtain rfl := hc.flow_eq hcond
  have hneg := hneg.step .ifStmt
  have hsafe := hc.eval_safe hstrict hfit.describes (fun _ h => h.elim) (hneg.step .condition) hcond
  have hafter : ∀ s : Store, mid.Fits s → after.Fits s := by
    obtain ⟨inner, _, rfl⟩ := Checker.nested_ok hthen
    exact fun s hs => hs.loosen _
  rcases helse with ⟨e, elseInfo, rfl, helse⟩ | ⟨rfl, rfl⟩
  · rw [Checker.exec]
    apply (Store.test_holds hsafe).bind
    intro truth _ htruth
    have hlearned := Facts.derive_holds htruth
    cases truth with
    | true =>
      -- Behind the `if` also what the other branch assigns is widened.
      obtain ⟨inner, _, rfl⟩ := Checker.nested_ok helse
      have hbranch := ih.branch_holds ht hthen (hneg.step (.thenBranch hcond)) hfit hlearned
      exact ⟨hbranch.points, hbranch.noCrash, fun s hs => (hbranch.result s hs).loosen _⟩
    | false =>
      dsimp only
      rw [Flow.behind_eq hthen]
      exact ih.branch_holds (he e rfl) helse (hneg.step (.elseBranch hcond hthen))
        (hafter store hfit) hlearned
  · rw [Checker.exec]
    apply (Store.test_holds hsafe).bind
    intro truth _ htruth
    cases truth with
    | true =>
      exact ih.branch_holds ht hthen (hneg.step (.thenBranch hcond)) hfit (Facts.derive_holds htruth)
    | false => exact Run.holds_pure (hafter store hfit)

theorem whileLoop_succ (ih : Keeps c ret n) {cond : Expr} {ss : List Stmt} {place loc : Option Loc}
    {flow flow' : Flow} {t : TypeInfo} {store : Store} (hc : cond.Plain fun _ => False)
    (hs : ∀ s ∈ ss, s.Simple c)
    (h : c.stmt (.whileLoop cond ⟨ss, place⟩ loc) ret flow = .ok (t, flow'))
    (hneg : NegationsMirrored c ⟨.stmt (.whileLoop cond ⟨ss, place⟩ loc), ret, flow⟩)
    (hfit : flow.Fits store) :
    (c.exec ret (n + 1) (.whileLoop cond ⟨ss, place⟩ loc) flow store).Holds Point.Fits flow'.Fits := by
  obtain ⟨tested, start, result, inner, hcond, hbody, rfl⟩ := Checker.whileLoop_stmt_ok h
  obtain rfl := hc.flow_eq hcond
  have hloop : c.AcceptsLoop ret cond ⟨ss, place⟩ (Checker.loopStart ⟨ss, place⟩ flow) :=
    ⟨hc, hs, ⟨tested, hcond⟩, ⟨_, hbody⟩, hneg.step .whileCondition, hneg.step (.whileBody hcond)⟩
  have hrounds := ih.rounds hloop hfit .refl
  rw [Checker.exec]
  apply Store.enclosed_fits hfit hrounds
  intro s hresult
  obtain ⟨layer, rest, rfl, hrest⟩ := (hrounds.result s hresult).of_push
  refine ⟨layer, rest, rfl, hrest.mono fun name hname hvisible => ?_⟩
  rw [Checker.expr] at hbody
  obtain ⟨_, _, rfl⟩ := Checker.nested_ok hbody
  exact (Flow.extends_loosen _ _).assigned name (Checker.assigned_loopStart hname hvisible)

theorem exec_succ (ih : Keeps c ret n) (hstrict : c.strict = true) {s : Stmt} {flow flow' : Flow}
    {t : TypeInfo} {store : Store} (hs : s.Simple c) (h : c.stmt s ret flow = .ok (t, flow'))
    (hneg : NegationsMirrored c ⟨.stmt s, ret, flow⟩) (hfit : flow.Fits store) :
    (c.exec ret (n + 1) s flow store).Holds Point.Fits flow'.Fits := by
  cases hs with
  | letDecl hv htype => exact letDecl_succ hstrict hv htype h hneg hfit
  | assign hv => exact assign_succ hstrict hv h hneg hfit
  | expr he =>
    rw [Checker.stmt] at h
    obtain rfl := he.flow_eq h
    rw [Checker.exec]
    have hsafe := he.eval_safe hstrict hfit.describes (fun _ h => h.elim) (hneg.step .exprStmt) h
    apply (Run.holds_ofHalt hsafe).bind
    intro _ _ _
    exact Run.holds_pure hfit
  | block hs => exact ih.block_succ hs h hneg hfit
  | ite hc ht he => exact ih.ite_succ hstrict hc ht he h hneg hfit
  | whileLoop hc hs => exact ih.whileLoop_succ hc hs h hneg hfit

theorem run_succ (ih : Keeps c ret n) {ss : List Stmt} {flow flow' : Flow} {last t : TypeInfo}
    {store : Store} (hs : ∀ s ∈ ss, s.Simple c) (h : c.stmts ss ret last flow = .ok (t, flow'))
    (hneg : NegationsMirrored c ⟨.stmts last ss, ret, flow⟩) (hfit : flow.Fits store) :
    (c.run ret (n + 1) ss flow store).Holds Point.Fits flow'.Fits := by
  cases ss with
  | nil =>
    rw [Checker.stmts] at h
    cases h
    rw [Checker.run]
    apply (Run.holds_reach hfit).bind
    intro _ _ _
    exact Run.holds_pure hfit
  | cons s ss =>
    obtain ⟨info, mid, hfirst, hrest⟩ := Checker.stmts_cons_ok h
    rw [Checker.run]
    apply (Run.holds_reach hfit).bind
    intro _ _ _
    have hexec := ih.exec (hs s (List.mem_cons_self ..)) hfirst (hneg.step .first) hfit
    apply hexec.bind
    intro store₁ _ hfit₁
    rw [Flow.behind_eq hfirst]
    exact ih.run (fun s hmem => hs s (List.mem_cons_of_mem _ hmem)) hrest (hneg.step (.later hfirst))
      hfit₁

end Keeps

theorem keeps {c : Checker} (hstrict : c.strict = true) (ret : Option TypeInfo) (n : Nat) :
    Keeps c ret n := by
  induction n with
  | zero =>
    constructor
    · intros
      exact Run.holds_stop nofun
    · intros
      exact Run.holds_stop nofun
    · intros
      exact Run.holds_stop nofun
  | succ n ih => exact ⟨ih.run_succ, ih.exec_succ hstrict, ih.rounds_succ hstrict⟩

/-- However long it is, a run of accepted statements does not crash, the flow fits the store at each
point that it comes through, and at its end the store fits what the checker knows there. -/
theorem accepted_run_safe {c : Checker} (hstrict : c.strict = true) {ret : Option TypeInfo}
    {ss : List Stmt} {flow flow' : Flow} {last t : TypeInfo} {store : Store}
    (hs : ∀ s ∈ ss, s.Simple c) (hfit : flow.Fits store)
    (hneg : NegationsMirrored c ⟨.stmts last ss, ret, flow⟩)
    (h : c.stmts ss ret last flow = .ok (t, flow')) (n : Nat) :
    (∀ crash, (c.run ret n ss flow store).result ≠ .error (.crash crash)) ∧
      (∀ p ∈ (c.run ret n ss flow store).points, p.flow.Fits p.store) ∧
      ∀ store', (c.run ret n ss flow store).result = .ok store' → flow'.Fits store' := by
  have hholds := (keeps hstrict ret n).run hs h hneg hfit
  exact ⟨hholds.noCrash, hholds.points, hholds.result⟩

namespace NegationsMirrored

variable {c : Checker} {ret : Option TypeInfo} {flow : Flow} {s : Stmt} {ss : List Stmt}
  {last : TypeInfo} {value cond e : Expr} {loc place : Option Loc}

theorem nil : NegationsMirrored c ⟨.stmts last [], ret, flow⟩ :=
  of_not_negation rfl fun w hw => by cases hw

theorem cons (hs : NegationsMirrored c ⟨.stmt s, ret, flow⟩)
    (hss : ∀ t flow', NegationsMirrored c ⟨.stmts t ss, ret, flow'⟩) :
    NegationsMirrored c ⟨.stmts last (s :: ss), ret, flow⟩ := by
  refine of_not_negation rfl fun w hw => ?_
  cases hw with
  | first => exact hs
  | later => exact hss _ _

theorem letDecl {name : String} {type : Option TypeExpr}
    (h : NegationsMirrored c ⟨.expr value, ret, flow⟩) :
    NegationsMirrored c ⟨.stmt (.letDecl name type value loc), ret, flow⟩ := by
  refine of_not_negation rfl fun w hw => ?_
  cases hw
  exact h

theorem assign {name : String} (h : NegationsMirrored c ⟨.expr value, ret, flow⟩) :
    NegationsMirrored c ⟨.stmt (.assign (.ident name place) value loc), ret, flow⟩ := by
  refine of_not_negation rfl fun w hw => ?_
  cases hw with
  | assigned => exact h
  | place hne => exact absurd rfl (hne name place)

theorem exprStmt (h : NegationsMirrored c ⟨.expr e, ret, flow⟩) :
    NegationsMirrored c ⟨.stmt (.expr e loc), ret, flow⟩ := by
  refine of_not_negation rfl fun w hw => ?_
  cases hw
  exact h

theorem block (h : NegationsMirrored c ⟨.stmts .void ss, ret, flow.under .empty⟩) :
    NegationsMirrored c ⟨.expr (.block ⟨ss, place⟩), ret, flow⟩ := by
  refine of_not_negation rfl fun w hw => ?_
  cases hw
  exact h

theorem ifStmt (hc : NegationsMirrored c ⟨.expr cond, ret, flow⟩)
    (he : ∀ flow', NegationsMirrored c ⟨.expr e, ret, flow'⟩) :
    NegationsMirrored c ⟨.stmt (.ite cond e none loc), ret, flow⟩ := by
  refine of_not_negation rfl fun w hw => ?_
  cases hw
  refine of_not_negation rfl fun w hw => ?_
  cases hw with
  | condition => exact hc
  | thenBranch => exact he _

theorem whileLoop (hc : ∀ flow', NegationsMirrored c ⟨.expr cond, ret, flow'⟩)
    (hb : ∀ flow', NegationsMirrored c ⟨.stmts .void ss, ret, flow'⟩) :
    NegationsMirrored c ⟨.stmt (.whileLoop cond ⟨ss, place⟩ loc), ret, flow⟩ := by
  refine of_not_negation rfl fun w hw => ?_
  cases hw with
  | whileCondition => exact hc _
  | whileBody => exact block (hb _)

end NegationsMirrored

namespace Countdown

/-- Keeps the negation of a number, counts the number down and goes on with the negation:
`let y = -x; while (x > 0) { x = x - 1; } if (y < 0) { let x = y; x + 1; }` -/
def program : List Stmt :=
  [.letDecl "y" none (.unary .neg (.ident "x" none) none) none,
    .whileLoop (.binary .gt (.ident "x" none) (.number 0 none none) none)
      ⟨[.assign (.ident "x" none)
        (.binary .sub (.ident "x" none) (.number 1 none none) none) none], none⟩ none,
    .ite (.binary .lt (.ident "y" none) (.number 0 none none) none)
      (.block ⟨[.letDecl "x" none (.ident "y" none) none,
        .expr (.binary .add (.ident "x" none) (.number 1 none none) none) none], none⟩) none none]

/-- The program `if (x > 0 && x < 10) { let y = -x; y - 2147483645; }` -/
def guarded : List Stmt :=
  [.ite
    (.binary .and (.binary .gt (.ident "x" none) (.number 0 none none) none)
      (.binary .lt (.ident "x" none) (.number 10 none none) none) none)
    (.block ⟨[.letDecl "y" none (.unary .neg (.ident "x" none) none) none,
      .expr (.binary .sub (.ident "y" none) (.number 2147483645 none none) none) none], none⟩)
    none none]

def checker : Checker := .ofDeclarations {} true

def flow (t : TypeInfo) : Flow where
  scope := Scope.empty.declare "x" (.fixed t)

def store (t : TypeInfo) (n : Int) : Store :=
  [OrderedMap.empty.insert "x" ⟨t, .int n⟩]

/-- The program on a number of 32 bits, cut off after some steps. -/
def countFrom (number : Int) (steps : Nat) : Run Store :=
  checker.run none steps program (flow (.named "I32")) (store (.named "I32") number)

theorem flow_fits {t : TypeInfo} {n : Int} (ht : t.Ordinary) (hn : t.Admits n) :
    (flow t).Fits (store t n) := by
  have hempty : Flow.Fits .empty [] :=
    ⟨fun _ _ hb => (by cases hb), fun _ _ hcell => (by cases hcell), Facts.hold_empty _⟩
  have hdeclare : Store.declare [] "x" ⟨t, .int n⟩ = .ok (store t n) := if_pos hn
  have hfits : (Binding.fixed t).Fits ⟨t, .int n⟩ := ⟨rfl, hn, hn⟩
  exact hempty.set ⟨ht, ht⟩ hfits (Scope.get?_declare _ _ · _) (Store.declare_ok hdeclare).2

theorem program_simple : ∀ s ∈ program, s.Simple checker := by
  refine List.forall_mem_cons.mpr ⟨.letDecl (.neg .ident) nofun, List.forall_mem_cons.mpr ⟨?_, ?_⟩⟩
  · refine .whileLoop (.binary .ident (.number nofun)) ?_
    exact List.forall_mem_singleton.mpr (.assign (.binary .ident (.number nofun)))
  · refine List.forall_mem_singleton.mpr (.ite (.binary .ident (.number nofun)) (.block ?_) nofun)
    exact List.forall_mem_cons.mpr ⟨.letDecl .ident nofun,
      List.forall_mem_singleton.mpr (.expr (.binary .ident (.number nofun)))⟩

theorem guarded_simple : ∀ s ∈ guarded, s.Simple checker := by
  refine List.forall_mem_singleton.mpr (.ite ?_ (.block ?_) nofun)
  · exact .binary (.binary .ident (.number nofun)) (.binary .ident (.number nofun))
  · exact List.forall_mem_cons.mpr ⟨.letDecl (.neg .ident) nofun,
      List.forall_mem_singleton.mpr (.expr (.binary .ident (.number nofun)))⟩

theorem program_negations :
    NegationsMirrored checker ⟨.stmts .void program, none, flow (.named "I32")⟩ := by
  refine .cons (.letDecl (.neg .ident ?_)) fun _ _ => .cons ?_ fun _ _ => .cons ?_ fun _ _ => .nil
  · intro t flow' h hu
    rw [Checker.expr] at h
    cases h
    cases hu
  · exact .whileLoop (fun _ => .binary .ident fun _ => .number)
      fun _ => .cons (.assign (.binary .ident fun _ => .number)) fun _ _ => .nil
  · exact .ifStmt (.binary .ident fun _ => .number) fun _ => .block
      (.cons (.letDecl .ident) fun _ _ => .cons (.exprStmt (.binary .ident fun _ => .number))
        fun _ _ => .nil)

end Countdown

theorem accepted_run_safe_countdown :
    (∃ store, (Countdown.countFrom 3 20).result = .ok store) ∧
      ∃ t flow', Countdown.checker.stmts Countdown.program none .void
          (Countdown.flow (.named "I32")) = .ok (t, flow') ∧
        ∀ n, (∀ crash, (Countdown.countFrom 3 n).result ≠ .error (.crash crash)) ∧
          (∀ p ∈ (Countdown.countFrom 3 n).points, p.flow.Fits p.store) ∧
          ∀ store, (Countdown.countFrom 3 n).result = .ok store → flow'.Fits store := by
  refine ⟨⟨_, rfl⟩, _, _, rfl, fun n => ?_⟩
  exact accepted_run_safe (show Countdown.checker.strict = true from rfl) Countdown.program_simple
    (Countdown.flow_fits ⟨by decide, rfl⟩ (by decide)) Countdown.program_negations rfl n

/-- With a number of unknown type the negation keeps the bounds that the guard gives, and the
difference is accepted although it leaves the 32 bits. -/
theorem negated_unknown_run_crashes :
    (∀ s ∈ Countdown.guarded, s.Simple Countdown.checker) ∧
      (Countdown.flow .unknown).Fits (Countdown.store .unknown 5) ∧
      (∃ r, Countdown.checker.stmts Countdown.guarded none .void (Countdown.flow .unknown) = .ok r) ∧
      (Countdown.checker.run none 10 Countdown.guarded (Countdown.flow .unknown)
        (Countdown.store .unknown 5)).result = .error (.crash .overflow) :=
  ⟨Countdown.guarded_simple, Countdown.flow_fits ⟨by decide, rfl⟩ (TypeInfo.admits_bare _ 5),
    ⟨_, rfl⟩, rfl⟩

end TuffSafety
