import TuffSafety.Proofs.Effects
import TuffSafety.Proofs.Slots

/-!
# Facts from guards with effects

Facts are read off a guard as if all of it held at once, but the guard is run from left to right and
may assign a name after testing it. A fact about such a name is stale. All other facts are true of
the store that the guard leaves, in the branches of an `if`, in the right operand of `&&` and `||`
and in the body of a `while`. So is what was known of a name before the guard and still is, unless the
guard writes to the name where the check does not see it.
-/
namespace TuffSafety

/-- Everything that a patch says is true of an integer. A pointer that is null is zero. -/
structure Patch.Holds (p : Patch) (n : Int) : Prop extends p.Admits n where
  null : p.nonNull = true → n ≠ 0

namespace Patch

theorem holds_empty (n : Int) : empty.Holds n :=
  ⟨admits_empty n, fun h => by cases h⟩

theorem Holds.overlay {p q : Patch} {n : Int} (hp : p.Holds n) (hq : q.Holds n) :
    (p.overlay q).Holds n := by
  refine ⟨hp.toAdmits.overlay hq.toAdmits, ?_⟩
  intro h
  rcases Bool.or_eq_true_iff.mp h with h | h
  · exact hp.null h
  · exact hq.null h

theorem holds_notNull {n : Int} (h : n ≠ 0) : notNull.Holds n :=
  ⟨admits_notNull n, fun _ => h⟩

theorem holds_ofComparison? {op : BinaryOp} {n m : Int} {p : Patch}
    (hp : ofComparison? op m = some p) (h : Value.integer op n m = .ok (.bool true)) : p.Holds n := by
  refine ⟨admits_ofComparison? hp h, ?_⟩
  intro hnull
  cases op <;> simp [ofComparison?] at hp
  case ne =>
    obtain ⟨rfl, rfl⟩ := hp
    cases hnull
  all_goals
    subst hp
    cases hnull

end Patch

theorem Expr.intLiteral?_of_isNullLiteral {e : Expr} (h : e.isNullLiteral = true) :
    e.intLiteral? = some 0 := by
  cases e with
  | number value suffix loc =>
    simp only [isNullLiteral, Bool.and_eq_true, decide_eq_true_eq] at h
    rw [h.1]
    rfl
  | _ => cases h

/-- Between integers every operator but `&&` and `||` is defined. -/
theorem Value.integer_ne_undefined {op : BinaryOp} (hop : op.isLogical = false) (n m : Int) :
    integer op n m ≠ .error .undefined := by
  intro h
  cases op with
  | and | or => cases hop
  | add | sub | mul =>
    dsimp only [integer, fit] at h
    split at h <;> cases h
  | div | mod =>
    dsimp only [integer] at h
    split at h <;> cases h
  | eq | ne | lt | le | gt | ge => cases h

namespace Runs

variable {far : Expr → String → Prop} {s s' : Store} {v : Option Value}

theorem ident_eq {name : String} {loc : Option Loc} (h : Runs far (.expr (.ident name loc)) s v s') :
    s' = s ∧ ∀ w, s.env name = some w → v = some w := by
  cases h with
  | ident hv => exact ⟨rfl, fun w hw => hv.symm.trans hw⟩
  | constant hnone => exact ⟨rfl, fun w hw => absurd (hnone.symm.trans hw) (Option.some_ne_none w).symm⟩
  | vague he => cases he

theorem number_eq {value : Int64} {suffix : Option String} {loc : Option Loc}
    (h : Runs far (.expr (.number value suffix loc)) s v s') :
    s' = s ∧ v = some (.int value.toInt) := by
  cases h with
  | number => exact ⟨rfl, rfl⟩
  | vague he => cases he

theorem intLiteral_eq {e : Expr} {m : Int} (he : e.intLiteral? = some m)
    (h : Runs far (.expr e) s v s') : s' = s ∧ v = some (.int m) := by
  unfold Expr.intLiteral? at he
  split at he
  · cases he
    exact h.number_eq
  · split at he
    · cases he
    · cases he
      cases h with
      | neg h =>
        obtain ⟨rfl, hv⟩ := Runs.number_eq h
        cases hv
        exact ⟨rfl, rfl⟩
      | vague he => cases he
  · cases he

/-- An operator other than `&&` and `||` takes its operands from left to right. -/
theorem binary_ok {op : BinaryOp} {l r : Expr} {loc : Option Loc} (hop : op.isLogical = false)
    {w : Value} (h : Runs far (.expr (.binary op l r loc)) s (some w) s') :
    ∃ a s₁ b, Runs far (.expr l) s a s₁ ∧ Runs far (.expr r) s₁ b s' ∧
      ∀ n m, a = some (.int n) → b = some (.int m) → Value.integer op n m = .ok w := by
  cases h with
  | andFalse | andTrue | orTrue | orFalse => cases hop
  | vague he => cases he
  | binary _ hl hr ho =>
    refine ⟨_, _, _, hl, hr, fun n m hn hm => ?_⟩
    cases hn
    cases hm
    exact ho
  | compared _ hl hr ho =>
    exact ⟨_, _, _, hl, hr, fun n m hn hm =>
      absurd (ho _ _ hn hm) (Value.integer_ne_undefined hop n m)⟩

theorem and_true {l r : Expr} {loc : Option Loc}
    (h : Runs far (.expr (.binary .and l r loc)) s (some (.bool true)) s') :
    ∃ s₁, Runs far (.expr l) s (some (.bool true)) s₁ ∧ Runs far (.expr r) s₁ (some (.bool true)) s' := by
  cases h with
  | andTrue hl hr => exact ⟨_, hl, hr⟩
  | binary hop | compared hop => cases hop
  | vague he => cases he

theorem or_false {l r : Expr} {loc : Option Loc}
    (h : Runs far (.expr (.binary .or l r loc)) s (some (.bool false)) s') :
    ∃ s₁, Runs far (.expr l) s (some (.bool false)) s₁ ∧
      Runs far (.expr r) s₁ (some (.bool false)) s' := by
  cases h with
  | orFalse hl hr => exact ⟨_, hl, hr⟩
  | binary hop | compared hop => cases hop
  | vague he => cases he

end Runs

/-- A variable that an expression does not write to keeps its value. -/
theorem Ends.env_eq {far : Expr → String → Prop} {e : Expr} {s s' : Store} {o : Outcome}
    (h : Ends far (.expr e) s o s') {name : String} (hname : ¬ (Node.expr e).MayWrite far name)
    {w : Value} (hw : s'.env name = some w) : s.env name = some w := by
  obtain ⟨cell', hcell', rfl⟩ := Option.map_eq_some_iff.mp hw
  obtain ⟨cell, hcell, _, heq | ⟨hwrites, _⟩⟩ := Store.Alters.get? h.effect hcell'
  · rw [Store.env, hcell, heq]
    rfl
  · exact absurd (hwrites.imp_left fun hnear => hnear.assigned) hname

namespace Facts

/-- What the facts say about one variable is true if it holds an integer. -/
def TrueOf (facts : Facts) (name : String) (env : Env) : Prop :=
  ∀ p n, facts.get? name = some p → env name = some (.int n) → p.Holds n

/-- Everything that a list of patches says about the variable is true. -/
def AllTrueOf (patches : List (String × Patch)) (name : String) (env : Env) : Prop :=
  ∀ p, (name, p) ∈ patches → ∀ n, env name = some (.int n) → p.Holds n

variable {far : Expr → String → Prop} {facts newer : Facts} {name : String} {env : Env}

theorem trueOf_empty : empty.TrueOf name env := by
  intro p n hget
  cases hget

theorem cumulative_holds (name : String) (env : Env) :
    Cumulative fun key p => key = name → ∀ n, env name = some (.int n) → p.Holds n :=
  ⟨fun _ _ n _ => Patch.holds_empty n,
    fun hp hq hkey n hn => (hp hkey n hn).overlay (hq hkey n hn)⟩

theorem TrueOf.addAll (h : facts.TrueOf name env) {patches : List (String × Patch)}
    (hp : AllTrueOf patches name env) : (facts.addAll patches).TrueOf name env := by
  intro p n hget
  refine (cumulative_holds name env).addAll ?_ ?_ name p hget rfl n
  · intro key q hq hkey n
    subst hkey
    exact h q n hq
  · intro e hmem hkey n
    subst hkey
    exact hp e.2 hmem n

theorem TrueOf.merge (h : facts.TrueOf name env) (hn : newer.TrueOf name env) :
    (facts.merge newer).TrueOf name env :=
  h.addAll fun p hmem n => hn p n (OrderedMap.get?_of_mem hmem)

theorem AllTrueOf.append {ps qs : List (String × Patch)} (hp : AllTrueOf ps name env)
    (hq : AllTrueOf qs name env) : AllTrueOf (ps ++ qs) name env := by
  intro p hmem
  rcases List.mem_append.mp hmem with h | h
  · exact hp p h
  · exact hq p h

theorem allTrueOf_nil : AllTrueOf [] name env := by
  intro p hmem
  cases hmem

/-- A comparison that tells something compares a name with a literal, so it has no effects. -/
theorem ofComparison_true {s s₁ s' : Store} {left right : Expr} {op : BinaryOp} {a b : Option Value}
    (hl : Runs far (.expr left) s a s₁) (hr : Runs far (.expr right) s₁ b s')
    (h : ∀ n m, a = some (.int n) → b = some (.int m) → Value.integer op n m = .ok (.bool true)) :
    AllTrueOf (ofComparison left op right) name s'.env := by
  unfold ofComparison
  split
  · rename_i key loc
    obtain ⟨rfl, ha⟩ := hl.ident_eq
    split
    · rename_i patch hp
      obtain ⟨m, hm, hp⟩ := Option.bind_eq_some_iff.mp hp
      obtain ⟨rfl, hb⟩ := hr.intLiteral_eq hm
      have hinteger : ∀ n, s'.env key = some (.int n) → Value.integer op n m = .ok (.bool true) :=
        fun n hn => h n m (ha _ hn) hb
      split
      · rename_i hnull
        intro q hq n hn
        rw [List.mem_cons, List.mem_singleton] at hq
        rcases hq with hq | hq
        · cases hq
          exact Patch.holds_ofComparison? hp (hinteger n hn)
        · cases hq
          apply Patch.holds_notNull
          have hne := hinteger n hn
          cases (Expr.intLiteral?_of_isNullLiteral hnull.2).symm.trans hm
          rw [hnull.1] at hne
          simpa [Value.integer] using hne
      · intro q hq n hn
        rw [List.mem_singleton] at hq
        cases hq
        exact Patch.holds_ofComparison? hp (hinteger n hn)
    · exact allTrueOf_nil
  · rename_i key loc _
    obtain ⟨rfl, hb⟩ := hr.ident_eq
    split
    · rename_i hnull
      intro q hq n hn
      rw [List.mem_singleton] at hq
      cases hq
      obtain ⟨_, ha⟩ := hl.intLiteral_eq (Expr.intLiteral?_of_isNullLiteral hnull.2)
      have hne := h 0 n ha (hb _ hn)
      rw [hnull.1] at hne
      apply Patch.holds_notNull
      rintro rfl
      cases hne
    · exact allTrueOf_nil
  · exact allTrueOf_nil

/-- The patches say something about the name, and an operand that is run later may write to it. -/
def OvertakenBy (far : Expr → String → Prop) (later : Expr) (patches : List (String × Patch))
    (name : String) : Prop :=
  name ∈ patches.map Prod.fst ∧ (Node.expr later).MayWrite far name

/-- The condition says something about the name that it may itself have made untrue. -/
def Stale (far : Expr → String → Prop) (name : String) : Expr → Bool → Prop
  | .binary .and left right _, true =>
    OvertakenBy far right (learned left true) name ∨ Stale far name left true ∨
      Stale far name right true
  | .binary .or left right _, false =>
    OvertakenBy far right (learned left false) name ∨ Stale far name left false ∨
      Stale far name right false
  | _, _ => False

/-- A fact from an earlier operand is still true when the later ones do not write to the name. -/
theorem AllTrueOf.later {patches : List (String × Patch)} {later : Expr} {s s' : Store} {o : Outcome}
    (h : AllTrueOf patches name s.env) (hr : Ends far (.expr later) s o s')
    (hname : ¬ OvertakenBy far later patches name) : AllTrueOf patches name s'.env := by
  intro p hmem n hn
  refine h p hmem n (hr.env_eq (fun hwrites => hname ⟨?_, hwrites⟩) hn)
  exact List.mem_map.mpr ⟨_, hmem, rfl⟩

theorem learned_true (cond : Expr) (truth : Bool) {s s' : Store}
    (h : Runs far (.expr cond) s (some (.bool truth)) s') (hname : ¬ Stale far name cond truth) :
    AllTrueOf (learned cond truth) name s'.env := by
  fun_induction learned cond truth generalizing s s' with
  | case1 left right loc ihl ihr =>
    rw [Stale, not_or, not_or] at hname
    obtain ⟨hovertaken, hleft, hright⟩ := hname
    obtain ⟨s₁, hl, hr⟩ := h.and_true
    exact ((ihl hl hleft).later hr hovertaken).append (ihr hr hright)
  | case2 => exact allTrueOf_nil
  | case3 => exact allTrueOf_nil
  | case4 left right loc truth ht ihl ihr =>
    rw [Bool.not_eq_true] at ht
    subst ht
    rw [Stale, not_or, not_or] at hname
    obtain ⟨hovertaken, hleft, hright⟩ := hname
    obtain ⟨s₁, hl, hr⟩ := h.or_false
    exact ((ihl hl hleft).later hr hovertaken).append (ihr hr hright)
  | case5 op left right loc hand hor =>
    obtain ⟨a, s₁, b, hl, hr, ho⟩ := h.binary_ok (BinaryOp.isLogical_eq_false hand hor)
    exact ofComparison_true hl hr ho
  | case6 op left right loc hand hor op' hop =>
    obtain ⟨a, s₁, b, hl, hr, ho⟩ := h.binary_ok (BinaryOp.isLogical_eq_false hand hor)
    exact ofComparison_true hl hr fun n m hn hm =>
      integer_negated hop (ho n m hn hm)
  | case7 => exact allTrueOf_nil
  | case8 => exact allTrueOf_nil

theorem derive_true {cond : Expr} {truth : Bool} {s s' : Store}
    (h : Runs far (.expr cond) s (some (.bool truth)) s') (hname : ¬ Stale far name cond truth) :
    (derive cond truth).TrueOf name s'.env :=
  trueOf_empty.addAll (learned_true cond truth h hname)

end Facts

/-- What is known about a name where an expression starts is true where it ends, as far as it is
still known there and the name is not written out of sight. -/
theorem Ends.inherited_true {far : Expr → String → Prop} {e : Expr} {s s' : Store} {o : Outcome}
    (h : Ends far (.expr e) s o s') {c : Checker} {ret : Option TypeInfo} {flow flow' : Flow}
    {t : TypeInfo} (hc : c.expr e ret flow = .ok (t, flow')) {name : String}
    (hvisible : (flow.scope.get? name).isSome) (hfar : ¬ (Node.expr e).WritesFar far name)
    (hhides : ¬ (Node.expr e).Hides name) (hbefore : flow.facts.TrueOf name s.env) :
    flow'.facts.TrueOf name s'.env := by
  intro p n hget hn
  obtain ⟨cell', hcell', hvalue⟩ := Option.map_eq_some_iff.mp hn
  obtain ⟨cell, hcell, _, heq | ⟨hwrites, _⟩⟩ := Store.Alters.get? h.effect hcell'
  · rcases (c.expr_moves e ret hc).fact name with hfact | ⟨_, hnone⟩
    · refine hbefore p n (hfact.symm.trans hget) ?_
      rw [Store.env, hcell, ← heq, ← hvalue]
      rfl
    · rw [hnone] at hget
      cases hget
  · have hnear := hwrites.resolve_right hfar
    rw [(hnear.touched hc hvisible).1.resolve_left hhides] at hget
    cases hget

/-- A call of the checker that looks at a guard from a flow and then, for an outcome of the guard, at
the code that the guard protects. -/
inductive Guards (c : Checker) : Visit → Expr → Bool → Flow → Visit → Prop where
  | andRight {l r loc ret flow t mid} (h : c.expr l ret flow = .ok (t, mid)) :
      Guards c ⟨.expr (.binary .and l r loc), ret, flow⟩ l true flow
        ⟨.expr r, ret, mid.learn (Facts.derive l true)⟩
  | orRight {l r loc ret flow t mid} (h : c.expr l ret flow = .ok (t, mid)) :
      Guards c ⟨.expr (.binary .or l r loc), ret, flow⟩ l false flow
        ⟨.expr r, ret, mid.learn (Facts.derive l false)⟩
  | thenBranch {cond t e loc ret flow tested mid} (h : c.expr cond ret flow = .ok (tested, mid)) :
      Guards c ⟨.expr (.ite cond t e loc), ret, flow⟩ cond true flow
        ⟨.expr t, ret, mid.under (Facts.derive cond true)⟩
  | elseBranch {cond t e loc ret flow tested mid thenInfo after}
      (h : c.expr cond ret flow = .ok (tested, mid))
      (ht : Checker.nested (Facts.derive cond true) (c.expr t ret) mid = .ok (thenInfo, after)) :
      Guards c ⟨.expr (.ite cond t (some e) loc), ret, flow⟩ cond false flow
        ⟨.expr e, ret, after.under (Facts.derive cond false)⟩
  | whileBody {cond body loc ret flow tested start}
      (h : c.expr cond ret (Checker.loopStart body flow) = .ok (tested, start)) :
      Guards c ⟨.stmt (.whileLoop cond body loc), ret, flow⟩ cond true (Checker.loopStart body flow)
        ⟨.expr (.block body), ret, start.learn (Facts.derive cond true)⟩

namespace Guards

variable {c : Checker} {v w : Visit} {cond : Expr} {truth : Bool} {entry : Flow}

theorem leads (h : Guards c v cond truth entry w) : Leads c v w := by
  cases h with
  | andRight h | orRight h => exact .guarded rfl h
  | thenBranch h => exact .thenBranch h
  | elseBranch h ht => exact .elseBranch h ht
  | whileBody h => exact .whileBody h

/-- The protected code starts with what is left of the earlier facts, under those of the guard. -/
theorem facts_eq (h : Guards c v cond truth entry w) :
    ∃ ret t mid, ∃ base : Facts, c.expr cond ret entry = .ok (t, mid) ∧
      (∀ name, base.get? name = mid.facts.get? name ∨ base.get? name = none) ∧
      w.flow.facts = base.merge (Facts.derive cond truth) := by
  cases h with
  | andRight h | orRight h | thenBranch h | whileBody h =>
    exact ⟨_, _, _, _, h, fun _ => .inl rfl, rfl⟩
  | @elseBranch cond t e loc ret flow tested mid thenInfo after h ht =>
    refine ⟨_, _, _, after.facts, h, fun name => ?_, rfl⟩
    exact ((Checker.nested_moves _ (c.expr_moves t ret).notes ht).fact name).imp_right And.right

end Guards

/-- When a guard has run, whatever it has assigned, its facts are true of every name that was not
written to after the guard told something about it. If what was known before was true, so is
everything that the protected code starts with, unless a function called in the guard writes to the
name or a right operand of `&&` or `||` assigns it only out of sight. -/
theorem guard_facts_hold {c : Checker} {v w : Visit} {cond : Expr} {truth : Bool} {entry : Flow}
    {far : Expr → String → Prop} {s s' : Store} {name : String}
    (hguard : Guards c v cond truth entry w) (hrun : Runs far (.expr cond) s (some (.bool truth)) s')
    (hname : ¬ Facts.Stale far name cond truth) :
    Leads c v w ∧ (Facts.derive cond truth).TrueOf name s'.env ∧
      ((entry.scope.get? name).isSome → entry.facts.TrueOf name s.env →
        ¬ (Node.expr cond).WritesFar far name → ¬ (Node.expr cond).Hides name →
        w.flow.facts.TrueOf name s'.env) := by
  have hderived := Facts.derive_true hrun hname
  refine ⟨hguard.leads, hderived, ?_⟩
  intro hvisible hbefore hfar hhides
  obtain ⟨ret, t, mid, base, hc, hbase, hfacts⟩ := hguard.facts_eq
  rw [hfacts]
  refine Facts.TrueOf.merge ?_ hderived
  intro p n hget hn
  rcases hbase name with hmid | hnone
  · exact hrun.inherited_true hc hvisible hfar hhides hbefore p n (hmid.symm.trans hget) hn
  · rw [hnone] at hget
    cases hget

namespace Overtaken

open Annotated (int number)

/-- The condition `x != 0` -/
def nonzero : Expr := .binary .ne (.ident "x" none) (number 0) none

/-- The guard `first && { … }` -/
def guardOf (first : Expr) (block : Block) : Expr := .binary .and first (.block block) none

/-- The block `{ name = value; true }` -/
def setting (name : String) (value : Expr) : Block :=
  ⟨[.assign (.ident name none) value none, .expr (.bool true none) none], none⟩

/-- The block `{ for (i in { x = 0; 0 }..1) { } true }` -/
def ranging : Block :=
  ⟨[.forLoop "i" (.block ⟨[.assign (.ident "x" none) (number 0) none, .expr (number 0) none], none⟩)
      (number 1) ⟨[], none⟩ none,
    .expr (.bool true none) none], none⟩

def quotient : Expr := .binary .div (number 100) (.ident "x" none) none

/-- The expression `if (guard) 100 / x else 0` -/
def guarded (guard : Expr) : Expr := .ite guard quotient (some (number 0)) none

/-- The function `fn f(x: I32, y: I32): I32 => { body }` -/
def program (body : Expr) : Program :=
  .ofFunction [⟨"x", some int⟩, ⟨"y", some int⟩] int [.expr body none]

def store (x y : Int) : Store :=
  [(OrderedMap.empty.insert "x" ⟨.unknown, .int x⟩).insert "y" ⟨.unknown, .int y⟩]

theorem setting_assigns {name key : String} {value : Expr}
    (h : (Node.expr (.block (setting name value))).Assigns key) :
    key = name ∨ (Node.expr value).Assigns key := by
  refine Classical.byContradiction fun hneither => ?_
  obtain ⟨hkey, hvalue⟩ := not_or.mp hneither
  refine Node.not_assigns_of_parts (fun part hpart => ?_) h
  cases hpart with
  | block hs =>
    simp only [List.mem_cons, List.not_mem_nil, or_false] at hs
    rcases hs with rfl | rfl
    · refine Node.stmt_not_assigns_of_parts (fun _ _ _ heq => ?_) fun part hpart => ?_
      · cases heq
        exact hkey rfl
      · cases hpart with
        | assigned => exact hvalue
        | place => exact Node.ident_not_assigns
    · refine Node.stmt_not_assigns_of_parts (fun _ _ _ heq => ?_) fun part hpart => ?_
      · cases heq
      · cases hpart with
        | exprStmt => exact Node.not_assigns_of_parts fun _ hpart => by cases hpart

/-- The program is accepted. With `x = 1` its guard holds and leaves `x = 0`, which makes untrue what
is known about `x` in front of the division that it protects. -/
def Defeats (cond : Expr) (p : Program) : Prop :=
  p.check true = .ok () ∧
    ∃ v w entry, Reaches (p.checker true) (p.visit true) v ∧
      Guards (p.checker true) v cond true entry w ∧ w.part = .expr quotient ∧
      Runs quietCalls (.expr cond) (store 1 0) (some (.bool true)) (store 0 0) ∧
      entry.facts.TrueOf "x" (store 1 0).env ∧ ¬ w.flow.facts.TrueOf "x" (store 0 0).env

theorem runs_ranging :
    Runs quietCalls (.expr (.block ranging)) (store 1 0) (some (.bool true)) (store 0 0) :=
  .block (.cons
    (.forLoop (.block (.cons (.assign .number rfl rfl) (.cons (.exprStmt .number) .nil))) .number
      (.roundsNext (by decide) (.block .nil) rfl (.roundsDone (by decide))))
    (.cons (.exprStmt .bool) .nil))

end Overtaken

open Overtaken in
/-- The guard `x != 0 && { y = x; true }` -/
theorem guard_facts_hold_copied :
    let cond := guardOf nonzero (setting "y" (.ident "x" none))
    let c := (program (guarded cond)).checker true
    ∃ v w entry, Guards c v cond true entry w ∧
      Runs quietCalls (.expr cond) (store 1 0) (some (.bool true)) (store 1 1) ∧
      ¬ Facts.Stale quietCalls "x" cond true ∧ Leads c v w ∧
      w.flow.facts.get? "x" = some .notZero ∧ w.flow.facts.TrueOf "x" (store 1 1).env := by
  intro cond c
  have hrun : Runs quietCalls (.expr cond) (store 1 0) (some (.bool true)) (store 1 1) :=
    .andTrue (.binary rfl (.ident rfl) .number rfl)
      (.block (.cons (.assign (.ident rfl) rfl rfl) (.cons (.exprStmt .bool) .nil)))
  have hguard : Guards c ⟨.expr (guarded cond), some (.named "I32"),
      (c.fnStart [⟨"x", some Annotated.int⟩, ⟨"y", some Annotated.int⟩]).under .empty⟩
      cond true _ _ := .thenBranch rfl
  have hright : ¬ (Node.expr (.block (setting "y" (.ident "x" none)))).Assigns "x" := by
    intro h
    rcases setting_assigns h with hname | hvalue
    · exact absurd hname (by decide)
    · exact Node.ident_not_assigns hvalue
  have hcond : ¬ (Node.expr cond).Assigns "x" := by
    unfold cond guardOf nonzero
    refine Node.not_assigns_of_parts fun part hpart => ?_
    cases hpart with
    | left =>
      refine Node.not_assigns_of_parts fun part hpart => ?_
      cases hpart with
      | left => exact Node.ident_not_assigns
      | right => exact Node.number_not_assigns
    | right => exact hright
  have hname : ¬ Facts.Stale quietCalls "x" cond true := by
    rintro (⟨_, hassigns | hfar⟩ | hleft | hright)
    · exact hright hassigns
    · exact Node.not_writesFar_quietCalls hfar
    · exact hleft
    · exact hright
  obtain ⟨hleads, _, hfacts⟩ := guard_facts_hold hguard hrun hname
  exact ⟨_, _, _, hguard, hrun, hname, hleads, rfl, hfacts rfl Facts.trueOf_empty
    Node.not_writesFar_quietCalls fun hhides => hcond hhides.assigns⟩

open Overtaken in
/-- A guard that sets `x` to zero after testing it makes its own fact untrue, also if it does so in a
bound of a range; there it keeps an earlier fact about `x` alive as well. -/
theorem guard_fact_overtaken :
    let plain := guardOf nonzero (setting "x" (Annotated.number 0))
    let hidden := guardOf nonzero ranging
    let inherited := guardOf (.bool true none) ranging
    Defeats plain (program (guarded plain)) ∧
      ¬ (Facts.derive plain true).TrueOf "x" (store 0 0).env ∧
      Defeats hidden (program (guarded hidden)) ∧
      ¬ (Facts.derive hidden true).TrueOf "x" (store 0 0).env ∧
      Defeats inherited (program (.ite nonzero (guarded inherited) (some (Annotated.number 0)) none)) ∧
      quotient.eval (store 0 0).env = .error (.crash .zeroDivisor) := by
  intro plain hidden inherited
  have hreach : ∀ body : Expr, Reaches ((program body).checker true) ((program body).visit true) _ :=
    fun body => ((Program.ofFunction_reaches _ _ [.expr body none]).tail .first).tail .exprStmt
  have hfalse : ∀ facts : Facts, facts.get? "x" = some .notZero →
      ¬ facts.TrueOf "x" (store 0 0).env :=
    fun facts hget h => (h _ 0 hget rfl).zero rfl rfl
  have hnonzero : Runs quietCalls (.expr nonzero) (store 1 0) (some (.bool true)) (store 1 0) :=
    .binary rfl (.ident rfl) .number rfl
  refine ⟨⟨rfl, _, _, _, hreach _, .thenBranch rfl, rfl, ?_, Facts.trueOf_empty, ?_⟩,
    ?_, ⟨rfl, _, _, _, hreach _, .thenBranch rfl, rfl, .andTrue hnonzero runs_ranging,
      Facts.trueOf_empty, ?_⟩, ?_,
    ⟨rfl, _, _, _, (hreach _).tail (.thenBranch rfl), .thenBranch rfl, rfl,
      .andTrue .bool runs_ranging, ?_, ?_⟩, rfl⟩
  · exact .andTrue hnonzero
      (.block (.cons (.assign .number rfl rfl) (.cons (.exprStmt .bool) .nil)))
  · exact hfalse _ rfl
  · exact hfalse _ rfl
  · exact hfalse _ rfl
  · exact hfalse _ rfl
  · intro p n hget hn
    cases hget
    cases hn
    exact ⟨by decide, by decide⟩
  · exact hfalse _ rfl

end TuffSafety
