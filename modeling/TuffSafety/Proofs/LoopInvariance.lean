import TuffSafety.Proofs.AssignedNames
import TuffSafety.Proofs.FlowSafety
import TuffSafety.Proofs.GuardFacts

/-!
# What holds in every round of a loop

The condition and the body of a loop run again and again, but are checked once. The check starts from
a flow that knows nothing more than the declared type of the names that are collected in the body. If
the same is true of all other names that the loop assigns, then that flow admits the store in every
round. The other names are those assigned in the condition and out of sight in the body; about them
the check goes on believing what was known before the loop.
-/
namespace TuffSafety

namespace Flow

/-- Nothing more than the declared type is known about a name. -/
structure Unrefined (flow : Flow) (name : String) : Prop where
  binding : ∀ b, flow.scope.get? name = some b → b.current = b.declared
  fact : flow.facts.get? name = none

/-- What is known about each variable is true. -/
structure Admits (flow : Flow) (store : Store) : Prop where
  binding : ∀ name b cell, flow.scope.get? name = some b → store.get? name = some cell → b.Fits cell
  fact : ∀ name, flow.facts.TrueOf name store.env

namespace Admits

variable {flow : Flow} {s s' : Store}

/-- A name of which only the declared type is known may be given any value of that type. -/
theorem alters (h : flow.Admits s) {far near : String → Prop} (hs : Store.Alters far near s s')
    (hname : ∀ name, near name ∨ far name → flow.Unrefined name) : flow.Admits s' := by
  constructor
  · intro name b cell' hb hcell'
    obtain ⟨cell, hcell, hdeclared, rfl | ⟨hwritten, hallows⟩⟩ := hs.get? hcell'
    · exact h.binding name b cell' hb hcell
    · have hfits := h.binding name b cell hb hcell
      rw [hfits.declared_eq] at hallows
      refine ⟨hdeclared.trans hfits.declared_eq, hallows, ?_⟩
      rwa [(hname name hwritten).binding b hb]
  · intro name p n hget hn
    obtain ⟨cell', hcell', hvalue⟩ := Option.map_eq_some_iff.mp hn
    obtain ⟨cell, hcell, _, rfl | ⟨hwritten, _⟩⟩ := hs.get? hcell'
    · refine h.fact name p n hget ?_
      rw [Store.env, hcell, Option.map_some, hvalue]
    · rw [(hname name hwritten).fact] at hget
      cases hget

theorem writes (h : flow.Admits s) {P : String → Prop} (hw : Store.Writes P s s')
    (hP : ∀ name, P name → flow.Unrefined name) : flow.Admits s' :=
  h.alters (Store.Alters.of_writes [] hw) fun name hname => hP name (hname.elim id id)

end Admits

end Flow

namespace Checker

variable {body : Block} {flow : Flow} {name : String}

theorem get?_loopStart (body : Block) (flow : Flow) (name : String) :
    (loopStart body flow).scope.get? name =
      if name ∈ body.assigned then (flow.scope.get? name).map fun b => .fixed b.declared
      else flow.scope.get? name :=
  Scope.get?_widenAll flow.child.scope body.assigned name

theorem facts_loopStart (body : Block) (flow : Flow) (name : String) :
    (loopStart body flow).facts.get? name =
      if name ∈ body.assigned then none else flow.facts.get? name :=
  Facts.get?_forgetAll flow.facts body.assigned name

/-- A loop starts from what was known before, less what is collected in its body. -/
theorem unrefined_loopStart_iff :
    (loopStart body flow).Unrefined name ↔ name ∈ body.assigned ∨ flow.Unrefined name := by
  by_cases hname : name ∈ body.assigned
  · refine ⟨fun _ => .inl hname, fun _ => ⟨?_, ?_⟩⟩
    · intro b hb
      rw [get?_loopStart, if_pos hname] at hb
      obtain ⟨b', _, rfl⟩ := Option.map_eq_some_iff.mp hb
      rfl
    · rw [facts_loopStart, if_pos hname]
  · have hscope := get?_loopStart body flow name
    have hfacts := facts_loopStart body flow name
    rw [if_neg hname] at hscope hfacts
    constructor
    · rintro ⟨hbinding, hfact⟩
      rw [hscope] at hbinding
      rw [hfacts] at hfact
      exact .inr ⟨hbinding, hfact⟩
    · rintro (hmem | ⟨hbinding, hfact⟩)
      · exact absurd hmem hname
      · rw [← hscope] at hbinding
        rw [← hfacts] at hfact
        exact ⟨hbinding, hfact⟩

/-- Nothing is known about a name that the body assigns, if that is so of the names assigned out of
sight. -/
theorem loopStart_unrefined
    (hunseen : (Node.expr (.block body)).AssignsUnseen name →
      name ∈ body.assigned ∨ flow.Unrefined name)
    (h : (Node.expr (.block body)).Assigns name) : (loopStart body flow).Unrefined name := by
  apply unrefined_loopStart_iff.mpr
  rcases Node.assigns_iff.mp h with hsight | hout
  · exact .inl (Block.mem_assigned_iff.mpr hsight)
  · exact hunseen hout

theorem loopStart_admits {s : Store} (h : flow.Admits s) : (loopStart body flow).Admits s := by
  constructor
  · intro name b cell hb hcell
    rw [get?_loopStart] at hb
    split at hb
    · obtain ⟨b', hb', rfl⟩ := Option.map_eq_some_iff.mp hb
      have hfits := h.binding name b' cell hb' hcell
      exact ⟨hfits.declared_eq, hfits.declared, hfits.declared⟩
    · exact h.binding name b cell hb hcell
  · intro name p n hget
    rw [facts_loopStart] at hget
    split at hget
    · cases hget
    · exact h.fact name p n hget

end Checker

theorem Node.whileLoop_assigns {cond : Expr} {body : Block} {loc : Option Loc} {name : String}
    (h : (Node.stmt (.whileLoop cond body loc)).Assigns name) :
    (Node.expr cond).Assigns name ∨ (Node.expr (.block body)).Assigns name := by
  obtain ⟨place, value, loc', hin⟩ := h
  rcases hin.cases_head with heq | ⟨part, hpart, hin⟩
  · cases heq
  · cases hpart with
    | whileCondition => exact .inl ⟨place, value, loc', hin⟩
    | whileBody => exact .inr ⟨place, value, loc', hin⟩

/-- The store with which the condition of a loop is evaluated, after a number of rounds. -/
inductive Evaluated (cond : Expr) (body : Block) (s : Store) : Nat → Store → Prop where
  | first : Evaluated cond body s 0 s
  | next {n s₁ s₂ o s₃} (h : Evaluated cond body s n s₁)
      (hc : Runs quietCalls (.expr cond) s₁ (some (.bool true)) s₂)
      (hb : Ends quietCalls (.expr (.block body)) s₂ o s₃) (ho : o.endsLoop? = none) :
      Evaluated cond body s (n + 1) s₃

/-- Where no function that is called writes to a variable, a node writes to what it assigns. -/
theorem Node.Effect.writes {node : Node} {s s' : Store} (h : node.Effect quietCalls s s') :
    Store.Writes node.Assigns s s' :=
  (Store.Alters.writes h fun _ => not_writesFar_quietCalls).mono fun _ hname => hname.assigned

/-- Rounds write to what the loop assigns. -/
theorem Evaluated.writes {cond : Expr} {body : Block} {loc : Option Loc} {n : Nat} {s s' : Store}
    (h : Evaluated cond body s n s') :
    Store.Writes (Node.stmt (.whileLoop cond body loc)).Assigns s s' := by
  induction h with
  | first => exact .refl
  | next _ hc hb _ ih =>
    have hcond := Node.Effect.writes hc.effect
    have hbody := Node.Effect.writes hb.effect
    refine (ih.trans (hcond.mono ?_)).trans (hbody.mono ?_)
    · exact fun _ hname => hname.of_has .whileCondition
    · exact fun _ hname => hname.of_has .whileBody

/-- Suppose that the names assigned in the condition, or out of sight in the body, are collected in the
body as well or were unrefined before the loop. Then the condition is checked from a flow in which all
names that the loop assigns are unrefined, and the flow admits every later store: after any admissible
writes to these names, so also at the start of any round. -/
theorem loop_state_invariant {cond : Expr} {body : Block} {flow : Flow}
    (hcarried : ∀ name,
      (Node.expr cond).Assigns name ∨ (Node.expr (.block body)).AssignsUnseen name →
        name ∈ body.assigned ∨ flow.Unrefined name)
    (c : Checker) (loc : Option Loc) (ret : Option TypeInfo) :
    let loop := Stmt.whileLoop cond body loc
    let start := Checker.loopStart body flow
    Leads c ⟨.stmt loop, ret, flow⟩ ⟨.expr cond, ret, start⟩ ∧
      (∀ name, (Node.stmt loop).Assigns name → start.Unrefined name) ∧
      ∀ s, flow.Admits s →
        (∀ s', Store.Writes (Node.stmt loop).Assigns s s' → start.Admits s') ∧
          ∀ n s', Evaluated cond body s n s' → start.Admits s' := by
  intro loop start
  have hunrefined : ∀ name, (Node.stmt loop).Assigns name → start.Unrefined name := by
    intro name hname
    rcases Node.whileLoop_assigns hname with hcond | hbody
    · exact Checker.unrefined_loopStart_iff.mpr (hcarried name (.inl hcond))
    · exact Checker.loopStart_unrefined (fun hunseen => hcarried name (.inr hunseen)) hbody
  refine ⟨.whileCondition, hunrefined, fun s hs => ?_⟩
  have hwrites : ∀ s', Store.Writes (Node.stmt loop).Assigns s s' → start.Admits s' :=
    fun s' hw => (Checker.loopStart_admits hs).writes hw hunrefined
  exact ⟨hwrites, fun n s' hround => hwrites s' hround.writes⟩

namespace Carried

open Annotated (int number)

def setD (value : Int64) : Stmt := .assign (.ident "d" none) (number value) none

def yes : Stmt := .expr (.bool true none) none

def quotient : Expr := .binary .div (number 10) (.ident "d" none) none

/-- The block `{ d = value; true }` -/
def setting (value : Int64) : Block := ⟨[setD value, yes], none⟩

/-- The block `{ 10 / d; d = 0; true }` -/
def dividing : Block := ⟨[.expr quotient none, setD 0, yes], none⟩

/-- The block `{ 10 / d; for (i in { d = 0; 0 }..1) { } }` -/
def ranging : Block :=
  ⟨[.expr quotient none,
    .forLoop "i" (.block ⟨[setD 0, .expr (number 0) none], none⟩) (number 1) ⟨[], none⟩ none], none⟩

/-- The function `fn f(): I32 => { let d = 1; while (cond) body 0 }` -/
def program (cond : Expr) (body : Block) : Program :=
  .ofFunction [] int
    [.letDecl "d" none (number 1) none, .whileLoop cond body none, .expr (number 0) none]

def store (d : Int) : Store :=
  [OrderedMap.empty.insert "d" ⟨.named "I32", .int d⟩]

/-- What is known behind `let d = 1;` in a scope, under a guard `d > 0`. -/
def flow : Flow where
  scope := Scope.empty.declare "d" ⟨.named "I32", .literal "I32" 1⟩
  facts := Facts.empty.add "d" (.atLeast 1)

theorem get?_store {d : Int} {name : String} {cell : Cell} (h : (store d).get? name = some cell) :
    name = "d" ∧ cell = ⟨.named "I32", .int d⟩ := by
  rw [store, Store.get?_cons, OrderedMap.get?_insert] at h
  split at h
  · cases h
    exact ⟨‹_›, rfl⟩
  · cases h

theorem assigns_of_mem {value : Int64} {ss : List Stmt} {loc : Option Loc} (h : setD value ∈ ss) :
    (Node.expr (.block ⟨ss, loc⟩)).Assigns "d" :=
  ⟨_, _, _, .single (.block h)⟩

theorem setting_assigns {value : Int64} {name : String}
    (h : (Node.expr (.block (setting value))).Assigns name) : name = "d" :=
  (Overtaken.setting_assigns h).resolve_right Node.number_not_assigns

theorem admits {scope : Scope} {facts : Facts} {d : Int} {b : Binding}
    (hb : scope.get? "d" = some b) (hfits : b.Fits ⟨.named "I32", .int d⟩)
    (hfacts : facts.TrueOf "d" (store d).env) : Flow.Admits ⟨scope, facts⟩ (store d) := by
  constructor
  · intro name b' cell hb' hcell
    obtain ⟨rfl, rfl⟩ := get?_store hcell
    cases hb.symm.trans hb'
    exact hfits
  · intro name p n hget hn
    obtain ⟨cell, hcell, _⟩ := Option.map_eq_some_iff.mp hn
    obtain ⟨rfl, _⟩ := get?_store hcell
    exact hfacts p n hget hn

end Carried

open Carried in
/-- The loop `while ({ d = 0; true }) { d = 5; true; }` -/
theorem loop_state_invariant_reset :
    let cond := Expr.block (setting 0)
    let body := setting 5
    let start := Checker.loopStart body flow
    (∀ name, (Node.expr cond).Assigns name ∨ (Node.expr (.block body)).AssignsUnseen name →
        name ∈ body.assigned ∨ flow.Unrefined name) ∧
      flow.Admits (store 1) ∧ ¬ flow.Admits (store 0) ∧ start.Unrefined "d" ∧
      Evaluated cond body (store 1) 1 (store 5) ∧ start.Admits (store 5) ∧ start.Admits (store 0) := by
  intro cond body start
  have hcarried : ∀ name,
      (Node.expr cond).Assigns name ∨ (Node.expr (.block body)).AssignsUnseen name →
        name ∈ body.assigned ∨ flow.Unrefined name := by
    intro name h
    have hname : name = "d" := by
      rcases h with hcond | hbody
      · exact setting_assigns hcond
      · exact setting_assigns (Node.assigns_iff.mpr (.inr hbody))
    subst hname
    exact .inl (by decide)
  have hbefore : flow.Admits (store 1) := by
    refine admits rfl ⟨rfl, by decide, by decide⟩ fun p n hget hn => ?_
    cases hget
    cases hn
    exact ⟨by decide, by simp [Patch.atLeast, Patch.overlay, Patch.empty]⟩
  have hround : Evaluated cond body (store 1) 1 (store 5) :=
    .next .first
      (.block (.cons (.assign .number rfl rfl) (.cons (.exprStmt .bool) .nil)))
      (.block (.cons (.assign .number rfl rfl) (.cons (.exprStmt .bool) .nil))) rfl
  obtain ⟨_, hunrefined, hadmits⟩ := loop_state_invariant hcarried (.ofDeclarations {} true) none none
  obtain ⟨hwrites, hrounds⟩ := hadmits (store 1) hbefore
  have hassigns : (Node.stmt (.whileLoop cond body none)).Assigns "d" :=
    (assigns_of_mem (List.mem_cons_self ..)).of_has .whileCondition
  refine ⟨hcarried, hbefore, fun h => ?_, hunrefined "d" hassigns, hround, hrounds 1 _ hround, ?_⟩
  · exact (h.binding "d" _ _ rfl rfl).current.zero rfl rfl
  · exact hwrites _ (.single ⟨"d", .int 0, hassigns, rfl⟩)

open Carried in
/-- The condition `{ 10 / d; d = 0; true }` is believed to start with `d = 1` in every round, and divides
by zero in the second one. So is a body that assigns `d` in a bound of a range. -/
theorem loop_carried_name_kept :
    let cond := Expr.block dividing
    let body : Block := ⟨[], none⟩
    (program cond body).check true = .ok () ∧
      (program (.bool true none) ranging).check true = .ok () ∧
      ∃ ret flow, Reaches ((program cond body).checker true) ((program cond body).visit true)
          ⟨.stmt (.whileLoop cond body none), ret, flow⟩ ∧
        flow.Admits (store 1) ∧
        (Node.stmt (.whileLoop cond body none)).Assigns "d" ∧
        ¬ (Checker.loopStart body flow).Unrefined "d" ∧
        Evaluated cond body (store 1) 1 (store 0) ∧
        ¬ (Checker.loopStart body flow).Admits (store 0) ∧
        quotient.eval (store 0).env = .error (.crash .zeroDivisor) ∧
        (Node.stmt (.whileLoop (.bool true none) ranging none)).Assigns "d" ∧
        ¬ (Checker.loopStart ranging flow).Unrefined "d" := by
  intro cond body
  have hlet : Reaches ((program cond body).checker true) ((program cond body).visit true) _ :=
    Program.ofFunction_reaches _ _ _
  have hloop := (hlet.tail (.later (c := (program cond body).checker true) rfl)).tail .first
  have hset : setD 0 ∈ dividing.statements := List.mem_cons_of_mem _ (List.mem_cons_self ..)
  refine ⟨rfl, rfl, _, _, hloop, ?_, (assigns_of_mem hset).of_has .whileCondition, ?_, ?_, ?_, rfl,
    ?_, ?_⟩
  · exact admits rfl ⟨rfl, by decide, by decide⟩ Facts.trueOf_empty
  · intro h
    have hcurrent := h.binding _ rfl
    cases hcurrent
  · exact .next .first
      (.block (.cons (.exprStmt (.binary rfl .number (.ident rfl) rfl))
        (.cons (.assign .number rfl rfl) (.cons (.exprStmt .bool) .nil))))
      (.block .nil) rfl
  · exact fun h => (h.binding "d" _ _ rfl rfl).current.zero rfl rfl
  · have hrange : (Node.expr (.block ranging)).Assigns "d" :=
      ((assigns_of_mem (List.mem_cons_self ..)).of_has .rangeFirst).of_has
        (.block (List.mem_cons_of_mem _ (List.mem_cons_self ..)))
    exact hrange.of_has .whileBody
  · intro h
    have hcurrent := h.binding _ rfl
    cases hcurrent

end TuffSafety
