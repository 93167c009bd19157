import TuffSafety.Proofs.Frame

/-!
# Globals across calls

What is known about a global is tracked inside one function at a time. Every body starts from the
declared type, and a call is checked without a look at the body of the function called. So a call
forgets nothing, not even about a global that the function called overwrites.
-/
namespace TuffSafety

/-- Of several declarations of a name the last one counts. -/
theorem Scope.get?_declareAll {α : Type} (key : α → String) (value : α → Binding) (xs : List α)
    (s : Scope) (name : String) :
    (xs.foldl (fun s x => s.declare (key x) (value x)) s).get? name =
      ((xs.reverse.find? fun x => key x = name).map value).or (s.get? name) := by
  induction xs generalizing s with
  | nil => rfl
  | cons x rest ih =>
    rw [List.foldl_cons, ih, get?_declare, List.reverse_cons, List.find?_append]
    cases rest.reverse.find? fun x => key x = name with
    | some y => rfl
    | none =>
      by_cases h : key x = name
      · simp [h]
      · have h' : ¬ name = key x := fun e => h e.symm
        simp [h, h']

/-- The annotated top-level variable of that name. -/
def Declarations.global? (d : Declarations) (name : String) : Option Global :=
  d.globals.reverse.find? fun g => g.name = name

/-- The functions whose bodies assign the name, themselves or through functions that they call. -/
inductive Declarations.Overwrites (d : Declarations) (name : String) : String → Prop where
  | directly {function sig body} (hf : d.functions.get? function = some sig)
      (hb : sig.decl.body = some body) (ha : (Node.expr body).Assigns name) :
      Overwrites d name function
  | through {function sig body callee} (hf : d.functions.get? function = some sig)
      (hb : sig.decl.body = some body) (hc : (Node.expr body).Calls callee)
      (h : Overwrites d name callee) : Overwrites d name function

namespace Checker

theorem get?_globalScope (d : Declarations) (name : String) :
    (globalScope d).get? name = (d.global? name).map fun g => .fixed (d.resolve g.type) := by
  rw [globalScope, Scope.get?_declareAll]
  exact Option.or_none

/-- A name that is no parameter means at the start of a function what it means globally. -/
theorem get?_fnStart (c : Checker) {params : List Param} {name : String}
    (h : ∀ p ∈ params, p.name ≠ name) : (c.fnStart params).scope.get? name = c.globals.get? name := by
  rw [fnStart, Scope.get?_declareAll]
  have hnone : params.reverse.find? (fun p => p.name = name) = none := by
    rw [List.find?_eq_none]
    intro p hp
    simpa using h p (List.mem_reverse.mp hp)
  rw [hnone]
  rfl

end Checker

/-- In an accepted program every function starts with nothing but the declared type of a global, and
every call keeps what is known of it, unless the call's own operands assign it. Which function is
called, and what that function overwrites, makes no difference. -/
theorem call_keeps_global_narrowing {program : Program} {name : String} {g : Global}
    (haccepted : program.check true = .ok ())
    (hg : (program.checker true).decls.global? name = some g) :
    let c := program.checker true
    (∀ params : List Param, (∀ p ∈ params, p.name ≠ name) →
      (c.fnStart params).scope.get? name = some (.fixed (c.decls.resolve g.type)) ∧
        c.lookup name (c.fnStart params) = c.decls.resolve g.type) ∧
      ∀ callee args loc ret flow,
        Reaches c (program.visit true) ⟨.expr (.call callee args loc), ret, flow⟩ →
        ∃ t flow', c.expr (.call callee args loc) ret flow = .ok (t, flow') ∧
          (¬ (Node.expr (.call callee args loc)).Assigns name →
            flow'.scope.get? name = flow.scope.get? name ∧
              flow'.facts.get? name = flow.facts.get? name ∧
              c.lookup name flow' = c.lookup name flow) := by
  intro c
  constructor
  · intro params hparams
    have hstart : (c.fnStart params).scope.get? name = some (.fixed (c.decls.resolve g.type)) := by
      rw [Checker.get?_fnStart c hparams]
      exact (Checker.get?_globalScope c.decls name).trans (congrArg _ hg)
    refine ⟨hstart, ?_⟩
    rw [Checker.lookup, hstart]
    rfl
  · intro callee args loc ret flow hreach
    obtain ⟨⟨t, flow'⟩, hcall⟩ := hreach.accepted (Program.visit_accepted haccepted)
    have hmoves := c.expr_moves _ ret hcall
    refine ⟨t, flow', hcall, fun hname => ?_⟩
    exact ⟨hmoves.get?_eq hname, hmoves.facts_eq hname, hmoves.lookup_eq hname c⟩

namespace Overwritten

def call (function : String) : Expr := .call (.ident function none) [] none

def quotient : Expr := .binary .div (.number 100 none none) (.ident "g" none) none

def function (name result : String) (body : Expr) : Stmt :=
  .fnDecl ⟨name, [], [], some (.named result []), some body, false, none⟩

def assignG (n : Int64) : Stmt := .assign (.ident "g" none) (.number n none none) none

/-- The program
`let g: I32 = 1;`
`fn reset(): Void => { g = 0; }`
`fn renew(): Void => { reset(); }`
`fn assigned(): I32 => { g = 5; renew(); 100 / g }`
`fn guarded(): I32 => if (g != 0) { reset(); 100 / g } else 0;` -/
def program : Program :=
  ⟨[.letDecl "g" (some (.named "I32" [])) (.number 1 none none) none,
    function "reset" "Void" (.block ⟨[assignG 0], none⟩),
    function "renew" "Void" (.block ⟨[.expr (call "reset") none], none⟩),
    function "assigned" "I32"
      (.block ⟨[assignG 5, .expr (call "renew") none, .expr quotient none], none⟩),
    function "guarded" "I32"
      (.ite (.binary .ne (.ident "g" none) (.number 0 none none) none)
        (.block ⟨[.expr (call "reset") none, .expr quotient none], none⟩)
        (some (.number 0 none none)) none)]⟩

theorem call_not_assigns (function name : String) : ¬ (Node.expr (call function)).Assigns name := by
  refine Node.not_assigns_of_parts fun part hpart => ?_
  cases hpart with
  | arg he => cases he
  | callee => exact Node.ident_not_assigns

theorem reset_overwrites : (program.checker true).decls.Overwrites "g" "reset" :=
  .directly rfl rfl ⟨_, _, _, .single (.block (List.mem_cons_self ..))⟩

theorem renew_overwrites : (program.checker true).decls.Overwrites "g" "renew" :=
  .through rfl rfl ⟨_, _, _, .tail (.single (.block (List.mem_cons_self ..))) .exprStmt⟩
    reset_overwrites

end Overwritten

open Overwritten in
theorem call_keeps_global_narrowing_renew :
    let c := program.checker true
    program.check true = .ok () ∧ c.decls.Overwrites "g" "renew" ∧
      c.lookup "g" (c.fnStart []) = .named "I32" ∧
      ∃ ret flow t flow', c.expr (call "renew") ret flow = .ok (t, flow') ∧
        (c.lookup "g" flow).nonZero = true ∧ c.lookup "g" flow' = c.lookup "g" flow := by
  intro c
  have haccepted : program.check true = .ok () := rfl
  have hg : c.decls.global? "g" = some ⟨"g", .named "I32" []⟩ := rfl
  obtain ⟨hstart, hcalls⟩ := call_keeps_global_narrowing haccepted hg
  have hbody : Reaches c (program.visit true) _ :=
    ((((Relation.ReflTransGen.refl.tail (.later rfl)).tail (.later rfl)).tail (.later rfl)).tail
      .first).tail .function
  have hcall := (((hbody.tail .block).tail (.later rfl)).tail .first).tail .exprStmt
  obtain ⟨t, flow', h, hkeeps⟩ := hcalls _ _ _ _ _ hcall
  have hlookup := (hkeeps (call_not_assigns "renew" "g")).2.2
  exact ⟨haccepted, renew_overwrites, (hstart [] nofun).2, _, _, t, flow', h, rfl, hlookup⟩

open Overwritten in
/-- A global that has been narrowed by an assignment or by a guard is divided by after a call that
overwrites it with zero. -/
theorem narrowing_survives_overwriting_call :
    let c := program.checker true
    let reached := Reaches c (program.visit true)
    let declared := c.decls.resolve (.named "I32" [])
    program.check true = .ok () ∧
      (∃ ret flow t flow', c.decls.Overwrites "g" "renew" ∧
        reached ⟨.expr (call "renew"), ret, flow⟩ ∧
        c.expr (call "renew") ret flow = .ok (t, flow') ∧
        flow'.facts.get? "g" = none ∧ c.lookup "g" flow' ≠ declared ∧
        reached ⟨.expr quotient, ret, flow'⟩) ∧
      ∃ ret flow t flow', c.decls.Overwrites "g" "reset" ∧
        reached ⟨.expr (call "reset"), ret, flow⟩ ∧
        c.expr (call "reset") ret flow = .ok (t, flow') ∧
        flow'.facts.get? "g" ≠ none ∧ c.lookup "g" flow' ≠ declared ∧
        reached ⟨.expr quotient, ret, flow'⟩ := by
  intro c reached declared
  have hrest : Reaches c (program.visit true) _ :=
    ((Relation.ReflTransGen.refl.tail (.later rfl)).tail (.later rfl)).tail (.later rfl)
  have hassigned := (((hrest.tail .first).tail .function).tail .block).tail (.later rfl)
  have hguarded :=
    ((((hrest.tail (.later rfl)).tail .first).tail .function).tail (.thenBranch rfl)).tail .block
  refine ⟨rfl, ⟨_, _, _, _, renew_overwrites, (hassigned.tail .first).tail .exprStmt, rfl, rfl, ?_,
      ((hassigned.tail (.later rfl)).tail .first).tail .exprStmt⟩,
    ⟨_, _, _, _, reset_overwrites, (hguarded.tail .first).tail .exprStmt, rfl, ?_, ?_,
      ((hguarded.tail (.later rfl)).tail .first).tail .exprStmt⟩⟩
  all_goals decide

end TuffSafety
