import TuffSafety.Proofs.KnownTypes
import TuffSafety.Proofs.Slots

/-!
# Slots that exclude zero

A slot that excludes zero takes values that are known not to be zero, and values of unknown type. In
an accepted program whose check gives the unknown type nowhere, such a slot is therefore never
filled with anything that may be zero. A program gets around this without leaving its own
annotations: the join of different branches, an array element and a branch that returns early all
have the unknown type.
-/
namespace TuffSafety

namespace Checker

variable {c : Checker} {slot : Slot} {d v : TypeInfo} {loc : Option Loc}

/-- Nothing is asked of a value of unknown type. -/
theorem requireFit_unknown (hv : v.isUnknown = true) : c.requireFit slot d v loc = .ok () := by
  refine bind_eq_ok.mpr ⟨(), ?_, ?_⟩
  · rw [requireAssignable_ok_iff, isAssignable, hv]
    simp
  · rw [requireNonZero, hv]
    simp

end Checker

namespace FlowsInto

variable {c : Checker} {visit : Visit} {slot : Slot} {d v : TypeInfo}

theorem nonZero (hflow : FlowsInto c visit slot d v) (hstrict : c.strict = true)
    (ha : visit.Accepted c) (hv : v.isUnknown = false) (hd : d.nonZero = true) : v.nonZero = true := by
  obtain ⟨loc, hfit⟩ := hflow.requireFit_ok hv ha
  exact ((Checker.requireFit_ok_iff hstrict hv).mp hfit).nonZero hd

theorem known (hflow : FlowsInto c visit slot d v) (hglobals : c.globals.Known)
    (htracked : Tracked c visit) (hscope : visit.flow.scope.Known) : v.Known := by
  cases hflow with
  | initializer h => exact c.expr_known _ _ (htracked.step .initializer) hscope h
  | assignment h _ => exact c.expr_known _ _ (htracked.step .assigned) hscope h
  | argument _ _ h _ harg =>
    exact Checker.args_known (htracked.step .args) hscope h _ (List.mem_of_getElem? harg)
  | returned h _ => exact c.expr_known _ _ (htracked.step .returned) hscope h
  | body h =>
    have hstart := Checker.fnStart_known hglobals htracked
    exact c.expr_known _ _ (htracked.step .function) hstart h

end FlowsInto

/-- In an accepted program a slot that excludes zero is filled with what is known not to be zero, or
with a value of unknown type, which is let into every slot. The check has then come to a place that
gives the unknown type: behind every point on the way to the slot, such as the start of the function
around it, at which all types were known. -/
theorem nonZero_slot_filled {program : Program} {visit : Visit} {slot : Slot} {d v : TypeInfo}
    (haccepted : program.check true = .ok ())
    (hreach : Reaches (program.checker true) (program.visit true) visit)
    (hflow : FlowsInto (program.checker true) visit slot d v) (hd : d.nonZero = true) :
    let c := program.checker true
    v.nonZero = true ∨ v.isUnknown = true ∧
      (∀ slot' other loc, c.requireFit slot' other v loc = .ok ()) ∧
      ¬ Tracked c (program.visit true) ∧
      (c.globals.Known → ∀ start, Reaches c start visit → start.flow.scope.Known →
        ¬ Tracked c start) := by
  intro c
  cases hv : v.isUnknown with
  | false =>
    have hvisit := hreach.accepted (Program.visit_accepted haccepted)
    exact .inl (hflow.nonZero rfl hvisit hv hd)
  | true =>
    have hstart : c.globals.Known → ∀ start, Reaches c start visit → start.flow.scope.Known →
        ¬ Tracked c start := by
      intro hglobals start hr hscope htracked
      have hknown := hflow.known hglobals (htracked.of_reaches hr)
        (hr.known hglobals htracked hscope)
      exact hknown.name (beq_iff_eq.mp hv)
    refine .inr ⟨rfl, fun _ _ _ => Checker.requireFit_unknown hv, ?_, hstart⟩
    intro htracked
    have hglobals := Program.globals_known haccepted htracked
    exact hstart hglobals _ hreach hglobals.child htracked

namespace Laundered

open Annotated (int number array)

def nonZeroInt : TypeExpr := .refined int .ne (number 0)

def flag : Expr := .ident "c" none

/-- The function `fn f(c: Bool): I32 != 0 => { let a: I32 != 0 = if (c) 3 else 4; a }` -/
def tracked : Program :=
  .ofFunction [⟨"c", some (.named "Bool" [])⟩] nonZeroInt
    [.letDecl "a" (some nonZeroInt) (.ite flag (number 3) (some (number 4)) none) none,
      .expr (.ident "a" none) none]

/-- The function
`fn f(xs: [I32; 1; 1], c: Bool): I32 != 0 => {`
`let a: I32 != 0 = if (c) 0 else c;`
`let b: I32 != 0 = match (c) { case true = 0; case _ = c; };`
`let d: I32 != 0 = xs[0];`
`if (c) { 0 } else { return 1; } }` -/
def program : Program :=
  .ofFunction [⟨"xs", some (array 1)⟩, ⟨"c", some (.named "Bool" [])⟩] nonZeroInt
    [.letDecl "a" (some nonZeroInt) (.ite flag (number 0) (some flag) none) none,
      .letDecl "b" (some nonZeroInt)
        (.matchOn flag [⟨.literal (.bool true), number 0⟩, ⟨.wildcard, flag⟩] none) none,
      .letDecl "d" (some nonZeroInt) (.index (.ident "xs" none) (number 0) none) none,
      .ite flag (.block ⟨[.expr (number 0) none], none⟩)
        (some (.block ⟨[.ret (some (number 1)) none], none⟩)) none]

/-- The program `struct S { d: I32 != 0 }` `fn f(): I32 => { let s = S { d: 0 }; 100 / s.d }` -/
def fielded : Program :=
  ⟨[.structDecl ⟨"S", [], [⟨"d", nonZeroInt⟩], false, none⟩,
    .fnDecl ⟨"f", [], [], some int, some (.block ⟨[
      .letDecl "s" none (.structInit "S" [⟨"d", number 0⟩] none) none,
      .expr (.binary .div (number 100) (.member (.ident "s" none) "d" none) none) none], none⟩),
      false, none⟩]⟩

end Laundered

open Laundered in
theorem nonZero_slot_filled_tracked :
    let c := tracked.checker true
    let d : TypeInfo := c.decls.resolve nonZeroInt
    let v : TypeInfo := (TypeInfo.literal "I32" 3).join (.literal "I32" 4)
    tracked.check true = .ok () ∧ d.nonZero = true ∧ v.isUnknown = false ∧ v.nonZero = true := by
  intro c d v
  have haccepted : tracked.check true = .ok () := rfl
  have hreach := (Program.ofFunction_reaches _ _ _).tail (.first (c := c))
  have hfilled := nonZero_slot_filled (d := d) (v := v) haccepted hreach (.initializer rfl) rfl
  exact ⟨haccepted, rfl, rfl, hfilled.resolve_right fun h => by cases h.1⟩

open Laundered in
/-- Programs of annotated names let a zero into slots that exclude it: by branches, by cases and by an
early return of different types, and by an array element. A field of a struct literal is not even
asked about. -/
theorem zero_laundered :
    let c := program.checker true
    let laundered : Slot → Prop := fun slot => ∃ visit d v, Reaches c (program.visit true) visit ∧
      FlowsInto c visit slot d v ∧ d.nonZero = true ∧ v.nonZero = false
    program.check true = .ok () ∧ laundered (.initializer "a") ∧ laundered (.initializer "b") ∧
      laundered (.initializer "d") ∧ laundered (.body "f") ∧
      fielded.check true = .ok () ∧
      ∃ decl fs ret flow declared v flow', Reaches (fielded.checker true) (fielded.visit true)
          ⟨.fields decl none (⟨"d", Annotated.number 0⟩ :: fs), ret, flow⟩ ∧
        decl.field? "d" = some declared ∧
        ((fielded.checker true).decls.resolve declared.type).nonZero = true ∧
        (fielded.checker true).expr (Annotated.number 0) ret flow = .ok (v, flow') ∧
        v.nonZero = false := by
  intro c laundered
  have ha : Reaches c (program.visit true) _ := Program.ofFunction_reaches _ _ _
  have hb := ha.tail (.later (c := c) rfl)
  have hd := hb.tail (.later rfl)
  have hf : Reaches c (program.visit true) _ := .single .first
  have hbody : Reaches (fielded.checker true) (fielded.visit true) _ :=
    (((Relation.ReflTransGen.refl.tail (.later rfl)).tail .first).tail .function).tail .block
  have hfields := ((hbody.tail .first).tail .initializer).tail (.fields rfl)
  exact ⟨rfl, ⟨_, _, _, ha.tail .first, .initializer rfl, rfl, rfl⟩,
    ⟨_, _, _, hb.tail .first, .initializer rfl, rfl, rfl⟩,
    ⟨_, _, _, hd.tail .first, .initializer rfl, rfl, rfl⟩,
    ⟨_, _, _, hf, .body rfl rfl rfl rfl, rfl, rfl⟩, rfl,
    _, _, _, _, _, _, _, hfields, rfl, rfl, rfl, rfl⟩

end TuffSafety
