import TuffSafety.Proofs.Visits

/-!
# Values that go into slots

A value goes into a slot where a variable is initialised or assigned, where it is an argument, and
where it is the result of a function. In an accepted program the type of the value then fits the
declared type: the names agree, and a slot that excludes zero gets a value that is not zero. Bounds
and array lengths of the declared type are not compared with anything. They are believed.
-/
namespace TuffSafety

/-- A value of type `v` goes into a slot of declared type `d` in a call of the checker. A function
that returns nothing has no slot for a result, and a body that ends without a value leaves the result
to the return statements. -/
inductive FlowsInto (c : Checker) : Visit → Slot → TypeInfo → TypeInfo → Prop where
  | initializer {name type value loc ret flow v flow'} (h : c.expr value ret flow = .ok (v, flow')) :
      FlowsInto c ⟨.stmt (.letDecl name (some type) value loc), ret, flow⟩ (.initializer name)
        (c.decls.resolve type) v
  | assignment {name place value loc ret flow v flow' b} (h : c.expr value ret flow = .ok (v, flow'))
      (hb : flow'.scope.get? name = some b) :
      FlowsInto c ⟨.stmt (.assign (.ident name place) value loc), ret, flow⟩ (.assignment name)
        b.declared v
  | argument {callee es loc ret flow sig infos flow' param v place} {n : Nat}
      (hsig : c.signature? callee = some sig) (hforeign : sig.foreign = false)
      (h : c.args es ret loc flow = .ok (infos, flow')) (hparam : sig.decl.params[n]? = some param)
      (harg : infos[n]? = some (v, place)) :
      FlowsInto c ⟨.expr (.call callee es loc), ret, flow⟩ (.argument param.name sig.decl.name)
        (c.decls.resolve? param.type) v
  | returned {value loc d flow v flow'} (h : c.expr value (some d) flow = .ok (v, flow'))
      (hd : d.isVoid = false) :
      FlowsInto c ⟨.stmt (.ret (some value) loc), some d, flow⟩ .returned d v
  | body {name generics params type body exported loc ret flow v flow'}
      (h : c.expr body (some (c.decls.resolve type)) (c.fnStart params) = .ok (v, flow'))
      (hv : v.isVoid = false) (hd : (c.decls.resolve type).isVoid = false)
      (hknown : (c.decls.resolve type).isUnknown = false) :
      FlowsInto c ⟨.stmt (.fnDecl ⟨name, generics, params, some type, some body, exported, loc⟩), ret,
        flow⟩ (.body name) (c.decls.resolve type) v

/-- The variable that a slot belongs to. -/
def Slot.variable? : Slot → Option String
  | .initializer name | .assignment name => some name
  | _ => none

namespace Checker

variable {c : Checker} {slot : Slot} {d v : TypeInfo} {loc : Option Loc}

/-- What is asked of a value of type `v` in a slot of type `d`. -/
structure Fits (c : Checker) (d v : TypeInfo) : Prop where
  assignable : c.isAssignable d v = true
  nonZero : d.nonZero = true → v.nonZero = true

theorem requireAssignable_ok_iff :
    c.requireAssignable slot d v loc = .ok () ↔ c.isAssignable d v = true := by
  unfold requireAssignable
  split
  · simp [*]
  · simp [*, reject]

theorem requireNonZero_ok_iff (hstrict : c.strict = true) (hv : v.isUnknown = false) :
    c.requireNonZero slot d v loc = .ok () ↔ (d.nonZero = true → v.nonZero = true) := by
  unfold requireNonZero
  rw [hstrict, hv]
  cases d.nonZero <;> cases v.nonZero <;> simp [reject]

theorem requireFit_ok_iff (hstrict : c.strict = true) (hv : v.isUnknown = false) :
    c.requireFit slot d v loc = .ok () ↔ c.Fits d v := by
  constructor
  · intro h
    obtain ⟨_, ha, hz⟩ := bind_eq_ok.mp h
    exact ⟨requireAssignable_ok_iff.mp ha, (requireNonZero_ok_iff hstrict hv).mp hz⟩
  · intro h
    exact bind_eq_ok.mpr ⟨(), requireAssignable_ok_iff.mpr h.assignable,
      (requireNonZero_ok_iff hstrict hv).mpr h.nonZero⟩

/-- Of the declared type only the name and the exclusion of zero are looked at. -/
theorem Fits.congr {other : TypeInfo} (h : c.Fits d v) (hname : other.name = d.name)
    (hzero : other.nonZero = d.nonZero) : c.Fits other v := by
  constructor
  · have ha := h.assignable
    unfold isAssignable TypeInfo.isUnknown at ha ⊢
    rwa [hname]
  · rw [hzero]
    exact h.nonZero

/-- The name of an unsigned type is neither a union nor a pointer. -/
theorem namedCompatible_unsigned {expected actual : String}
    (hu : TypeName.isUnsigned expected = true) (h : TypeInfo.namedCompatible expected actual = true) :
    expected = actual := by
  have hmem : expected ∈ TypeName.unsigned := List.contains_iff_mem.mp hu
  have hplain : ∀ name ∈ TypeName.unsigned, name.toList.contains '|' = false ∧
      TypeInfo.dropStart? "*".toList name.toList = none := by
    decide
  obtain ⟨hbar, hstar⟩ := hplain expected hmem
  unfold TypeInfo.namedCompatible TypeInfo.isUnionMember TypeInfo.isMutablePointerTo at h
  rw [hbar, hstar] at h
  simpa using h

/-- A number of another type goes into an unsigned slot only when it is known not to be negative. -/
theorem Fits.nonNegative (h : c.Fits d v) (hv : v.isNumeric = true) (hname : v.name ≠ d.name)
    (hu : TypeName.isUnsigned d.name = true) (halias : c.decls.isAlias d.name = false) :
    ∃ a, v.min = some a ∧ 0 ≤ a := by
  have hlong : ∀ name ∈ TypeName.numeric, TypeName.isVariable name = false ∧
      name ≠ TypeName.unknown := by
    decide
  obtain ⟨hvar, hknown⟩ := hlong v.name (List.contains_iff_mem.mp hv)
  have hsub : ∀ name ∈ TypeName.unsigned, name ∈ TypeName.numeric := by
    decide
  obtain ⟨hvar', hknown'⟩ := hlong d.name (hsub d.name (List.contains_iff_mem.mp hu))
  have ha := h.assignable
  unfold isAssignable TypeInfo.isUnknown at ha
  rw [beq_false_of_ne hknown, beq_false_of_ne hknown', hvar, hvar', halias] at ha
  simp only [Bool.false_or, Bool.or_false, Bool.or_eq_true] at ha
  rcases ha with ha | ha
  · exact absurd (namedCompatible_unsigned hu ha).symm hname
  · unfold TypeInfo.numericCompatible at ha
    rw [beq_false_of_ne (Ne.symm hname), hu] at ha
    have hmin := (Bool.and_eq_true_iff.mp ha).2
    rw [Bool.not_true, Bool.false_or, Option.any_eq_true_iff_get] at hmin
    obtain ⟨hsome, hle⟩ := hmin
    exact ⟨_, (Option.some_get hsome).symm, of_decide_eq_true hle⟩

theorem argument_ok {sig : FnSignature} {param : Param} (hforeign : sig.foreign = false)
    (h : c.argument sig param v loc = .ok ()) :
    c.requireFit (.argument param.name sig.decl.name) (c.decls.resolve? param.type) v loc = .ok () := by
  unfold argument at h
  rw [hforeign] at h
  dsimp only at h
  split at h
  · cases h
  · exact h

/-- Each argument has met its parameter. -/
theorem arguments_ok {sig : FnSignature} {params : List Param} {infos : List (TypeInfo × Option Loc)}
    (h : c.arguments sig params infos = .ok ()) {n : Nat} {param : Param} {place : Option Loc}
    (hparam : params[n]? = some param) (harg : infos[n]? = some (v, place)) :
    c.argument sig param v place = .ok () := by
  induction params generalizing infos n with
  | nil => cases hparam
  | cons p params ih =>
    cases infos with
    | nil => cases harg
    | cons info infos =>
      obtain ⟨_, hfirst, hrest⟩ := bind_eq_ok.mp h
      cases n with
      | zero =>
        cases hparam
        cases harg
        exact hfirst
      | succ n => exact ih hrest hparam harg

theorem call_ok {sig : FnSignature} {infos : List (TypeInfo × Option Loc)} {t : TypeInfo}
    (h : c.call sig infos loc = .ok t) : c.arguments sig sig.decl.params infos = .ok () := by
  unfold call at h
  dsimp only at h
  split at h
  · cases h
  · obtain ⟨_, harguments, _⟩ := bind_eq_ok.mp h
    exact harguments

theorem expr_call_ok {callee : Expr} {es : List Expr} {ret : Option TypeInfo} {flow : Flow}
    {sig : FnSignature} {r : TypeInfo × Flow} (hsig : c.signature? callee = some sig)
    (h : c.expr (.call callee es loc) ret flow = .ok r) :
    ∃ infos flow', c.args es ret loc flow = .ok (infos, flow') ∧
      c.arguments sig sig.decl.params infos = .ok () := by
  rw [expr] at h
  obtain ⟨⟨infos, flow'⟩, hargs, h⟩ := bind_eq_ok.mp h
  refine ⟨infos, flow', hargs, ?_⟩
  cases callee with
  | ident name place =>
    dsimp only at h
    rw [hsig] at h
    obtain ⟨t, hcall, _⟩ := bind_eq_ok.mp h
    exact call_ok hcall
  | _ => cases hsig

theorem returnValue_ok (hd : d.isVoid = false) (h : c.returnValue (some d) v loc = .ok ()) :
    c.requireFit .returned d v loc = .ok () := by
  unfold returnValue at h
  dsimp only at h
  rw [hd] at h
  exact h

theorem fnResult_ok {name : String} (hv : v.isUnknown = false) (hv' : v.isVoid = false)
    (hd : d.isUnknown = false) (hd' : d.isVoid = false)
    (h : c.fnResult name (some d) v loc = .ok ()) : c.requireFit (.body name) d v loc = .ok () := by
  unfold fnResult at h
  dsimp only at h
  rw [hv, hv', hd, hd'] at h
  exact h

end Checker

namespace FlowsInto

variable {c : Checker} {visit : Visit} {slot : Slot} {d v : TypeInfo}

/-- An accepted part has asked its values to fit. -/
theorem requireFit_ok (hflow : FlowsInto c visit slot d v) (hv : v.isUnknown = false)
    (ha : visit.Accepted c) : ∃ loc, c.requireFit slot d v loc = .ok () := by
  cases hflow with
  | initializer hvalue =>
    obtain ⟨⟨t, after⟩, h⟩ := ha
    obtain ⟨info, mid, hvalue', hdeclare⟩ := Checker.letDecl_ok h
    cases hvalue.symm.trans hvalue'
    obtain ⟨b, _, hfit, _⟩ := Checker.declare_ok hdeclare
    exact ⟨_, hfit⟩
  | assignment hvalue hb =>
    obtain ⟨⟨t, after⟩, h⟩ := ha
    obtain ⟨info, mid, hvalue', hassign⟩ := Checker.assign_ident_ok h
    cases hvalue.symm.trans hvalue'
    rcases Checker.assign_ok hassign with ⟨hnone, _⟩ | ⟨b, hb', hfit, _⟩
    · cases hb.symm.trans hnone
    · cases hb.symm.trans hb'
      exact ⟨_, hfit⟩
  | argument hsig hforeign hargs hparam harg =>
    obtain ⟨⟨t, after⟩, h⟩ := ha
    obtain ⟨infos, mid, hargs', harguments⟩ := Checker.expr_call_ok hsig h
    cases hargs.symm.trans hargs'
    exact ⟨_, Checker.argument_ok hforeign (Checker.arguments_ok harguments hparam harg)⟩
  | returned hvalue hd =>
    obtain ⟨⟨t, after⟩, h⟩ := ha
    rw [Checker.stmt] at h
    obtain ⟨_, hvalue', h⟩ := bind_eq_ok.mp h
    cases hvalue.symm.trans hvalue'
    obtain ⟨_, hreturn, _⟩ := bind_eq_ok.mp h
    exact ⟨_, Checker.returnValue_ok hd hreturn⟩
  | body hbody hvoid hd hknown =>
    obtain ⟨⟨t, after⟩, h⟩ := ha
    rw [Checker.stmt] at h
    obtain ⟨_, hfn, _⟩ := bind_eq_ok.mp h
    rw [Checker.fnDecl] at hfn
    obtain ⟨_, hbody', hresult⟩ := bind_eq_ok.mp hfn
    cases hbody.symm.trans hbody'
    exact ⟨_, Checker.fnResult_ok hv hvoid hknown hd hresult⟩

/-- What is known of a variable afterwards: all that is declared, narrowed by the value. -/
theorem stored (hflow : FlowsInto c visit slot d v) (ha : visit.Accepted c) {name : String}
    (hname : slot.variable? = some name) :
    ∃ s ret flow t flow', visit = ⟨.stmt s, ret, flow⟩ ∧ c.stmt s ret flow = .ok (t, flow') ∧
      flow'.scope.get? name = some ⟨d, d.narrow (.ofInfo v)⟩ := by
  cases hflow with
  | initializer hvalue =>
    cases hname
    obtain ⟨⟨t, after⟩, h⟩ := ha
    refine ⟨_, _, _, t, after, rfl, h, ?_⟩
    obtain ⟨info, mid, hvalue', hdeclare⟩ := Checker.letDecl_ok h
    cases hvalue.symm.trans hvalue'
    obtain ⟨b, rfl, _, rfl⟩ := Checker.declare_ok hdeclare
    rw [Scope.get?_declare, if_pos rfl]
  | assignment hvalue hb =>
    cases hname
    obtain ⟨⟨t, after⟩, h⟩ := ha
    refine ⟨_, _, _, t, after, rfl, h, ?_⟩
    obtain ⟨info, mid, hvalue', hassign⟩ := Checker.assign_ident_ok h
    cases hvalue.symm.trans hvalue'
    rcases Checker.assign_ok hassign with ⟨hnone, _⟩ | ⟨b, hb', _, rfl⟩
    · cases hb.symm.trans hnone
    · cases hb.symm.trans hb'
      rw [Scope.get?_update, if_pos rfl, hb]
      rfl
  | argument | returned | body => cases hname

end FlowsInto

/-- Wherever a value goes into a slot of an accepted program, its type fits the declared one, and a
number of another type is known not to be negative if the slot is unsigned. Any other bounds and
lengths in place of the declared ones would have been accepted as well, and a variable is from then
on taken to have them. -/
theorem accepted_flow_fits {program : Program} {visit : Visit} {slot : Slot} {d v : TypeInfo}
    (haccepted : program.check true = .ok ())
    (hreach : Reaches (program.checker true) (program.visit true) visit)
    (hflow : FlowsInto (program.checker true) visit slot d v) (hv : v.isUnknown = false) :
    (program.checker true).Fits d v ∧
      (v.isNumeric = true → v.name ≠ d.name → TypeName.isUnsigned d.name = true →
        (program.checker true).decls.isAlias d.name = false → ∃ a, v.min = some a ∧ 0 ≤ a) ∧
      (∀ other loc, other.name = d.name → other.nonZero = d.nonZero →
        (program.checker true).requireFit slot other v loc = .ok ()) ∧
      ∀ name, slot.variable? = some name → ∃ s ret flow t flow', visit = ⟨.stmt s, ret, flow⟩ ∧
        (program.checker true).stmt s ret flow = .ok (t, flow') ∧
        flow'.scope.get? name = some ⟨d, d.narrow (.ofInfo v)⟩ := by
  have hvisit := hreach.accepted (Program.visit_accepted haccepted)
  have hstrict : (program.checker true).strict = true := rfl
  obtain ⟨loc, hfit⟩ := hflow.requireFit_ok hv hvisit
  have hfits := (Checker.requireFit_ok_iff hstrict hv).mp hfit
  refine ⟨hfits, hfits.nonNegative, ?_, fun _ => hflow.stored hvisit⟩
  intro other loc hname hzero
  exact (Checker.requireFit_ok_iff hstrict hv).mpr (hfits.congr hname hzero)

/-- A program of one function, whose body is a block. -/
def Program.ofFunction (params : List Param) (result : TypeExpr) (statements : List Stmt) : Program :=
  ⟨[.fnDecl ⟨"f", [], params, some result, some (.block ⟨statements, none⟩), false, none⟩]⟩

theorem Program.ofFunction_reaches (params : List Param) (result : TypeExpr) (statements : List Stmt) :
    let program := Program.ofFunction params result statements
    let c := program.checker true
    Reaches c (program.visit true)
      ⟨.stmts .void statements, some (c.decls.resolve result), (c.fnStart params).under .empty⟩ := by
  intro program c
  exact ((Relation.ReflTransGen.refl.tail .first).tail .function).tail .block

namespace Annotated

def int : TypeExpr := .named "I32" []

def size : TypeExpr := .named "USize" []

def array (length : Int64) : TypeExpr :=
  .array int (some (.number length none none)) (some (.number length none none))

def number (n : Int64) : Expr := .number n none none

/-- The function `fn f(n: I32 > 0): USize => { let i: USize != 0 = n; i }` -/
def positive : Program :=
  .ofFunction [⟨"n", some (.refined int .gt (number 0))⟩] size
    [.letDecl "i" (some (.refined size .ne (number 0))) (.ident "n" none) none,
      .expr (.ident "i" none) none]

/-- The function `fn f(arr: [I32; 1; 1], n: USize): I32 =>
{ let low: USize > 4 = n; let i: USize < 3 = n; let xs: [I32; 3; 3] = arr; xs[i] }` -/
def believed : Program :=
  .ofFunction [⟨"arr", some (array 1)⟩, ⟨"n", some size⟩] int
    [.letDecl "low" (some (.refined size .gt (number 4))) (.ident "n" none) none,
      .letDecl "i" (some (.refined size .lt (number 3))) (.ident "n" none) none,
      .letDecl "xs" (some (array 3)) (.ident "arr" none) none,
      .expr (.index (.ident "xs" none) (.ident "i" none) none) none]

end Annotated

theorem accepted_flow_fits_positive :
    let c := Annotated.positive.checker true
    let d : TypeInfo := { name := "USize", min := some 0, nonZero := true }
    let v : TypeInfo := { name := "I32", min := some 1, max := some 2147483647, nonZero := true }
    Annotated.positive.check true = .ok () ∧ c.Fits d v ∧ (∃ a, v.min = some a ∧ 0 ≤ a) ∧
      (∀ other loc, other.name = d.name → other.nonZero = d.nonZero →
        c.requireFit (.initializer "i") other v loc = .ok ()) ∧
      ∃ s ret flow t flow', c.stmt s ret flow = .ok (t, flow') ∧
        flow'.scope.get? "i" = some ⟨d, d.narrow (.ofInfo v)⟩ := by
  intro c d v
  have haccepted : Annotated.positive.check true = .ok () := rfl
  have hreach := (Program.ofFunction_reaches _ _ _).tail (.first (c := c))
  obtain ⟨hfits, hnegative, hother, hstored⟩ :=
    accepted_flow_fits (d := d) (v := v) haccepted hreach (.initializer rfl) rfl
  obtain ⟨s, ret, flow, t, flow', _, hs, hget⟩ := hstored "i" rfl
  exact ⟨haccepted, hfits, hnegative rfl (by decide) rfl rfl, hother, s, ret, flow, t, flow', hs, hget⟩

/-- A lower bound, an upper bound and an array length that are declared, each for a value that is not
known to have it. -/
theorem declared_bounds_not_enforced :
    let c := Annotated.believed.checker true
    let reached := Reaches c (Annotated.believed.visit true)
    Annotated.believed.check true = .ok () ∧
      (∃ visit slot d v, reached visit ∧ FlowsInto c visit slot d v ∧ v.isUnknown = false ∧
        d.min = some 5 ∧ v.min = some 0) ∧
      (∃ visit slot d v, reached visit ∧ FlowsInto c visit slot d v ∧ v.isUnknown = false ∧
        d.max = some 2 ∧ v.max = none) ∧
      ∃ visit slot d v, reached visit ∧ FlowsInto c visit slot d v ∧ v.isUnknown = false ∧
        d.arrayInit = some 3 ∧ v.arrayInit = some 1 := by
  intro c reached
  have hlow : Reaches c (Annotated.believed.visit true) _ := Program.ofFunction_reaches _ _ _
  have hi := hlow.tail (.later (c := c) rfl)
  have hxs := hi.tail (.later rfl)
  exact ⟨rfl, ⟨_, _, _, _, hlow.tail .first, .initializer rfl, rfl, rfl, rfl⟩,
    ⟨_, _, _, _, hi.tail .first, .initializer rfl, rfl, rfl, rfl⟩,
    ⟨_, _, _, _, hxs.tail .first, .initializer rfl, rfl, rfl, rfl⟩⟩

end TuffSafety
