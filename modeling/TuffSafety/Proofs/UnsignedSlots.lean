import TuffSafety.Proofs.ExpressionSafety
import TuffSafety.Proofs.Slots

/-!
# Values that go into unsigned slots

A slot of an unsigned type takes a number of another type exactly when its lower bound is known not to
be negative. This holds in both modes and wherever values go into slots, the fields of struct
literals included. Nothing is asked of a value that has the slot's own type, of the arguments of a
foreign function, or where the name of the slot's type is itself declared as an alias. So what is
left over of a difference or a negation below zero stays in slots of its own type.
-/
namespace TuffSafety

/-- A value of type `v` goes into a slot of declared type `d`, which may be a field of a struct
literal. -/
inductive Fills (c : Checker) : Visit → Slot → TypeInfo → TypeInfo → Prop where
  | slot {visit slot d v} (h : FlowsInto c visit slot d v) : Fills c visit slot d v
  | field {decl loc key value fs ret flow v flow' declared} (hfield : decl.field? key = some declared)
      (h : c.expr value ret flow = .ok (v, flow')) :
      Fills c ⟨.fields decl loc (⟨key, value⟩ :: fs), ret, flow⟩ (.field key decl.name)
        (c.decls.resolve declared.type) v

/-- The type of a difference of unsigned values, or of the negation of one. -/
inductive FromUnsigned (c : Checker) (v : TypeInfo) : Prop where
  | difference {left right loc} (hleft : TypeName.isUnsigned left.name = true)
      (hright : TypeName.isUnsigned right.name = true)
      (h : c.arithmetic .sub left right loc = .ok v) : FromUnsigned c v
  | negation {operand loc} (hoperand : TypeName.isUnsigned operand.name = true)
      (h : Checker.unary .neg operand loc = .ok v) : FromUnsigned c v

namespace TypeName

theorem isNumeric_of_isUnsigned {name : String} (h : isUnsigned name = true) :
    isNumeric name = true := by
  have hsub : ∀ name ∈ unsigned, isNumeric name = true := by
    decide
  exact hsub name (List.contains_iff_mem.mp h)

end TypeName

namespace Checker

variable {c : Checker} {d v : TypeInfo}

/-- A number that is known not to be negative goes into every numeric slot. -/
theorem isAssignable_of_nonNegative {m : Int} (hd : TypeName.isNumeric d.name = true)
    (hv : v.isNumeric = true) (hmin : v.min = some m) (hm : 0 ≤ m) : c.isAssignable d v = true := by
  have hnumeric : TypeInfo.numericCompatible d.name v = true := by
    unfold TypeInfo.numericCompatible
    rw [hd, hv, hmin]
    simp [hm]
  unfold isAssignable
  simp [hnumeric]

/-- A number goes into an unsigned slot exactly when it has the type of the slot, the type of the slot
is declared as an alias, or it is known not to be negative. -/
theorem isAssignable_unsigned_iff (hu : TypeName.isUnsigned d.name = true) (hv : v.isNumeric = true) :
    c.isAssignable d v = true ↔
      v.name = d.name ∨ c.decls.isAlias d.name = true ∨ ∃ m, v.min = some m ∧ 0 ≤ m := by
  constructor
  · intro h
    by_cases hname : v.name = d.name
    · exact .inl hname
    · cases halias : c.decls.isAlias d.name with
      | true => exact .inr (.inl rfl)
      | false =>
        -- what the slot asks about zero plays no part in the sign
        have hfits : c.Fits { d with nonZero := false } v := ⟨h, fun hz => by cases hz⟩
        exact .inr (.inr (hfits.nonNegative hv hname hu halias))
  · rintro (hname | halias | ⟨m, hmin, hm⟩)
    · have hnamed : TypeInfo.namedCompatible d.name v.name = true := by
        simp [TypeInfo.namedCompatible, hname]
      simp [isAssignable, hnamed]
    · simp [isAssignable, halias]
    · exact isAssignable_of_nonNegative (TypeName.isNumeric_of_isUnsigned hu) hv hmin hm

theorem arithmetic_sub_name {left right : TypeInfo} {loc : Option Loc}
    (hl : left.isNumeric = true) (hr : right.isNumeric = true)
    (h : c.arithmetic .sub left right loc = .ok v) : v.name = arithmeticName left right := by
  have hknown : (left.isUnknown || right.isUnknown) ≠ true := by
    rw [TypeInfo.isUnknown_of_isNumeric hl, TypeInfo.isUnknown_of_isNumeric hr]
    decide
  have hnotDivision := (arithmetic_ok h).resolve_left fun hdiv => by cases hdiv.1 <;> contradiction
  obtain ⟨_, _, ⟨hu, _⟩ | rfl⟩ := hnotDivision
  · exact absurd hu hknown
  · exact TypeInfo.withBounds_name _ _ _

theorem unary_neg_name {operand : TypeInfo} {loc : Option Loc} (ho : operand.isNumeric = true)
    (h : unary .neg operand loc = .ok v) : v.name = operand.name := by
  unfold unary at h
  dsimp only at h
  rw [TypeInfo.isUnknown_of_isNumeric ho, ho] at h
  cases h
  exact TypeInfo.withBounds_name _ _ _

end Checker

variable {c : Checker} {visit : Visit} {slot : Slot} {d v : TypeInfo}

/-- Arithmetic does not leave the unsigned types, whatever the bounds of its result. -/
theorem FromUnsigned.isUnsigned (h : FromUnsigned c v) : TypeName.isUnsigned v.name = true := by
  cases h with
  | @difference left right loc hleft hright h =>
    have hname := Checker.arithmetic_sub_name (TypeName.isNumeric_of_isUnsigned hleft)
      (TypeName.isNumeric_of_isUnsigned hright) h
    rw [hname, Checker.arithmeticName]
    split
    · exact hright
    · exact hleft
  | negation hoperand h =>
    rw [Checker.unary_neg_name (TypeName.isNumeric_of_isUnsigned hoperand) h]
    exact hoperand

/-- In an accepted part, every value that fills a slot was found assignable to it. -/
theorem Fills.isAssignable (hfills : Fills c visit slot d v) (hv : v.isUnknown = false)
    (ha : visit.Accepted c) : c.isAssignable d v = true := by
  cases hfills with
  | slot hflow =>
    obtain ⟨loc, hfit⟩ := hflow.requireFit_ok hv ha
    obtain ⟨_, hassignable, _⟩ := bind_eq_ok.mp hfit
    exact Checker.requireAssignable_ok_iff.mp hassignable
  | field hfield hvalue =>
    obtain ⟨r, h⟩ := ha
    obtain ⟨info, mid, declared', hfield', hvalue', hassignable, _⟩ := Checker.fieldInits_cons_ok h
    cases hfield.symm.trans hfield'
    cases hvalue.symm.trans hvalue'
    exact Checker.requireAssignable_ok_iff.mp hassignable

/-- The sign of a number that fills an unsigned slot. -/
theorem Fills.nonNegative (hfills : Fills c visit slot d v) (ha : visit.Accepted c)
    (hu : TypeName.isUnsigned d.name = true) (hv : v.isNumeric = true) :
    v.name = d.name ∨ c.decls.isAlias d.name = true ∨ ∃ m, v.min = some m ∧ 0 ≤ m :=
  (Checker.isAssignable_unsigned_iff hu hv).mp
    (hfills.isAssignable (TypeInfo.isUnknown_of_isNumeric hv) ha)

/-- A number is assignable to an unsigned slot exactly when its lower bound is known and not negative,
it has the slot's own type, or the name of that type is declared as an alias. So in a program that is
accepted in either mode, a number whose lower bound is negative or unknown fills an unsigned slot only
in one of the two other ways, and the same holds of a difference or a negation of unsigned values that
is inferred with a negative lower bound. A parameter of a foreign function is no slot. -/
theorem unsigned_slot_sign :
    (∀ (c : Checker) (d v : TypeInfo), TypeName.isUnsigned d.name = true → v.isNumeric = true →
      (c.isAssignable d v = true ↔
        v.name = d.name ∨ c.decls.isAlias d.name = true ∨ ∃ m, v.min = some m ∧ 0 ≤ m)) ∧
    ∀ (program : Program) (strict : Bool) (visit : Visit) (slot : Slot) (d v : TypeInfo),
      program.check strict = .ok () →
      Reaches (program.checker strict) (program.visit strict) visit →
      Fills (program.checker strict) visit slot d v → TypeName.isUnsigned d.name = true →
      (v.isNumeric = true → v.name = d.name ∨
        (program.checker strict).decls.isAlias d.name = true ∨ ∃ m, v.min = some m ∧ 0 ≤ m) ∧
      (FromUnsigned (program.checker strict) v → (∃ m, v.min = some m ∧ m < 0) →
        v.name = d.name ∨ (program.checker strict).decls.isAlias d.name = true) := by
  refine ⟨fun c d v => Checker.isAssignable_unsigned_iff, ?_⟩
  intro program strict visit slot d v haccepted hreach hfills hu
  have hvisit := hreach.accepted (Program.visit_accepted haccepted)
  refine ⟨hfills.nonNegative hvisit hu, ?_⟩
  rintro hfrom ⟨m, hmin, hm⟩
  have hv := TypeName.isNumeric_of_isUnsigned hfrom.isUnsigned
  rcases hfills.nonNegative hvisit hu hv with hname | halias | ⟨m', hmin', hm'⟩
  · exact .inl hname
  · exact .inr halias
  · cases hmin.symm.trans hmin'
    omega

namespace Unsigned

def word : TypeExpr := .named "U32" []

def below (n : Int64) : TypeExpr := .refined word .lt (.number n none none)

def differenceOf : Expr := .binary .sub (.ident "a" none) (.ident "b" none) none

/-- The program `struct S { x: U32 }
fn f(a: U32 < 10, b: U32 < 10, n: I32 >= 0): U32 => { let d: U32 = a - b; S { x: n }; d }` -/
def record : Program :=
  ⟨[.structDecl ⟨"S", [], [⟨"x", word⟩], false, none⟩,
    .fnDecl ⟨"f", [], [⟨"a", some (below 10)⟩, ⟨"b", some (below 10)⟩,
        ⟨"n", some (.refined (.named "I32" []) .ge (.number 0 none none))⟩], some word,
      some (.block ⟨[.letDecl "d" (some word) differenceOf none,
        .expr (.structInit "S" [⟨"x", .ident "n" none⟩] none) none, .expr (.ident "d" none) none],
        none⟩),
      false, none⟩]⟩

/-- The program `type U32 = U32; fn f(x: I32): I32 => { let d: U32 = x; 0 }` -/
def renamed : Program :=
  ⟨[.typeAlias "U32" [] word false none,
    .fnDecl ⟨"f", [], [⟨"x", some (.named "I32" [])⟩], some (.named "I32" []),
      some (.block ⟨[.letDecl "d" (some word) (.ident "x" none) none,
        .expr (.number 0 none none) none], none⟩), false, none⟩]⟩

/-- The program `extern fn take(n: USize): Void;
fn f(a: U32 < 10, b: U32 < 10): I32 => { take(a - b); 0 }` -/
def handedOut : Program :=
  ⟨[.foreignFn ⟨"take", [], [⟨"n", some (.named "USize" [])⟩], some (.named "Void" []), none, false,
      none⟩,
    .fnDecl ⟨"f", [], [⟨"a", some (below 10)⟩, ⟨"b", some (below 10)⟩], some (.named "I32" []),
      some (.block ⟨[.expr (.call (.ident "take" none) [differenceOf] none) none,
        .expr (.number 0 none none) none], none⟩), false, none⟩]⟩

/-- The type of `a - b`, where both are below ten. -/
def spread : TypeInfo := { name := "U32", min := some (-9), max := some 9 }

theorem spread_fromUnsigned (strict : Bool) : FromUnsigned (record.checker strict) spread := by
  let small : TypeInfo := { name := "U32", min := some 0, max := some 9 }
  have h : (record.checker strict).arithmetic .sub small small none = .ok spread := by
    cases strict <;> rfl
  exact .difference rfl rfl h

end Unsigned

/-- The field takes a number of another type that is known not to be negative, and the difference
stays in a variable of its own type. -/
theorem unsigned_slot_sign_record :
    let c := Unsigned.record.checker true
    let n : TypeInfo := { name := "I32", min := some 0, max := some 2147483647 }
    let word : TypeInfo := { name := "U32", min := some 0 }
    Unsigned.record.check true = .ok () ∧ c.isAssignable word n = true ∧
      (∃ m, n.min = some m ∧ 0 ≤ m) ∧ Unsigned.spread.name = word.name := by
  intro c n word
  have haccepted : Unsigned.record.check true = .ok () := rfl
  obtain ⟨hassignable, hprogram⟩ := unsigned_slot_sign
  have hstart : Reaches c (Unsigned.record.visit true) _ :=
    (((Relation.ReflTransGen.refl.tail (.later rfl)).tail .first).tail .function).tail .block
  have hinit := (((hstart.tail (.later rfl)).tail .first).tail .exprStmt).tail (.fields (c := c) rfl)
  have hlet := hstart.tail .first
  have halias : c.decls.isAlias word.name ≠ true := by decide
  have hn := (hprogram Unsigned.record true _ _ word n haccepted hinit
    (.field (show _ = some (⟨"x", Unsigned.word⟩ : FieldDecl) from rfl) rfl) rfl).1 rfl
  have hsign := (hn.resolve_left (by decide)).resolve_left halias
  have hd := (hprogram Unsigned.record true _ _ word Unsigned.spread haccepted hlet
    (.slot (.initializer rfl)) rfl).2 (Unsigned.spread_fromUnsigned true) ⟨-9, rfl, by decide⟩
  exact ⟨haccepted, (hassignable c word n rfl rfl).mpr (.inr (.inr hsign)), hsign,
    hd.resolve_right halias⟩

/-- Three ways for a number that may be negative into an unsigned slot: the difference of two values
of the slot's type, any number where the name of the slot's type is declared as an alias, and an
argument of a foreign function. -/
theorem negative_reaches_unsigned :
    (Unsigned.record.check true = .ok () ∧ ∃ visit slot d,
      Reaches (Unsigned.record.checker true) (Unsigned.record.visit true) visit ∧
      Fills (Unsigned.record.checker true) visit slot d Unsigned.spread ∧
      FromUnsigned (Unsigned.record.checker true) Unsigned.spread ∧
      TypeName.isUnsigned d.name = true ∧ Unsigned.spread.min = some (-9)) ∧
    (Unsigned.renamed.check true = .ok () ∧ ∃ visit slot d v,
      Reaches (Unsigned.renamed.checker true) (Unsigned.renamed.visit true) visit ∧
      Fills (Unsigned.renamed.checker true) visit slot d v ∧ TypeName.isUnsigned d.name = true ∧
      v.isNumeric = true ∧ v.name ≠ d.name ∧ v.min = some (-2147483648)) ∧
    Unsigned.handedOut.check true = .ok () ∧ ∃ callee es loc ret flow sig place flow' param d,
      Reaches (Unsigned.handedOut.checker true) (Unsigned.handedOut.visit true)
        ⟨.expr (.call callee es loc), ret, flow⟩ ∧
      (Unsigned.handedOut.checker true).signature? callee = some sig ∧ sig.decl.params = [param] ∧
      (Unsigned.handedOut.checker true).args es ret loc flow =
        .ok ([(Unsigned.spread, place)], flow') ∧
      d = (Unsigned.handedOut.checker true).decls.resolve? param.type ∧
      TypeName.isUnsigned d.name = true ∧ Unsigned.spread.name ≠ d.name := by
  refine ⟨⟨rfl, ?_⟩, ⟨rfl, ?_⟩, rfl, ?_⟩
  · have hstart : Reaches (Unsigned.record.checker true) (Unsigned.record.visit true) _ :=
      (((Relation.ReflTransGen.refl.tail (.later rfl)).tail .first).tail .function).tail .block
    exact ⟨_, _, _, hstart.tail .first, .slot (.initializer rfl), Unsigned.spread_fromUnsigned true,
      rfl, rfl⟩
  · have hstart : Reaches (Unsigned.renamed.checker true) (Unsigned.renamed.visit true) _ :=
      (((Relation.ReflTransGen.refl.tail (.later rfl)).tail .first).tail .function).tail .block
    exact ⟨_, _, _, _, hstart.tail .first, .slot (.initializer rfl), rfl, rfl, by decide, rfl⟩
  · have hstart : Reaches (Unsigned.handedOut.checker true) (Unsigned.handedOut.visit true) _ :=
      (((Relation.ReflTransGen.refl.tail (.later rfl)).tail .first).tail .function).tail .block
    exact ⟨_, _, _, _, _, _, _, _, _, _, (hstart.tail .first).tail .exprStmt, rfl, rfl, rfl, rfl, rfl,
      by decide⟩

end TuffSafety
