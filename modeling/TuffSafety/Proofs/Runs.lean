import TuffSafety.Proofs.Execution

/-!
# Running expressions with effects

A block is an expression and may assign variables, so an expression is run on a store and leaves one.
The relation says how a run may come out and which store it leaves, for every construct; it has no
rule for a run that crashes. Where a value is not described, it may be any. What the functions do that
are called is not followed: they may write to some variables of the store, and which these are is a
parameter.
-/
namespace TuffSafety

/-! ### Stores that are altered -/

namespace Store

/-- Admissible assignments to names of a kind, and to variables of another kind in whatever layer. -/
def Alters (far near : String → Prop) : Store → Store → Prop :=
  Relation.ReflTransGen fun store store' =>
    (∃ name v, near name ∧ assign name v store = .ok store') ∨
      ∃ inner outer outer', store = inner ++ outer ∧ store' = inner ++ outer' ∧
        ∃ name v, far name ∧ assign name v outer = .ok outer'

theorem get?_append (inner outer : Store) (key : String) :
    get? (inner ++ outer) key = (get? inner key).or (get? outer key) :=
  List.findSome?_append

namespace Alters

variable {far near far' near' : String → Prop} {store mid store' : Store}

theorem mono (hfar : ∀ name, far name → far' name) (hnear : ∀ name, near name → near' name)
    (h : Alters far near store store') : Alters far' near' store store' := by
  refine Relation.ReflTransGen.mono (fun _ _ hstep => ?_) _ _ h
  rcases hstep with ⟨name, v, hname, ha⟩ | ⟨inner, outer, outer', hs, hs', name, v, hname, ha⟩
  · exact .inl ⟨name, v, hnear name hname, ha⟩
  · exact .inr ⟨inner, outer, outer', hs, hs', name, v, hfar name hname, ha⟩

theorem trans (h : Alters far near store mid) (h' : Alters far near mid store') :
    Alters far near store store' :=
  Relation.ReflTransGen.trans h h'

theorem of_assign {name : String} {v : Value} (hname : near name)
    (h : assign name v store = .ok store') : Alters far near store store' :=
  .single (.inl ⟨name, v, hname, h⟩)

/-- What is written behind the first layers. -/
theorem of_writes (inner : Store) {outer outer' : Store} (h : Writes far outer outer') :
    Alters far near (inner ++ outer) (inner ++ outer') := by
  induction h with
  | refl => exact .refl
  | tail _ hstep ih => exact ih.tail (.inr ⟨inner, _, _, rfl, rfl, hstep⟩)

/-- Without variables of the other kind there are only assignments. -/
theorem writes (h : Alters far near store store') (hfar : ∀ name, ¬ far name) :
    Writes near store store' := by
  refine Relation.ReflTransGen.mono (fun _ _ hstep => ?_) _ _ h
  rcases hstep with hnear | ⟨_, _, _, _, _, name, _, hname, _⟩
  · exact hnear
  · exact absurd hname (hfar name)

/-- What is found in the end was there before, with the same declared type. Its value is the old one
or was allowed. -/
theorem get? (h : Alters far near store store') {name : String} {cell' : Cell}
    (hcell' : store'.get? name = some cell') :
    ∃ cell, store.get? name = some cell ∧ cell'.declared = cell.declared ∧
      (cell' = cell ∨ (near name ∨ far name) ∧ cell.declared.Allows cell'.value) := by
  induction h generalizing cell' with
  | refl => exact ⟨cell', hcell', rfl, .inl rfl⟩
  | tail _ hstep ih =>
    rcases hstep with ⟨key, v, hkey, ha⟩ | ⟨inner, outer, outer', rfl, rfl, key, v, hkey, ha⟩
    · obtain ⟨old, hold, hallows, hget⟩ := assign_ok ha
      rw [hget] at hcell'
      split at hcell'
      · rename_i hname
        subst hname
        cases hcell'
        obtain ⟨cell, hcell, hdeclared, _⟩ := ih hold
        exact ⟨cell, hcell, hdeclared, .inr ⟨.inl hkey, hdeclared ▸ hallows⟩⟩
      · exact ih hcell'
    · obtain ⟨old, hold, hallows, hget⟩ := assign_ok ha
      rw [get?_append, hget] at hcell'
      rw [get?_append] at ih
      cases hinner : Store.get? inner name with
      | some found =>
        rw [hinner] at ih hcell'
        exact ih hcell'
      | none =>
        rw [hinner, Option.none_or] at ih hcell'
        split at hcell'
        · rename_i hname
          subst hname
          cases hcell'
          obtain ⟨cell, hcell, hdeclared, _⟩ := ih hold
          exact ⟨cell, hcell, hdeclared, .inr ⟨.inr hkey, hdeclared ▸ hallows⟩⟩
        · exact ih hcell'

/-- A layer hides its names from the assignments to the layers behind it. -/
theorem cons {layer : OrderedMap Cell} {rest : Store} (h : Alters far near (layer :: rest) store') :
    ∃ layer' rest', store' = layer' :: rest' ∧
      (∀ key, (layer'.get? key).isSome = (layer.get? key).isSome) ∧
      Alters far (fun name => near name ∧ layer.get? name = none) rest rest' := by
  induction h with
  | refl => exact ⟨layer, rest, rfl, fun _ => rfl, .refl⟩
  | tail _ hstep ih =>
    obtain ⟨layer', rest', rfl, hkeys, hrest⟩ := ih
    rcases hstep with ⟨name, v, hname, ha⟩ | ⟨inner, outer, outer', hs, rfl, name, v, hname, ha⟩
    · obtain ⟨layer'', rest'', rfl, hkeys', hlast⟩ := Writes.cons (.single ⟨name, v, hname, ha⟩)
      refine ⟨layer'', rest'', rfl, fun key => (hkeys' key).trans (hkeys key), hrest.trans ?_⟩
      refine Relation.ReflTransGen.mono (fun _ _ hstep => .inl ?_) _ _ hlast
      obtain ⟨key, w, ⟨hkey, hnone⟩, ha⟩ := hstep
      refine ⟨key, w, ⟨hkey, ?_⟩, ha⟩
      have hsome := hkeys key
      rw [hnone] at hsome
      exact Option.isNone_iff_eq_none.mp (Option.isSome_eq_false_iff.mp hsome.symm)
    · cases inner with
      | nil =>
        cases hs
        obtain ⟨layer'', rest'', rfl, hkeys', hlast⟩ := Writes.cons (.single ⟨name, v, hname, ha⟩)
        refine ⟨layer'', rest'', rfl, fun key => (hkeys' key).trans (hkeys key), hrest.trans ?_⟩
        exact of_writes [] (hlast.mono fun _ hname => hname.1)
      | cons first inner =>
        cases hs
        exact ⟨_, _, rfl, hkeys, hrest.tail (.inr ⟨inner, outer, outer', rfl, rfl, name, v, hname, ha⟩)⟩

end Alters

end Store

/-! ### Runs -/

/-- How the statements of a block are left before their end. -/
inductive Jump where
  | breakLoop
  | continueLoop
  | ret

/-- How a run comes out: with a value or none, or by a jump. -/
inductive Outcome where
  | value (v : Option Value)
  | jump (j : Jump)

/-- How a loop comes out when its body comes out so; none if the loop goes on. -/
def Outcome.endsLoop? : Outcome → Option Outcome
  | .value _ => none
  | .jump .continueLoop => none
  | .jump .breakLoop => some (.value none)
  | .jump .ret => some (.jump .ret)

/-- The names that a pattern binds. -/
def Pattern.binds : Pattern → List String
  | .struct _ fields => fields.map PatternField.bind
  | _ => []

/-- The operands that are run first, one after the other. A function that is called by its name is
not looked for among the variables. -/
def Expr.operands : Expr → List Expr
  | .binary op left right _ => if op.isLogical then [left] else [left, right]
  | .unary _ operand _ => [operand]
  | .call (.ident ..) args _ => args
  | .call callee args _ => args ++ [callee]
  | .member object _ _ => [object]
  | .index target position _ => [target, position]
  | .structInit _ fields _ => fields.map FieldInit.value
  | .ite condition _ _ _ => [condition]
  | .matchOn target _ _ => [target]
  | .isPattern operand _ _ => [operand]
  | .unwrap operand _ => [operand]
  | _ => []

/-- The operands of a statement. A place that is not a name comes behind the value. -/
def Stmt.operands : Stmt → List Expr
  | .letDecl _ _ value _ => [value]
  | .assign (.ident ..) value _ => [value]
  | .assign target value _ => [value, target]
  | .ret value _ => value.toList
  | .forLoop _ first last _ _ => [first, last]
  | _ => []

/-- Whether nothing is said about the value of an expression. -/
def Expr.isVague : Expr → Bool
  | .float .. | .string .. | .char .. | .unary .ref .. | .unary .refMut .. | .member ..
  | .structInit .. | .isPattern .. | .unwrap .. => true
  | _ => false

def Expr.isName : Expr → Bool
  | .ident .. => true
  | _ => false

/-- What is run. The statements come behind one that had the given value; the rounds are those of a
loop over a range from where it has got to. -/
inductive Runnable where
  | expr (e : Expr)
  | operands (es : List Expr)
  | stmt (s : Stmt)
  | stmts (last : Option Value) (ss : List Stmt)
  | rounds (iterator : String) (next last : Int) (body : Block)

/-- What is run starts from a store, comes out in some way and leaves a store. Operands come from left
to right, and the right operand of `&&` and `||` is run only when the left one does not decide. What
is stored inside an array or a struct is not described, so an element may have any value, and a
variable is written to under its name only. A call may write to the variables around the function that
is called, to those that are far from the call; which names these may be is given for every callee. -/
inductive Ends (far : Expr → String → Prop) : Runnable → Store → Outcome → Store → Prop where
  | number {value suffix loc s} :
      Ends far (.expr (.number value suffix loc)) s (.value (some (.int value.toInt))) s
  | bool {b loc s} : Ends far (.expr (.bool b loc)) s (.value (some (.bool b))) s
  | ident {name loc s v} (h : s.env name = some v) :
      Ends far (.expr (.ident name loc)) s (.value (some v)) s
  /-- The name of something that is not a variable. -/
  | constant {name loc s v} (h : s.env name = none) :
      Ends far (.expr (.ident name loc)) s (.value v) s
  | vague {e s v s'} (he : e.isVague = true) (h : Ends far (.operands e.operands) s (.value none) s') :
      Ends far (.expr e) s (.value v) s'
  | neg {e loc s n s'} (h : Ends far (.expr e) s (.value (some (.int n))) s') :
      Ends far (.expr (.unary .neg e loc)) s (.value (some (.int (-n)))) s'
  | not {e loc s b s'} (h : Ends far (.expr e) s (.value (some (.bool b))) s') :
      Ends far (.expr (.unary .not e loc)) s (.value (some (.bool !b))) s'
  | andFalse {l r loc s s'} (hl : Ends far (.expr l) s (.value (some (.bool false))) s') :
      Ends far (.expr (.binary .and l r loc)) s (.value (some (.bool false))) s'
  | andTrue {l r loc s s₁ o s'} (hl : Ends far (.expr l) s (.value (some (.bool true))) s₁)
      (hr : Ends far (.expr r) s₁ o s') : Ends far (.expr (.binary .and l r loc)) s o s'
  | orTrue {l r loc s s'} (hl : Ends far (.expr l) s (.value (some (.bool true))) s') :
      Ends far (.expr (.binary .or l r loc)) s (.value (some (.bool true))) s'
  | orFalse {l r loc s s₁ o s'} (hl : Ends far (.expr l) s (.value (some (.bool false))) s₁)
      (hr : Ends far (.expr r) s₁ o s') : Ends far (.expr (.binary .or l r loc)) s o s'
  | binary {op l r loc s a s₁ b s' v} (hop : op.isLogical = false)
      (hl : Ends far (.expr l) s (.value (some a)) s₁) (hr : Ends far (.expr r) s₁ (.value (some b)) s')
      (h : Value.operate op a b = .ok v) :
      Ends far (.expr (.binary op l r loc)) s (.value (some v)) s'
  /-- Values that are compared although no order or equality of them is described. -/
  | compared {op l r loc s a s₁ b s' v} (hop : op.isComparison = true)
      (hl : Ends far (.expr l) s (.value a) s₁) (hr : Ends far (.expr r) s₁ (.value b) s')
      (h : ∀ x y, a = some x → b = some y → Value.operate op x y = .error .undefined) :
      Ends far (.expr (.binary op l r loc)) s (.value v) s'
  | index {target position loc s items s₁ n s' w v}
      (ht : Ends far (.expr target) s (.value (some (.array items))) s₁)
      (hp : Ends far (.expr position) s₁ (.value (some (.int n))) s') (h : Value.item items n = .ok w) :
      Ends far (.expr (.index target position loc)) s (.value (some v)) s'
  | call {callee args loc s inner outer outer' v}
      (h : Ends far (.operands (Expr.call callee args loc).operands) s (.value none) (inner ++ outer))
      (hw : Store.Writes (far callee) outer outer') :
      Ends far (.expr (.call callee args loc)) s (.value v) (inner ++ outer')
  | iteTrue {cond t e loc s s₁ o s'} (hc : Ends far (.expr cond) s (.value (some (.bool true))) s₁)
      (ht : Ends far (.expr t) s₁ o s') : Ends far (.expr (.ite cond t e loc)) s o s'
  | iteFalse {cond t e loc s s₁ o s'} (hc : Ends far (.expr cond) s (.value (some (.bool false))) s₁)
      (he : Ends far (.expr e) s₁ o s') : Ends far (.expr (.ite cond t (some e) loc)) s o s'
  | iteNone {cond t loc s s'} (hc : Ends far (.expr cond) s (.value (some (.bool false))) s') :
      Ends far (.expr (.ite cond t none loc)) s (.value none) s'
  /-- Which arm is taken, if one is, is not described. What the pattern binds is in a layer of its own. -/
  | matchOn {target cs loc s v s₁ arm layer o layer' s'} (ht : Ends far (.expr target) s (.value v) s₁)
      (harm : arm ∈ cs) (hlayer : ∀ name ∈ arm.pattern.binds, (layer.get? name).isSome)
      (hb : Ends far (.expr arm.body) (layer :: s₁) o (layer' :: s')) :
      Ends far (.expr (.matchOn target cs loc)) s o s'
  | matchNone {target cs loc s v s'} (ht : Ends far (.expr target) s (.value v) s') :
      Ends far (.expr (.matchOn target cs loc)) s (.value none) s'
  | block {ss loc s o layer s'} (h : Ends far (.stmts none ss) s.push o (layer :: s')) :
      Ends far (.expr (.block ⟨ss, loc⟩)) s o s'
  | unwrapReturns {operand loc s v s'} (h : Ends far (.expr operand) s (.value v) s') :
      Ends far (.expr (.unwrap operand loc)) s (.jump .ret) s'
  | operandJumps {e s j s'} (h : Ends far (.operands e.operands) s (.jump j) s') :
      Ends far (.expr e) s (.jump j) s'
  | noOperand {s} : Ends far (.operands []) s (.value none) s
  | operand {e es s v s₁ o s'} (he : Ends far (.expr e) s (.value v) s₁)
      (hs : Ends far (.operands es) s₁ o s') : Ends far (.operands (e :: es)) s o s'
  | jumpingOperand {e es s j s'} (he : Ends far (.expr e) s (.jump j) s') :
      Ends far (.operands (e :: es)) s (.jump j) s'
  | nil {last s} : Ends far (.stmts last []) s (.value last) s
  | cons {last st ss s v s₁ o s'} (h : Ends far (.stmt st) s (.value v) s₁)
      (hs : Ends far (.stmts v ss) s₁ o s') : Ends far (.stmts last (st :: ss)) s o s'
  | cut {last st ss s j s'} (h : Ends far (.stmt st) s (.jump j) s') :
      Ends far (.stmts last (st :: ss)) s (.jump j) s'
  | letDecl {name type value loc s w v s₁ s'} (h : Ends far (.expr value) s (.value w) s₁)
      (hv : w.getD v = v) (hd : s₁.declare name ⟨.unknown, v⟩ = .ok s') :
      Ends far (.stmt (.letDecl name type value loc)) s (.value none) s'
  | assign {name place value loc s w v s₁ s'} (h : Ends far (.expr value) s (.value w) s₁)
      (hv : w.getD v = v) (ha : s₁.assign name v = .ok s') :
      Ends far (.stmt (.assign (.ident name place) value loc)) s (.value none) s'
  | assignInto {target value loc s s'} (ht : target.isName = false)
      (h : Ends far (.operands (Stmt.assign target value loc).operands) s (.value none) s') :
      Ends far (.stmt (.assign target value loc)) s (.value none) s'
  | exprStmt {e loc s o s'} (h : Ends far (.expr e) s o s') : Ends far (.stmt (.expr e loc)) s o s'
  | blockStmt {body s o s'} (h : Ends far (.expr (.block body)) s o s') :
      Ends far (.stmt (.block body)) s o s'
  | ifStmt {cond t e loc s o s'} (h : Ends far (.expr (.ite cond t e loc)) s o s') :
      Ends far (.stmt (.ite cond t e loc)) s o s'
  | declaration {st s} (h : st.isDeclaration = true) : Ends far (.stmt st) s (.value none) s
  | ret {value loc s s'} (h : Ends far (.operands (Stmt.ret value loc).operands) s (.value none) s') :
      Ends far (.stmt (.ret value loc)) s (.jump .ret) s'
  | breakLoop {loc s} : Ends far (.stmt (.breakLoop loc)) s (.jump .breakLoop) s
  | continueLoop {loc s} : Ends far (.stmt (.continueLoop loc)) s (.jump .continueLoop) s
  | stmtJumps {st s j s'} (h : Ends far (.operands st.operands) s (.jump j) s') :
      Ends far (.stmt st) s (.jump j) s'
  | whileDone {cond body loc s s'} (hc : Ends far (.expr cond) s (.value (some (.bool false))) s') :
      Ends far (.stmt (.whileLoop cond body loc)) s (.value none) s'
  | whileRound {cond body loc s s₁ o s₂ o' s'}
      (hc : Ends far (.expr cond) s (.value (some (.bool true))) s₁)
      (hb : Ends far (.expr (.block body)) s₁ o s₂) (ho : o.endsLoop? = none)
      (h : Ends far (.stmt (.whileLoop cond body loc)) s₂ o' s') :
      Ends far (.stmt (.whileLoop cond body loc)) s o' s'
  | whileLeft {cond body loc s s₁ o s' o'} (hc : Ends far (.expr cond) s (.value (some (.bool true))) s₁)
      (hb : Ends far (.expr (.block body)) s₁ o s') (ho : o.endsLoop? = some o') :
      Ends far (.stmt (.whileLoop cond body loc)) s o' s'
  /-- Whether a jump out of the condition ends this loop or one around it is left open. -/
  | whileJumps {cond body loc s j o s'} (hc : Ends far (.expr cond) s (.jump j) s') :
      Ends far (.stmt (.whileLoop cond body loc)) s o s'
  | forLoop {iterator low high body loc s a s₁ b s₂ o s'}
      (hl : Ends far (.expr low) s (.value (some (.int a))) s₁)
      (hh : Ends far (.expr high) s₁ (.value (some (.int b))) s₂)
      (h : Ends far (.rounds iterator a b body) s₂ o s') :
      Ends far (.stmt (.forLoop iterator low high body loc)) s o s'
  | roundsDone {iterator a b body s} (h : b ≤ a) :
      Ends far (.rounds iterator a b body) s (.value none) s
  | roundsNext {iterator a b body s o layer s₁ o' s'} (h : a < b)
      (hb : Ends far (.expr (.block body)) (OrderedMap.empty.insert iterator ⟨.unknown, .int a⟩ :: s) o
        (layer :: s₁)) (ho : o.endsLoop? = none)
      (hr : Ends far (.rounds iterator (a + 1) b body) s₁ o' s') :
      Ends far (.rounds iterator a b body) s o' s'
  | roundsLeft {iterator a b body s o layer s' o'} (h : a < b)
      (hb : Ends far (.expr (.block body)) (OrderedMap.empty.insert iterator ⟨.unknown, .int a⟩ :: s) o
        (layer :: s')) (ho : o.endsLoop? = some o') : Ends far (.rounds iterator a b body) s o' s'

/-- Calls of functions that write to none of the variables. -/
def quietCalls : Expr → String → Prop :=
  fun _ _ => False

/-- What is run comes to its end, with a value or none. -/
abbrev Runs (far : Expr → String → Prop) (code : Runnable) (s : Store) (v : Option Value) (s' : Store) :
    Prop :=
  Ends far code s (.value v) s'

end TuffSafety
