import TuffSafety.Proofs.ExpressionSafety

/-!
# Running statements

Statements are run on a store of nested layers, one for each scope that has been entered. A variable
remembers the type that was declared for it, and a run goes on only while every stored value obeys
that type; the declared types are the ones that the checker keeps. A run is cut off after a number
of steps, and shows every point that it has come through. Its main statement is about what a run
leaves alone: outside the innermost layer only the names change that the checker has noted as
assigned.
-/
namespace TuffSafety

/-- The values that may be stored in a variable of a type. -/
def TypeInfo.Allows (t : TypeInfo) : Value → Prop
  | .int n => t.Admits n
  | _ => True

instance (t : TypeInfo) (v : Value) : Decidable (t.Allows v) :=
  match v with
  | .int n => inferInstanceAs (Decidable (t.Admits n))
  | .bool _ | .array _ => inferInstanceAs (Decidable True)

/-- A variable at run time. -/
structure Cell where
  declared : TypeInfo
  value : Value

/-- The variables by scope, the innermost first. -/
abbrev Store : Type := List (OrderedMap Cell)

/-- Why a run does not come to an end. -/
inductive Ending where
  | crash (crash : Crash)
  | undefined
  /-- A value does not obey the declared type of the variable it is stored in. -/
  | inadmissible
  | outOfSteps
deriving DecidableEq, Repr

namespace Store

def get? (store : Store) (name : String) : Option Cell :=
  store.findSome? fun layer => layer.get? name

def env (store : Store) : Env := fun name =>
  (store.get? name).map Cell.value

/-- Enters a scope. -/
def push (store : Store) : Store :=
  .empty :: store

def declare (store : Store) (name : String) (cell : Cell) : Except Ending Store :=
  if cell.declared.Allows cell.value then
    match store with
    | [] => .ok [OrderedMap.empty.insert name cell]
    | layer :: rest => .ok (layer.insert name cell :: rest)
  else .error .inadmissible

/-- Stores a value in the innermost variable of that name. -/
def assign (name : String) (v : Value) : Store → Except Ending Store
  | [] => .error .undefined
  | layer :: rest =>
    match layer.get? name with
    | some cell =>
      if cell.declared.Allows v then .ok (layer.insert name { cell with value := v } :: rest)
      else .error .inadmissible
    | none => do
      let rest ← assign name v rest
      return layer :: rest

theorem get?_cons (layer : OrderedMap Cell) (rest : Store) (key : String) :
    get? (layer :: rest) key = (layer.get? key).or (get? rest key) := by
  unfold get?
  rw [List.findSome?_cons]
  cases layer.get? key <;> rfl

theorem declare_ok {store store' : Store} {name : String} {cell : Cell}
    (h : store.declare name cell = .ok store') :
    cell.declared.Allows cell.value ∧
      ∀ key, store'.get? key = if key = name then some cell else store.get? key := by
  unfold declare at h
  split at h
  · rename_i hallows
    refine ⟨hallows, ?_⟩
    intro key
    cases store with
    | nil =>
      cases h
      rw [get?_cons, OrderedMap.get?_insert]
      split <;> rfl
    | cons layer rest =>
      cases h
      rw [get?_cons, OrderedMap.get?_insert, get?_cons]
      split <;> rfl
  · cases h

theorem declare_cons_ok {layer : OrderedMap Cell} {rest store' : Store} {name : String} {cell : Cell}
    (h : declare (layer :: rest) name cell = .ok store') : store' = layer.insert name cell :: rest := by
  unfold declare at h
  split at h <;> cases h
  rfl

/-- An assignment changes one layer: the first one, or else a later one. -/
theorem assign_cons_ok {layer : OrderedMap Cell} {rest store' : Store} {name : String} {v : Value}
    (h : assign name v (layer :: rest) = .ok store') :
    (∃ cell, layer.get? name = some cell ∧ cell.declared.Allows v ∧
        store' = layer.insert name { cell with value := v } :: rest) ∨
      (layer.get? name = none ∧ ∃ rest', assign name v rest = .ok rest' ∧ store' = layer :: rest') := by
  rw [assign] at h
  split at h
  · rename_i cell hcell
    split at h
    · rename_i hallows
      cases h
      exact .inl ⟨cell, hcell, hallows, rfl⟩
    · cases h
  · rename_i hnone
    obtain ⟨rest', hrest, h⟩ := bind_eq_ok.mp h
    cases h
    exact .inr ⟨hnone, rest', hrest, rfl⟩

theorem assign_ok {store store' : Store} {name : String} {v : Value}
    (h : assign name v store = .ok store') :
    ∃ cell, store.get? name = some cell ∧ cell.declared.Allows v ∧
      ∀ key, store'.get? key = if key = name then some { cell with value := v } else store.get? key := by
  induction store generalizing store' with
  | nil => cases h
  | cons layer rest ih =>
    rcases assign_cons_ok h with ⟨cell, hcell, hallows, rfl⟩ | ⟨hnone, rest', hrest, rfl⟩
    · refine ⟨cell, by rw [get?_cons, hcell]; rfl, hallows, ?_⟩
      intro key
      rw [get?_cons, OrderedMap.get?_insert, get?_cons]
      split <;> rfl
    · obtain ⟨cell, hcell, hallows, hget⟩ := ih hrest
      refine ⟨cell, by rw [get?_cons, hnone, hcell]; rfl, hallows, ?_⟩
      intro key
      rw [get?_cons, get?_cons, hget]
      split
      · rename_i hkey
        rw [hkey, hnone]
        rfl
      · rfl

/-- Admissible assignments to names of a kind. -/
def Writes (P : String → Prop) : Store → Store → Prop :=
  Relation.ReflTransGen fun store store' => ∃ name v, P name ∧ assign name v store = .ok store'

namespace Writes

variable {P Q : String → Prop} {store store' : Store}

theorem mono (hPQ : ∀ name, P name → Q name) (h : Writes P store store') : Writes Q store store' :=
  Relation.ReflTransGen.mono (fun _ _ ⟨name, v, hp, ha⟩ => ⟨name, v, hPQ name hp, ha⟩) _ _ h

/-- What is found behind the assignments was there before, with the same declared type. Its value is
the old one or was allowed. -/
theorem get? (h : Writes P store store') {name : String} {cell' : Cell}
    (hcell' : store'.get? name = some cell') :
    ∃ cell, store.get? name = some cell ∧ cell'.declared = cell.declared ∧
      (cell' = cell ∨ P name ∧ cell.declared.Allows cell'.value) := by
  induction h generalizing cell' with
  | refl => exact ⟨cell', hcell', rfl, .inl rfl⟩
  | tail _ hstep ih =>
    obtain ⟨key, v, hp, ha⟩ := hstep
    obtain ⟨old, hold, hallows, hget⟩ := assign_ok ha
    rw [hget] at hcell'
    split at hcell'
    · rename_i hname
      subst hname
      cases hcell'
      obtain ⟨cell, hcell, hdeclared, _⟩ := ih hold
      exact ⟨cell, hcell, hdeclared, .inr ⟨hp, hdeclared ▸ hallows⟩⟩
    · exact ih hcell'

/-- A layer hides its names from the assignments to the layers behind it. -/
theorem cons {layer : OrderedMap Cell} {rest : Store} (h : Writes P (layer :: rest) store') :
    ∃ layer' rest', store' = layer' :: rest' ∧
      (∀ key, (layer'.get? key).isSome = (layer.get? key).isSome) ∧
      Writes (fun name => P name ∧ layer.get? name = none) rest rest' := by
  induction h with
  | refl => exact ⟨layer, rest, rfl, fun _ => rfl, .refl⟩
  | tail _ hstep ih =>
    obtain ⟨layer', rest', rfl, hkeys, hrest⟩ := ih
    obtain ⟨name, v, hp, ha⟩ := hstep
    rcases assign_cons_ok ha with ⟨cell, hcell, _, rfl⟩ | ⟨hnone, rest'', ha', rfl⟩
    · refine ⟨_, rest', rfl, ?_, hrest⟩
      intro key
      rw [OrderedMap.get?_insert, ← hkeys]
      split
      · rename_i hkey
        rw [hkey, hcell]
        rfl
      · rfl
    · refine ⟨layer', rest'', rfl, hkeys, hrest.tail ⟨name, v, ⟨hp, ?_⟩, ha'⟩⟩
      have hsome := hkeys name
      rw [hnone] at hsome
      exact Option.isNone_iff_eq_none.mp (Option.isSome_eq_false_iff.mp hsome.symm)

theorem of_push (h : Writes P store.push store') :
    ∃ layer rest, store' = layer :: rest ∧ Writes P store rest := by
  obtain ⟨layer, rest, hstore', _, hrest⟩ := h.cons
  exact ⟨layer, rest, hstore', hrest.mono fun _ hname => hname.1⟩

end Writes

end Store

/-! ### Runs -/

/-- A point of a program, as the checker sees it, and the store with which a run came there. -/
structure Point where
  flow : Flow
  store : Store

/-- The points that a run came through and what it ended with. -/
structure Run (α : Type) where
  points : List Point
  result : Except Ending α

namespace Run

instance : Monad Run where
  pure a := ⟨[], .ok a⟩
  bind x f :=
    match x.result with
    | .ok a => ⟨x.points ++ (f a).points, (f a).result⟩
    | .error ending => ⟨x.points, .error ending⟩

/-- Shows the point that has been reached. -/
def reach (flow : Flow) (store : Store) : Run Unit :=
  ⟨[⟨flow, store⟩], .ok ()⟩

def stop {α : Type} (ending : Ending) : Run α :=
  ⟨[], .error ending⟩

def ofExcept {α : Type} (result : Except Ending α) : Run α :=
  ⟨[], result⟩

def ofHalt {α : Type} : Except Halt α → Run α
  | .ok a => pure a
  | .error (.crash crash) => stop (.crash crash)
  | .error .undefined => stop .undefined

theorem bind_result_ok {α β : Type} {x : Run α} {f : α → Run β} {b : β} :
    (x >>= f).result = .ok b ↔ ∃ a, x.result = .ok a ∧ (f a).result = .ok b := by
  obtain ⟨points, result⟩ := x
  cases result with
  | ok a =>
    constructor
    · exact fun h => ⟨a, rfl, h⟩
    · rintro ⟨_, ha, h⟩
      cases ha
      exact h
  | error ending =>
    constructor
    · intro h
      cases h
    · rintro ⟨_, ha, _⟩
      cases ha

/-- Every point is of a kind, the run does not crash, and its result has a property. -/
structure Holds {α : Type} (R : Point → Prop) (P : α → Prop) (x : Run α) : Prop where
  points : ∀ p ∈ x.points, R p
  noCrash : ∀ crash, x.result ≠ .error (.crash crash)
  result : ∀ a, x.result = .ok a → P a

section

variable {α β : Type} {R : Point → Prop} {P : α → Prop} {Q : β → Prop}

theorem Holds.bind {x : Run α} {f : α → Run β} (hx : x.Holds R P)
    (hf : ∀ a, x.result = .ok a → P a → (f a).Holds R Q) : (x >>= f).Holds R Q := by
  obtain ⟨points, result⟩ := x
  cases result with
  | ok a =>
    have ha := hf a rfl (hx.result a rfl)
    refine ⟨?_, ha.noCrash, ha.result⟩
    intro p hp
    rcases List.mem_append.mp hp with hp | hp
    · exact hx.points p hp
    · exact ha.points p hp
  | error ending =>
    refine ⟨hx.points, ?_, fun b hb => by cases hb⟩
    intro crash hcrash
    cases hcrash
    exact hx.noCrash crash rfl

theorem holds_pure {a : α} (ha : P a) : Holds R P (Pure.pure a : Run α) :=
  ⟨fun _ hp => (List.not_mem_nil hp).elim, nofun, fun _ h => Except.ok.inj h ▸ ha⟩

theorem holds_reach {flow : Flow} {store : Store} (h : R ⟨flow, store⟩) :
    (reach flow store).Holds R fun _ => True :=
  ⟨fun _ hp => List.mem_singleton.mp hp ▸ h, nofun, fun _ _ => trivial⟩

theorem holds_stop {ending : Ending} (h : ∀ crash, ending ≠ .crash crash) :
    (stop ending : Run α).Holds R P :=
  ⟨fun _ hp => (List.not_mem_nil hp).elim, fun crash hc => h crash (Except.error.inj hc),
    nofun⟩

theorem holds_ofExcept {x : Except Ending α} (hcrash : ∀ crash, x ≠ .error (.crash crash))
    (h : ∀ a, x = .ok a → P a) : (ofExcept x).Holds R P :=
  ⟨fun _ hp => (List.not_mem_nil hp).elim, hcrash, h⟩

theorem holds_ofHalt {x : Except Halt α} (h : Safe P x) : (ofHalt x).Holds R P := by
  cases x with
  | ok a => exact holds_pure h
  | error halt =>
    cases halt with
    | crash crash => exact h.elim
    | undefined => exact holds_stop nofun

end

end Run

/-- What is known behind a part; what was known before it where the part is not accepted. -/
def Flow.behind (flow : Flow) (step : Checker.Step) : Flow :=
  match step flow with
  | .ok (_, flow') => flow'
  | .error _ => flow

theorem Flow.behind_eq {flow flow' : Flow} {step : Checker.Step} {t : TypeInfo}
    (h : step flow = .ok (t, flow')) : flow.behind step = flow' := by
  rw [behind, h]

/-- A branch of an `if` as a statement. -/
def Stmt.ofBranch : Expr → Stmt
  | .block body => .block body
  | .ite condition thenBranch elseBranch loc => .ite condition thenBranch elseBranch loc
  | e => .expr e none

/-- Runs a part in a layer of its own. -/
def Store.enclosed (store : Store) (part : Store → Run Store) : Run Store := do
  let store ← part store.push
  return store.tail

/-- The outcome of a condition. -/
def Store.test (store : Store) (condition : Expr) : Run Bool :=
  .ofHalt (condition.eval store.env >>= Value.toBool)

namespace Checker

mutual

/-- Runs statements one after the other. -/
def run (c : Checker) (ret : Option TypeInfo) : Nat → List Stmt → Flow → Store → Run Store
  | 0, _, _, _ => .stop .outOfSteps
  | n + 1, ss, flow, store => do
    Run.reach flow store
    match ss with
    | [] => return store
    | s :: ss =>
      let store ← c.exec ret n s flow store
      c.run ret n ss (flow.behind (c.stmt s ret)) store

/-- Runs a statement. A new variable is declared with the type that the checker keeps for it. -/
def exec (c : Checker) (ret : Option TypeInfo) : Nat → Stmt → Flow → Store → Run Store
  | 0, _, _, _ => .stop .outOfSteps
  | _ + 1, .letDecl name type value loc, flow, store => do
    let v ← Run.ofHalt (value.eval store.env)
    match (flow.behind (c.stmt (.letDecl name type value loc) ret)).scope.get? name with
    | some b => .ofExcept (store.declare name ⟨b.declared, v⟩)
    | none => .stop .undefined
  | _ + 1, .assign (.ident name _) value _, _, store => do
    let v ← Run.ofHalt (value.eval store.env)
    .ofExcept (store.assign name v)
  | _ + 1, .expr e _, _, store => do
    let _ ← Run.ofHalt (e.eval store.env)
    return store
  | n + 1, .block ⟨ss, _⟩, flow, store => store.enclosed (c.run ret n ss (flow.under .empty))
  | n + 1, .ite condition thenBranch elseBranch _, flow, store => do
    if ← store.test condition then
      store.enclosed (c.exec ret n (.ofBranch thenBranch) (flow.under (Facts.derive condition true)))
    else
      match elseBranch with
      | some elseBranch =>
        let flow := flow.behind (nested (Facts.derive condition true) (c.expr thenBranch ret))
        store.enclosed (c.exec ret n (.ofBranch elseBranch) (flow.under (Facts.derive condition false)))
      | none => return store
  | n + 1, .whileLoop condition body _, flow, store =>
    store.enclosed (c.rounds ret n condition body (loopStart body flow))
  | _ + 1, _, _, _ => .stop .undefined

/-- Runs a loop from the start of a round. -/
def rounds (c : Checker) (ret : Option TypeInfo) : Nat → Expr → Block → Flow → Store → Run Store
  | 0, _, _, _, _ => .stop .outOfSteps
  | n + 1, condition, body, start, store => do
    Run.reach start store
    if ← store.test condition then
      let store ← c.exec ret n (.block body) (start.learn (Facts.derive condition true)) store
      c.rounds ret n condition body start store
    else return store

end

end Checker

/-- The statements of which the runs are described: their expressions have no effects and index no
array, and annotations are of ordinary types. -/
inductive Stmt.Simple (c : Checker) : Stmt → Prop where
  | letDecl {name type value loc} (hv : value.Plain fun _ => False)
      (ht : ∀ annotation ∈ type, (c.decls.resolve annotation).Ordinary) :
      Simple c (.letDecl name type value loc)
  | assign {name place value loc} (hv : value.Plain fun _ => False) :
      Simple c (.assign (.ident name place) value loc)
  | expr {e loc} (he : e.Plain fun _ => False) : Simple c (.expr e loc)
  | block {ss loc} (hs : ∀ s ∈ ss, Simple c s) : Simple c (.block ⟨ss, loc⟩)
  | ite {cond thenBranch elseBranch loc} (hc : cond.Plain fun _ => False)
      (ht : Simple c (.ofBranch thenBranch)) (he : ∀ e ∈ elseBranch, Simple c (.ofBranch e)) :
      Simple c (.ite cond thenBranch elseBranch loc)
  | whileLoop {cond ss place loc} (hc : cond.Plain fun _ => False) (hs : ∀ s ∈ ss, Simple c s) :
      Simple c (.whileLoop cond ⟨ss, place⟩ loc)

/-- Whether a statement declares a variable. -/
def Stmt.isLet : Stmt → Bool
  | .letDecl .. => true
  | _ => false

/-- Whether a statement declares something that is known throughout the program. -/
def Stmt.isDeclaration : Stmt → Bool
  | .fnDecl _ | .foreignFn _ | .structDecl _ | .enumDecl _ => true
  | .typeAlias .. | .foreignType .. | .foreignLet .. => true
  | _ => false

theorem Stmt.isLet_ofBranch (e : Expr) : (Stmt.ofBranch e).isLet = false := by
  cases e <;> rfl

theorem Checker.stmt_ofBranch (c : Checker) (e : Expr) (ret : Option TypeInfo) (flow : Flow) :
    c.stmt (.ofBranch e) ret flow = c.expr e ret flow := by
  cases e with
  | block body =>
    obtain ⟨ss, loc⟩ := body
    rw [Stmt.ofBranch, Checker.stmt, Checker.expr]
  | ite => rw [Stmt.ofBranch, Checker.stmt, Checker.expr]
  | _ =>
    show c.stmt (.expr _ none) ret flow = _
    rw [Checker.stmt]

theorem Assigned.stmt_ofBranch (e : Expr) : Assigned.stmt (.ofBranch e) = Assigned.expr e := by
  cases e with
  | block body =>
    obtain ⟨ss, loc⟩ := body
    rw [Stmt.ofBranch, Assigned.stmt, Assigned.expr]
  | ite => rw [Stmt.ofBranch, Assigned.stmt, Assigned.expr]
  | _ =>
    show Assigned.stmt (.expr _ none) = _
    rw [Assigned.stmt]

/-! ### What a statement does to the flow -/

/-- Visible names stay visible, and names noted as assigned stay noted. -/
structure Flow.Extends (flow flow' : Flow) : Prop where
  visible : ∀ name, (flow.scope.get? name).isSome → (flow'.scope.get? name).isSome
  assigned : ∀ name ∈ flow.scope.assigned, name ∈ flow'.scope.assigned

namespace Flow

theorem Extends.refl (flow : Flow) : flow.Extends flow :=
  ⟨fun _ h => h, fun _ h => h⟩

theorem Extends.trans {a b c : Flow} (h : a.Extends b) (h' : b.Extends c) : a.Extends c :=
  ⟨fun name hn => h'.visible name (h.visible name hn),
    fun name hn => h'.assigned name (h.assigned name hn)⟩

theorem extends_loosen (flow : Flow) (names : List String) : flow.Extends (flow.loosen names) := by
  refine ⟨?_, fun name h => (Scope.mem_assigned_widenAll _ _ _).mpr (.inl h)⟩
  intro name h
  rw [loosen, Scope.get?_widenAll]
  split
  · rwa [Option.isSome_map]
  · exact h

theorem locals_loosen (flow : Flow) (names : List String) :
    (flow.loosen names).scope.locals = flow.scope.locals :=
  Scope.locals_widenAll flow.scope names

theorem extends_declare (flow : Flow) (name : String) (b : Binding) (facts : Facts) :
    flow.Extends ⟨flow.scope.declare name b, facts⟩ := by
  refine ⟨?_, fun key h => by rwa [Scope.assigned_declare]⟩
  intro key h
  rw [Scope.get?_declare]
  split
  · rfl
  · exact h

theorem extends_update (flow : Flow) (name : String) (t : TypeInfo) (facts : Facts) :
    flow.Extends ⟨flow.scope.update name t, facts⟩ := by
  refine ⟨?_, fun key h => (Scope.mem_assigned_update _ _ _ _).mpr (.inl h)⟩
  intro key h
  rw [Scope.get?_update]
  split
  · rename_i hkey
    subst hkey
    rwa [Option.isSome_map]
  · exact h

end Flow

namespace Stmt.Simple

variable {c : Checker} {s : Stmt} {ss : List Stmt} {ret : Option TypeInfo} {flow flow' : Flow}
  {t last : TypeInfo}

/-- A statement declares a variable, gives one a new value, or drops what is known about names, up to
once for each of two branches. -/
theorem flow_cases (hs : s.Simple c) (h : c.stmt s ret flow = .ok (t, flow')) :
    (∃ name b facts, s.isLet = true ∧ flow' = ⟨flow.scope.declare name b, facts⟩) ∨
      (∃ name t facts, flow' = ⟨flow.scope.update name t, facts⟩) ∨
      ∃ names names', flow' = (flow.loosen names).loosen names' := by
  cases hs with
  | letDecl hv =>
    obtain ⟨info, mid, hvalue, hd⟩ := Checker.letDecl_ok h
    obtain rfl := hv.flow_eq hvalue
    obtain ⟨b, rfl, _⟩ := Checker.declare_ok hd
    exact .inl ⟨_, b, _, rfl, rfl⟩
  | assign hv =>
    obtain ⟨info, mid, hvalue, ha⟩ := Checker.assign_ident_ok h
    obtain rfl := hv.flow_eq hvalue
    rcases Checker.assign_ok ha with ⟨_, rfl⟩ | ⟨b, _, _, rfl⟩
    · exact .inr (.inr ⟨[], [], rfl⟩)
    · exact .inr (.inl ⟨_, _, _, rfl⟩)
  | expr he =>
    rw [Checker.stmt] at h
    obtain rfl := he.flow_eq h
    exact .inr (.inr ⟨[], [], rfl⟩)
  | block =>
    rw [Checker.stmt] at h
    obtain ⟨inner, _, rfl⟩ := Checker.nested_ok h
    exact .inr (.inr ⟨_, [], rfl⟩)
  | @ite cond thenBranch elseBranch loc hc =>
    obtain ⟨tested, mid, thenInfo, after, hcond, ht, he⟩ := Checker.ite_stmt_ok h
    obtain rfl := hc.flow_eq hcond
    obtain ⟨inner, _, rfl⟩ := Checker.nested_ok ht
    rcases he with ⟨e, elseInfo, _, he⟩ | ⟨_, rfl⟩
    · obtain ⟨inner', _, rfl⟩ := Checker.nested_ok he
      exact .inr (.inr ⟨_, _, rfl⟩)
    · exact .inr (.inr ⟨_, [], rfl⟩)
  | whileLoop =>
    obtain ⟨tested, start, result, inner, _, _, rfl⟩ := Checker.whileLoop_stmt_ok h
    exact .inr (.inr ⟨_, [], rfl⟩)

theorem flow_extends (hs : s.Simple c) (h : c.stmt s ret flow = .ok (t, flow')) :
    flow.Extends flow' := by
  obtain ⟨name, b, facts, _, rfl⟩ | ⟨name, t, facts, rfl⟩ | ⟨names, names', rfl⟩ := hs.flow_cases h
  · exact Flow.extends_declare _ _ _ _
  · exact Flow.extends_update _ _ _ _
  · exact (Flow.extends_loosen _ _).trans (Flow.extends_loosen _ _)

theorem locals_eq (hs : s.Simple c) (hlet : s.isLet = false) (h : c.stmt s ret flow = .ok (t, flow')) :
    flow'.scope.locals = flow.scope.locals := by
  obtain ⟨name, b, facts, htrue, _⟩ | ⟨name, t, facts, rfl⟩ | ⟨names, names', rfl⟩ := hs.flow_cases h
  · rw [htrue] at hlet
    cases hlet
  · exact Scope.locals_update _ _ _
  · exact (Flow.locals_loosen _ _).trans (Flow.locals_loosen _ _)

theorem stmts_extends (hs : ∀ s ∈ ss, s.Simple c) (h : c.stmts ss ret last flow = .ok (t, flow')) :
    flow.Extends flow' := by
  induction ss generalizing flow last with
  | nil =>
    rw [Checker.stmts] at h
    cases h
    exact .refl _
  | cons s ss ih =>
    obtain ⟨info, mid, hs', h⟩ := Checker.stmts_cons_ok h
    have hfirst := (hs s (List.mem_cons_self ..)).flow_extends hs'
    exact hfirst.trans (ih (fun s hs' => hs s (List.mem_cons_of_mem _ hs')) h)

end Stmt.Simple

/-! ### What a run leaves alone -/

/-- A name among the given ones, which the checker has noted as assigned if it was visible and not
declared in the innermost frame. -/
structure Scope.Touches (scope scope' : Scope) (names : List String) (name : String) : Prop where
  named : name ∈ names
  noted : (scope.get? name).isSome → name ∉ scope.locals → name ∈ scope'.assigned

/-- What a nested part notes is noted around it. -/
theorem Scope.Touches.settle {flow inner : Flow} {names : List String} {name : String}
    (h : flow.scope.child.Touches inner.scope names name) :
    flow.scope.Touches (flow.settle inner).scope names name := by
  refine ⟨h.named, ?_⟩
  intro hvisible hlocal
  have hinner := h.noted hvisible List.not_mem_nil
  exact (Scope.mem_assigned_widenAll _ _ _).mpr (.inr ⟨hinner, hvisible, hlocal⟩)

theorem Scope.Touches.extend {flow mid flow' : Flow} {names names' : List String} {name : String}
    (h : flow.scope.Touches mid.scope names name) (hmid : mid.Extends flow')
    (hnames : ∀ x ∈ names, x ∈ names') : flow.scope.Touches flow'.scope names' name :=
  ⟨hnames name h.named, fun hvisible hlocal => hmid.assigned name (h.noted hvisible hlocal)⟩

/-- A part that writes to its store writes through its own layer to the layers around it. -/
theorem Store.enclosed_writes {flow inner : Flow} {names : List String} {store store' : Store}
    {part : Store → Run Store} (h : (store.enclosed part).result = .ok store')
    (hpart : ∀ s, (part store.push).result = .ok s →
      ∃ layer rest, s = layer :: rest ∧
        Writes (flow.scope.child.Touches inner.scope names) store rest) :
    Writes (flow.scope.Touches (flow.settle inner).scope names) store store' := by
  obtain ⟨s, hs, h⟩ := Run.bind_result_ok.mp h
  cases h
  obtain ⟨layer, rest, rfl, hrest⟩ := hpart s hs
  exact hrest.mono fun name hname => hname.settle

/-- What runs of at most `n` steps leave alone. -/
structure Frames (c : Checker) (ret : Option TypeInfo) (n : Nat) : Prop where
  run : ∀ {ss flow layer rest last t flow' store'}, (∀ s ∈ ss, s.Simple c) →
    c.stmts ss ret last flow = .ok (t, flow') →
    (∀ name ∈ flow.scope.locals, (layer.get? name).isSome) →
    (c.run ret n ss flow (layer :: rest)).result = .ok store' →
    ∃ layer' rest', store' = layer' :: rest' ∧
      Store.Writes (fun name => name ∈ Assigned.stmts ss ∧
        ((flow.scope.get? name).isSome → name ∈ flow'.scope.assigned)) rest rest'
  exec : ∀ {s flow store t flow' store'}, s.Simple c → s.isLet = false →
    c.stmt s ret flow = .ok (t, flow') → (c.exec ret n s flow store).result = .ok store' →
    Store.Writes (flow.scope.Touches flow'.scope (Assigned.stmt s)) store store'
  rounds : ∀ {cond ss place start result store store'}, (∀ s ∈ ss, s.Simple c) →
    c.expr (.block ⟨ss, place⟩) ret (start.learn (Facts.derive cond true)) = .ok result →
    (c.rounds ret n cond ⟨ss, place⟩ start store).result = .ok store' →
    Store.Writes (· ∈ Assigned.stmts ss) store store'

theorem mem_distinctNames {names : List String} {name : String} :
    name ∈ distinctNames names ↔ name ∈ names := by
  have hfold : ∀ seen : List String,
      name ∈ names.foldl (fun seen x => addNew x seen) seen ↔ name ∈ seen ∨ name ∈ names := by
    induction names with
    | nil => simp
    | cons x rest ih =>
      intro seen
      rw [List.foldl_cons, ih, mem_addNew, List.mem_cons]
      grind
  rw [distinctNames, hfold]
  simp

/-- What the body of a loop assigns is noted from the start of the loop on. -/
theorem Checker.assigned_loopStart {ss : List Stmt} {place : Option Loc} {flow : Flow} {name : String}
    (hname : name ∈ Assigned.stmts ss) (hvisible : (flow.scope.get? name).isSome) :
    name ∈ (loopStart ⟨ss, place⟩ flow).scope.assigned := by
  refine (Scope.mem_assigned_widenAll _ _ _).mpr (.inr ⟨?_, hvisible, List.not_mem_nil⟩)
  exact mem_distinctNames.mpr hname

theorem Checker.exec_letDecl_ok {c : Checker} {ret : Option TypeInfo} {n : Nat} {name : String}
    {type : Option TypeExpr} {value : Expr} {loc : Option Loc} {flow : Flow} {store store' : Store}
    (h : (c.exec ret n (.letDecl name type value loc) flow store).result = .ok store') :
    ∃ cell, store.declare name cell = .ok store' := by
  cases n with
  | zero => cases h
  | succ n =>
    rw [exec] at h
    obtain ⟨v, _, h⟩ := Run.bind_result_ok.mp h
    split at h
    · exact ⟨_, h⟩
    · cases h

namespace Frames

variable {c : Checker} {ret : Option TypeInfo} {n : Nat}

/-- A branch of an `if`, in its own layer. -/
theorem branch_writes (ih : Frames c ret n) {flow flow' : Flow} {learned : Facts} {e : Expr}
    {t : TypeInfo} {store store' : Store} (hs : (Stmt.ofBranch e).Simple c)
    (h : Checker.nested learned (c.expr e ret) flow = .ok (t, flow'))
    (hr : (store.enclosed (c.exec ret n (.ofBranch e) (flow.under learned))).result = .ok store') :
    Store.Writes (flow.scope.Touches flow'.scope (Assigned.expr e)) store store' := by
  obtain ⟨inner, he, rfl⟩ := Checker.nested_ok h
  rw [← Checker.stmt_ofBranch] at he
  apply Store.enclosed_writes hr
  intro s hs'
  have hwrites := ih.exec hs (Stmt.isLet_ofBranch e) he hs'
  rw [Assigned.stmt_ofBranch] at hwrites
  exact hwrites.of_push

theorem exec_succ (ih : Frames c ret n) {s : Stmt} {flow flow' : Flow} {store store' : Store}
    {t : TypeInfo} (hs : s.Simple c) (hlet : s.isLet = false)
    (h : c.stmt s ret flow = .ok (t, flow')) (hr : (c.exec ret (n + 1) s flow store).result = .ok store') :
    Store.Writes (flow.scope.Touches flow'.scope (Assigned.stmt s)) store store' := by
  cases hs with
  | letDecl => cases hlet
  | @assign name place value loc hv =>
    obtain ⟨info, mid, hvalue, ha⟩ := Checker.assign_ident_ok h
    obtain rfl := hv.flow_eq hvalue
    rw [Checker.exec] at hr
    obtain ⟨v, _, hr⟩ := Run.bind_result_ok.mp hr
    refine .single ⟨name, v, ⟨List.mem_cons_self .., ?_⟩, hr⟩
    intro hvisible hlocal
    rcases Checker.assign_ok ha with ⟨hnone, _⟩ | ⟨b, _, _, rfl⟩
    · rw [hnone] at hvisible
      cases hvisible
    · exact (Scope.mem_assigned_update _ _ _ _).mpr (.inr ⟨rfl, hvisible, hlocal⟩)
  | expr =>
    rw [Checker.exec] at hr
    obtain ⟨_, _, hr⟩ := Run.bind_result_ok.mp hr
    cases hr
    exact .refl
  | @block ss loc hs =>
    rw [Checker.stmt] at h
    obtain ⟨inner, hbody, rfl⟩ := Checker.nested_ok h
    rw [Checker.exec] at hr
    apply Store.enclosed_writes hr
    intro s hrun
    obtain ⟨layer, rest, rfl, hrest⟩ := ih.run hs hbody (fun _ hlocal => (List.not_mem_nil hlocal).elim) hrun
    exact ⟨layer, rest, rfl, hrest.mono fun _ hname => ⟨hname.1, fun hvisible _ => hname.2 hvisible⟩⟩
  | @ite cond thenBranch elseBranch loc hc ht he =>
    obtain ⟨tested, mid, thenInfo, after, hcond, hthen, helse⟩ := Checker.ite_stmt_ok h
    obtain rfl := hc.flow_eq hcond
    have hnames : ∀ name ∈ Assigned.expr thenBranch,
        name ∈ Assigned.stmt (.ite cond thenBranch elseBranch loc) :=
      fun name hname => List.mem_append_left _ (List.mem_append_right _ hname)
    rcases helse with ⟨e, elseInfo, rfl, helse⟩ | ⟨rfl, rfl⟩
    · rw [Checker.exec] at hr
      obtain ⟨truth, _, hr⟩ := Run.bind_result_ok.mp hr
      obtain ⟨inner, _, hafter⟩ := Checker.nested_ok hthen
      cases truth with
      | true =>
        obtain ⟨inner', _, rfl⟩ := Checker.nested_ok helse
        exact (ih.branch_writes ht hthen hr).mono fun name hname =>
          hname.extend (Flow.extends_loosen _ _) hnames
      | false =>
        dsimp only at hr
        rw [Flow.behind_eq hthen] at hr
        refine (ih.branch_writes (he e rfl) helse hr).mono fun name hname => ?_
        refine ⟨List.mem_append_right _ hname.named, ?_⟩
        intro hvisible hlocal
        subst hafter
        apply hname.noted ((Flow.extends_loosen _ _).visible name hvisible)
        rwa [Flow.settle, Flow.locals_loosen]
    · rw [Checker.exec] at hr
      obtain ⟨truth, _, hr⟩ := Run.bind_result_ok.mp hr
      cases truth with
      | true =>
        exact (ih.branch_writes ht hthen hr).mono fun name hname => hname.extend (.refl _) hnames
      | false =>
        cases hr
        exact .refl
  | @whileLoop cond ss place loc hc hs =>
    obtain ⟨tested, start, result, inner, hcond, hbody, rfl⟩ := Checker.whileLoop_stmt_ok h
    obtain rfl := hc.flow_eq hcond
    rw [Checker.exec] at hr
    apply Store.enclosed_writes hr
    intro s hrounds
    obtain ⟨layer, rest, rfl, hrest⟩ := (ih.rounds hs hbody hrounds).of_push
    refine ⟨layer, rest, rfl, hrest.mono fun name hname => ⟨List.mem_append_right _ hname, ?_⟩⟩
    intro hvisible _
    rw [Checker.expr] at hbody
    obtain ⟨_, _, rfl⟩ := Checker.nested_ok hbody
    exact (Flow.extends_loosen _ _).assigned name (Checker.assigned_loopStart hname hvisible)

theorem rounds_succ (ih : Frames c ret n) {cond : Expr} {ss : List Stmt} {place : Option Loc}
    {start : Flow} {result : TypeInfo × Flow} {store store' : Store} (hs : ∀ s ∈ ss, s.Simple c)
    (h : c.expr (.block ⟨ss, place⟩) ret (start.learn (Facts.derive cond true)) = .ok result)
    (hr : (c.rounds ret (n + 1) cond ⟨ss, place⟩ start store).result = .ok store') :
    Store.Writes (· ∈ Assigned.stmts ss) store store' := by
  rw [Checker.rounds] at hr
  obtain ⟨_, _, hr⟩ := Run.bind_result_ok.mp hr
  obtain ⟨truth, _, hr⟩ := Run.bind_result_ok.mp hr
  cases truth with
  | true =>
    obtain ⟨mid, hbody, hrest⟩ := Run.bind_result_ok.mp hr
    have hblock : c.stmt (.block ⟨ss, place⟩) ret (start.learn (Facts.derive cond true)) = .ok result := by
      rw [← h]
      exact c.stmt_ofBranch (.block ⟨ss, place⟩) ret _
    have hfirst := ih.exec (.block hs) rfl hblock hbody
    rw [Assigned.stmt] at hfirst
    exact (hfirst.mono fun _ hname => hname.named).trans (ih.rounds hs h hrest)
  | false =>
    cases hr
    exact .refl

/-- One statement of a body whose layer holds what the checker takes for local. -/
theorem exec_layer (ih : Frames c ret n) {s : Stmt} {flow flow' : Flow} {layer : OrderedMap Cell}
    {rest store' : Store} {t : TypeInfo} (hs : s.Simple c) (h : c.stmt s ret flow = .ok (t, flow'))
    (hlocals : ∀ name ∈ flow.scope.locals, (layer.get? name).isSome)
    (hr : (c.exec ret n s flow (layer :: rest)).result = .ok store') :
    ∃ layer' rest', store' = layer' :: rest' ∧
      (∀ name ∈ flow'.scope.locals, (layer'.get? name).isSome) ∧
      Store.Writes (fun name => name ∈ Assigned.stmt s ∧
        ((flow.scope.get? name).isSome → name ∈ flow'.scope.assigned)) rest rest' := by
  cases hlet : s.isLet with
  | true =>
    cases hs with
    | @letDecl name type value loc hv =>
      obtain ⟨cell, hdeclare⟩ := Checker.exec_letDecl_ok hr
      obtain ⟨info, mid, hvalue, hd⟩ := Checker.letDecl_ok h
      obtain rfl := hv.flow_eq hvalue
      obtain ⟨b, rfl, _⟩ := Checker.declare_ok hd
      refine ⟨layer.insert name cell, rest, Store.declare_cons_ok hdeclare, ?_, .refl⟩
      intro key hkey
      rw [OrderedMap.get?_insert]
      split
      · rfl
      · rename_i hne
        exact hlocals key (((Scope.mem_locals_declare _ _ _ _).mp hkey).resolve_left hne)
    | _ => cases hlet
  | false =>
    obtain ⟨layer', rest', rfl, hkeys, hrest⟩ := (ih.exec hs hlet h hr).cons
    refine ⟨layer', rest', rfl, ?_, hrest.mono ?_⟩
    · intro name hname
      rw [hkeys]
      rw [hs.locals_eq hlet h] at hname
      exact hlocals name hname
    · rintro name ⟨htouches, hnone⟩
      refine ⟨htouches.named, fun hvisible => htouches.noted hvisible ?_⟩
      intro hlocal
      have hsome := hlocals name hlocal
      rw [hnone] at hsome
      cases hsome

theorem run_succ (ih : Frames c ret n) {ss : List Stmt} {flow flow' : Flow} {layer : OrderedMap Cell}
    {rest store' : Store} {last t : TypeInfo} (hs : ∀ s ∈ ss, s.Simple c)
    (h : c.stmts ss ret last flow = .ok (t, flow'))
    (hlocals : ∀ name ∈ flow.scope.locals, (layer.get? name).isSome)
    (hr : (c.run ret (n + 1) ss flow (layer :: rest)).result = .ok store') :
    ∃ layer' rest', store' = layer' :: rest' ∧
      Store.Writes (fun name => name ∈ Assigned.stmts ss ∧
        ((flow.scope.get? name).isSome → name ∈ flow'.scope.assigned)) rest rest' := by
  cases ss with
  | nil =>
    rw [Checker.run] at hr
    obtain ⟨_, _, hr⟩ := Run.bind_result_ok.mp hr
    cases hr
    exact ⟨layer, rest, rfl, .refl⟩
  | cons s ss =>
    obtain ⟨info, mid, hfirst, hrest⟩ := Checker.stmts_cons_ok h
    have hsimple := hs s (List.mem_cons_self ..)
    have hsimple' : ∀ s ∈ ss, s.Simple c := fun s hmem => hs s (List.mem_cons_of_mem _ hmem)
    rw [Checker.run] at hr
    obtain ⟨_, _, hr⟩ := Run.bind_result_ok.mp hr
    obtain ⟨store₁, hexec, hrun⟩ := Run.bind_result_ok.mp hr
    rw [Flow.behind_eq hfirst] at hrun
    obtain ⟨layer₁, rest₁, rfl, hlocals₁, hwrites₁⟩ := ih.exec_layer hsimple hfirst hlocals hexec
    obtain ⟨layer₂, rest₂, rfl, hwrites₂⟩ := ih.run hsimple' hrest hlocals₁ hrun
    have hextends := hsimple.flow_extends hfirst
    have hextends' := Stmt.Simple.stmts_extends hsimple' hrest
    refine ⟨layer₂, rest₂, rfl, (hwrites₁.mono ?_).trans (hwrites₂.mono ?_)⟩
    · rintro name ⟨hname, hnoted⟩
      exact ⟨List.mem_append_left _ hname, fun hv => hextends'.assigned name (hnoted hv)⟩
    · rintro name ⟨hname, hnoted⟩
      exact ⟨List.mem_append_right _ hname, fun hv => hnoted (hextends.visible name hv)⟩

end Frames

/-- Whatever its length, a run changes outside its own layer only what the checker has noted. -/
theorem frames (c : Checker) (ret : Option TypeInfo) (n : Nat) : Frames c ret n := by
  induction n with
  | zero =>
    constructor
    · intro ss flow layer rest last t flow' store' _ _ _ hr
      cases hr
    · intro s flow store t flow' store' _ _ _ hr
      cases hr
    · intro cond ss place start result store store' _ _ hr
      cases hr
  | succ n ih => exact ⟨ih.run_succ, ih.exec_succ, ih.rounds_succ⟩

end TuffSafety
