import TuffSafety.Proofs.LoopInvariance

/-!
# The variable of a loop over a range

The body of a loop over a range is checked once, with a variable that is taken to be non-negative and
of which nothing else is known. The bounds of the range have no say in this. If the range begins below
zero, what the check relies on is false in the first round already. If it is empty or begins at zero or
above, that is true in every round, provided that the body writes only to names that are collected in
it or of which nothing more than the declared type was known.
-/
namespace TuffSafety

namespace Flow

variable {flow flow' : Flow} {s : Store}

/-- A check that only widens and forgets keeps what is known true. -/
theorem Admits.moves (h : flow.Admits s) {P : String → Prop} (hm : flow.Moves P flow') :
    flow'.Admits s := by
  constructor
  · intro name b' cell hb' hcell
    rcases hm.binding name with heq | ⟨_, heq⟩
    · exact h.binding name b' cell (heq ▸ hb') hcell
    · rw [heq] at hb'
      obtain ⟨b, hb, rfl⟩ := Option.map_eq_some_iff.mp hb'
      have hfits := h.binding name b cell hb hcell
      exact ⟨hfits.declared_eq, hfits.declared, hfits.declared⟩
  · intro name p n hp
    rcases hm.fact name with heq | ⟨_, heq⟩
    · exact h.fact name p n (heq ▸ hp)
    · rw [heq] at hp
      cases hp

/-- Every variable is bound, and no name to a float or a nullable pointer. -/
structure Covers (flow : Flow) (s : Store) : Prop where
  ordinary : ∀ name b, flow.scope.get? name = some b → b.Ordinary
  bound : ∀ name, (s.get? name).isSome → (flow.scope.get? name).isSome

theorem Admits.fits (h : flow.Admits s) (hcovers : flow.Covers s) : flow.Fits s := by
  refine ⟨hcovers.ordinary, ?_, fun name p n hp hn => (h.fact name p n hp hn).toAdmits⟩
  intro name cell hcell
  obtain ⟨b, hb⟩ := Option.isSome_iff_exists.mp (hcovers.bound name (by rw [hcell]; rfl))
  exact ⟨b, hb, h.binding name b cell hb hcell⟩

end Flow

namespace Checker

end Checker

/-! ### Rounds -/

/-- The variable of a loop, in a layer of its own. -/
def Store.withIterator (s : Store) (iterator : String) (v : Int) : Store :=
  OrderedMap.empty.insert iterator ⟨Checker.iteratorInfo, .int v⟩ :: s

/-- The store with which a round of a loop over the range from `a` to below `b` starts, and the value
of the variable in it. -/
inductive Round (far : Expr → String → Prop) (iterator : String) (body : Block) (a b : Int)
    (s : Store) : Int → Store → Prop where
  | first (h : a < b) : Round far iterator body a b s a (s.withIterator iterator a)
  | next {v s₁ o layer} {s₂ : Store} (h : Round far iterator body a b s v s₁)
      (hbody : Ends far (.expr (.block body)) s₁ o (layer :: s₂)) (ho : o.endsLoop? = none)
      (hv : v + 1 < b) :
      Round far iterator body a b s (v + 1) (s₂.withIterator iterator (v + 1))

namespace Round

variable {far : Expr → String → Prop} {iterator : String} {body : Block} {a b v : Int} {s s' : Store}

theorem range (h : Round far iterator body a b s v s') : a ≤ v ∧ v < b := by
  induction h with
  | first h => exact ⟨Int.le_refl a, h⟩
  | next _ _ _ hv ih => exact ⟨Int.le_trans ih.1 (Int.le_add_one (Int.le_refl _)), hv⟩

/-- Behind its variable a round finds the store before the loop, but for what earlier rounds wrote. -/
theorem alters (h : Round far iterator body a b s v s') :
    ∃ rest, s' = rest.withIterator iterator v ∧
      Store.Alters ((Node.expr (.block body)).WritesFar far) (Node.expr (.block body)).Assigns s rest := by
  induction h with
  | first => exact ⟨s, rfl, .refl⟩
  | next _ hbody _ _ ih =>
    obtain ⟨rest, rfl, hrest⟩ := ih
    -- What the body assigns to the variable itself stays in the layer that is dropped.
    have hround := Ends.round_effect hbody.effect
    exact ⟨_, rfl, hrest.trans (hround.mono (fun _ hfar => hfar) fun _ hname => hname.1.assigned)⟩

end Round

namespace Ranging

open Annotated (int number array)

/-- The expression `if (i < 4) arr[i] else 0` -/
def element : Expr :=
  .ite (.binary .lt (.ident "i" none) (number 4) none)
    (.index (.ident "arr" none) (.ident "i" none) none) (some (number 0)) none

def body : Block := ⟨[.expr element none], none⟩

/-- The loop `for (i in first..4) { if (i < 4) arr[i] else 0; }` -/
def loop (first : Expr) : Stmt := .forLoop "i" first (number 4) body none

/-- The function `fn f(arr: [I32; 4; 4]): I32 => { loop 0 }` -/
def program (first : Expr) : Program :=
  .ofFunction [⟨"arr", some (array 4)⟩] int [loop first, .expr (number 0) none]

def checker (first : Expr) : Checker := (program first).checker true

/-- What is known before the loop. -/
def flow (first : Expr) : Flow := ((checker first).fnStart [⟨"arr", some (array 4)⟩]).under .empty

def store : Store :=
  [OrderedMap.empty.insert "arr"
    ⟨(Declarations.ofStatements []).resolve (array 4), .array [.int 0, .int 1, .int 2, .int 3]⟩]

theorem get?_flow (first : Expr) {name : String} {b : Binding}
    (h : (flow first).scope.get? name = some b) :
    name = "arr" ∧ b = .fixed ((Declarations.ofStatements []).resolve (array 4)) := by
  replace h : ((checker first).globals.child.declare "arr" _).get? name = some b := h
  rw [Scope.get?_declare] at h
  split at h
  · cases h
    exact ⟨‹_›, rfl⟩
  · cases h

end Ranging

end TuffSafety
