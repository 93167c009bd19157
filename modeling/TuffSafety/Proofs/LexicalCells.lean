import TuffSafety.Proofs.Elementary

/-!
# Frames as lexical cells

A script is what happens in a frame: names are declared, updated and widened, and nested frames run
scripts of their own and are settled. For each name this comes down to one cell. The last declaration
in the frame makes the cell, or else it is the one that the name had outside, and the last write behind
that gives its present type. The frames underneath are never written to. When the frame is left, an
outer name is widened and loses its fact if a write came before any declaration of it in the frame, and
is left alone otherwise.
-/
namespace TuffSafety

/-- What happens in a frame, one thing after the other. -/
inductive Script where
  | done
  | declare (name : String) (b : Binding) (next : Script)
  | update (name : String) (current : TypeInfo) (next : Script)
  | widen (name : String) (next : Script)
  /-- The facts are replaced; no frame has a part in that. -/
  | know (facts : Facts) (next : Script)
  /-- A nested frame, which is settled at its end. -/
  | nested (body next : Script)

namespace Script

/-- The flow behind a script. -/
def run : Script → Flow → Flow
  | done, flow => flow
  | declare name b next, flow => next.run ⟨flow.scope.declare name b, flow.facts⟩
  | update name current next, flow => next.run ⟨flow.scope.update name current, flow.facts⟩
  | widen name next, flow => next.run ⟨flow.scope.widen name, flow.facts⟩
  | know facts next, flow => next.run ⟨flow.scope, facts⟩
  | nested body next, flow => next.run (flow.settle (body.run flow.child))

/-- The flows that a run comes by, those of nested frames included. -/
inductive Meets : Script → Flow → Flow → Prop
  | here {s flow} : Meets s flow flow
  | declare {name b next flow met} : Meets next ⟨flow.scope.declare name b, flow.facts⟩ met →
      Meets (declare name b next) flow met
  | update {name current next flow met} : Meets next ⟨flow.scope.update name current, flow.facts⟩ met →
      Meets (update name current next) flow met
  | widen {name next flow met} : Meets next ⟨flow.scope.widen name, flow.facts⟩ met →
      Meets (widen name next) flow met
  | know {facts next flow met} : Meets next ⟨flow.scope, facts⟩ met → Meets (know facts next) flow met
  | inside {body next flow met} : Meets body flow.child met → Meets (nested body next) flow met
  | behind {body next flow met} : Meets next (flow.settle (body.run flow.child)) met →
      Meets (nested body next) flow met

/-- An update or a widening comes to the frame before the name is declared in it. What a nested frame
does to a name of its own does not come to the frame. -/
def Touches (name : String) : Script → Prop
  | done => False
  | declare n _ next => n ≠ name ∧ next.Touches name
  | update n _ next => n = name ∨ next.Touches name
  | widen n next => n = name ∨ next.Touches name
  | know _ next => next.Touches name
  | nested body next => body.Touches name ∨ next.Touches name

instance decidableTouches (name : String) : (s : Script) → Decidable (s.Touches name)
  | done => inferInstanceAs (Decidable False)
  | declare n _ next =>
    have := decidableTouches name next
    inferInstanceAs (Decidable (n ≠ name ∧ next.Touches name))
  | update n _ next =>
    have := decidableTouches name next
    inferInstanceAs (Decidable (n = name ∨ next.Touches name))
  | widen n next =>
    have := decidableTouches name next
    inferInstanceAs (Decidable (n = name ∨ next.Touches name))
  | know _ next => decidableTouches name next
  | nested body next =>
    have := decidableTouches name body
    have := decidableTouches name next
    inferInstanceAs (Decidable (body.Touches name ∨ next.Touches name))

/-- The last declaration of a name in the frame, with what happens behind it. -/
def declaration? (name : String) : Script → Option (Binding × Script)
  | done => none
  | declare n b next => (next.declaration? name).or (if name = n then some (b, next) else none)
  | update _ _ next => next.declaration? name
  | widen _ next => next.declaration? name
  | know _ next => next.declaration? name
  | nested _ next => next.declaration? name

/-- The type last written to a name of the given declared type. A nested frame that touches the name
writes the declared type when it is settled. -/
def written? (name : String) (declared : TypeInfo) : Script → Option TypeInfo
  | done => none
  | declare _ _ next => next.written? name declared
  | update n t next => (next.written? name declared).or (if name = n then some t else none)
  | widen n next => (next.written? name declared).or (if name = n then some declared else none)
  | know _ next => next.written? name declared
  | nested body next =>
    (next.written? name declared).or (if body.Touches name then some declared else none)

/-- A binding with its last update. -/
def lastly (s : Script) (name : String) (b : Binding) : Binding :=
  ⟨b.declared, (s.written? name b.declared).getD b.current⟩

/-- The binding that the innermost declaration of a name made, with its last update; `outer` is what
the name meant before the frame. -/
def cell (s : Script) (name : String) (outer : Option Binding) : Option Binding :=
  (s.declaration? name).elim (outer.map (s.lastly name)) fun made => some (made.2.lastly name made.1)

end Script

/-! ### The frames underneath -/

/-- There is a frame on top of the given ones, which are as they were. -/
def Scope.StandsOn (s : Scope) (frames : List Frame) : Prop :=
  ∃ top below, s.frames = top :: below ∧ frames <:+ below

namespace Scope.StandsOn

variable {s : Scope} {frames : List Frame}

theorem child (s : Scope) : s.child.StandsOn s.frames :=
  ⟨{}, s.frames, rfl, List.suffix_refl _⟩

theorem grandchild (h : s.StandsOn frames) : s.child.StandsOn frames := by
  obtain ⟨top, below, hframes, hsuffix⟩ := h
  refine ⟨{}, s.frames, rfl, ?_⟩
  rw [hframes]
  exact hsuffix.trans (List.suffix_cons top below)

/-- Writes go to the innermost frame. -/
theorem modifyHead (h : s.StandsOn frames) (change : Frame → Frame) :
    (s.modifyHead change).StandsOn frames := by
  obtain ⟨top, below, hframes, hsuffix⟩ := h
  refine ⟨change top, below, ?_, hsuffix⟩
  unfold Scope.modifyHead
  rw [hframes]

theorem declare (h : s.StandsOn frames) (name : String) (b : Binding) :
    (s.declare name b).StandsOn frames :=
  h.modifyHead _

theorem update (h : s.StandsOn frames) (name : String) (t : TypeInfo) :
    (s.update name t).StandsOn frames := by
  unfold Scope.update
  cases s.get? name with
  | none => exact h
  | some b => exact h.modifyHead _

theorem widen (h : s.StandsOn frames) (name : String) : (s.widen name).StandsOn frames := by
  unfold Scope.widen
  cases s.get? name with
  | none => exact h
  | some b => exact h.update name b.declared

theorem widenAll (h : s.StandsOn frames) (names : List String) :
    (s.widenAll names).StandsOn frames := by
  unfold Scope.widenAll
  induction names generalizing s with
  | nil => exact h
  | cons name rest ih => exact ih (h.widen name)

end Scope.StandsOn

namespace Script

variable {s body next : Script} {flow met : Flow} {name : String}

theorem Meets.standsOn {frames : List Frame} (h : s.Meets flow met)
    (hflow : flow.scope.StandsOn frames) : met.scope.StandsOn frames := by
  induction h with
  | here => exact hflow
  | declare _ ih => exact ih (hflow.declare _ _)
  | update _ ih => exact ih (hflow.update _ _)
  | widen _ ih => exact ih (hflow.widen _)
  | know _ ih => exact ih hflow
  | inside _ ih => exact ih hflow.grandchild
  | behind _ ih => exact ih (hflow.widenAll _)

/-! ### The names that a frame notes -/

/-- A new frame has no names of its own and no notes. -/
theorem noted_child_iff {P : Prop} :
    (name ∈ flow.child.scope.assigned ∨
      ((flow.child.scope.get? name).isSome ∧ name ∉ flow.child.scope.locals ∧ P)) ↔
      ((flow.scope.get? name).isSome ∧ P) := by
  constructor
  · rintro (hold | ⟨hseen, _, h⟩)
    · exact (List.not_mem_nil hold).elim
    · exact ⟨hseen, h⟩
  · rintro ⟨hseen, h⟩
    exact .inr ⟨hseen, List.not_mem_nil, h⟩

/-- A frame notes a visible name as assigned when it is touched while it does not belong to the frame. -/
theorem mem_assigned_run (s : Script) (flow : Flow) (name : String) :
    name ∈ (s.run flow).scope.assigned ↔ name ∈ flow.scope.assigned ∨
      ((flow.scope.get? name).isSome ∧ name ∉ flow.scope.locals ∧ s.Touches name) := by
  induction s generalizing flow with
  | done => simp [run, Touches]
  | declare n b next ih =>
    rw [run, ih, Scope.assigned_declare, Scope.mem_locals_declare, Scope.get?_declare, Touches]
    by_cases hn : name = n
    · simp [hn]
    · simp [hn, Ne.symm hn]
  | update n t next ih =>
    have hvisible : ((flow.scope.update n t).get? name).isSome = (flow.scope.get? name).isSome := by
      rw [Scope.get?_update]
      by_cases hn : name = n <;> simp [hn]
    rw [run, ih, Scope.mem_assigned_update, Scope.locals_update, hvisible, Touches]
    grind
  | widen n next ih =>
    have hvisible : ((flow.scope.widen n).get? name).isSome = (flow.scope.get? name).isSome := by
      rw [Scope.get?_widen]
      by_cases hn : name = n <;> simp [hn]
    rw [run, ih, Scope.mem_assigned_widen, Scope.locals_widen, hvisible, Touches]
    grind
  | know facts next ih => exact ih _
  | nested body next ihbody ih =>
    have hbody := (ihbody flow.child).trans noted_child_iff
    have hvisible : ((flow.settle (body.run flow.child)).scope.get? name).isSome =
        (flow.scope.get? name).isSome := by
      rw [Flow.settle, Flow.loosen, Scope.get?_widenAll]
      split <;> simp
    rw [run, ih, hvisible, Flow.settle, Flow.loosen, Scope.mem_assigned_widenAll,
      Scope.locals_widenAll, hbody, Touches]
    constructor
    · rintro ((hold | ⟨⟨_, hinside⟩, hseen, houter⟩) | ⟨hseen, houter, hbehind⟩)
      · exact .inl hold
      · exact .inr ⟨hseen, houter, .inl hinside⟩
      · exact .inr ⟨hseen, houter, .inr hbehind⟩
    · rintro (hold | ⟨hseen, houter, hinside | hbehind⟩)
      · exact .inl (.inl hold)
      · exact .inl (.inr ⟨⟨hseen, hinside⟩, hseen, houter⟩)
      · exact .inr ⟨hseen, houter, hbehind⟩

theorem mem_assigned_child (s : Script) (flow : Flow) (name : String) :
    name ∈ (s.run flow.child).scope.assigned ↔ (flow.scope.get? name).isSome ∧ s.Touches name :=
  (s.mem_assigned_run flow.child name).trans noted_child_iff

/-- What a nested frame leaves of a name: its declaration, when the name was touched. -/
theorem get?_settle_run (s : Script) (flow : Flow) (name : String) :
    (flow.settle (s.run flow.child)).scope.get? name =
      if s.Touches name then (flow.scope.get? name).map fun b => .fixed b.declared
      else flow.scope.get? name := by
  rw [Flow.settle, Flow.loosen, Scope.get?_widenAll]
  simp only [mem_assigned_child]
  cases flow.scope.get? name with
  | none => simp
  | some b => simp

theorem facts_settle_run (s : Script) (flow : Flow) {name : String} {b : Binding}
    (hb : flow.scope.get? name = some b) :
    (flow.settle (s.run flow.child)).facts.get? name =
      if s.Touches name then none else flow.facts.get? name := by
  rw [Flow.settle, Flow.loosen, Facts.get?_forgetAll]
  simp only [mem_assigned_child, hb, Option.isSome_some, true_and]

/-! ### The cell of a name -/

theorem cell_declare (n : String) (b : Binding) (next : Script) (name : String)
    (outer : Option Binding) :
    (declare n b next).cell name outer = next.cell name (if name = n then some b else outer) := by
  unfold cell
  rw [declaration?]
  cases next.declaration? name with
  | some made => rfl
  | none =>
    by_cases hn : name = n
    · rw [if_pos hn, if_pos hn]
      rfl
    · rw [if_neg hn, if_neg hn]
      rfl

/-- A step that declares nothing passes the cell on with what it writes to it. -/
theorem cell_write (s next : Script) {write : TypeInfo → Option TypeInfo}
    (hdeclares : s.declaration? name = next.declaration? name)
    (hwrites : ∀ declared, s.written? name declared = (next.written? name declared).or (write declared))
    (outer : Option Binding) :
    s.cell name outer =
      next.cell name (outer.map fun b => ⟨b.declared, (write b.declared).getD b.current⟩) := by
  unfold cell
  rw [hdeclares]
  cases next.declaration? name with
  | some made => rfl
  | none =>
    cases outer with
    | none => rfl
    | some b =>
      simp only [Option.elim_none, Option.map_some, lastly, hwrites]
      cases next.written? name b.declared <;> rfl

theorem cell_update (n : String) (t : TypeInfo) (next : Script) (name : String)
    (outer : Option Binding) :
    (update n t next).cell name outer =
      next.cell name (if name = n then outer.map fun b => ⟨b.declared, t⟩ else outer) := by
  rw [cell_write (update n t next) next rfl fun _ => rfl]
  by_cases hn : name = n
  · simp only [if_pos hn, Option.getD_some]
  · simp only [if_neg hn, Option.getD_none, Option.map_id']

theorem cell_widen (n : String) (next : Script) (name : String) (outer : Option Binding) :
    (widen n next).cell name outer =
      next.cell name (if name = n then outer.map fun b => .fixed b.declared else outer) := by
  rw [cell_write (widen n next) next rfl fun _ => rfl]
  by_cases hn : name = n
  · simp only [if_pos hn, Option.getD_some, Binding.fixed]
  · simp only [if_neg hn, Option.getD_none, Option.map_id']

theorem cell_nested (body next : Script) (name : String) (outer : Option Binding) :
    (nested body next).cell name outer =
      next.cell name
        (if body.Touches name then outer.map fun b => .fixed b.declared else outer) := by
  rw [cell_write (nested body next) next rfl fun _ => rfl]
  by_cases htouches : body.Touches name
  · simp only [if_pos htouches, Option.getD_some, Binding.fixed]
  · simp only [if_neg htouches, Option.getD_none, Option.map_id']

/-- Behind a script a name is found in its cell. -/
theorem get?_run (s : Script) (flow : Flow) (name : String) :
    (s.run flow).scope.get? name = s.cell name (flow.scope.get? name) := by
  induction s generalizing flow with
  | done =>
    change flow.scope.get? name = (flow.scope.get? name).map fun b => b
    rw [Option.map_id']
  | declare n b next ih => rw [run, ih, cell_declare, Scope.get?_declare]
  | update n t next ih =>
    rw [run, ih, cell_update, Scope.get?_update]
    by_cases hn : name = n
    · rw [if_pos hn, if_pos hn, hn]
    · rw [if_neg hn, if_neg hn]
  | widen n next ih =>
    rw [run, ih, cell_widen, Scope.get?_widen]
    by_cases hn : name = n
    · rw [if_pos hn, if_pos hn, hn]
    · rw [if_neg hn, if_neg hn]
  | know facts next ih => exact ih _
  | nested body next _ ih => rw [run, ih, cell_nested, get?_settle_run]

end Script

/-- A frame on top of a scope is one cell for each name. Whatever happens in it and in frames nested in
it, the scope underneath stays as it was; names mean their innermost declaration with its last update;
and behind it a visible name keeps its declaration, is widened and without a fact exactly if it was
touched from inside, and no other name has become visible. -/
theorem frame_lexical (outer : Flow) (s : Script) (name : String) :
    let inner := s.run outer.child
    let settled := outer.settle inner
    (∀ met, s.Meets outer.child met → met.scope.StandsOn outer.scope.frames) ∧
      inner.scope.get? name = s.cell name (outer.scope.get? name) ∧
      (∀ b, outer.scope.get? name = some b → ∃ b',
        settled.scope.get? name = some b' ∧ b'.declared = b.declared ∧
          (s.Touches name → b'.current = b'.declared ∧ settled.facts.get? name = none) ∧
          (¬ s.Touches name → b' = b ∧ settled.facts.get? name = outer.facts.get? name)) ∧
      (outer.scope.get? name = none → settled.scope.get? name = none) := by
  intro inner settled
  have hbinding : settled.scope.get? name = _ := s.get?_settle_run outer name
  refine ⟨fun met hmet => hmet.standsOn (.child outer.scope), s.get?_run outer.child name, ?_, ?_⟩
  · intro b hb
    have hfact : settled.facts.get? name = _ := s.facts_settle_run outer hb
    rw [hb] at hbinding
    by_cases htouches : s.Touches name
    · rw [if_pos htouches] at hbinding hfact
      exact ⟨.fixed b.declared, hbinding, rfl, fun _ => ⟨rfl, hfact⟩, fun h => (h htouches).elim⟩
    · rw [if_neg htouches] at hbinding hfact
      exact ⟨b, hbinding, rfl, fun h => (htouches h).elim, fun _ => ⟨rfl, hfact⟩⟩
  · intro hnone
    rw [hbinding, hnone]
    split <;> rfl

namespace Celled

/-- `x`, `y` and `z` are narrowed to a single value, and there is a fact about each of them. -/
def outer : Flow where
  scope := ((Scope.empty.declare "x" ⟨.named "I32", .literal "I32" 1⟩).declare
    "y" ⟨.named "I32", .literal "I32" 2⟩).declare "z" ⟨.named "USize", .literal "USize" 3⟩
  facts := ((Facts.empty.add "x" .notZero).add "y" .notZero).add "z" .notZero

/-- `x` is written to and then shadowed, `y` is shadowed before a nested frame writes to it, and `z` is
widened two frames further in. -/
def script : Script :=
  .update "x" (.literal "I32" 0) <|
  .declare "x" (.fixed (.named "U8")) <|
  .update "x" (.literal "U8" 7) <|
  .declare "y" ⟨.named "U8", .literal "U8" 9⟩ <|
  .nested (.update "y" (.literal "U8" 0) .done) <|
  .nested (.declare "x" (.fixed .bool) (.nested (.widen "z" .done) (.widen "x" .done))) .done

theorem eq_fixed {b : Binding} {t : TypeInfo} (hdeclared : b.declared = t)
    (hcurrent : b.current = b.declared) : b = .fixed t := by
  obtain ⟨declared, current⟩ := b
  cases hdeclared
  cases hcurrent
  rfl

end Celled

open Celled in
theorem frame_lexical_shadowed :
    let inner := script.run outer.child
    let settled := outer.settle inner
    inner.scope.get? "x" = some ⟨.named "U8", .literal "U8" 7⟩ ∧
      inner.scope.get? "y" = some (.fixed (.named "U8")) ∧
      settled.scope.get? "x" = some (.fixed (.named "I32")) ∧ settled.facts.get? "x" = none ∧
      settled.scope.get? "y" = some ⟨.named "I32", .literal "I32" 2⟩ ∧
      settled.facts.get? "y" = some .notZero ∧
      settled.scope.get? "z" = some (.fixed (.named "USize")) ∧ settled.facts.get? "z" = none := by
  intro inner settled
  obtain ⟨_, hinnerX, hx, _⟩ := frame_lexical outer script "x"
  obtain ⟨_, hinnerY, hy, _⟩ := frame_lexical outer script "y"
  obtain ⟨_, _, hz, _⟩ := frame_lexical outer script "z"
  obtain ⟨x, hgetX, hdeclaredX, htouchedX, _⟩ := hx _ rfl
  obtain ⟨hcurrentX, hfactX⟩ := htouchedX (by decide)
  obtain ⟨y, hgetY, _, _, hkeptY⟩ := hy _ rfl
  obtain ⟨rfl, hfactY⟩ := hkeptY (by decide)
  obtain ⟨z, hgetZ, hdeclaredZ, htouchedZ, _⟩ := hz _ rfl
  obtain ⟨hcurrentZ, hfactZ⟩ := htouchedZ (by decide)
  rw [eq_fixed hdeclaredX hcurrentX] at hgetX
  rw [eq_fixed hdeclaredZ hcurrentZ] at hgetZ
  exact ⟨hinnerX, hinnerY, hgetX, hfactX, hgetY, hfactY, hgetZ, hfactZ⟩

end TuffSafety
