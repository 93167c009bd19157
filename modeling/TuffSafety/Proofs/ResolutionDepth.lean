import TuffSafety.Proofs.AliasGraph

/-!
# How deep the meaning of a type is looked for

The meaning of a type is found by calls that share one stack of aliases: the call for an alias puts
it on the stack, asks for the meaning of its target and takes it off again. The search is written out
here with a limit on nested calls, and has no result when it comes to the limit. It asks for a part of
a type or follows an alias that is not on the stack, so that the calls are never nested deeper than
the number of aliases and the depth of the types allow, also where aliases lead back to themselves.
-/
namespace TuffSafety

namespace TypeExpr

/-- How deep a type is nested where its meaning is looked for. The parameters of a name and the
elements of an array or a tuple do not count. -/
def depth : TypeExpr → Nat
  | named .. | array .. | tuple _ => 0
  | refined base _ _ => base.depth + 1
  | union left right => max left.depth right.depth + 1
  | pointer _ target => target.depth + 1

/-- The parts of a type that its meaning is made of. -/
inductive PartOf : TypeExpr → TypeExpr → Prop where
  | base {base op value} : PartOf base (.refined base op value)
  | left {left right} : PartOf left (.union left right)
  | right {left right} : PartOf right (.union left right)
  | target {mutable target} : PartOf target (.pointer mutable target)

theorem PartOf.depth_lt {part type : TypeExpr} (h : part.PartOf type) : part.depth < type.depth := by
  cases h with
  | base | target => exact Nat.lt_succ_self _
  | left => exact Nat.lt_succ_of_le (Nat.le_max_left _ _)
  | right => exact Nat.lt_succ_of_le (Nat.le_max_right _ _)

/-- The pointer side of a union of a pointer with null. -/
def nullableSide? (left right : TypeExpr) : Option TypeExpr :=
  if left.isPointer && right.isNull then some left
  else if right.isPointer && left.isNull then some right
  else none

theorem nullableSide?_eq {left right side : TypeExpr} (h : nullableSide? left right = some side) :
    side = left ∨ side = right := by
  unfold nullableSide? at h
  split at h
  · exact .inl (Option.some.inj h).symm
  · split at h
    · exact .inr (Option.some.inj h).symm
    · cases h

theorem nullablePointer?_resolve (meaning : String → TypeInfo) (left right : TypeExpr) :
    nullablePointer? left right (left.resolve meaning) (right.resolve meaning) =
      (nullableSide? left right).map fun side => (side.resolve meaning).name := by
  unfold nullablePointer? nullableSide?
  split
  · rfl
  · split <;> rfl

end TypeExpr

def Alias.depth : Alias → Nat
  | target type => type.depth
  | opaqueType => 0

namespace Declarations

/-- What a type means, by calls that are nested at most `depth` deep. Each takes the stack of the
aliases being followed and hands it back; the pointer side of a nullable pointer is asked for twice. -/
def resolveWithin (d : Declarations) :
    Nat → TypeExpr → List String → Option (TypeInfo × List String)
  | 0, _, _ => none
  | depth + 1, .named name _, stack =>
    match d.aliases.get? name with
    | some (.target target) =>
      if name ∈ stack then some (.named name, stack)
      else
        (d.resolveWithin depth target (name :: stack)).map fun found =>
          (aliasMeaning name found.1, found.2.tail)
    | _ => some (.named name, stack)
  | depth + 1, .refined base op value, stack =>
    let patch := value.intLiteral?.bind (Patch.ofComparison? op)
    (d.resolveWithin depth base stack).map fun found =>
      (patch.elim found.1 found.1.narrow, found.2)
  | depth + 1, .union left right, stack => do
    let leftFound ← d.resolveWithin depth left stack
    let rightFound ← d.resolveWithin depth right leftFound.2
    let info : TypeInfo :=
      { name := leftFound.1.name ++ "|" ++ rightFound.1.name
        unionTags := TypeInfo.addMembers (TypeInfo.addMembers [] leftFound.1) rightFound.1 }
    match TypeExpr.nullableSide? left right with
    | some side =>
      (d.resolveWithin depth side rightFound.2).map fun found =>
        ({ info with nullablePointer := some found.1.name }, found.2)
    | none => some (info, rightFound.2)
  | _ + 1, .array _ init total, stack =>
    some ({ TypeInfo.bare "Array" with
      arrayInit := TypeExpr.literal? init, arrayTotal := TypeExpr.literal? total }, stack)
  | depth + 1, .pointer mutable target, stack =>
    (d.resolveWithin depth target stack).map fun found =>
      ({ found.1 with name := (if mutable then "*mut " else "*") ++ found.1.name }, found.2)
  | _ + 1, .tuple _, stack => some (.unknown, stack)

/-- The greatest depth of a type and of the targets of all aliases. -/
def greatestDepth (d : Declarations) (type : TypeExpr) : Nat :=
  d.aliases.entries.foldr (fun e depth => max e.2.depth depth) type.depth

/-- A call: the type that is asked for and the aliases that are being followed. -/
structure Request where
  type : TypeExpr
  stack : List String

/-- A call makes another one directly: for a part of its type, or for the target of an alias that is
not being followed yet. -/
inductive Asks (d : Declarations) : Request → Request → Prop where
  | part {type part stack} (h : part.PartOf type) : Asks d ⟨type, stack⟩ ⟨part, stack⟩
  | follow {name args target stack} (h : d.aliases.get? name = some (.target target))
      (hnew : name ∉ stack) : Asks d ⟨.named name args, stack⟩ ⟨target, name :: stack⟩

/-- A call is made inside another one, as the last of a chain of `n` nested calls. -/
inductive Nested (d : Declarations) : Request → Nat → Request → Prop where
  | here {request} : Nested d request 1 request
  | inner {request next n last} (h : Asks d request next) (hn : Nested d next n last) :
      Nested d request (n + 1) last

variable {d : Declarations}

/-! ### The stack -/

/-- A call hands the stack back as it was. -/
theorem resolveWithin_stack {n : Nat} {type : TypeExpr} {stack : List String}
    {found : TypeInfo × List String} (h : d.resolveWithin n type stack = some found) :
    found.2 = stack := by
  induction n generalizing type stack found with
  | zero => cases h
  | succ n ih =>
    cases type with
    | named name args =>
      rw [resolveWithin] at h
      split at h
      · split at h
        · cases h
          rfl
        · obtain ⟨inner, hinner, rfl⟩ := Option.map_eq_some_iff.mp h
          exact congrArg List.tail (ih hinner)
      · cases h
        rfl
    | refined base op value =>
      rw [resolveWithin] at h
      obtain ⟨inner, hinner, rfl⟩ := Option.map_eq_some_iff.mp h
      exact (ih hinner :)
    | union left right =>
      rw [resolveWithin] at h
      obtain ⟨leftFound, hleft, h⟩ := Option.bind_eq_some_iff.mp h
      obtain ⟨rightFound, hright, h⟩ := Option.bind_eq_some_iff.mp h
      have hstack : rightFound.2 = stack := (ih hright).trans (ih hleft)
      dsimp only at h
      split at h
      · obtain ⟨inner, hinner, rfl⟩ := Option.map_eq_some_iff.mp h
        exact (ih hinner).trans hstack
      · cases h
        exact hstack
    | array element init total =>
      cases h
      rfl
    | pointer mutable target =>
      rw [resolveWithin] at h
      obtain ⟨inner, hinner, rfl⟩ := Option.map_eq_some_iff.mp h
      exact (ih hinner :)
    | tuple members =>
      cases h
      rfl

/-- Along nested calls each alias is followed once. -/
theorem Asks.trail {request next : Request} (h : d.Asks request next) (htrail : d.Trail request.stack) :
    d.Trail next.stack := by
  cases h with
  | part => exact htrail
  | follow h hnew => exact htrail.cons h hnew

theorem Nested.trail {request last : Request} {n : Nat} (h : d.Nested request n last)
    (htrail : d.Trail request.stack) : d.Trail last.stack := by
  induction h with
  | here => exact htrail
  | inner h _ ih => exact ih (h.trail htrail)

/-! ### The depth -/

theorem depth_le_greatestDepth (type : TypeExpr) : type.depth ≤ d.greatestDepth type := by
  unfold greatestDepth
  induction d.aliases.entries with
  | nil => exact Nat.le_refl _
  | cons e rest ih => exact Nat.le_trans ih (Nat.le_max_right _ _)

theorem target_depth_le_greatestDepth {name : String} {target : TypeExpr}
    (h : d.aliases.get? name = some (.target target)) (type : TypeExpr) :
    target.depth ≤ d.greatestDepth type := by
  have hmem := mem_entries h
  unfold greatestDepth
  generalize d.aliases.entries = entries at hmem ⊢
  induction entries with
  | nil => cases hmem
  | cons e rest ih =>
    rcases List.mem_cons.mp hmem with rfl | hmem
    · exact Nat.le_max_left _ _
    · exact Nat.le_trans (ih hmem) (Nat.le_max_right _ _)

/-- An upper bound for the calls that are still to be nested, where no target is deeper than `most`:
each alias that is not being followed yet may lead through a type once. -/
def Request.room (d : Declarations) (most : Nat) (request : Request) : Nat :=
  (d.aliases.size - request.stack.length) * (most + 1) + (request.type.depth + 1)

theorem Asks.room_lt {request next : Request} {most : Nat} (h : d.Asks request next)
    (htrail : d.Trail request.stack)
    (hmost : ∀ name target, d.aliases.get? name = some (.target target) → target.depth ≤ most) :
    next.room d most < request.room d most := by
  cases h with
  | part h => exact Nat.add_lt_add_left (Nat.succ_lt_succ h.depth_lt) _
  | @follow name args target stack h hnew =>
    have hdepth := hmost name target h
    have hlength : stack.length + 1 ≤ d.aliases.size := (htrail.cons h hnew).length_le
    have hleft : d.aliases.size - stack.length = d.aliases.size - (stack.length + 1) + 1 := by omega
    simp only [Request.room, List.length_cons, TypeExpr.depth]
    rw [hleft, Nat.succ_mul]
    omega

theorem Nested.le_room {request last : Request} {n most : Nat} (h : d.Nested request n last)
    (htrail : d.Trail request.stack)
    (hmost : ∀ name target, d.aliases.get? name = some (.target target) → target.depth ≤ most) :
    n ≤ request.room d most := by
  induction h with
  | here => exact Nat.le_add_left 1 _
  | inner h _ ih =>
    exact Nat.succ_le_of_lt (Nat.lt_of_le_of_lt (ih (h.trail htrail)) (h.room_lt htrail hmost))

/-! ### The search goes as deep as its calls are nested -/

/-- One more level of calls is enough exactly when the calls made directly have enough. -/
theorem resolveWithin_succ_isSome {n : Nat} {type : TypeExpr} {stack : List String} :
    (d.resolveWithin (n + 1) type stack).isSome ↔
      ∀ next, d.Asks ⟨type, stack⟩ next → (d.resolveWithin n next.type next.stack).isSome := by
  cases type with
  | named name args =>
    rw [resolveWithin]
    split
    · rename_i target htarget
      split
      · rename_i hseen
        refine ⟨fun _ next hnext => ?_, fun _ => rfl⟩
        cases hnext with
        | part h => cases h
        | follow _ hnew => exact absurd hseen hnew
      · rename_i hnew
        rw [Option.isSome_map]
        constructor
        · intro h next hnext
          cases hnext with
          | part h => cases h
          | follow htarget' _ =>
            cases htarget.symm.trans htarget'
            exact h
        · exact fun h => h _ (.follow htarget hnew)
    · rename_i hplain
      refine ⟨fun _ next hnext => ?_, fun _ => rfl⟩
      cases hnext with
      | part h => cases h
      | follow htarget _ => exact absurd htarget (hplain _)
  | refined base op value =>
    rw [resolveWithin, Option.isSome_map]
    refine ⟨fun h next hnext => ?_, fun h => h _ (.part .base)⟩
    cases hnext with
    | part hpart =>
      cases hpart
      exact h
  | union left right =>
    rw [resolveWithin]
    constructor
    · intro h next hnext
      obtain ⟨found, hfound⟩ := Option.isSome_iff_exists.mp h
      obtain ⟨leftFound, hleft, hfound⟩ := Option.bind_eq_some_iff.mp hfound
      obtain ⟨rightFound, hright, _⟩ := Option.bind_eq_some_iff.mp hfound
      rw [resolveWithin_stack hleft] at hright
      cases hnext with
      | part hpart =>
        cases hpart with
        | left => exact Option.isSome_of_eq_some hleft
        | right => exact Option.isSome_of_eq_some hright
    · intro h
      have hleft := h _ (.part .left)
      have hright := h _ (.part .right)
      obtain ⟨leftFound, hleftFound⟩ := Option.isSome_iff_exists.mp hleft
      obtain ⟨rightFound, hrightFound⟩ := Option.isSome_iff_exists.mp hright
      rw [hleftFound, Option.bind_eq_bind, Option.bind_some, resolveWithin_stack hleftFound,
        hrightFound, Option.bind_some]
      dsimp only
      split
      · rename_i side hside
        rw [Option.isSome_map, resolveWithin_stack hrightFound]
        rcases TypeExpr.nullableSide?_eq hside with rfl | rfl
        · exact hleft
        · exact hright
      · rfl
  | array element init total =>
    refine ⟨fun _ next hnext => ?_, fun _ => rfl⟩
    cases hnext with
    | part h => cases h
  | pointer mutable target =>
    rw [resolveWithin, Option.isSome_map]
    refine ⟨fun h next hnext => ?_, fun h => h _ (.part .target)⟩
    cases hnext with
    | part hpart =>
      cases hpart
      exact h
  | tuple members =>
    refine ⟨fun _ next hnext => ?_, fun _ => rfl⟩
    cases hnext with
    | part h => cases h

theorem resolveWithin_isSome {n : Nat} {type : TypeExpr} {stack : List String} :
    (d.resolveWithin n type stack).isSome ↔ ∀ k last, d.Nested ⟨type, stack⟩ k last → k ≤ n := by
  induction n generalizing type stack with
  | zero =>
    constructor
    · intro h
      cases h
    · intro h
      cases h 1 _ .here
  | succ n ih =>
    rw [resolveWithin_succ_isSome]
    constructor
    · intro h k last hnested
      cases hnested with
      | here => exact Nat.le_add_left 1 n
      | inner hasks hn => exact Nat.succ_le_succ (ih.mp (h _ hasks) _ _ hn)
    · intro h next hasks
      exact ih.mpr fun k last hn => Nat.le_of_succ_le_succ (h _ _ (.inner hasks hn))

/-! ### The meaning that is found -/

/-- A result of the search is the meaning of the type, behind any aliases that are being followed. -/
theorem resolveWithin_eq {n depth : Nat} {type : TypeExpr} {stack : List String}
    {found : TypeInfo × List String} (h : d.resolveWithin n type stack = some found)
    (htrail : d.Trail stack) (hdepth : d.aliases.size < depth + stack.length) :
    found.1 = type.resolve (d.meaning depth stack) := by
  induction n generalizing type stack found depth with
  | zero => cases h
  | succ n ih =>
    cases type with
    | named name args =>
      cases depth with
      | zero =>
        have := htrail.length_le
        omega
      | succ depth =>
        rw [resolveWithin] at h
        rw [TypeExpr.resolve, meaning]
        cases hentry : d.aliases.get? name with
        | none =>
          rw [hentry] at h
          cases h
          rfl
        | some entry =>
          rw [hentry] at h
          cases entry with
          | opaqueType =>
            cases h
            rfl
          | target target =>
            dsimp only at h ⊢
            by_cases hseen : name ∈ stack
            · rw [if_pos hseen] at h ⊢
              cases h
              rfl
            · rw [if_neg hseen] at h ⊢
              obtain ⟨inner, hinner, rfl⟩ := Option.map_eq_some_iff.mp h
              refine congrArg (aliasMeaning name) (ih hinner (htrail.cons hentry hseen) ?_)
              rw [List.length_cons]
              omega
    | refined base op value =>
      rw [resolveWithin] at h
      obtain ⟨inner, hinner, rfl⟩ := Option.map_eq_some_iff.mp h
      rw [TypeExpr.resolve, ← ih hinner htrail hdepth]
      dsimp only
      cases value.intLiteral?.bind (Patch.ofComparison? op) <;> rfl
    | union left right =>
      rw [resolveWithin] at h
      obtain ⟨leftFound, hleft, h⟩ := Option.bind_eq_some_iff.mp h
      obtain ⟨rightFound, hright, h⟩ := Option.bind_eq_some_iff.mp h
      have hleftStack := resolveWithin_stack hleft
      rw [hleftStack] at hright
      have hrightStack := resolveWithin_stack hright
      rw [TypeExpr.resolve, TypeExpr.nullablePointer?_resolve, ← ih hleft htrail hdepth,
        ← ih hright htrail hdepth]
      dsimp only at h
      split at h
      · rename_i side hside
        rw [hrightStack] at h
        obtain ⟨inner, hinner, rfl⟩ := Option.map_eq_some_iff.mp h
        rw [hside, Option.map_some, ← ih hinner htrail hdepth]
      · rename_i hside
        cases h
        rw [hside]
        rfl
    | array element init total =>
      cases h
      rfl
    | pointer mutable target =>
      rw [resolveWithin] at h
      obtain ⟨inner, hinner, rfl⟩ := Option.map_eq_some_iff.mp h
      rw [TypeExpr.resolve, ← ih hinner htrail hdepth]
    | tuple members =>
      cases h
      rfl

end Declarations

/-- Whatever the aliases refer to, the calls nested inside the call for a type follow each alias at
most once and are at most as many as the aliases and the depth of the types allow. The search needs no
greater limit than that, and then finds the meaning of the type. A call hands back the stack that it
was given, so that the sides of a union do not depend on each other. -/
theorem resolution_terminates (d : Declarations) (type : TypeExpr) :
    let limit := (d.aliases.size + 1) * (d.greatestDepth type + 1)
    (∀ n last, d.Nested ⟨type, []⟩ n last →
        n ≤ limit ∧ last.stack.Nodup ∧ (∀ name ∈ last.stack, d.isAlias name = true) ∧
          ∀ next, d.Asks last next →
            next.type.PartOf last.type ∧ next.stack = last.stack ∨
              ∃ name, d.aliases.get? name = some (.target next.type) ∧ name ∉ last.stack ∧
                next.stack = name :: last.stack) ∧
      (∀ n, (d.resolveWithin n type []).isSome ↔ ∀ k last, d.Nested ⟨type, []⟩ k last → k ≤ n) ∧
      (∀ n, limit ≤ n → d.resolveWithin n type [] = some (d.resolve type, [])) ∧
      (∀ n part stack found, d.resolveWithin n part stack = some found → found.2 = stack) ∧
      ∀ n left right stack found, d.resolveWithin n left stack = some found →
        d.resolveWithin n right found.2 = d.resolveWithin n right stack := by
  intro limit
  have hmost : ∀ name target, d.aliases.get? name = some (.target target) →
      target.depth ≤ d.greatestDepth type :=
    fun _ _ h => Declarations.target_depth_le_greatestDepth h type
  have hlimit : ∀ n last, d.Nested ⟨type, []⟩ n last → n ≤ limit := by
    intro n last h
    calc n ≤ Declarations.Request.room d (d.greatestDepth type) ⟨type, []⟩ := h.le_room .nil hmost
      _ = d.aliases.size * (d.greatestDepth type + 1) + (type.depth + 1) := rfl
      _ ≤ d.aliases.size * (d.greatestDepth type + 1) + (d.greatestDepth type + 1) :=
        Nat.add_le_add_left (Nat.succ_le_succ (Declarations.depth_le_greatestDepth type)) _
      _ = limit := (Nat.succ_mul _ _).symm
  refine ⟨fun n last h => ?_, fun n => Declarations.resolveWithin_isSome, fun n hn => ?_,
    fun n part stack found h => Declarations.resolveWithin_stack h, fun n left right stack found h => ?_⟩
  · have htrail := h.trail .nil
    refine ⟨hlimit n last h, htrail.nodup, fun name hname => ?_, fun next hnext => ?_⟩
    · obtain ⟨e, he, rfl⟩ := List.mem_map.mp (htrail.isAlias name hname)
      exact Option.isSome_of_eq_some (OrderedMap.get?_of_mem he)
    · cases hnext with
      | part hpart => exact .inl ⟨hpart, rfl⟩
      | follow htarget hnew => exact .inr ⟨_, htarget, hnew, rfl⟩
  · have hsome := Declarations.resolveWithin_isSome.mpr fun k last h =>
      Nat.le_trans (hlimit k last h) hn
    obtain ⟨found, hfound⟩ := Option.isSome_iff_exists.mp hsome
    have hinfo := Declarations.resolveWithin_eq hfound .nil (Nat.lt_succ_self d.aliases.size)
    rw [hfound]
    exact congrArg some (Prod.ext hinfo (Declarations.resolveWithin_stack hfound))
  · rw [Declarations.resolveWithin_stack h]

end TuffSafety
