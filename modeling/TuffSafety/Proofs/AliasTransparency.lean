import TuffSafety.Proofs.UnionTags

/-!
# Aliases in place of their targets

The name of an alias may be written out: where the target is neither a union nor unknown, a type
means the same with the target in the place of the name, in all but one respect. A union of a pointer
with null is recognised by how it is spelled, as a pointer beside `USize == 0USize`, and not by what
its sides mean. So the two types are equal exactly when both are spelled as such a union or neither
is. A pointer or a null behind an alias is not recognised, and a value of such a union is used as if
it could not be null.
-/
namespace TuffSafety

namespace TypeInfo

/-- The type with another note of the pointer behind it. -/
def withNullable (t : TypeInfo) (pointer : Option String) : TypeInfo :=
  { t with nullablePointer := pointer }

variable {t : TypeInfo} {pointer : Option String}

theorem normalize_withNullable :
    (t.withNullable pointer).normalize = t.normalize.withNullable pointer := by
  have hinterval : (t.withNullable pointer).interval = t.interval := rfl
  unfold normalize
  rw [hinterval]
  cases t.interval with
  | none => rfl
  | some bounds =>
    dsimp only
    split
    · rfl
    · split <;> rfl

/-- Bounds are narrowed without regard to null. -/
theorem narrow_withNullable {p : Patch} (hp : p.nonNull = false) :
    (t.withNullable pointer).narrow p = (t.narrow p).withNullable pointer := by
  have htightened : (t.withNullable pointer).tightened p = (t.tightened p).withNullable pointer := by
    simp [tightened, base, hp, withNullable]
  rw [narrow_eq_normalize, narrow_eq_normalize, htightened, normalize_withNullable]

end TypeInfo

namespace TypeExpr

/-- A union of a pointer with null by its spelling, below pointers and refinements. -/
def spellsNullable : TypeExpr → Bool
  | union left right => left.isPointer && right.isNull || right.isPointer && left.isNull
  | refined base _ _ => base.spellsNullable
  | pointer _ target => target.spellsNullable
  | named .. | array .. | tuple _ => false

theorem not_isNull_of_isPointer {type : TypeExpr} (h : type.isPointer = true) :
    type.isNull = false := by
  cases type <;> first | rfl | cases h

/-- Some occurrences of a name are replaced by a type. -/
inductive Unfolds (name : String) (target : TypeExpr) : TypeExpr → TypeExpr → Prop where
  | same {e} : Unfolds name target e e
  | here {args} : Unfolds name target (.named name args) target
  | refined {base base' op value} (h : Unfolds name target base base') :
      Unfolds name target (.refined base op value) (.refined base' op value)
  | union {left left' right right'} (hleft : Unfolds name target left left')
      (hright : Unfolds name target right right') :
      Unfolds name target (.union left right) (.union left' right')
  | pointer {mutable pointee pointee'} (h : Unfolds name target pointee pointee') :
      Unfolds name target (.pointer mutable pointee) (.pointer mutable pointee')

theorem Unfolds.isPointer {name : String} {target e e' : TypeExpr} (h : Unfolds name target e e')
    (hpointer : e.isPointer = true) : e'.isPointer = true := by
  cases h with
  | same => exact hpointer
  | here | refined | union => cases hpointer
  | pointer => rfl

variable {meaning : String → TypeInfo} {left right left' right' : TypeExpr}

theorem resolve_refined_withNullable {base base' : TypeExpr} {op : BinaryOp} {value : Expr}
    {pointer : Option String}
    (h : base'.resolve meaning = (base.resolve meaning).withNullable pointer) :
    (refined base' op value).resolve meaning =
      ((refined base op value).resolve meaning).withNullable pointer := by
  rw [resolve, resolve, h]
  split
  · rename_i patch hpatch
    obtain ⟨n, -, hn⟩ := Option.bind_eq_some_iff.mp hpatch
    exact TypeInfo.narrow_withNullable (Facts.nonNull_ofComparison? hn)
  · rfl

/-- The pointer of a union with null is noted for every union that is spelled so, and for no other. -/
theorem nullablePointer?_isSome {leftInfo rightInfo : TypeInfo} :
    (nullablePointer? left right leftInfo rightInfo).isSome = (union left right).spellsNullable := by
  rw [nullablePointer?, spellsNullable]
  cases left.isPointer && right.isNull <;> cases right.isPointer && left.isNull <;> rfl

/-- Where the pointers of a union stay pointers, it notes the same pointer if both note one: a pointer
is never null, so it is the same side. -/
theorem nullablePointer?_eq {l r : TypeInfo} (hleft : left.isPointer = true → left'.isPointer = true)
    (hright : right.isPointer = true → right'.isPointer = true)
    (h : (union left' right').spellsNullable = (union left right).spellsNullable) :
    nullablePointer? left' right' l r = nullablePointer? left right l r := by
  unfold spellsNullable at h
  unfold nullablePointer?
  cases hl : left.isPointer && right.isNull with
  | true =>
    have hpointer := hleft (Bool.and_eq_true_iff.mp hl).1
    have hnull : right'.isNull = true := by
      simpa [hl, hpointer, not_isNull_of_isPointer hpointer] using h
    simp [hpointer, hnull]
  | false =>
    cases hr : right.isPointer && left.isNull with
    | true =>
      have hpointer := hright (Bool.and_eq_true_iff.mp hr).1
      have hnull : left'.isNull = true := by
        simpa [hl, hr, hpointer, not_isNull_of_isPointer hpointer] using h
      simp [hpointer, hnull, not_isNull_of_isPointer hpointer]
    | false =>
      rw [hl, hr, Bool.or_false, Bool.or_eq_false_iff] at h
      simp [h.1, h.2]

end TypeExpr

namespace Declarations

variable {d : Declarations} {name : String} {target type e e' : TypeExpr}

theorem resolve_union {left right : TypeExpr} :
    d.resolve (.union left right) =
      { name := (d.resolve left).name ++ "|" ++ (d.resolve right).name
        unionTags := TypeInfo.addMembers (TypeInfo.addMembers [] (d.resolve left)) (d.resolve right)
        nullablePointer :=
          TypeExpr.nullablePointer? left right (d.resolve left) (d.resolve right) } :=
  rfl

theorem resolve_pointer {mutable : Bool} :
    d.resolve (.pointer mutable target) =
      { d.resolve target with
        name := (if mutable then "*mut " else "*") ++ (d.resolve target).name } :=
  rfl

/-- The members of a union are those of its sides that are known. -/
theorem mem_unionTags {left right : TypeExpr} {member : String} :
    member ∈ (d.resolve (.union left right)).unionTags ↔
      member ≠ TypeName.unknown ∧
        (member ∈ (d.resolve left).members ∨ member ∈ (d.resolve right).members) := by
  rw [resolve_union, TypeInfo.addMembers_eq, TypeInfo.addMembers_eq, mem_gather, mem_gather]
  simp only [List.mem_filter, List.not_mem_nil, false_or, bne_iff_ne]
  exact or_and_right.symm.trans and_comm

/-- No member of a type is unknown. -/
theorem Acyclic.unknown_not_mem (hacyclic : d.Acyclic) (type : TypeExpr) :
    TypeName.unknown ∉ (d.resolve type).unionTags := by
  induction type using hacyclic.typeInduction with
  | named name args ih =>
    by_cases halias : ∃ target, d.aliases.get? name = some (.target target)
    · obtain ⟨target, htarget⟩ := halias
      rw [hacyclic.unionTags_alias htarget]
      exact ih target htarget
    · rw [resolve, TypeExpr.resolve, resolveName_plain fun target h => halias ⟨target, h⟩]
      exact List.not_mem_nil
  | refined base op value ih =>
    obtain ⟨min, max, nonZero, hrefined⟩ := TypeExpr.resolve_refined d.resolveName base op value
    rw [resolve, hrefined]
    exact ih
  | union left right _ _ =>
    rw [mem_unionTags]
    exact fun hmem => hmem.1 rfl
  | pointer mutable target ih => exact ih
  | array | tuple => exact List.not_mem_nil

theorem pointer_name_ne_unknown (mutable : Bool) (target : TypeExpr) :
    (d.resolve (.pointer mutable target)).name ≠ TypeName.unknown := by
  intro h
  have hchars := congrArg String.toList h
  cases mutable <;> simp [resolve, TypeExpr.resolve, TypeName.unknown] at hchars

/-- A pointer brings a member into every union. -/
theorem Acyclic.pointer_member (hacyclic : d.Acyclic) (htype : type.isPointer = true) :
    ∃ member ∈ (d.resolve type).members, member ≠ TypeName.unknown := by
  cases type with
  | named | refined | union | array | tuple => cases htype
  | pointer mutable target =>
    by_cases htags : (d.resolve (.pointer mutable target)).unionTags = []
    · rw [TypeInfo.members_of_plain htags]
      exact ⟨_, List.mem_cons_self, pointer_name_ne_unknown mutable target⟩
    · rw [TypeInfo.members_of_tags htags]
      obtain ⟨member, hmem⟩ := List.exists_mem_of_ne_nil _ htags
      exact ⟨member, hmem, fun h => hacyclic.unknown_not_mem _ (h ▸ hmem)⟩

/-- A type that is spelled as a union of a pointer with null has members. -/
theorem Acyclic.unionTags_ne_nil (hacyclic : d.Acyclic) (h : type.spellsNullable = true) :
    (d.resolve type).unionTags ≠ [] := by
  induction type using TypeExpr.spellsNullable.induct with
  | case1 left right =>
    rw [TypeExpr.spellsNullable, Bool.or_eq_true, Bool.and_eq_true, Bool.and_eq_true] at h
    rcases h with ⟨hpointer, -⟩ | ⟨hpointer, -⟩
    · obtain ⟨member, hmem, hknown⟩ := hacyclic.pointer_member hpointer
      exact List.ne_nil_of_mem (mem_unionTags.mpr ⟨hknown, .inl hmem⟩)
    · obtain ⟨member, hmem, hknown⟩ := hacyclic.pointer_member hpointer
      exact List.ne_nil_of_mem (mem_unionTags.mpr ⟨hknown, .inr hmem⟩)
  | case2 base op value ih =>
    obtain ⟨min, max, nonZero, hrefined⟩ := TypeExpr.resolve_refined d.resolveName base op value
    rw [resolve, hrefined]
    exact ih h
  | case3 mutable target ih => exact ih h
  | case4 | case5 | case6 => cases h

/-- An alias of what is neither a union nor unknown means what its target means. -/
theorem Acyclic.resolve_alias (hacyclic : d.Acyclic)
    (htarget : d.aliases.get? name = some (.target target))
    (hplain : (d.resolve target).unionTags = []) (hknown : (d.resolve target).isUnknown = false)
    (args : List TypeExpr) : d.resolve (.named name args) = d.resolve target := by
  rw [resolve, TypeExpr.resolve, hacyclic.resolveName_alias htarget, aliasMeaning, hplain, hknown]
  rfl

section Unfolds

variable (hacyclic : d.Acyclic) (htarget : d.aliases.get? name = some (.target target))
  (hplain : (d.resolve target).unionTags = []) (hknown : (d.resolve target).isUnknown = false)
include hacyclic htarget hplain hknown

/-- Only the note of a pointer that may be null can change. -/
theorem resolve_unfolds (h : TypeExpr.Unfolds name target e e') :
    ∃ pointer, d.resolve e' = (d.resolve e).withNullable pointer := by
  induction h with
  | same => exact ⟨_, rfl⟩
  | here =>
    rw [hacyclic.resolve_alias htarget hplain hknown]
    exact ⟨_, rfl⟩
  | refined _ ih =>
    obtain ⟨pointer, ih⟩ := ih
    exact ⟨pointer, TypeExpr.resolve_refined_withNullable ih⟩
  | @union left left' right right' _ _ ihl ihr =>
    obtain ⟨leftPointer, ihl⟩ := ihl
    obtain ⟨rightPointer, ihr⟩ := ihr
    refine ⟨TypeExpr.nullablePointer? left' right' (d.resolve left') (d.resolve right'), ?_⟩
    rw [resolve_union, resolve_union, ihl, ihr]
    rfl
  | pointer _ ih =>
    obtain ⟨pointer, ih⟩ := ih
    refine ⟨pointer, ?_⟩
    rw [resolve_pointer, resolve_pointer, ih]
    rfl

/-- The note stays when the spelling does. -/
theorem nullablePointer_unfolds (h : TypeExpr.Unfolds name target e e') :
    (d.resolve e').nullablePointer = (d.resolve e).nullablePointer ↔
      e'.spellsNullable = e.spellsNullable := by
  induction h with
  | same => exact ⟨fun _ => rfl, fun _ => rfl⟩
  | here =>
    have hspelled : target.spellsNullable = false :=
      Bool.eq_false_iff.mpr fun h => hacyclic.unionTags_ne_nil h hplain
    rw [hacyclic.resolve_alias htarget hplain hknown, hspelled]
    exact ⟨fun _ => rfl, fun _ => rfl⟩
  | @refined base base' op value _ ih =>
    obtain ⟨_, _, _, hrefined⟩ := TypeExpr.resolve_refined d.resolveName base op value
    obtain ⟨_, _, _, hrefined'⟩ := TypeExpr.resolve_refined d.resolveName base' op value
    rw [resolve, resolve, hrefined, hrefined']
    exact ih
  | @union left left' right right' hleft hright =>
    obtain ⟨_, hl⟩ := resolve_unfolds hacyclic htarget hplain hknown hleft
    obtain ⟨_, hr⟩ := resolve_unfolds hacyclic htarget hplain hknown hright
    rw [resolve_union, resolve_union, hl, hr]
    constructor
    · intro hsame
      have hsome := congrArg Option.isSome hsame
      rwa [TypeExpr.nullablePointer?_isSome, TypeExpr.nullablePointer?_isSome] at hsome
    · exact TypeExpr.nullablePointer?_eq hleft.isPointer hright.isPointer
  | pointer _ ih => exact ih

end Unfolds

end Declarations

/-- An alias of what is neither a union nor unknown can be replaced by its target anywhere in a type,
and nothing but the note of a pointer that may be null is touched. That note, and with it the type, is
the same exactly when the replacement neither makes nor breaks the spelling of a union of a pointer
with null. -/
theorem alias_replaced_by_target {d : Declarations} {name : String} {target e e' : TypeExpr}
    (hacyclic : d.Acyclic) (htarget : d.aliases.get? name = some (.target target))
    (hplain : (d.resolve target).unionTags = []) (hknown : (d.resolve target).isUnknown = false)
    (h : TypeExpr.Unfolds name target e e') :
    d.resolve e' = { d.resolve e with nullablePointer := (d.resolve e').nullablePointer } ∧
      (d.resolve e' = d.resolve e ↔ e'.spellsNullable = e.spellsNullable) := by
  obtain ⟨pointer, hsame⟩ := Declarations.resolve_unfolds hacyclic htarget hplain hknown h
  have hfields : d.resolve e' =
      { d.resolve e with nullablePointer := (d.resolve e').nullablePointer } := by
    rw [hsame]
    rfl
  refine ⟨hfields, ?_⟩
  rw [← Declarations.nullablePointer_unfolds hacyclic htarget hplain hknown h]
  constructor
  · exact congrArg TypeInfo.nullablePointer
  · intro hpointer
    rw [hfields, hpointer]

namespace Linked

/-- The type `USize == 0USize`. -/
def null : TypeExpr := .refined (.named "USize" []) .eq (.number 0 (some "USize") none)

/-- The type `*Node`. -/
def pointer : TypeExpr := .pointer false (.named "Node" [])

/-- The declarations `type Item = Node; type Link = *Node; type Null = USize == 0USize;` -/
def aliases : List Stmt :=
  [.typeAlias "Item" [] (.named "Node" []) false none, .typeAlias "Link" [] pointer false none,
    .typeAlias "Null" [] null false none]

/-- The aliases with `struct Node { v: I32 } fn f(p: link): I32 => p.v;` -/
def program (link : TypeExpr) : Program :=
  ⟨aliases ++ [.structDecl ⟨"Node", [], [⟨"v", .named "I32" []⟩], false, none⟩,
    .fnDecl ⟨"f", [], [⟨"p", some link⟩], some (.named "I32" []),
      some (.member (.ident "p" none) "v" none), false, none⟩]⟩

def rank (name : String) : Nat :=
  if name ∈ ["Item", "Link", "Null"] then 1 else 0

theorem acyclic : (Declarations.ofStatements aliases).Acyclic :=
  Declarations.acyclic_of_rank rank (by decide)

/-- An alias makes a difference: without it a pointer may be null and has to be guarded, with it the
field is read at once. -/
structure Hides (name : String) (target e e' : TypeExpr) : Prop where
  isAlias : (Declarations.ofStatements aliases).aliases.get? name = some (.target target)
  plain : ((Declarations.ofStatements aliases).resolve target).unionTags = []
  known : ((Declarations.ofStatements aliases).resolve target).isUnknown = false
  unfolds : TypeExpr.Unfolds name target e e'
  hidden : ((Declarations.ofStatements aliases).resolve e).nullablePointer = none
  noted : ((Declarations.ofStatements aliases).resolve e').nullablePointer = some "*Node"
  accepted : (program e).check true = .ok ()
  refused : (program e').check true = .error ⟨.nullMember "v", none⟩

end Linked

/-- A pointer to an alias stays a pointer, and the union with null is recognised either way. -/
theorem alias_replaced_by_target_item :
    let d := Declarations.ofStatements Linked.aliases
    let e := TypeExpr.union (.pointer false (.named "Item" [])) Linked.null
    let e' := TypeExpr.union Linked.pointer Linked.null
    TypeExpr.Unfolds "Item" (.named "Node" []) e e' ∧ d.resolve e' = d.resolve e ∧
      (d.resolve e).nullablePointer = some "*Node" := by
  intro d e e'
  have hunfolds : TypeExpr.Unfolds "Item" (.named "Node" []) e e' := .union (.pointer .here) .same
  have hsame := alias_replaced_by_target Linked.acyclic rfl rfl rfl hunfolds
  exact ⟨hunfolds, hsame.2.mpr rfl, rfl⟩

/-- A pointer behind an alias is not recognised beside null, nor is null behind an alias beside a
pointer. -/
theorem nullable_behind_alias :
    (Declarations.ofStatements Linked.aliases).Acyclic ∧
      Linked.Hides "Link" Linked.pointer (.union (.named "Link" []) Linked.null)
        (.union Linked.pointer Linked.null) ∧
      Linked.Hides "Null" Linked.null (.union Linked.pointer (.named "Null" []))
        (.union Linked.pointer Linked.null) :=
  ⟨Linked.acyclic, ⟨rfl, rfl, rfl, .union .here .same, rfl, rfl, rfl, rfl⟩,
    rfl, rfl, rfl, .union .same .here, rfl, rfl, rfl, rfl⟩

end TuffSafety
