import TuffSafety.Diagnostic.Wording
import TuffSafety.Proofs.AliasGraph
import TuffSafety.Proofs.Visits

/-!
# Access to arrays behind pointers and aliases

Pointers and aliases that lead to an array change the name of its type and keep its length. Whether an
access needs a proof is decided by the length where it is a literal, and by the name where it is not:
an array behind a pointer whose length is no literal can be accessed at every position.
-/
namespace TuffSafety

namespace TypeInfo

/-- What is known of an array behind pointers; of each it is told, the outermost first, whether it
lets its target be changed. -/
def arrayBehind (init total : Option Int) : List Bool → TypeInfo
  | [] => { TypeInfo.bare "Array" with arrayInit := init, arrayTotal := total }
  | mutable :: layers =>
    let target := arrayBehind init total layers
    { target with name := (if mutable then "*mut " else "*") ++ target.name }

variable {init total : Option Int} {layers : List Bool}

@[simp] theorem arrayBehind_arrayInit : (arrayBehind init total layers).arrayInit = init := by
  induction layers with
  | nil => rfl
  | cons _ _ ih => exact ih

@[simp] theorem arrayBehind_unionTags : (arrayBehind init total layers).unionTags = [] := by
  induction layers with
  | nil => rfl
  | cons _ _ ih => exact ih

@[simp] theorem arrayBehind_isNullable : (arrayBehind init total layers).isNullable = false := by
  induction layers with
  | nil => rfl
  | cons _ _ ih => exact ih

theorem arrayBehind_name_head? (init total : Option Int) (layers : List Bool) :
    (arrayBehind init total layers).name.toList.head? = some (if layers = [] then 'A' else '*') := by
  cases layers with
  | nil => simp [arrayBehind, bare]
  | cons mutable layers => cases mutable <;> simp [arrayBehind]

@[simp] theorem arrayBehind_name_eq : (arrayBehind init total layers).name = "Array" ↔ layers = [] := by
  refine ⟨fun h => ?_, fun h => h ▸ rfl⟩
  have hhead := arrayBehind_name_head? init total layers
  rw [h] at hhead
  by_contra hlayers
  simp [hlayers] at hhead

@[simp] theorem arrayBehind_isUnknown : (arrayBehind init total layers).isUnknown = false := by
  have hhead := arrayBehind_name_head? init total layers
  rw [isUnknown, beq_eq_false_iff_ne]
  intro h
  rw [h] at hhead
  by_cases hlayers : layers = [] <;> simp [TypeName.unknown, hlayers] at hhead

end TypeInfo

namespace Declarations

/-- A type leads to an array: through pointers and through aliases, which are followed to an end. -/
inductive LeadsToArray (d : Declarations) (init total : Option Expr) :
    List String → List Bool → TypeExpr → Prop where
  | array {element} : LeadsToArray d init total [] [] (.array element init total)
  | pointer {names layers target} (mutable : Bool) (h : LeadsToArray d init total names layers target) :
      LeadsToArray d init total names (mutable :: layers) (.pointer mutable target)
  | follow {names layers name args target} (hname : d.aliases.get? name = some (.target target))
      (h : LeadsToArray d init total names layers target) :
      LeadsToArray d init total (name :: names) layers (.named name args)

namespace LeadsToArray

variable {d : Declarations} {init total : Option Expr} {names names' : List String}
  {layers layers' : List Bool} {type : TypeExpr}

/-- The aliases on the way to an array are determined by the type. -/
theorem names_eq (h : d.LeadsToArray init total names layers type)
    (h' : d.LeadsToArray init total names' layers' type) : names = names' := by
  induction h generalizing names' layers' with
  | array =>
    cases h'
    rfl
  | pointer mutable _ ih =>
    cases h' with
    | pointer _ h' => exact ih h'
  | follow hname _ ih =>
    cases h' with
    | follow hname' h' =>
      cases hname.symm.trans hname'
      rw [ih h']

/-- The way on from an alias is shorter than the way that comes across it. -/
theorem from_alias (h : d.LeadsToArray init total names layers type) {name : String}
    (hmem : name ∈ names) :
    ∃ target names' layers', d.aliases.get? name = some (.target target) ∧
      d.LeadsToArray init total names' layers' target ∧ names'.length < names.length := by
  induction h with
  | array => cases hmem
  | pointer _ _ ih => exact ih hmem
  | follow hname h ih =>
    rcases List.mem_cons.mp hmem with rfl | hmem
    · exact ⟨_, _, _, hname, h, Nat.lt_succ_self _⟩
    · obtain ⟨target, names', layers', htarget, h', hlt⟩ := ih hmem
      exact ⟨target, names', layers', htarget, h', Nat.lt_succ_of_lt hlt⟩

/-- A way that ends comes across no alias twice, whether other aliases lead back to themselves or
not. -/
theorem trail (h : d.LeadsToArray init total names layers type) : d.Trail names := by
  induction h with
  | array => exact .nil
  | pointer _ _ ih => exact ih
  | follow hname h ih =>
    refine ih.cons hname fun hmem => ?_
    -- Met again, the alias would have the same way on as here, and a shorter one.
    obtain ⟨target, names', layers', htarget, h', hlt⟩ := h.from_alias hmem
    cases hname.symm.trans htarget
    rw [h.names_eq h'] at hlt
    exact Nat.lt_irrefl _ hlt

theorem resolve_meaning (h : d.LeadsToArray init total names layers type) {depth : Nat}
    {visited : List String} (hdepth : names.length ≤ depth) (hnew : ∀ name ∈ names, name ∉ visited) :
    type.resolve (d.meaning depth visited) =
      .arrayBehind (TypeExpr.literal? init) (TypeExpr.literal? total) layers := by
  induction h generalizing depth visited with
  | array => rfl
  | pointer mutable _ ih =>
    rw [TypeExpr.resolve, ih hdepth hnew]
    rfl
  | @follow names layers name args target hname h ih =>
    cases depth with
    | zero => cases hdepth
    | succ depth =>
      -- The aliases still to come are new, so none of them is taken for a way back.
      have htrail := (h.follow hname : d.LeadsToArray init total _ _ (.named name args)).trail
      have hnext : ∀ next ∈ names, next ∉ name :: visited := by
        intro next hmem
        rw [List.mem_cons, not_or]
        refine ⟨?_, hnew next (List.mem_cons_of_mem name hmem)⟩
        rintro rfl
        exact (List.nodup_cons.mp htrail.nodup).1 hmem
      rw [TypeExpr.resolve, meaning, hname]
      dsimp only
      rw [if_neg (hnew name List.mem_cons_self), ih (Nat.le_of_succ_le_succ hdepth) hnext, aliasMeaning,
        TypeInfo.arrayBehind_unionTags, TypeInfo.arrayBehind_isUnknown]
      rfl

/-- Neither the pointers nor the aliases on the way touch the length of the array. -/
theorem resolve_eq (h : d.LeadsToArray init total names layers type) :
    d.resolve type = .arrayBehind (TypeExpr.literal? init) (TypeExpr.literal? total) layers :=
  h.resolve_meaning (Nat.le_succ_of_le h.trail.length_le) fun _ _ => List.not_mem_nil

end LeadsToArray

end Declarations

namespace Checker

variable {c : Checker}

/-- The rule for an access decides as soon as the target and the position have been looked at. -/
theorem expr_index_eq {target position : Expr} {loc : Option Loc} {ret : Option TypeInfo}
    {flow mid last : Flow} {info place : TypeInfo} (ht : c.expr target ret flow = .ok (info, mid))
    (hp : c.expr position ret mid = .ok (place, last)) :
    c.expr (.index target position loc) ret flow = (c.index info place loc).map (·, last) := by
  rw [expr, ht]
  change (c.expr position ret mid >>= fun _ => _) = _
  rw [hp]
  cases h : c.index info place loc <;> simp [h, bind, pure, Except.bind, Except.pure, Except.map]

variable {init : Option Int} {layers : List Bool} {place : TypeInfo}

theorem index_array_ok_iff (hstrict : c.strict = true) (total : Option Int) (loc : Option Loc) :
    (∃ t, c.index (.arrayBehind init total layers) place loc = .ok t) ↔
      (∃ n low high, init = some n ∧ place.interval = some (low, high) ∧ 0 ≤ low ∧ high < n) ∨
        init = none ∧ layers ≠ [] := by
  rw [index, hstrict, TypeInfo.arrayBehind_isNullable, TypeInfo.arrayBehind_arrayInit]
  cases init with
  | none => by_cases hlayers : layers = [] <;> simp [hlayers, reject]
  | some n =>
    cases hplace : place.interval with
    | none => simp [reject]
    | some bounds =>
      obtain ⟨low, high⟩ := bounds
      by_cases hout : low < 0 ∨ n ≤ high
      · have hproven : ¬(0 ≤ low ∧ high < n) := by omega
        simpa [hout, reject] using hproven
      · have hproven : 0 ≤ low ∧ high < n := by omega
        simpa [hout] using hproven

theorem index_array_unproven_iff (hstrict : c.strict = true) (total : Option Int) (loc : Option Loc) :
    (∃ fault, c.index (.arrayBehind init total layers) place loc = .error ⟨fault, loc⟩ ∧
        fault.code = .safetyArrayBoundsUnproven) ↔
      (∃ n, init = some n) ∧ place.interval = none ∨ init = none ∧ layers = [] := by
  rw [index, hstrict, TypeInfo.arrayBehind_isNullable, TypeInfo.arrayBehind_arrayInit]
  cases init with
  | none => by_cases hlayers : layers = [] <;> simp [hlayers, reject, CheckFault.code]
  | some n =>
    cases hplace : place.interval with
    | none => simp [reject, CheckFault.code]
    | some bounds =>
      by_cases hout : bounds.1 < 0 ∨ n ≤ bounds.2 <;> simp [hout, reject, CheckFault.code]

end Checker

/-- Of an array behind pointers and aliases the initialised length is known when it is a literal. An
access is accepted exactly when it is and the position is known to lie below it, or when it is not and
there is a pointer in front of the array. It is refused as unproven exactly when the position is not
known below a known length, or when the length is not known and there is no pointer. -/
theorem array_access_decided {c : Checker} {init total : Option Expr} {names : List String}
    {layers : List Bool} {type : TypeExpr} {target position : Expr} {ret : Option TypeInfo}
    {flow mid last : Flow} {place : TypeInfo} (loc : Option Loc) (hstrict : c.strict = true)
    (hleads : c.decls.LeadsToArray init total names layers type)
    (ht : c.expr target ret flow = .ok (c.decls.resolve type, mid))
    (hp : c.expr position ret mid = .ok (place, last)) :
    let access := c.expr (.index target position loc) ret flow
    let length := (c.decls.resolve type).arrayInit
    length = TypeExpr.literal? init ∧
      ((∃ r, access = .ok r) ↔
        (∃ n low high, length = some n ∧ place.interval = some (low, high) ∧ 0 ≤ low ∧ high < n) ∨
          length = none ∧ layers ≠ []) ∧
      ((∃ fault, access = .error ⟨fault, loc⟩ ∧ fault.code = .safetyArrayBoundsUnproven) ↔
        (∃ n, length = some n) ∧ place.interval = none ∨ length = none ∧ layers = []) := by
  intro access length
  have hlength : length = TypeExpr.literal? init := by
    rw [show length = (c.decls.resolve type).arrayInit from rfl, hleads.resolve_eq,
      TypeInfo.arrayBehind_arrayInit]
  have haccess : access = (c.index (c.decls.resolve type) place loc).map (·, last) :=
    Checker.expr_index_eq ht hp
  rw [haccess, hlength, hleads.resolve_eq]
  refine ⟨rfl, ?_, ?_⟩
  · rw [← Checker.index_array_ok_iff hstrict (TypeExpr.literal? total) loc]
    cases c.index _ place loc <;> simp [Except.map]
  · rw [← Checker.index_array_unproven_iff hstrict (TypeExpr.literal? total) loc]
    cases c.index _ place loc <;> simp [Except.map]

namespace Handles

/-- The type `[I32; length; length]`. -/
def array (length : Expr) : TypeExpr :=
  .array (.named "I32" []) (some length) (some length)

/-- The declarations `type Rows = [I32; length; length]; type Handle = *Rows;` -/
def aliases (length : Expr) : List Stmt :=
  [.typeAlias "Rows" [] (array length) false none,
    .typeAlias "Handle" [] (.pointer false (.named "Rows" [])) false none]

/-- The aliases with `fn f(p: type, i: place): I32 => p[i];` -/
def program (length : Expr) (type place : TypeExpr) : Program :=
  ⟨aliases length ++
    [.fnDecl ⟨"f", [], [⟨"p", some type⟩, ⟨"i", some place⟩], some (.named "I32" []),
      some (.index (.ident "p" none) (.ident "i" none) none), false, none⟩]⟩

theorem leads (length : Expr) (type place : TypeExpr) :
    ((program length type place).checker true).decls.LeadsToArray (some length) (some length)
      ["Handle", "Rows"] [false] (.named "Handle" []) :=
  .follow rfl (.pointer false (.follow rfl .array))

end Handles

/-- A pointer to an alias of an array keeps its length, so that the position has to be proved. -/
theorem array_access_decided_handle :
    let program := Handles.program (.number 3 none none) (.named "Handle" [])
    let c := (program (.named "USize" [])).checker true
    let flow := c.fnStart [⟨"p", some (.named "Handle" [])⟩, ⟨"i", some (.named "USize" [])⟩]
    c.decls.LeadsToArray (some (.number 3 none none)) (some (.number 3 none none)) ["Handle", "Rows"]
        [false] (.named "Handle" []) ∧
      (∃ fault, c.expr (.index (.ident "p" none) (.ident "i" none) none) none flow =
        .error ⟨fault, none⟩ ∧ fault.code = .safetyArrayBoundsUnproven) ∧
      (program (.refined (.named "USize" []) .lt (.number 3 none none))).check true = .ok () := by
  intro program c flow
  have hleads := Handles.leads (.number 3 none none) (.named "Handle" []) (.named "USize" [])
  have hp : c.expr (.ident "p" none) none flow = .ok (c.decls.resolve (.named "Handle" []), flow) := rfl
  have hi : c.expr (.ident "i" none) none flow = .ok (.named "USize", flow) := rfl
  have hunproven := (array_access_decided none rfl hleads hp hi).2.2.mpr (.inl ⟨⟨3, rfl⟩, rfl⟩)
  exact ⟨hleads, hunproven, rfl⟩

/-- Behind a pointer an array whose length is not known is accessed without a proof, with and without
an alias. Without the pointer the access is refused. -/
theorem unknown_length_behind_pointer :
    let length : Expr := .ident "n" none
    let place : TypeExpr := .named "USize" []
    let handle : TypeExpr := .named "Handle" []
    let c := (Handles.program length handle place).checker true
    let flow := c.fnStart [⟨"p", some handle⟩, ⟨"i", some place⟩]
    c.decls.LeadsToArray (some length) (some length) ["Handle", "Rows"] [false] handle ∧
      c.expr (.ident "p" none) none flow = .ok (c.decls.resolve handle, flow) ∧
      c.expr (.ident "i" none) none flow = .ok (.named "USize", flow) ∧
      c.expr (.index (.ident "p" none) (.ident "i" none) none) none flow = .ok (.unknown, flow) ∧
      (c.decls.resolve handle).arrayInit = none ∧ (TypeInfo.named "USize").interval = none ∧
      (Handles.program length handle place).check true = .ok () ∧
      (Handles.program length (.pointer false (Handles.array length)) place).check true = .ok () ∧
      (Handles.program length (Handles.array length) place).check true =
        .error ⟨.indexUnproven, none⟩ :=
  ⟨Handles.leads _ _ _, rfl, rfl, rfl, rfl, rfl, rfl, rfl, rfl⟩

end TuffSafety
