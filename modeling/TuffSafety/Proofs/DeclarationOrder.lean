import Mathlib.Data.List.Nodup
import TuffSafety.Proofs.Agreement
import TuffSafety.Proofs.GlobalNarrowing

/-!
# Declarations in any order, functions one by one

In a program made of declarations only, with distinct names in every table, the tables are the lists
of declarations themselves. Their order is never asked for, and the bodies of functions are read by
the check of the function alone. So such a program is accepted in every order or in none, and the
verdict on a function does not depend on the bodies of the others.
-/
namespace TuffSafety

/-! ### Tables -/

namespace OrderedMap

variable {β : Type}

theorem putEntry_of_notMem (f : Option β → β) {name : String} {l : List (String × β)}
    (h : name ∉ l.map Prod.fst) : putEntry f name l = l ++ [(name, f none)] := by
  induction l with
  | nil => rfl
  | cons e rest ih =>
    obtain ⟨k, v⟩ := e
    rw [List.map_cons, List.mem_cons, not_or] at h
    rw [putEntry, if_neg (fun e => h.1 e.symm), ih h.2]
    rfl

/-- Entries with names that are new and distinct are kept as they come. -/
theorem entries_insertAll (m : OrderedMap β) {l : List (String × β)}
    (h : ((m.entries ++ l).map Prod.fst).Nodup) :
    (l.foldl (fun m e => m.insert e.1 e.2) m).entries = m.entries ++ l := by
  induction l generalizing m with
  | nil => simp
  | cons e rest ih =>
    have hnew : e.1 ∉ m.entries.map Prod.fst := by
      rw [List.map_append, List.nodup_append] at h
      intro hmem
      exact h.2.2 e.1 hmem e.1 (by simp) rfl
    have hentries : (m.insert e.1 e.2).entries = m.entries ++ [e] := putEntry_of_notMem _ hnew
    rw [List.foldl_cons, ih, hentries, List.append_assoc]
    · rfl
    · rw [hentries, List.append_assoc]
      exact h

theorem mem_entries_of_get? {m : OrderedMap β} {name : String} {value : β}
    (h : m.get? name = some value) : (name, value) ∈ m.entries := by
  obtain ⟨entries, distinct⟩ := m
  change entries.lookup name = some value at h
  change (name, value) ∈ entries
  clear distinct
  induction entries with
  | nil => cases h
  | cons e rest ih =>
    obtain ⟨k, v⟩ := e
    by_cases hk : name = k
    · subst hk
      rw [List.lookup_cons_self] at h
      cases h
      exact List.mem_cons_self ..
    · rw [lookup_cons_of_ne hk] at h
      exact List.mem_cons_of_mem _ (ih h)

/-- The order of the entries does not show in look-ups. -/
theorem get?_perm {m m' : OrderedMap β} (h : m.entries.Perm m'.entries) (name : String) :
    m.get? name = m'.get? name := by
  cases hm' : m'.get? name with
  | some value => exact get?_of_mem (h.mem_iff.mpr (mem_entries_of_get? hm'))
  | none =>
    rw [Option.eq_none_iff_forall_ne_some]
    intro value hm
    rw [get?_of_mem (h.mem_iff.mp (mem_entries_of_get? hm))] at hm'
    cases hm'

end OrderedMap

namespace Stmt

def namedStruct? : Stmt → Option (String × StructDecl)
  | .structDecl decl => some (decl.name, decl)
  | _ => none

def namedEnum? : Stmt → Option (String × EnumDecl)
  | .enumDecl decl => some (decl.name, decl)
  | _ => none

def namedFn? : Stmt → Option (String × FnSignature)
  | .fnDecl decl => some (decl.name, ⟨decl, false⟩)
  | .foreignFn decl => some (decl.name, ⟨decl, true⟩)
  | _ => none

def namedAlias? : Stmt → Option (String × Alias)
  | .typeAlias name _ target _ _ => some (name, .target target)
  | .foreignType name _ _ => some (name, .opaqueType)
  | _ => none

def global? : Stmt → Option Global
  | .letDecl name (some type) _ _ => some ⟨name, type⟩
  | .foreignLet name type _ => some ⟨name, type⟩
  | _ => none

/-- The function whose body is checked where the statement stands. -/
def function? : Stmt → Option FnDecl
  | .fnDecl decl => some decl
  | _ => none

end Stmt

/-- No two declarations compete for a name of the same table. -/
structure DistinctNames (body : List Stmt) : Prop where
  structs : ((body.filterMap Stmt.namedStruct?).map Prod.fst).Nodup
  enums : ((body.filterMap Stmt.namedEnum?).map Prod.fst).Nodup
  functions : ((body.filterMap Stmt.namedFn?).map Prod.fst).Nodup
  aliases : ((body.filterMap Stmt.namedAlias?).map Prod.fst).Nodup
  globals : ((body.filterMap Stmt.global?).map Global.name).Nodup

theorem DistinctNames.perm {body body' : List Stmt} (h : DistinctNames body)
    (hperm : body.Perm body') : DistinctNames body' where
  structs := ((hperm.filterMap _).map _).nodup h.structs
  enums := ((hperm.filterMap _).map _).nodup h.enums
  functions := ((hperm.filterMap _).map _).nodup h.functions
  aliases := ((hperm.filterMap _).map _).nodup h.aliases
  globals := ((hperm.filterMap _).map _).nodup h.globals

namespace Declarations

/-- A table takes up the entries that the statements have for it, and nothing else. -/
theorem table_foldl {τ β : Type} (table : Declarations → τ) (put : τ → β → τ) (item? : Stmt → Option β)
    (hadd : ∀ d s, table (d.add s) = ((item? s).map (put (table d))).getD (table d))
    (body : List Stmt) (d : Declarations) :
    table (body.foldl add d) = (body.filterMap item?).foldl put (table d) := by
  induction body generalizing d with
  | nil => rfl
  | cons s rest ih =>
    rw [List.foldl_cons, ih, hadd]
    cases hs : item? s with
    | none =>
      rw [List.filterMap_cons_none hs]
      rfl
    | some e =>
      rw [List.filterMap_cons_some hs]
      rfl

/-- With distinct names, a table is the list of the entries made for it. -/
theorem table_entries {β : Type} (table : Declarations → OrderedMap β)
    (item? : Stmt → Option (String × β)) (hempty : table {} = .empty)
    (hadd : ∀ d s, table (d.add s) =
      ((item? s).map fun e => (table d).insert e.1 e.2).getD (table d))
    {body : List Stmt} (h : ((body.filterMap item?).map Prod.fst).Nodup) :
    (table (ofStatements body)).entries = body.filterMap item? := by
  rw [ofStatements, table_foldl table (fun m e => m.insert e.1 e.2) item? hadd, hempty]
  exact OrderedMap.entries_insertAll .empty h

section

variable {body : List Stmt} (h : DistinctNames body)

include h

theorem structs_entries :
    (ofStatements body).structs.entries = body.filterMap Stmt.namedStruct? := by
  refine table_entries structs _ rfl (fun d s => ?_) h.structs
  cases s with
  | letDecl name type value loc => cases type <;> rfl
  | _ => rfl

theorem enums_entries : (ofStatements body).enums.entries = body.filterMap Stmt.namedEnum? := by
  refine table_entries enums _ rfl (fun d s => ?_) h.enums
  cases s with
  | letDecl name type value loc => cases type <;> rfl
  | _ => rfl

theorem functions_entries :
    (ofStatements body).functions.entries = body.filterMap Stmt.namedFn? := by
  refine table_entries functions _ rfl (fun d s => ?_) h.functions
  cases s with
  | letDecl name type value loc => cases type <;> rfl
  | _ => rfl

theorem aliases_entries :
    (ofStatements body).aliases.entries = body.filterMap Stmt.namedAlias? := by
  refine table_entries aliases _ rfl (fun d s => ?_) h.aliases
  cases s with
  | letDecl name type value loc => cases type <;> rfl
  | _ => rfl

end

theorem globals_eq (body : List Stmt) : (ofStatements body).globals = body.filterMap Stmt.global? := by
  rw [ofStatements, table_foldl globals (fun gs g => gs ++ [g]) Stmt.global?]
  · rw [List.foldl_append_eq_append, ← List.flatMap_def, List.flatMap_singleton']
    rfl
  · intro d s
    cases s with
    | letDecl name type value loc => cases type <;> rfl
    | _ => rfl

end Declarations

/-! ### Programs that are alike -/

/-- With distinct names there is at most one hit. -/
theorem find?_eq_some_iff_mem {α : Type} (key : α → String) (name : String) {l : List α} {x : α}
    (hnodup : (l.map key).Nodup) :
    l.find? (fun x => key x = name) = some x ↔ x ∈ l ∧ key x = name := by
  constructor
  · intro h
    exact ⟨List.mem_of_find?_eq_some h, of_decide_eq_true (List.find?_some h :)⟩
  · rintro ⟨hx, rfl⟩
    cases hfind : l.find? (fun y => key y = key x) with
    | none =>
      rw [List.find?_eq_none] at hfind
      exact absurd (decide_eq_true rfl) (hfind x hx)
    | some y =>
      have hkey : key y = key x := of_decide_eq_true (List.find?_some hfind :)
      rw [List.inj_on_of_nodup_map hnodup (List.mem_of_find?_eq_some hfind) hx hkey]

theorem find?_perm {α : Type} (key : α → String) (name : String) {l l' : List α} (h : l.Perm l')
    (hnodup : (l.map key).Nodup) :
    l.find? (fun x => key x = name) = l'.find? fun x => key x = name := by
  ext x
  rw [find?_eq_some_iff_mem key name hnodup,
    find?_eq_some_iff_mem key name ((h.map key).nodup hnodup), h.mem_iff]

namespace Declarations

variable {body body' : List Stmt}

theorem alike_of_perm (h : DistinctNames body) (hperm : body.Perm body') :
    (ofStatements body).Alike (ofStatements body') := by
  have h' := h.perm hperm
  have haliases : (ofStatements body).aliases.entries.Perm (ofStatements body').aliases.entries := by
    rw [aliases_entries h, aliases_entries h']
    exact hperm.filterMap _
  refine ⟨OrderedMap.get?_perm ?_, OrderedMap.get?_perm ?_, fun name => ?_,
    OrderedMap.get?_perm haliases, haliases.length_eq⟩
  · rw [structs_entries h, structs_entries h']
    exact hperm.filterMap _
  · rw [enums_entries h, enums_entries h']
    exact hperm.filterMap _
  · rw [OrderedMap.get?_perm]
    rw [functions_entries h, functions_entries h']
    exact hperm.filterMap _

theorem global?_perm (h : DistinctNames body) (hperm : body.Perm body') (name : String) :
    (ofStatements body).global? name = (ofStatements body').global? name := by
  have hreverse : ∀ l : List Global, l.reverse.Perm l := List.reverse_perm
  unfold Declarations.global?
  rw [globals_eq, globals_eq]
  refine find?_perm Global.name name ?_ (((hreverse _).map _).nodup_iff.mpr h.globals)
  exact ((hreverse _).trans (hperm.filterMap _)).trans (hreverse _).symm

end Declarations

/-- The scope of the globals is read through the table of the globals. -/
theorem Program.checker_alike (strict : Bool) {body body' : List Stmt}
    (hdecls : (Declarations.ofStatements body).Alike (Declarations.ofStatements body'))
    (hglobal : ∀ name, (Declarations.ofStatements body).global? name =
      (Declarations.ofStatements body').global? name) :
    ((Program.mk body).checker strict).Alike ((Program.mk body').checker strict) := by
  refine ⟨hdecls, fun name => ?_, rfl⟩
  change (Checker.globalScope (.ofStatements body)).get? name =
    (Checker.globalScope (.ofStatements body')).get? name
  rw [Checker.get?_globalScope, Checker.get?_globalScope, hglobal, hdecls.resolve]

theorem Program.checker_alike_of_perm (strict : Bool) {body body' : List Stmt} (h : DistinctNames body)
    (hperm : body.Perm body') :
    ((Program.mk body).checker strict).Alike ((Program.mk body').checker strict) :=
  Program.checker_alike strict (Declarations.alike_of_perm h hperm) (Declarations.global?_perm h hperm)

/-! ### Another body for a function -/

/-- The same declarations in the same order, but for the bodies of functions. -/
structure SameHeads (body body' : List Stmt) : Prop where
  structs : body.filterMap Stmt.namedStruct? = body'.filterMap Stmt.namedStruct?
  enums : body.filterMap Stmt.namedEnum? = body'.filterMap Stmt.namedEnum?
  functions : (body.filterMap Stmt.namedFn?).map (Prod.map id FnSignature.head) =
    (body'.filterMap Stmt.namedFn?).map (Prod.map id FnSignature.head)
  aliases : body.filterMap Stmt.namedAlias? = body'.filterMap Stmt.namedAlias?
  globals : body.filterMap Stmt.global? = body'.filterMap Stmt.global?

theorem filterMap_replace {α β : Type} {f : α → Option β} {x y : α} {before after : List α}
    (h : f x = f y) :
    (before ++ x :: after).filterMap f = (before ++ y :: after).filterMap f := by
  rw [List.filterMap_append, List.filterMap_append, List.filterMap_cons, List.filterMap_cons, h]

theorem sameHeads_rebody (before after : List Stmt) (g : FnDecl) (newBody : Option Expr) :
    SameHeads (before ++ .fnDecl g :: after)
      (before ++ .fnDecl { g with body := newBody } :: after) := by
  constructor
  case functions =>
    rw [List.map_filterMap, List.map_filterMap]
    apply filterMap_replace
    rfl
  all_goals
    apply filterMap_replace
    rfl

theorem SameHeads.distinctNames {body body' : List Stmt} (hsame : SameHeads body body')
    (h : DistinctNames body) : DistinctNames body' := by
  have hnames := congrArg (List.map Prod.fst) hsame.functions
  rw [List.map_map, List.map_map] at hnames
  exact ⟨hsame.structs ▸ h.structs, hsame.enums ▸ h.enums, hnames ▸ h.functions,
    hsame.aliases ▸ h.aliases, hsame.globals ▸ h.globals⟩

theorem OrderedMap.map_get? {β γ : Type} (f : β → γ) (m : OrderedMap β) (name : String) :
    (m.get? name).map f = (m.entries.map (Prod.map id f)).lookup name := by
  unfold OrderedMap.get?
  induction m.entries with
  | nil => rfl
  | cons e rest ih =>
    obtain ⟨k, v⟩ := e
    rw [List.map_cons, Prod.map_apply, id]
    by_cases hk : name = k
    · subst hk
      rw [List.lookup_cons_self, List.lookup_cons_self]
      rfl
    · rw [lookup_cons_of_ne hk, lookup_cons_of_ne hk, ih]

theorem SameHeads.alike {body body' : List Stmt} (hsame : SameHeads body body')
    (h : DistinctNames body) :
    (Declarations.ofStatements body).Alike (Declarations.ofStatements body') := by
  have h' := hsame.distinctNames h
  have haliases : (Declarations.ofStatements body).aliases.entries =
      (Declarations.ofStatements body').aliases.entries := by
    rw [Declarations.aliases_entries h, Declarations.aliases_entries h', hsame.aliases]
  refine ⟨fun name => ?_, fun name => ?_, fun name => ?_, fun name => ?_, ?_⟩
  · unfold OrderedMap.get?
    rw [Declarations.structs_entries h, Declarations.structs_entries h', hsame.structs]
  · unfold OrderedMap.get?
    rw [Declarations.enums_entries h, Declarations.enums_entries h', hsame.enums]
  · rw [OrderedMap.map_get?, OrderedMap.map_get?, Declarations.functions_entries h,
      Declarations.functions_entries h', hsame.functions]
  · unfold OrderedMap.get?
    rw [haliases]
  · unfold OrderedMap.size
    rw [haliases]

theorem Program.checker_alike_of_sameHeads (strict : Bool) {body body' : List Stmt}
    (h : DistinctNames body) (hsame : SameHeads body body') :
    ((Program.mk body).checker strict).Alike ((Program.mk body').checker strict) := by
  refine Program.checker_alike strict (hsame.alike h) fun name => ?_
  unfold Declarations.global?
  rw [Declarations.globals_eq, Declarations.globals_eq, hsame.globals]

/-! ### Programs of declarations -/

theorem forM_eq_ok {ε α : Type} {f : α → Except ε Unit} {l : List α} :
    l.forM f = .ok () ↔ ∀ x ∈ l, f x = .ok () := by
  induction l with
  | nil => exact ⟨fun _ => nofun, fun _ => rfl⟩
  | cons x rest ih =>
    change (f x >>= fun _ => rest.forM f) = .ok () ↔ _
    rw [bind_eq_ok, List.forall_mem_cons, ← ih]
    exact ⟨fun ⟨_, hx, hrest⟩ => ⟨hx, hrest⟩, fun ⟨hx, hrest⟩ => ⟨(), hx, hrest⟩⟩

/-- Declarations leave the flow alone, so that checking them is checking the functions in turn. -/
theorem Checker.stmts_declarations (c : Checker) {ss : List Stmt}
    (hdecl : ∀ s ∈ ss, s.isDeclaration = true) (ret : Option TypeInfo) (last : TypeInfo)
    (flow : Flow) :
    (c.stmts ss ret last flow >>= fun _ => .ok ()) = (ss.filterMap Stmt.function?).forM c.fnDecl := by
  induction ss generalizing last with
  | nil => rfl
  | cons s rest ih =>
    have hrest := ih fun s hs => hdecl s (List.mem_cons_of_mem _ hs)
    have hs := hdecl s (List.mem_cons_self ..)
    cases s with
    | fnDecl decl =>
      rw [Checker.stmts, Checker.stmt]
      change _ = c.fnDecl decl >>= fun _ => (rest.filterMap Stmt.function?).forM c.fnDecl
      cases c.fnDecl decl with
      | error fault => rfl
      | ok _ => exact hrest .void
    | foreignFn | structDecl | enumDecl | typeAlias | foreignType | foreignLet => exact hrest .void
    | _ => cases hs

theorem Program.check_declarations {body : List Stmt} (hdecl : ∀ s ∈ body, s.isDeclaration = true)
    (strict : Bool) :
    (Program.mk body).check strict =
      (body.filterMap Stmt.function?).forM ((Program.mk body).checker strict).fnDecl :=
  Checker.stmts_declarations _ hdecl none .void _

/-- A program of declarations is checked function by function. Its declarations may stand in any
order, and no function's verdict depends on the body of another one. -/
theorem check_modular (strict : Bool) (body : List Stmt)
    (hdecl : ∀ s ∈ body, s.isDeclaration = true) (hdistinct : DistinctNames body) :
    let c := (Program.mk body).checker strict
    (Program.mk body).check strict = (body.filterMap Stmt.function?).forM c.fnDecl ∧
      (∀ body', body.Perm body' →
        ((Program.mk body').check strict = .ok () ↔ (Program.mk body).check strict = .ok ())) ∧
      ∀ before g after newBody, body = before ++ .fnDecl g :: after →
        ∀ f, .fnDecl f ∈ before ++ after →
          ((Program.mk (before ++ .fnDecl { g with body := newBody } :: after)).checker strict).fnDecl f
            = c.fnDecl f := by
  intro c
  refine ⟨Program.check_declarations hdecl strict, ?_, ?_⟩
  · intro body' hperm
    have hdecl' : ∀ s ∈ body', s.isDeclaration = true := fun s hs => hdecl s (hperm.mem_iff.mpr hs)
    have halike := Program.checker_alike_of_perm strict hdistinct hperm
    rw [Program.check_declarations hdecl, Program.check_declarations hdecl', forM_eq_ok, forM_eq_ok]
    constructor
    · intro hall f hf
      rw [(Checker.fnDecl_agrees halike f).eq]
      exact hall f ((hperm.filterMap _).mem_iff.mp hf)
    · intro hall f hf
      rw [← (Checker.fnDecl_agrees halike f).eq]
      exact hall f ((hperm.filterMap _).mem_iff.mpr hf)
  · rintro before g after newBody rfl f _
    have hsame := sameHeads_rebody before after g newBody
    exact (Checker.fnDecl_agrees (Program.checker_alike_of_sameHeads strict hdistinct hsame) f).eq.symm

namespace Declared

def quotient (left right : Expr) : Expr := .binary .div left right none

/-- `fn ratio(p: Pair): Whole => p.a / p.b;` -/
def ratio : FnDecl :=
  ⟨"ratio", [], [⟨"p", some (.named "Pair" [])⟩], some (.named "Whole" []),
    some (quotient (.member (.ident "p" none) "a" none) (.member (.ident "p" none) "b" none)),
    false, none⟩

/-- `fn share(p: Pair): Whole => ratio(p) / limit;` -/
def share : FnDecl :=
  ⟨"share", [], [⟨"p", some (.named "Pair" [])⟩], some (.named "Whole" []),
    some (quotient (.call (.ident "ratio" none) [.ident "p" none] none) (.ident "limit" none)),
    false, none⟩

def before : List Stmt := [.fnDecl share]

/-- `struct Pair { a: Whole, b: NonZero }`, `type NonZero = Whole != 0;`, `type Whole = I32;` and
`extern let limit: NonZero;` -/
def after : List Stmt :=
  [.structDecl ⟨"Pair", [], [⟨"a", .named "Whole" []⟩, ⟨"b", .named "NonZero" []⟩], false, none⟩,
    .typeAlias "NonZero" [] (.refined (.named "Whole" []) .ne (.number 0 none none)) false none,
    .typeAlias "Whole" [] (.named "I32" []) false none,
    .foreignLet "limit" (.named "NonZero" []) none]

def declarations : List Stmt := before ++ .fnDecl ratio :: after

theorem declarations_distinct : DistinctNames declarations := by
  constructor <;> decide

end Declared

open Declared in
/-- Every use stands before its declaration, or behind it in the reversed program. A body of `ratio`
that divides by zero is a fault of `ratio`, not of its caller. -/
theorem check_modular_ratio :
    let broken : FnDecl :=
      { ratio with body := some (quotient (.number 1 none none) (.number 0 none none)) }
    let c := (Program.mk (before ++ .fnDecl broken :: after)).checker true
    (Program.mk declarations).check true = .ok () ∧
      (Program.mk declarations.reverse).check true = .ok () ∧
      c.fnDecl broken = .error ⟨.divisorMayBeZero, none⟩ ∧ c.fnDecl share = .ok () := by
  intro broken c
  obtain ⟨_, horder, hbodies⟩ := check_modular true declarations (by decide) declarations_distinct
  have haccepted : (Program.mk declarations).check true = .ok () := rfl
  have hshare := hbodies before ratio after broken.body rfl share (List.mem_cons_self ..)
  exact ⟨haccepted, (horder _ (List.reverse_perm _).symm).mpr haccepted, rfl, hshare.trans rfl⟩

end TuffSafety
