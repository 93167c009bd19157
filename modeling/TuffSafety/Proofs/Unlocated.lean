import TuffSafety.Checker
import TuffSafety.Proofs.Elementary

/-!
# Programs without locations

Erasing every location from a program leaves its shape. Two programs of the same shape differ in
their locations only, whichever of them were dropped or changed. What the checker reads off the
syntax tree, literals and names, assigned names, facts of conditions and the meaning of types, is read
off the shape.
-/
namespace TuffSafety

/-! ### Erasing -/

namespace Unlocated

def enumDecl (decl : EnumDecl) : EnumDecl :=
  { decl with loc := none }

mutual

def expr : Expr → Expr
  | .number value suffix _ => .number value suffix none
  | .float value _ => .float value none
  | .bool value _ => .bool value none
  | .string value _ => .string value none
  | .char value _ => .char value none
  | .ident name _ => .ident name none
  | .binary op left right _ => .binary op (expr left) (expr right) none
  | .unary op operand _ => .unary op (expr operand) none
  | .call callee args _ => .call (expr callee) (exprs args) none
  | .member object property _ => .member (expr object) property none
  | .index target position _ => .index (expr target) (expr position) none
  | .structInit name fields _ => .structInit name (fieldInits fields) none
  | .ite condition thenBranch elseBranch _ =>
    .ite (expr condition) (expr thenBranch) (expr? elseBranch) none
  | .matchOn target cases _ => .matchOn (expr target) (matchCases cases) none
  | .isPattern operand pattern _ => .isPattern (expr operand) pattern none
  | .unwrap operand _ => .unwrap (expr operand) none
  | .block body => .block (block body)

def expr? : Option Expr → Option Expr
  | some e => some (expr e)
  | none => none

def exprs : List Expr → List Expr
  | [] => []
  | e :: es => expr e :: exprs es

def fieldInits : List FieldInit → List FieldInit
  | [] => []
  | ⟨key, value⟩ :: fs => ⟨key, expr value⟩ :: fieldInits fs

def matchCases : List MatchCase → List MatchCase
  | [] => []
  | ⟨pattern, body⟩ :: cs => ⟨pattern, expr body⟩ :: matchCases cs

def block : Block → Block
  | ⟨statements, _⟩ => ⟨stmts statements, none⟩

def stmts : List Stmt → List Stmt
  | [] => []
  | s :: ss => stmt s :: stmts ss

def stmt : Stmt → Stmt
  | .fnDecl decl => .fnDecl (fnDecl decl)
  | .foreignFn decl => .foreignFn (fnDecl decl)
  | .structDecl decl => .structDecl (structDecl decl)
  | .enumDecl decl => .enumDecl (enumDecl decl)
  | .typeAlias name generics target exported _ =>
    .typeAlias name generics (typeExpr target) exported none
  | .foreignType name generics _ => .foreignType name generics none
  | .letDecl name type value _ => .letDecl name (typeExpr? type) (expr value) none
  | .foreignLet name type _ => .foreignLet name (typeExpr type) none
  | .block body => .block (block body)
  | .expr e _ => .expr (expr e) none
  | .assign target value _ => .assign (expr target) (expr value) none
  | .ret value _ => .ret (expr? value) none
  | .ite condition thenBranch elseBranch _ =>
    .ite (expr condition) (expr thenBranch) (expr? elseBranch) none
  | .whileLoop condition body _ => .whileLoop (expr condition) (block body) none
  | .forLoop iterator first last body _ =>
    .forLoop iterator (expr first) (expr last) (block body) none
  | .breakLoop _ => .breakLoop none
  | .continueLoop _ => .continueLoop none

def fnDecl : FnDecl → FnDecl
  | ⟨name, generics, parameters, returnType, body, exported, _⟩ =>
    ⟨name, generics, params parameters, typeExpr? returnType, expr? body, exported, none⟩

def params : List Param → List Param
  | [] => []
  | ⟨name, type⟩ :: ps => ⟨name, typeExpr? type⟩ :: params ps

def structDecl : StructDecl → StructDecl
  | ⟨name, generics, fields, exported, _⟩ => ⟨name, generics, fieldDecls fields, exported, none⟩

def fieldDecls : List FieldDecl → List FieldDecl
  | [] => []
  | ⟨name, type⟩ :: fs => ⟨name, typeExpr type⟩ :: fieldDecls fs

/-- The bounds that a type names are expressions with locations too. -/
def typeExpr : TypeExpr → TypeExpr
  | .named name args => .named name (typeExprs args)
  | .refined base op value => .refined (typeExpr base) op (expr value)
  | .union left right => .union (typeExpr left) (typeExpr right)
  | .array element init total => .array (typeExpr element) (expr? init) (expr? total)
  | .pointer mutable target => .pointer mutable (typeExpr target)
  | .tuple members => .tuple (typeExprs members)

def typeExpr? : Option TypeExpr → Option TypeExpr
  | some t => some (typeExpr t)
  | none => none

def typeExprs : List TypeExpr → List TypeExpr
  | [] => []
  | t :: ts => typeExpr t :: typeExprs ts

end

theorem matchCases_pattern (cs : List MatchCase) :
    (matchCases cs).map MatchCase.pattern = cs.map MatchCase.pattern := by
  induction cs with
  | nil => rfl
  | cons c cs ih =>
    obtain ⟨pattern, body⟩ := c
    rw [matchCases, List.map_cons, List.map_cons, ih]

theorem params_eq_map (ps : List Param) :
    params ps = ps.map fun p => ⟨p.name, typeExpr? p.type⟩ := by
  induction ps with
  | nil => rfl
  | cons p ps ih =>
    obtain ⟨name, type⟩ := p
    rw [params, List.map_cons, ih]

theorem field?_structDecl (decl : StructDecl) (name : String) :
    (structDecl decl).field? name =
      (decl.field? name).map fun f => ⟨f.name, typeExpr f.type⟩ := by
  obtain ⟨_, generics, fields, exported, loc⟩ := decl
  change (fieldDecls fields).find? _ = (fields.find? _).map _
  induction fields with
  | nil => rfl
  | cons f fs ih =>
    obtain ⟨key, type⟩ := f
    rw [fieldDecls, List.find?_cons, List.find?_cons]
    dsimp only
    split
    · rfl
    · exact ih

/-! ### Literals and assigned names -/

theorem intLiteral?_expr (e : Expr) : (expr e).intLiteral? = e.intLiteral? := by
  cases e with
  | unary op operand loc => cases op <;> cases operand <;> rfl
  | _ => rfl

theorem isNullLiteral_expr (e : Expr) : (expr e).isNullLiteral = e.isNullLiteral := by
  cases e <;> rfl

theorem literal?_expr? (e : Option Expr) :
    TypeExpr.literal? (expr? e) = TypeExpr.literal? e := by
  cases e with
  | none => rfl
  | some e => exact intLiteral?_expr e

theorem target_expr (e : Expr) : Assigned.target (expr e) = Assigned.target e := by
  cases e <;> rfl

mutual

theorem assigned_expr : ∀ e, Assigned.expr (expr e) = Assigned.expr e
  | .number .. | .float .. | .bool .. | .string .. | .char .. | .ident .. => rfl
  | .binary _ left right _ => by
    rw [expr, Assigned.expr, Assigned.expr, assigned_expr left, assigned_expr right]
  | .unary _ operand _ => by
    rw [expr, Assigned.expr, Assigned.expr, assigned_expr operand]
  | .call callee args _ => by
    rw [expr, Assigned.expr, Assigned.expr, assigned_expr callee, assigned_exprs args]
  | .member object _ _ => by
    rw [expr, Assigned.expr, Assigned.expr, assigned_expr object]
  | .index target position _ => by
    rw [expr, Assigned.expr, Assigned.expr, assigned_expr target, assigned_expr position]
  | .structInit _ fields _ => by
    rw [expr, Assigned.expr, Assigned.expr, assigned_fieldInits fields]
  | .ite condition thenBranch elseBranch _ => by
    rw [expr, Assigned.expr, Assigned.expr, assigned_expr condition, assigned_expr thenBranch,
      assigned_expr? elseBranch]
  | .matchOn target cases _ => by
    rw [expr, Assigned.expr, Assigned.expr, assigned_expr target, assigned_matchCases cases]
  | .isPattern operand _ _ => by
    rw [expr, Assigned.expr, Assigned.expr, assigned_expr operand]
  | .unwrap operand _ => by
    rw [expr, Assigned.expr, Assigned.expr, assigned_expr operand]
  | .block ⟨statements, _⟩ => by
    rw [expr, block, Assigned.expr, Assigned.expr, assigned_stmts statements]

theorem assigned_expr? : ∀ e, Assigned.expr? (expr? e) = Assigned.expr? e
  | some e => assigned_expr e
  | none => rfl

theorem assigned_exprs : ∀ es, Assigned.exprs (exprs es) = Assigned.exprs es
  | [] => rfl
  | e :: es => by
    rw [exprs, Assigned.exprs, Assigned.exprs, assigned_expr e, assigned_exprs es]

theorem assigned_fieldInits : ∀ fs, Assigned.fieldInits (fieldInits fs) = Assigned.fieldInits fs
  | [] => rfl
  | ⟨_, value⟩ :: fs => by
    rw [fieldInits, Assigned.fieldInits, Assigned.fieldInits, assigned_expr value,
      assigned_fieldInits fs]

theorem assigned_matchCases : ∀ cs, Assigned.matchCases (matchCases cs) = Assigned.matchCases cs
  | [] => rfl
  | ⟨_, body⟩ :: cs => by
    rw [matchCases, Assigned.matchCases, Assigned.matchCases, assigned_expr body,
      assigned_matchCases cs]

theorem assigned_stmts : ∀ ss, Assigned.stmts (stmts ss) = Assigned.stmts ss
  | [] => rfl
  | s :: ss => by
    rw [stmts, Assigned.stmts, Assigned.stmts, assigned_stmt s, assigned_stmts ss]

theorem assigned_stmt : ∀ s, Assigned.stmt (stmt s) = Assigned.stmt s
  | .letDecl _ _ value _ => by
    rw [stmt, Assigned.stmt, Assigned.stmt, assigned_expr value]
  | .block ⟨statements, _⟩ => by
    rw [stmt, block, Assigned.stmt, Assigned.stmt, assigned_stmts statements]
  | .expr e _ => by
    rw [stmt, Assigned.stmt, Assigned.stmt, assigned_expr e]
  | .assign target value _ => by
    rw [stmt, Assigned.stmt, Assigned.stmt, target_expr, assigned_expr value]
  | .ret value _ => by
    rw [stmt, Assigned.stmt, Assigned.stmt, assigned_expr? value]
  | .ite condition thenBranch elseBranch _ => by
    rw [stmt, Assigned.stmt, Assigned.stmt, assigned_expr condition, assigned_expr thenBranch,
      assigned_expr? elseBranch]
  | .whileLoop condition ⟨statements, _⟩ _ => by
    rw [stmt, block, Assigned.stmt, Assigned.stmt, assigned_expr condition,
      assigned_stmts statements]
  | .forLoop _ _ _ ⟨statements, _⟩ _ => by
    rw [stmt, block, Assigned.stmt, Assigned.stmt, assigned_stmts statements]
  | .fnDecl _ | .foreignFn _ | .structDecl _ | .enumDecl _ | .typeAlias .. | .foreignType ..
  | .foreignLet .. | .breakLoop _ | .continueLoop _ => rfl

end

theorem expr_assigned (e : Expr) : (expr e).assigned = e.assigned := by
  rw [Expr.assigned, Expr.assigned, assigned_expr]

theorem block_assigned (b : Block) : (block b).assigned = b.assigned := by
  obtain ⟨statements, loc⟩ := b
  rw [block, Block.assigned, Block.assigned, assigned_stmts]

/-! ### Facts of conditions -/

theorem ofComparison_expr (left : Expr) (op : BinaryOp) (right : Expr) :
    Facts.ofComparison (expr left) op (expr right) = Facts.ofComparison left op right := by
  cases left with
  | ident name loc =>
    rw [expr, Facts.ofComparison, Facts.ofComparison, intLiteral?_expr, isNullLiteral_expr]
  | _ => cases right <;> rfl

theorem learned_expr : ∀ condition truth,
    Facts.learned (expr condition) truth = Facts.learned condition truth
  | .binary op left right loc, truth => by
    have hleft := learned_expr left
    have hright := learned_expr right
    cases op with
    | and | or => rw [expr, Facts.learned, Facts.learned, hleft, hright]
    | eq | ne | lt | le | gt | ge =>
      cases truth with
      | true => exact ofComparison_expr left _ right
      | false => exact ofComparison_expr left _ right
    | add | sub | mul | div | mod =>
      cases truth with
      | true => exact ofComparison_expr left _ right
      | false => rfl
  | .number .., _ | .float .., _ | .bool .., _ | .string .., _ | .char .., _ | .ident .., _
  | .unary .., _ | .call .., _ | .member .., _ | .index .., _ | .structInit .., _ | .ite .., _
  | .matchOn .., _ | .isPattern .., _ | .unwrap .., _ | .block _, _ => rfl

theorem derive_expr (condition : Expr) (truth : Bool) :
    Facts.derive (expr condition) truth = Facts.derive condition truth := by
  rw [Facts.derive, Facts.derive, learned_expr]

/-! ### The meaning of types -/

theorem isPointer_typeExpr (t : TypeExpr) : (typeExpr t).isPointer = t.isPointer := by
  cases t <;> rfl

theorem isNull_typeExpr (t : TypeExpr) : (typeExpr t).isNull = t.isNull := by
  cases t with
  | refined base op value =>
    cases base with
    | named name args => rw [typeExpr, typeExpr, TypeExpr.isNull, TypeExpr.isNull, isNullLiteral_expr]
    | _ => rfl
  | _ => rfl

theorem resolve_typeExpr (meaning : String → TypeInfo) :
    ∀ t : TypeExpr, (typeExpr t).resolve meaning = t.resolve meaning
  | .named _ _ => rfl
  | .refined base op value => by
    rw [typeExpr, TypeExpr.resolve, TypeExpr.resolve, resolve_typeExpr meaning base,
      intLiteral?_expr]
  | .union left right => by
    rw [typeExpr, TypeExpr.resolve, TypeExpr.resolve, resolve_typeExpr meaning left,
      resolve_typeExpr meaning right]
    unfold TypeExpr.nullablePointer?
    rw [isPointer_typeExpr, isPointer_typeExpr, isNull_typeExpr, isNull_typeExpr]
  | .array _ init total => by
    rw [typeExpr, TypeExpr.resolve, TypeExpr.resolve, literal?_expr?, literal?_expr?]
  | .pointer _ target => by
    rw [typeExpr, TypeExpr.resolve, TypeExpr.resolve, resolve_typeExpr meaning target]
  | .tuple _ => rfl

end Unlocated

/-! ### Declarations -/

namespace OrderedMap

variable {β γ : Type} (f : β → γ)

/-- The same names with other values. -/
def map (m : OrderedMap β) : OrderedMap γ where
  entries := m.entries.map fun e => (e.1, f e.2)
  distinct := by
    rw [List.map_map]
    exact m.distinct

theorem get?_map (m : OrderedMap β) (name : String) : (m.map f).get? name = (m.get? name).map f := by
  change (m.entries.map fun e => (e.1, f e.2)).lookup name = (m.entries.lookup name).map f
  induction m.entries with
  | nil => rfl
  | cons e rest ih =>
    obtain ⟨k, v⟩ := e
    rw [List.map_cons]
    by_cases h : name = k
    · subst h
      rw [List.lookup_cons_self, List.lookup_cons_self, Option.map_some]
    · rw [lookup_cons_of_ne h, lookup_cons_of_ne h, ih]

theorem contains_map (m : OrderedMap β) (name : String) :
    (m.map f).contains name = m.contains name := by
  rw [contains, contains, get?_map, Option.isSome_map]

theorem size_map (m : OrderedMap β) : (m.map f).size = m.size :=
  List.length_map _

theorem map_insert (m : OrderedMap β) (name : String) (value : β) :
    (m.insert name value).map f = (m.map f).insert name (f value) := by
  have hput : ∀ l : List (String × β),
      (putEntry (fun _ => value) name l).map (fun e => (e.1, f e.2)) =
        putEntry (fun _ => f value) name (l.map fun e => (e.1, f e.2)) := by
    intro l
    induction l with
    | nil => rfl
    | cons e rest ih =>
      by_cases h : e.1 = name
      · simp only [putEntry, h, if_true, List.map_cons]
      · simp only [putEntry, h, if_false, List.map_cons, ih]
  simp only [map, insert, alter, hput]

end OrderedMap

namespace Unlocated

def signature (sig : FnSignature) : FnSignature :=
  { sig with decl := fnDecl sig.decl }

def aliasDecl : Alias → Alias
  | .target type => .target (typeExpr type)
  | .opaqueType => .opaqueType

def global (g : Global) : Global :=
  ⟨g.name, typeExpr g.type⟩

def decls (d : Declarations) : Declarations where
  structs := d.structs.map structDecl
  enums := d.enums.map enumDecl
  functions := d.functions.map signature
  aliases := d.aliases.map aliasDecl
  globals := d.globals.map global

theorem fnDecl_name (decl : FnDecl) : (fnDecl decl).name = decl.name := by
  cases decl
  rfl

theorem structDecl_name (decl : StructDecl) : (structDecl decl).name = decl.name := by
  cases decl
  rfl

theorem decls_add (d : Declarations) (s : Stmt) : decls (d.add s) = (decls d).add (stmt s) := by
  cases s with
  | fnDecl decl | foreignFn decl =>
    simp only [Declarations.add, decls, stmt, OrderedMap.map_insert, fnDecl_name]
    rfl
  | structDecl decl =>
    simp only [Declarations.add, decls, stmt, OrderedMap.map_insert, structDecl_name]
  | enumDecl decl | typeAlias name generics target exported loc | foreignType name generics loc =>
    simp only [Declarations.add, decls, stmt, OrderedMap.map_insert]
    rfl
  | foreignLet name type loc =>
    simp only [Declarations.add, decls, stmt, List.map_append]
    rfl
  | letDecl name type value loc =>
    cases type with
    | none => rfl
    | some type =>
      simp only [Declarations.add, decls, stmt, typeExpr?, List.map_append]
      rfl
  | _ => rfl

theorem decls_ofStatements (body : List Stmt) :
    decls (.ofStatements body) = .ofStatements (stmts body) := by
  have hfold : ∀ (body : List Stmt) (d : Declarations),
      decls (body.foldl Declarations.add d) = (stmts body).foldl Declarations.add (decls d) := by
    intro body
    induction body with
    | nil => exact fun _ => rfl
    | cons s rest ih =>
      intro d
      rw [List.foldl_cons, stmts, List.foldl_cons, ih, decls_add]
  exact hfold body {}

theorem meaning_decls (d : Declarations) (depth : Nat) (visited : List String) (name : String) :
    (decls d).meaning depth visited name = d.meaning depth visited name := by
  induction depth generalizing visited name with
  | zero => rfl
  | succ depth ih =>
    have hfollow : (decls d).meaning depth (name :: visited) = d.meaning depth (name :: visited) :=
      funext fun name' => ih (name :: visited) name'
    have halias : (decls d).aliases.get? name = (d.aliases.get? name).map aliasDecl :=
      OrderedMap.get?_map _ _ _
    rw [Declarations.meaning, Declarations.meaning, halias, hfollow]
    cases d.aliases.get? name with
    | none => rfl
    | some found =>
      cases found with
      | opaqueType => rfl
      | target type =>
        dsimp only [Option.map_some, aliasDecl]
        rw [resolve_typeExpr]

theorem resolve_decls (d : Declarations) (type : TypeExpr) :
    (decls d).resolve (typeExpr type) = d.resolve type := by
  have hname : (decls d).resolveName = d.resolveName := by
    funext name
    rw [Declarations.resolveName, Declarations.resolveName, meaning_decls]
    exact congrArg (fun size => d.meaning (size + 1) [] name) (OrderedMap.size_map _ _)
  rw [Declarations.resolve, Declarations.resolve, hname, resolve_typeExpr]

theorem resolve?_decls (d : Declarations) (type : Option TypeExpr) :
    (decls d).resolve? (typeExpr? type) = d.resolve? type := by
  cases type with
  | none => rfl
  | some type => exact resolve_decls d type

theorem isAlias_decls (d : Declarations) (name : String) : (decls d).isAlias name = d.isAlias name :=
  OrderedMap.contains_map _ _ _

end Unlocated

/-- The program with every location erased. -/
def Program.unlocated (program : Program) : Program :=
  ⟨Unlocated.stmts program.body⟩

end TuffSafety
