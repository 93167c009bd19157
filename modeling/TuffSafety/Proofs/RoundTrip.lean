import TuffSafety.Proofs.NodeDecoding

/-!
# The JSON text of a program

A program without floating-point literals is written with numbers that reading takes over exactly.
If no more arrays and objects are open at once than reading allows, the text describes the program
it was written for.
-/
namespace TuffSafety

/-! ### Programs without floating-point literals -/

namespace FloatFree

mutual

def expr : Expr → Bool
  | .float .. => false
  | .number .. => true
  | .bool .. => true
  | .string .. => true
  | .char .. => true
  | .ident .. => true
  | .binary _ left right _ => expr left && expr right
  | .unary _ operand _ => expr operand
  | .call callee args _ => expr callee && exprs args
  | .member object _ _ => expr object
  | .index target position _ => expr target && expr position
  | .structInit _ fields _ => fieldInits fields
  | .ite condition thenBranch elseBranch _ => expr condition && expr thenBranch && expr? elseBranch
  | .matchOn target cases _ => expr target && matchCases cases
  | .isPattern operand _ _ => expr operand
  | .unwrap operand _ => expr operand
  | .block body => block body

def expr? : Option Expr → Bool
  | some e => expr e
  | none => true

def exprs : List Expr → Bool
  | [] => true
  | e :: es => expr e && exprs es

def fieldInits : List FieldInit → Bool
  | [] => true
  | ⟨_, value⟩ :: fs => expr value && fieldInits fs

def matchCases : List MatchCase → Bool
  | [] => true
  | ⟨_, body⟩ :: cs => expr body && matchCases cs

def block : Block → Bool
  | ⟨statements, _⟩ => stmts statements

def stmts : List Stmt → Bool
  | [] => true
  | s :: ss => stmt s && stmts ss

def stmt : Stmt → Bool
  | .fnDecl decl => fnDecl decl
  | .foreignFn decl => fnDecl decl
  | .structDecl ⟨_, _, fields, _, _⟩ => fieldDecls fields
  | .enumDecl _ => true
  | .typeAlias _ _ target _ _ => typeExpr target
  | .foreignType .. => true
  | .letDecl _ type value _ => typeExpr? type && expr value
  | .foreignLet _ type _ => typeExpr type
  | .block body => block body
  | .expr e _ => expr e
  | .assign target value _ => expr target && expr value
  | .ret value _ => expr? value
  | .ite condition thenBranch elseBranch _ => expr condition && expr thenBranch && expr? elseBranch
  | .whileLoop condition body _ => expr condition && block body
  | .forLoop _ first last body _ => expr first && expr last && block body
  | .breakLoop _ => true
  | .continueLoop _ => true

def fnDecl : FnDecl → Bool
  | ⟨_, _, parameters, returnType, body, _, _⟩ =>
    params parameters && typeExpr? returnType && expr? body

def params : List Param → Bool
  | [] => true
  | ⟨_, type⟩ :: ps => typeExpr? type && params ps

def fieldDecls : List FieldDecl → Bool
  | [] => true
  | ⟨_, type⟩ :: fs => typeExpr type && fieldDecls fs

/-- The bounds that a type names are expressions too. -/
def typeExpr : TypeExpr → Bool
  | .named _ args => typeExprs args
  | .refined base _ value => typeExpr base && expr value
  | .union left right => typeExpr left && typeExpr right
  | .array element init total => typeExpr element && expr? init && expr? total
  | .pointer _ target => typeExpr target
  | .tuple members => typeExprs members

def typeExpr? : Option TypeExpr → Bool
  | some t => typeExpr t
  | none => true

def typeExprs : List TypeExpr → Bool
  | [] => true
  | t :: ts => typeExpr t && typeExprs ts

end

end FloatFree

def Program.floatFree (program : Program) : Bool :=
  FloatFree.stmts program.body

/-! ### Exact numbers -/

namespace Encode

def ExactFields (members : List JsonMember) : Prop :=
  ∀ m ∈ members, m.value.Exact

@[simp] theorem exactFields_nil : ExactFields [] :=
  List.forall_mem_nil _

@[simp] theorem exactFields_cons {key : String} {value : Json} {members : List JsonMember} :
    ExactFields (⟨key, value⟩ :: members) ↔ value.Exact ∧ ExactFields members :=
  List.forall_mem_cons

@[simp] theorem exactFields_append {members members' : List JsonMember} :
    ExactFields (members ++ members') ↔ ExactFields members ∧ ExactFields members' :=
  List.forall_mem_append

@[simp] theorem exactFields_optional {α : Type} {key : String} {x : Option α} {encode : α → Json} :
    ExactFields (Json.optional key (x.map encode)) ↔ ∀ a, x = some a → (encode a).Exact := by
  cases x with
  | none => simp [Json.optional]
  | some a => simp [Json.optional]

@[simp] theorem exact_string (value : String) : (Json.string value).Exact := .string

@[simp] theorem exact_bool (value : Bool) : (Json.bool value).Exact := .bool

@[simp] theorem exact_int64 (value : Int64) : (Json.int value.toInt).Exact := by
  have hbounds := Decode.int64_bounds value
  exact .int hbounds.1 (by omega)

@[simp] theorem exact_uint32 (value : UInt32) : (Json.int value.toNat).Exact := by
  have hhigh := value.toNat_lt
  exact .int (by omega) (by omega)

@[simp] theorem exact_object {members : List JsonMember} :
    (Json.object members).Exact ↔ ExactFields members :=
  ⟨fun h => by cases h; assumption, .object⟩

@[simp] theorem exact_array {items : List Json} :
    (Json.array items).Exact ↔ ∀ item ∈ items, item.Exact :=
  ⟨fun h => by cases h; assumption, .array⟩

@[simp] theorem exact_node {kind : String} {fields : List JsonMember} :
    (node kind fields).Exact ↔ ExactFields fields := by
  simp [node]

@[simp] theorem exact_strings (values : List String) : (Json.strings values).Exact := by
  simp [Json.strings]

@[simp] theorem exactFields_loc (place : Option Loc) : ExactFields (loc place) := by
  simp [loc, Loc.encode]

@[simp] theorem exact_pattern (p : Pattern) : (pattern p).Exact := by
  cases p with
  | wildcard => simp [pattern]
  | literal value => cases value <;> simp [pattern, literalValue]
  | name name => simp [pattern]
  | struct name fields => simp [pattern, patternField]

@[simp] theorem exactFields_enumDecl (decl : EnumDecl) : ExactFields (enumDecl decl) := by
  simp [enumDecl]

mutual

theorem exact_expr : ∀ e : Expr, FloatFree.expr e = true → (expr e).Exact
  | .float .., h => by
    rw [FloatFree.expr] at h
    cases h
  | .number .., _ => by
    rw [expr]
    simp
  | .bool .., _ => by
    rw [expr]
    simp
  | .string .., _ => by
    rw [expr]
    simp
  | .char .., _ => by
    rw [expr]
    simp
  | .ident .., _ => by
    rw [expr]
    simp
  | .binary _ left right _, h => by
    rw [FloatFree.expr, Bool.and_eq_true] at h
    rw [expr]
    simp [exact_expr left h.1, exact_expr right h.2]
  | .unary _ operand _, h => by
    rw [FloatFree.expr] at h
    rw [expr]
    simp [exact_expr operand h]
  | .call callee args _, h => by
    rw [FloatFree.expr, Bool.and_eq_true] at h
    rw [expr]
    simpa [exact_expr callee h.1] using exact_exprs args h.2
  | .member object _ _, h => by
    rw [FloatFree.expr] at h
    rw [expr]
    simp [exact_expr object h]
  | .index target position _, h => by
    rw [FloatFree.expr, Bool.and_eq_true] at h
    rw [expr]
    simp [exact_expr target h.1, exact_expr position h.2]
  | .structInit _ fields _, h => by
    rw [FloatFree.expr] at h
    rw [expr]
    simpa using exact_fieldInits fields h
  | .ite condition thenBranch elseBranch _, h => by
    rw [FloatFree.expr, Bool.and_eq_true, Bool.and_eq_true] at h
    rw [expr]
    simpa [exact_expr condition h.1.1, exact_expr thenBranch h.1.2] using exact_expr? elseBranch h.2
  | .matchOn target cases _, h => by
    rw [FloatFree.expr, Bool.and_eq_true] at h
    rw [expr]
    simpa [exact_expr target h.1] using exact_matchCases cases h.2
  | .isPattern operand _ _, h => by
    rw [FloatFree.expr] at h
    rw [expr]
    simp [exact_expr operand h]
  | .unwrap operand _, h => by
    rw [FloatFree.expr] at h
    rw [expr]
    simp [exact_expr operand h]
  | .block body, h => by
    rw [FloatFree.expr] at h
    rw [expr]
    simpa using exactFields_block body h

theorem exact_expr? : ∀ x : Option Expr, FloatFree.expr? x = true → ∀ e, x = some e → (expr e).Exact
  | none, _, _, he => by cases he
  | some e, h, _, he => by
    cases he
    rw [FloatFree.expr?] at h
    exact exact_expr e h

theorem exact_exprs : ∀ es : List Expr, FloatFree.exprs es = true → ∀ item ∈ exprs es, item.Exact
  | [], _ => by
    rw [exprs]
    exact List.forall_mem_nil _
  | e :: es, h => by
    rw [FloatFree.exprs, Bool.and_eq_true] at h
    rw [exprs]
    exact List.forall_mem_cons.mpr ⟨exact_expr e h.1, exact_exprs es h.2⟩

theorem exact_fieldInits : ∀ fs : List FieldInit, FloatFree.fieldInits fs = true →
    ∀ item ∈ fieldInits fs, item.Exact
  | [], _ => by
    rw [fieldInits]
    exact List.forall_mem_nil _
  | ⟨_, value⟩ :: fs, h => by
    rw [FloatFree.fieldInits, Bool.and_eq_true] at h
    rw [fieldInits]
    exact List.forall_mem_cons.mpr ⟨by simp [exact_expr value h.1], exact_fieldInits fs h.2⟩

theorem exact_matchCases : ∀ cs : List MatchCase, FloatFree.matchCases cs = true →
    ∀ item ∈ matchCases cs, item.Exact
  | [], _ => by
    rw [matchCases]
    exact List.forall_mem_nil _
  | ⟨_, body⟩ :: cs, h => by
    rw [FloatFree.matchCases, Bool.and_eq_true] at h
    rw [matchCases]
    exact List.forall_mem_cons.mpr ⟨by simp [exact_expr body h.1], exact_matchCases cs h.2⟩

theorem exactFields_block : ∀ b : Block, FloatFree.block b = true → ExactFields (block b)
  | ⟨statements, _⟩, h => by
    rw [FloatFree.block] at h
    rw [block]
    simpa using exact_stmts statements h

theorem exact_stmts : ∀ ss : List Stmt, FloatFree.stmts ss = true → ∀ item ∈ stmts ss, item.Exact
  | [], _ => by
    rw [stmts]
    exact List.forall_mem_nil _
  | s :: ss, h => by
    rw [FloatFree.stmts, Bool.and_eq_true] at h
    rw [stmts]
    exact List.forall_mem_cons.mpr ⟨exact_stmt s h.1, exact_stmts ss h.2⟩

theorem exact_stmt : ∀ s : Stmt, FloatFree.stmt s = true → (stmt s).Exact
  | .fnDecl decl, h => by
    rw [FloatFree.stmt] at h
    rw [stmt]
    simpa using exactFields_fnDecl decl h
  | .foreignFn decl, h => by
    rw [FloatFree.stmt] at h
    rw [stmt]
    simpa using exactFields_fnDecl decl h
  | .structDecl ⟨_, _, fields, _, _⟩, h => by
    rw [FloatFree.stmt] at h
    rw [stmt, structDecl]
    simpa using exact_fieldDecls fields h
  | .enumDecl _, _ => by
    rw [stmt]
    simp
  | .typeAlias _ _ target _ _, h => by
    rw [FloatFree.stmt] at h
    rw [stmt]
    simp [exact_typeExpr target h]
  | .foreignType .., _ => by
    rw [stmt]
    simp
  | .letDecl _ type value _, h => by
    rw [FloatFree.stmt, Bool.and_eq_true] at h
    rw [stmt]
    simpa [exact_expr value h.2] using exact_typeExpr? type h.1
  | .foreignLet _ type _, h => by
    rw [FloatFree.stmt] at h
    rw [stmt]
    simp [exact_typeExpr type h]
  | .block body, h => by
    rw [FloatFree.stmt] at h
    rw [stmt]
    simpa using exactFields_block body h
  | .expr e _, h => by
    rw [FloatFree.stmt] at h
    rw [stmt]
    simp [exact_expr e h]
  | .assign target value _, h => by
    rw [FloatFree.stmt, Bool.and_eq_true] at h
    rw [stmt]
    simp [exact_expr target h.1, exact_expr value h.2]
  | .ret value _, h => by
    rw [FloatFree.stmt] at h
    rw [stmt]
    simpa using exact_expr? value h
  | .ite condition thenBranch elseBranch _, h => by
    rw [FloatFree.stmt, Bool.and_eq_true, Bool.and_eq_true] at h
    rw [stmt]
    simpa [exact_expr condition h.1.1, exact_expr thenBranch h.1.2] using exact_expr? elseBranch h.2
  | .whileLoop condition body _, h => by
    rw [FloatFree.stmt, Bool.and_eq_true] at h
    rw [stmt]
    simp [exact_expr condition h.1, exactFields_block body h.2]
  | .forLoop _ first last body _, h => by
    rw [FloatFree.stmt, Bool.and_eq_true, Bool.and_eq_true] at h
    rw [stmt]
    simp [exact_expr first h.1.1, exact_expr last h.1.2, exactFields_block body h.2]
  | .breakLoop _, _ => by
    rw [stmt]
    simp
  | .continueLoop _, _ => by
    rw [stmt]
    simp

theorem exactFields_fnDecl : ∀ decl : FnDecl, FloatFree.fnDecl decl = true →
    ExactFields (fnDecl decl)
  | ⟨_, _, parameters, returnType, body, _, _⟩, h => by
    rw [FloatFree.fnDecl, Bool.and_eq_true, Bool.and_eq_true] at h
    rw [fnDecl]
    simpa using ⟨exact_params parameters h.1.1, exact_typeExpr? returnType h.1.2,
      exact_expr? body h.2⟩

theorem exact_params : ∀ ps : List Param, FloatFree.params ps = true →
    ∀ item ∈ params ps, item.Exact
  | [], _ => by
    rw [params]
    exact List.forall_mem_nil _
  | ⟨_, type⟩ :: ps, h => by
    rw [FloatFree.params, Bool.and_eq_true] at h
    rw [params]
    exact List.forall_mem_cons.mpr
      ⟨by simpa using exact_typeExpr? type h.1, exact_params ps h.2⟩

theorem exact_fieldDecls : ∀ fs : List FieldDecl, FloatFree.fieldDecls fs = true →
    ∀ item ∈ fieldDecls fs, item.Exact
  | [], _ => by
    rw [fieldDecls]
    exact List.forall_mem_nil _
  | ⟨_, type⟩ :: fs, h => by
    rw [FloatFree.fieldDecls, Bool.and_eq_true] at h
    rw [fieldDecls]
    exact List.forall_mem_cons.mpr ⟨by simp [exact_typeExpr type h.1], exact_fieldDecls fs h.2⟩

theorem exact_typeExpr : ∀ t : TypeExpr, FloatFree.typeExpr t = true → (typeExpr t).Exact
  | .named _ args, h => by
    rw [FloatFree.typeExpr] at h
    rw [typeExpr]
    simpa using exact_typeExprs args h
  | .refined base _ value, h => by
    rw [FloatFree.typeExpr, Bool.and_eq_true] at h
    rw [typeExpr]
    simp [exact_typeExpr base h.1, exact_expr value h.2]
  | .union left right, h => by
    rw [FloatFree.typeExpr, Bool.and_eq_true] at h
    rw [typeExpr]
    simp [exact_typeExpr left h.1, exact_typeExpr right h.2]
  | .array element init total, h => by
    rw [FloatFree.typeExpr, Bool.and_eq_true, Bool.and_eq_true] at h
    rw [typeExpr]
    simpa [exact_typeExpr element h.1.1] using ⟨exact_expr? init h.1.2, exact_expr? total h.2⟩
  | .pointer _ target, h => by
    rw [FloatFree.typeExpr] at h
    rw [typeExpr]
    simp [exact_typeExpr target h]
  | .tuple members, h => by
    rw [FloatFree.typeExpr] at h
    rw [typeExpr]
    simpa using exact_typeExprs members h

theorem exact_typeExpr? : ∀ x : Option TypeExpr, FloatFree.typeExpr? x = true →
    ∀ t, x = some t → (typeExpr t).Exact
  | none, _, _, ht => by cases ht
  | some t, h, _, ht => by
    cases ht
    rw [FloatFree.typeExpr?] at h
    exact exact_typeExpr t h

theorem exact_typeExprs : ∀ ts : List TypeExpr, FloatFree.typeExprs ts = true →
    ∀ item ∈ typeExprs ts, item.Exact
  | [], _ => by
    rw [typeExprs]
    exact List.forall_mem_nil _
  | t :: ts, h => by
    rw [FloatFree.typeExprs, Bool.and_eq_true] at h
    rw [typeExprs]
    exact List.forall_mem_cons.mpr ⟨exact_typeExpr t h.1, exact_typeExprs ts h.2⟩

end

end Encode

theorem Program.exact_encode {p : Program} (h : p.floatFree = true) : p.encode.Exact := by
  unfold Program.encode
  simpa using Encode.exact_stmts p.body h

/-! ### Whole programs -/

namespace Decode

section

variable {α : Type} {a : α} {decode : Doc → Decoded α}

theorem soleField_written {value : Doc} (h : decode value = .ok a) (name field : String)
    (absent : α) : soleField name field absent decode
      (.object (.member (.ok field) value .closed)) = .ok a := by
  rw [soleField, soleMember]
  change ((if field = field then decode value >>= _ else _) >>= _) = _
  rw [if_pos rfl, h]
  rfl

theorem wholeText_pretty {j : Json} (hexact : j.Exact) (h : decode j.doc = .ok a) :
    wholeText decode j.pretty = .ok a := by
  unfold wholeText
  rw [Doc.read_pretty hexact]
  dsimp only
  rw [h]
  rfl

end

/-- A statement of the program lies in two open containers. -/
theorem topStmt_doc (s : Stmt) (h : (Encode.stmt s).depth + 2 ≤ nestingLimit) :
    topStmt (Encode.stmt s).doc = .ok s := by
  unfold nestingLimit at h
  have htells : Tells (stmtForms levels) (Encode.stmt s) s := stmt_tells (n := 380) s (by omega)
  exact htells.docTagged "Stmt" (by unfold nestingLimit; omega)

theorem docItems_topStmt : ∀ ss : List Stmt,
    (∀ item ∈ Encode.stmts ss, item.depth + 2 ≤ nestingLimit) →
    docItems topStmt (Json.docItems (Encode.stmts ss)) = .ok ss
  | [], _ => by
    rw [Encode.stmts]
    rfl
  | s :: ss, h => by
    rw [Encode.stmts, List.forall_mem_cons] at h
    rw [Encode.stmts, Json.docItems, docItems, topStmt_doc s h.1, docItems_topStmt ss h.2]
    rfl

end Decode

namespace Program

theorem depth_of_statement (p : Program) :
    ∀ item ∈ Encode.stmts p.body, item.depth + 2 ≤ p.encode.depth := by
  intro item hitem
  have harray : item.depth < (Json.array (Encode.stmts p.body)).depth := Decode.depth_of_item hitem
  have hobject : (Json.array (Encode.stmts p.body)).depth < p.encode.depth :=
    Decode.depth_of_mem (List.mem_singleton_self ⟨"body", .array (Encode.stmts p.body)⟩)
  omega

theorem doc_encode (p : Program) :
    p.encode.doc =
      .object (.member (.ok "body") (.array (Json.docItems (Encode.stmts p.body))) .closed) := by
  rw [encode, Json.doc, Json.docMembers, Json.docMembers, Json.doc]

end Program

/-- The text of a program without floating-point literals describes that program, if no more arrays
and objects are open at once than reading allows. -/
theorem decode_toJson (p : Program) (hfloat : p.floatFree = true)
    (hdepth : p.encode.depth ≤ nestingLimit) : Program.decode p.toJson = .ok p := by
  have hbody : Decode.docList Decode.topStmt (.array (Json.docItems (Encode.stmts p.body))) =
      .ok p.body :=
    Decode.docItems_topStmt p.body fun item hitem =>
      Nat.le_trans (p.depth_of_statement item hitem) hdepth
  refine Decode.wholeText_pretty (Program.exact_encode hfloat) ?_
  rw [p.doc_encode, Decode.soleField_written hbody]
  rfl

namespace Labelled

def corner : Loc := ⟨some "a\\b.tuff", 1, 4294967295⟩

def size : TypeExpr := .named "USize" []

/-- Tells a least number, a text and everything else apart. -/
def body : Expr :=
  .matchOn (.ident "x" none)
    [⟨.literal (.int Int64.minValue), .block ⟨[.ret none (some corner), .breakLoop none], none⟩⟩,
      ⟨.literal (.str "\"\\\n\x01ü"), .string "𝒳\t" (some corner)⟩,
      ⟨.struct "Box" [⟨"value", "v"⟩], .unary .refMut (.ident "v" none) none⟩,
      ⟨.wildcard, .number 0 (some "USize") none⟩] (some corner)

def program : Program :=
  ⟨[.fnDecl ⟨"label", ["T"], [⟨"x", some (.refined size .lt (.number 3 none none))⟩, ⟨"y", none⟩],
      some (.union size (.array size (some (.number 1 none none)) none)), some body, true, none⟩,
    .whileLoop (.bool true none) ⟨[.continueLoop (some corner)], some corner⟩ none]⟩

end Labelled

theorem decode_toJson_labelled :
    Labelled.program.floatFree = true ∧ Labelled.program.encode.depth ≤ nestingLimit ∧
      Program.decode Labelled.program.toJson = .ok Labelled.program :=
  have hfloat : Labelled.program.floatFree = true := by decide
  have hdepth : Labelled.program.encode.depth ≤ nestingLimit := by decide
  ⟨hfloat, hdepth, decode_toJson Labelled.program hfloat hdepth⟩

end TuffSafety
