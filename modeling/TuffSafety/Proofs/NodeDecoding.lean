import TuffSafety.Proofs.RecordFields

/-!
# Decoding undoes encoding

Every node is read back from the JSON value it is written as: for each kind the form that decoding
has for it finds the fields that encoding wrote. The allowance of decoding is spent at most three
times for each array or object, so it lasts for three times the depth of the value.
-/
namespace TuffSafety

namespace Json

theorem depth_object_pos (members : List JsonMember) : 0 < (object members).depth := by
  rw [depth]
  exact Nat.succ_pos _

end Json

namespace Encode

/-- The kind of a node adds nothing to its depth. -/
theorem depth_node (kind : String) (fields : List JsonMember) :
    (node kind fields).depth = (Json.object fields).depth := by
  have hkind : (Json.string kind).depth = 0 := by simp [Json.depth]
  rw [node, Json.depth, Json.membersDepth, hkind, Nat.zero_max, Json.depth]

theorem node_ne_null (kind : String) (fields : List JsonMember) : node kind fields ≠ .null := by
  intro h
  cases h

theorem expr_isNode (e : Expr) : ∃ kind fields, expr e = node kind fields := by
  cases e <;> exact ⟨_, _, by rw [expr]⟩

theorem typeExpr_isNode (t : TypeExpr) : ∃ kind fields, typeExpr t = node kind fields := by
  cases t <;> exact ⟨_, _, by rw [typeExpr]⟩

theorem expr_ne_null (e : Expr) : expr e ≠ .null := by
  obtain ⟨kind, fields, he⟩ := expr_isNode e
  rw [he]
  exact node_ne_null kind fields

theorem typeExpr_ne_null (t : TypeExpr) : typeExpr t ≠ .null := by
  obtain ⟨kind, fields, ht⟩ := typeExpr_isNode t
  rw [ht]
  exact node_ne_null kind fields

@[simp] theorem expr?_eq_map (e : Option Expr) : expr? e = e.map expr := by
  cases e <;> rw [expr?] <;> rfl

@[simp] theorem typeExpr?_eq_map (t : Option TypeExpr) : typeExpr? t = t.map typeExpr := by
  cases t <;> rw [typeExpr?] <;> rfl

end Encode

namespace Decode

/-! ### Simple values -/

theorem text_string (value : String) : text (.string value) = .ok value := rfl

theorem bool_bool (value : Bool) : bool (.bool value) = .ok value := rfl

theorem float_float (value : Float) : float (.float value) = .ok value := rfl

theorem int64_bounds (v : Int64) :
    -0x8000000000000000 ≤ v.toInt ∧ v.toInt ≤ 0x7fffffffffffffff := by
  have hlow := v.le_toInt
  have hhigh := v.toInt_lt
  omega

theorem int64_toInt (v : Int64) : int64 (.int v.toInt) = .ok v := by
  rw [int64, integer, if_pos (int64_bounds v)]
  exact congrArg Except.ok v.ofInt_toInt

theorem uint32_toNat (v : UInt32) : uint32 (.int v.toNat) = .ok v := by
  have hbounds : (0 : Int) ≤ v.toNat ∧ (v.toNat : Int) ≤ 0xffffffff := by
    have hhigh := v.toNat_lt
    omega
  rw [uint32, integer, if_pos hbounds]
  exact congrArg Except.ok v.ofNat_toNat

theorem literalValue_encode (v : LiteralValue) : literalValue (Encode.literalValue v) = .ok v := by
  cases v with
  | bool value => rfl
  | str value => rfl
  | int value =>
    rw [Encode.literalValue, literalValue, if_pos (int64_bounds value), Int64.ofInt_toInt]

theorem binaryOp_symbol (op : BinaryOp) : binaryOp (.string op.symbol) = .ok op := by
  cases op <;> rfl

theorem unaryOp_symbol (op : UnaryOp) : unaryOp (.string op.symbol) = .ok op := by
  cases op <;> rfl

section

variable {α : Type} {decode : Json → Decoded α}

theorem all_cons {value : Json} {values : List Json} {a : α} {rest : List α}
    (hfirst : decode value = .ok a) (hrest : all decode values = .ok rest) :
    all decode (value :: values) = .ok (a :: rest) := by
  rw [all, hfirst, hrest]
  rfl

theorem all_map {encode : α → Json} (h : ∀ a, decode (encode a) = .ok a) :
    ∀ values : List α, all decode (values.map encode) = .ok values
  | [] => rfl
  | a :: values => all_cons (h a) (all_map h values)

end

/-! ### Fields that many nodes have -/

section

variable {type name : String} {names : List String} {members : List JsonMember}

theorem text_gives {value : String} (hvalue : valuesOf name members = [.string value]) :
    (Record.required ⟨type, names, .named members⟩ name text).Gives value :=
  required_gives hvalue fun _ => rfl

theorem optionalText_gives {value : Option String}
    (hvalue : valuesOf name members = (value.map Json.string).toList) :
    (Record.optional ⟨type, names, .named members⟩ name text).Gives value :=
  optional_gives hvalue (fun _ h => by cases h) fun _ _ _ => rfl

theorem strings_gives {values : List String}
    (hvalue : valuesOf name members = [Json.strings values]) :
    (Record.list ⟨type, names, .named members⟩ name text).Gives values :=
  list_gives hvalue fun _ => all_map text_string values

theorem loc_encode (l : Loc) : loc l.encode = .ok l := by
  rw [Loc.encode]
  exact plainRecord_gives (((optionalText_gives (by simp)).map _).seq
    (required_gives (by simp) fun _ => uint32_toNat l.line) |>.seq
    (required_gives (by simp) fun _ => uint32_toNat l.column))

theorem place_gives {place : Option Loc}
    (hvalue : valuesOf "loc" members = (place.map Loc.encode).toList) :
    (Record.place ⟨type, names, .named members⟩).Gives place :=
  optional_gives hvalue (fun _ h => by cases h) fun l _ _ => loc_encode l

end

/-! ### Patterns and enums -/

theorem patternField_encode (f : PatternField) : patternField (Encode.patternField f) = .ok f := by
  rw [Encode.patternField]
  exact plainRecord_gives (((text_gives (by simp)).map _).seq (text_gives (by simp)))

theorem pattern_encode (p : Pattern) : pattern (Encode.pattern p) = .ok p := by
  refine Tells.tagged ?_ _
  cases p with
  | wildcard => exact .node rfl rfl rfl
  | literal value =>
    exact .record rfl (by simp)
      ((required_gives (by simp) fun _ => literalValue_encode value).map _)
  | name name => exact .record rfl (by simp) ((text_gives (by simp)).map _)
  | struct name fields =>
    exact .record rfl (by simp) (((text_gives (by simp)).map _).seq
      (list_gives (by simp) fun _ => all_map patternField_encode fields))

theorem enumDecl_encode (decl : EnumDecl) : enumDecl (.named (Encode.enumDecl decl)) = .ok decl := by
  rw [Encode.enumDecl]
  exact record_gives (((text_gives (by simp)).map _).seq (strings_gives (by simp)) |>.seq
    (flag_gives (by simp)) |>.seq (place_gives (by simp)))

/-! ### Nodes

The recursion is over the syntax tree. Each case shows that the form of the kind gives the node, field
by field in the order in which the form asks for them; a field that holds a node is one level less
deep than the record, and an item of a list two levels. -/

@[simp] theorem block_kind (b : Block) : valuesOf "kind" (Encode.block b) = [] := by
  obtain ⟨statements, place⟩ := b
  simp [Encode.block]

@[simp] theorem fnDecl_kind (decl : FnDecl) : valuesOf "kind" (Encode.fnDecl decl) = [] := by
  obtain ⟨name, generics, parameters, returnType, body, exported, place⟩ := decl
  simp [Encode.fnDecl]

mutual

theorem expr_decodes : ∀ (e : Expr) {n : Nat}, 3 * (Encode.expr e).depth ≤ n →
    expr n (Encode.expr e) = .ok e
  | .number value suffix place, n + 1, _ => by
    rw [Encode.expr, Decode.expr]
    exact (Tells.record rfl (by simp)
      (((required_gives (by simp) fun _ => int64_toInt value).map _).seq
        (optionalText_gives (by simp)) |>.seq (place_gives (by simp)))).tagged _
  | .float value place, n + 1, _ => by
    rw [Encode.expr, Decode.expr]
    exact (Tells.record rfl (by simp)
      (((required_gives (by simp) fun _ => float_float value).map _).seq
        (place_gives (by simp)))).tagged _
  | .bool value place, n + 1, _ => by
    rw [Encode.expr, Decode.expr]
    exact (Tells.record rfl (by simp)
      (((required_gives (by simp) fun _ => bool_bool value).map _).seq
        (place_gives (by simp)))).tagged _
  | .string value place, n + 1, _ => by
    rw [Encode.expr, Decode.expr]
    exact (Tells.record rfl (by simp) (((text_gives (by simp)).map _).seq
        (place_gives (by simp)))).tagged _
  | .char value place, n + 1, _ => by
    rw [Encode.expr, Decode.expr]
    exact (Tells.record rfl (by simp) (((text_gives (by simp)).map _).seq
        (place_gives (by simp)))).tagged _
  | .ident name place, n + 1, _ => by
    rw [Encode.expr, Decode.expr]
    exact (Tells.record rfl (by simp) (((text_gives (by simp)).map _).seq
        (place_gives (by simp)))).tagged _
  | .binary op left right place, n + 1, h => by
    rw [Encode.expr, Encode.depth_node] at h
    rw [Encode.expr, Decode.expr]
    exact (Tells.record rfl (by simp)
      (((required_gives (by simp) fun _ => binaryOp_symbol op).map _).seq
        (required_gives (by simp) fun hd => expr_decodes left (by omega)) |>.seq
        (required_gives (by simp) fun hd => expr_decodes right (by omega)) |>.seq
        (place_gives (by simp)))).tagged _
  | .unary op operand place, n + 1, h => by
    rw [Encode.expr, Encode.depth_node] at h
    rw [Encode.expr, Decode.expr]
    exact (Tells.record rfl (by simp)
      (((required_gives (by simp) fun _ => unaryOp_symbol op).map _).seq
        (required_gives (by simp) fun hd => expr_decodes operand (by omega)) |>.seq
        (place_gives (by simp)))).tagged _
  | .call callee args place, n + 1, h => by
    rw [Encode.expr, Encode.depth_node] at h
    rw [Encode.expr, Decode.expr]
    exact (Tells.record rfl (by simp)
      (((required_gives (by simp) fun hd => expr_decodes callee (by omega)).map _).seq
        (list_gives (by simp) (exprs_decode args (by omega))) |>.seq
        (place_gives (by simp)))).tagged _
  | .member object property place, n + 1, h => by
    rw [Encode.expr, Encode.depth_node] at h
    rw [Encode.expr, Decode.expr]
    exact (Tells.record rfl (by simp)
      (((required_gives (by simp) fun hd => expr_decodes object (by omega)).map _).seq
        (text_gives (by simp)) |>.seq (place_gives (by simp)))).tagged _
  | .index target position place, n + 1, h => by
    rw [Encode.expr, Encode.depth_node] at h
    rw [Encode.expr, Decode.expr]
    exact (Tells.record rfl (by simp)
      (((required_gives (by simp) fun hd => expr_decodes target (by omega)).map _).seq
        (required_gives (by simp) fun hd => expr_decodes position (by omega)) |>.seq
        (place_gives (by simp)))).tagged _
  | .structInit name fields place, n + 1, h => by
    rw [Encode.expr, Encode.depth_node] at h
    rw [Encode.expr, Decode.expr]
    exact (Tells.record rfl (by simp) (((text_gives (by simp)).map _).seq
        (list_gives (by simp) (fieldInits_decode fields (by omega))) |>.seq
        (place_gives (by simp)))).tagged _
  | .ite condition thenBranch elseBranch place, n + 1, h => by
    rw [Encode.expr, Encode.depth_node] at h
    rw [Encode.expr, Decode.expr]
    exact (Tells.record rfl (by simp)
      (((required_gives (by simp) fun hd => expr_decodes condition (by omega)).map _).seq
        (required_gives (by simp) fun hd => expr_decodes thenBranch (by omega)) |>.seq
        (optional_gives (by simp) Encode.expr_ne_null (expr?_decodes elseBranch (by omega))) |>.seq
        (place_gives (by simp)))).tagged _
  | .matchOn target cases place, n + 1, h => by
    rw [Encode.expr, Encode.depth_node] at h
    rw [Encode.expr, Decode.expr]
    exact (Tells.record rfl (by simp)
      (((required_gives (by simp) fun hd => expr_decodes target (by omega)).map _).seq
        (list_gives (by simp) (matchCases_decode cases (by omega))) |>.seq
        (place_gives (by simp)))).tagged _
  | .isPattern operand tested place, n + 1, h => by
    rw [Encode.expr, Encode.depth_node] at h
    rw [Encode.expr, Decode.expr]
    exact (Tells.record rfl (by simp)
      (((required_gives (by simp) fun hd => expr_decodes operand (by omega)).map _).seq
        (required_gives (by simp) fun _ => pattern_encode tested) |>.seq
        (place_gives (by simp)))).tagged _
  | .unwrap operand place, n + 1, h => by
    rw [Encode.expr, Encode.depth_node] at h
    rw [Encode.expr, Decode.expr]
    exact (Tells.record rfl (by simp)
      (((required_gives (by simp) fun hd => expr_decodes operand (by omega)).map _).seq
        (place_gives (by simp)))).tagged _
  | .block body, n + 1, h => by
    rw [Encode.expr, Encode.depth_node] at h
    rw [Encode.expr, Decode.expr]
    exact (Tells.node rfl (block_kind body)
      (congrArg (Except.map Expr.block) (block_decodes body (by omega)))).tagged _
  | e, 0, h => by
    obtain ⟨kind, fields, he⟩ := Encode.expr_isNode e
    have hpos := Json.depth_object_pos fields
    rw [he, Encode.depth_node] at h
    omega

theorem expr?_decodes : ∀ (x : Option Expr) {n d : Nat}, 3 * d ≤ n + 3 → ∀ e, x = some e →
    (Encode.expr e).depth < d → expr n (Encode.expr e) = .ok e
  | none, _, _, _, _, he, _ => by cases he
  | some e, _, _, h, _, he, hd => by
    cases he
    exact expr_decodes e (by omega)

theorem exprs_decode : ∀ (es : List Expr) {n d : Nat}, 3 * d ≤ n + 3 →
    (∀ item ∈ Encode.exprs es, item.depth + 1 < d) → all (expr n) (Encode.exprs es) = .ok es
  | [], _, _, _, _ => by rw [Encode.exprs, all]
  | e :: es, _, _, h, hd => by
    rw [Encode.exprs, List.forall_mem_cons] at hd
    rw [Encode.exprs]
    exact all_cons (expr_decodes e (by omega)) (exprs_decode es h hd.2)

theorem fieldInits_decode : ∀ (fs : List FieldInit) {n d : Nat}, 3 * d ≤ n + 3 →
    (∀ item ∈ Encode.fieldInits fs, item.depth + 1 < d) →
    all (fieldInit n) (Encode.fieldInits fs) = .ok fs
  | [], _, _, _, _ => by rw [Encode.fieldInits, all]
  | ⟨key, value⟩ :: fs, n, _, h, hd => by
    rw [Encode.fieldInits, List.forall_mem_cons] at hd
    rw [Encode.fieldInits]
    refine all_cons ?_ (fieldInits_decode fs h hd.2)
    obtain ⟨n, rfl⟩ : ∃ m, n = m + 1 := ⟨n - 1, by omega⟩
    rw [fieldInit]
    exact plainRecord_gives (((text_gives (by simp)).map _).seq
      (required_gives (by simp) fun hv => expr_decodes value (by omega)))

theorem matchCases_decode : ∀ (cs : List MatchCase) {n d : Nat}, 3 * d ≤ n + 3 →
    (∀ item ∈ Encode.matchCases cs, item.depth + 1 < d) →
    all (matchCase n) (Encode.matchCases cs) = .ok cs
  | [], _, _, _, _ => by rw [Encode.matchCases, all]
  | ⟨tested, body⟩ :: cs, n, _, h, hd => by
    rw [Encode.matchCases, List.forall_mem_cons] at hd
    rw [Encode.matchCases]
    refine all_cons ?_ (matchCases_decode cs h hd.2)
    obtain ⟨n, rfl⟩ : ∃ m, n = m + 1 := ⟨n - 1, by omega⟩
    rw [matchCase]
    exact plainRecord_gives (((required_gives (by simp) fun _ => pattern_encode tested).map _).seq
      (required_gives (by simp) fun hb => expr_decodes body (by omega)))

/-- The fields of a block or a function are read when one or two units have been taken for the node
that they belong to. -/
theorem block_decodes : ∀ (b : Block) {n : Nat}, 3 * (Json.object (Encode.block b)).depth ≤ n + 2 →
    block n (.named (Encode.block b)) = .ok b
  | ⟨statements, place⟩, n + 1, h => by
    rw [Encode.block] at h ⊢
    rw [block]
    exact record_gives (((list_gives (by simp) (stmts_decode statements (by omega))).map _).seq
      (place_gives (by simp)))
  | b, 0, h => by
    have hpos := Json.depth_object_pos (Encode.block b)
    omega

theorem loopBody_decodes : ∀ (b : Block) {n : Nat}, 3 * (Json.object (Encode.block b)).depth ≤ n →
    loopBody n (.object (Encode.block b)) = .ok b
  | ⟨statements, place⟩, n + 1, h => by
    rw [Encode.block] at h ⊢
    rw [loopBody]
    exact plainRecord_gives (((list_gives (by simp) (stmts_decode statements (by omega))).map _).seq
      (place_gives (by simp)))
  | b, 0, h => by
    have hpos := Json.depth_object_pos (Encode.block b)
    omega

theorem stmts_decode : ∀ (ss : List Stmt) {n d : Nat}, 3 * d ≤ n + 3 →
    (∀ item ∈ Encode.stmts ss, item.depth + 1 < d) → all (stmt n) (Encode.stmts ss) = .ok ss
  | [], _, _, _, _ => by rw [Encode.stmts, all]
  | s :: ss, n, _, h, hd => by
    rw [Encode.stmts, List.forall_mem_cons] at hd
    rw [Encode.stmts]
    refine all_cons ?_ (stmts_decode ss h hd.2)
    -- one unit for the node and one for its form
    obtain ⟨n, rfl⟩ : ∃ m, n = m + 2 := ⟨n - 2, by omega⟩
    rw [stmt]
    exact (stmt_tells s (by omega)).tagged _

theorem stmt_tells : ∀ (s : Stmt) {n : Nat}, 3 * (Encode.stmt s).depth ≤ n + 2 →
    Tells (stmtForms (n + 1)) (Encode.stmt s) s
  | .fnDecl decl, n, h => by
    rw [Encode.stmt, Encode.depth_node] at h
    rw [Encode.stmt, stmtForms]
    exact .node rfl (fnDecl_kind decl) (congrArg (Except.map Stmt.fnDecl) (fnDecl_decodes decl h))
  | .foreignFn decl, n, h => by
    rw [Encode.stmt, Encode.depth_node] at h
    rw [Encode.stmt, stmtForms]
    exact .node rfl (fnDecl_kind decl) (congrArg (Except.map Stmt.foreignFn) (fnDecl_decodes decl h))
  | .structDecl ⟨name, generics, fields, exported, place⟩, n, h => by
    rw [Encode.stmt, Encode.depth_node, Encode.structDecl] at h
    rw [Encode.stmt, Encode.structDecl, stmtForms]
    exact .record rfl (by simp) (((text_gives (by simp)).map _).seq (strings_gives (by simp)) |>.seq
        (list_gives (by simp) (fieldDecls_decode fields (by omega))) |>.seq
        (flag_gives (by simp)) |>.seq (place_gives (by simp)))
  | .enumDecl decl, n, _ => by
    rw [Encode.stmt, stmtForms]
    exact .node rfl (by simp [Encode.enumDecl])
      (congrArg (Except.map Stmt.enumDecl) (enumDecl_encode decl))
  | .typeAlias name generics target exported place, n, h => by
    rw [Encode.stmt, Encode.depth_node] at h
    rw [Encode.stmt, stmtForms]
    exact .record rfl (by simp) (((text_gives (by simp)).map _).seq (strings_gives (by simp)) |>.seq
        (required_gives (by simp) fun hd => typeExpr_decodes target (by omega)) |>.seq
        (flag_gives (by simp)) |>.seq (place_gives (by simp)))
  | .foreignType name generics place, n, _ => by
    rw [Encode.stmt, stmtForms]
    exact .record rfl (by simp) (((text_gives (by simp)).map _).seq (strings_gives (by simp)) |>.seq
        (place_gives (by simp)))
  | .letDecl name type value place, n, h => by
    rw [Encode.stmt, Encode.depth_node] at h
    rw [Encode.stmt, stmtForms]
    exact .record rfl (by simp) (((text_gives (by simp)).map _).seq
        (optional_gives (by simp) Encode.typeExpr_ne_null (typeExpr?_decodes type (by omega))) |>.seq
        (required_gives (by simp) fun hd => expr_decodes value (by omega)) |>.seq
        (place_gives (by simp)))
  | .foreignLet name type place, n, h => by
    rw [Encode.stmt, Encode.depth_node] at h
    rw [Encode.stmt, stmtForms]
    exact .record rfl (by simp) (((text_gives (by simp)).map _).seq
        (required_gives (by simp) fun hd => typeExpr_decodes type (by omega)) |>.seq
        (place_gives (by simp)))
  | .block body, n, h => by
    rw [Encode.stmt, Encode.depth_node] at h
    rw [Encode.stmt, stmtForms]
    exact .node rfl (block_kind body) (congrArg (Except.map Stmt.block) (block_decodes body h))
  | .expr e place, n, h => by
    rw [Encode.stmt, Encode.depth_node] at h
    rw [Encode.stmt, stmtForms]
    exact .record rfl (by simp)
      (((required_gives (by simp) fun hd => expr_decodes e (by omega)).map _).seq
        (place_gives (by simp)))
  | .assign target value place, n, h => by
    rw [Encode.stmt, Encode.depth_node] at h
    rw [Encode.stmt, stmtForms]
    exact .record rfl (by simp)
      (((required_gives (by simp) fun hd => expr_decodes target (by omega)).map _).seq
        (required_gives (by simp) fun hd => expr_decodes value (by omega)) |>.seq
        (place_gives (by simp)))
  | .ret value place, n, h => by
    rw [Encode.stmt, Encode.depth_node] at h
    rw [Encode.stmt, stmtForms]
    exact .record rfl (by simp)
      (((optional_gives (by simp) Encode.expr_ne_null (expr?_decodes value (by omega))).map _).seq
        (place_gives (by simp)))
  | .ite condition thenBranch elseBranch place, n, h => by
    rw [Encode.stmt, Encode.depth_node] at h
    rw [Encode.stmt, stmtForms]
    exact .record rfl (by simp)
      (((required_gives (by simp) fun hd => expr_decodes condition (by omega)).map _).seq
        (required_gives (by simp) fun hd => expr_decodes thenBranch (by omega)) |>.seq
        (optional_gives (by simp) Encode.expr_ne_null (expr?_decodes elseBranch (by omega))) |>.seq
        (place_gives (by simp)))
  | .whileLoop condition body place, n, h => by
    rw [Encode.stmt, Encode.depth_node] at h
    rw [Encode.stmt, stmtForms]
    exact .record rfl (by simp)
      (((required_gives (by simp) fun hd => expr_decodes condition (by omega)).map _).seq
        (required_gives (by simp) fun hd => loopBody_decodes body (by omega)) |>.seq
        (place_gives (by simp)))
  | .forLoop iterator first last body place, n, h => by
    rw [Encode.stmt, Encode.depth_node] at h
    rw [Encode.stmt, stmtForms]
    exact .record rfl (by simp) (((text_gives (by simp)).map _).seq
        (required_gives (by simp) fun hd => expr_decodes first (by omega)) |>.seq
        (required_gives (by simp) fun hd => expr_decodes last (by omega)) |>.seq
        (required_gives (by simp) fun hd => loopBody_decodes body (by omega)) |>.seq
        (place_gives (by simp)))
  | .breakLoop place, n, _ => by
    rw [Encode.stmt, stmtForms]
    exact .record rfl (by simp) ((place_gives (by simp)).map _)
  | .continueLoop place, n, _ => by
    rw [Encode.stmt, stmtForms]
    exact .record rfl (by simp) ((place_gives (by simp)).map _)

theorem fnDecl_decodes : ∀ (decl : FnDecl) {n : Nat},
    3 * (Json.object (Encode.fnDecl decl)).depth ≤ n + 2 →
    fnDecl n (.named (Encode.fnDecl decl)) = .ok decl
  | ⟨name, generics, parameters, returnType, body, exported, place⟩, n + 1, h => by
    rw [Encode.fnDecl] at h ⊢
    rw [fnDecl]
    exact record_gives (((text_gives (by simp)).map _).seq (strings_gives (by simp)) |>.seq
        (list_gives (by simp) (params_decode parameters (by omega))) |>.seq
        (optional_gives (by simp) Encode.typeExpr_ne_null
          (typeExpr?_decodes returnType (by omega))) |>.seq
        (optional_gives (by simp) Encode.expr_ne_null (expr?_decodes body (by omega))) |>.seq
        (flag_gives (by simp)) |>.seq (place_gives (by simp)))
  | decl, 0, h => by
    have hpos := Json.depth_object_pos (Encode.fnDecl decl)
    omega

theorem params_decode : ∀ (ps : List Param) {n d : Nat}, 3 * d ≤ n + 3 →
    (∀ item ∈ Encode.params ps, item.depth + 1 < d) → all (param n) (Encode.params ps) = .ok ps
  | [], _, _, _, _ => by rw [Encode.params, all]
  | ⟨name, type⟩ :: ps, n, _, h, hd => by
    rw [Encode.params, List.forall_mem_cons] at hd
    rw [Encode.params]
    refine all_cons ?_ (params_decode ps h hd.2)
    obtain ⟨n, rfl⟩ : ∃ m, n = m + 1 := ⟨n - 1, by omega⟩
    rw [param]
    exact plainRecord_gives (((text_gives (by simp)).map _).seq
      (optional_gives (by simp) Encode.typeExpr_ne_null (typeExpr?_decodes type (by omega))))

theorem fieldDecls_decode : ∀ (fs : List FieldDecl) {n d : Nat}, 3 * d ≤ n + 3 →
    (∀ item ∈ Encode.fieldDecls fs, item.depth + 1 < d) →
    all (fieldDecl n) (Encode.fieldDecls fs) = .ok fs
  | [], _, _, _, _ => by rw [Encode.fieldDecls, all]
  | ⟨name, type⟩ :: fs, n, _, h, hd => by
    rw [Encode.fieldDecls, List.forall_mem_cons] at hd
    rw [Encode.fieldDecls]
    refine all_cons ?_ (fieldDecls_decode fs h hd.2)
    obtain ⟨n, rfl⟩ : ∃ m, n = m + 1 := ⟨n - 1, by omega⟩
    rw [fieldDecl]
    exact plainRecord_gives (((text_gives (by simp)).map _).seq
      (required_gives (by simp) fun ht => typeExpr_decodes type (by omega)))

theorem typeExpr_decodes : ∀ (t : TypeExpr) {n : Nat}, 3 * (Encode.typeExpr t).depth ≤ n →
    typeExpr n (Encode.typeExpr t) = .ok t
  | .named name args, n + 1, h => by
    rw [Encode.typeExpr, Encode.depth_node] at h
    rw [Encode.typeExpr, Decode.typeExpr]
    exact (Tells.record rfl (by simp) (((text_gives (by simp)).map _).seq
        (list_gives (by simp) (typeExprs_decode args (by omega))))).tagged _
  | .refined base op value, n + 1, h => by
    rw [Encode.typeExpr, Encode.depth_node] at h
    rw [Encode.typeExpr, Decode.typeExpr]
    exact (Tells.record rfl (by simp)
      (((required_gives (by simp) fun hd => typeExpr_decodes base (by omega)).map _).seq
        (required_gives (by simp) fun _ => binaryOp_symbol op) |>.seq
        (required_gives (by simp) fun hd => expr_decodes value (by omega)))).tagged _
  | .union left right, n + 1, h => by
    rw [Encode.typeExpr, Encode.depth_node] at h
    rw [Encode.typeExpr, Decode.typeExpr]
    exact (Tells.record rfl (by simp)
      (((required_gives (by simp) fun hd => typeExpr_decodes left (by omega)).map _).seq
        (required_gives (by simp) fun hd => typeExpr_decodes right (by omega)))).tagged _
  | .array element init total, n + 1, h => by
    rw [Encode.typeExpr, Encode.depth_node] at h
    rw [Encode.typeExpr, Decode.typeExpr]
    exact (Tells.record rfl (by simp)
      (((required_gives (by simp) fun hd => typeExpr_decodes element (by omega)).map _).seq
        (optional_gives (by simp) Encode.expr_ne_null (expr?_decodes init (by omega))) |>.seq
        (optional_gives (by simp) Encode.expr_ne_null (expr?_decodes total (by omega))))).tagged _
  | .pointer mutable target, n + 1, h => by
    rw [Encode.typeExpr, Encode.depth_node] at h
    rw [Encode.typeExpr, Decode.typeExpr]
    exact (Tells.record rfl (by simp) (((flag_gives (by simp)).map _).seq
        (required_gives (by simp) fun hd => typeExpr_decodes target (by omega)))).tagged _
  | .tuple members, n + 1, h => by
    rw [Encode.typeExpr, Encode.depth_node] at h
    rw [Encode.typeExpr, Decode.typeExpr]
    exact (Tells.record rfl (by simp)
      ((list_gives (by simp) (typeExprs_decode members (by omega))).map _)).tagged _
  | t, 0, h => by
    obtain ⟨kind, fields, ht⟩ := Encode.typeExpr_isNode t
    have hpos := Json.depth_object_pos fields
    rw [ht, Encode.depth_node] at h
    omega

theorem typeExpr?_decodes : ∀ (x : Option TypeExpr) {n d : Nat}, 3 * d ≤ n + 3 → ∀ t, x = some t →
    (Encode.typeExpr t).depth < d → typeExpr n (Encode.typeExpr t) = .ok t
  | none, _, _, _, _, ht, _ => by cases ht
  | some t, _, _, h, _, ht, hd => by
    cases ht
    exact typeExpr_decodes t (by omega)

theorem typeExprs_decode : ∀ (ts : List TypeExpr) {n d : Nat}, 3 * d ≤ n + 3 →
    (∀ item ∈ Encode.typeExprs ts, item.depth + 1 < d) →
    all (typeExpr n) (Encode.typeExprs ts) = .ok ts
  | [], _, _, _, _ => by rw [Encode.typeExprs, all]
  | t :: ts, _, _, h, hd => by
    rw [Encode.typeExprs, List.forall_mem_cons] at hd
    rw [Encode.typeExprs]
    exact all_cons (typeExpr_decodes t (by omega)) (typeExprs_decode ts h hd.2)

end

end Decode

end TuffSafety
