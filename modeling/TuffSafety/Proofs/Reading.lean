import TuffSafety.Ast.Parse
import TuffSafety.Proofs.Placement

/-!
# What a parser leaves and where it fails

A reader is given the tokens that are left of a list and the end is still among them. It fails at one
of these tokens, or leaves a shorter rest that still has the end in it, so the end is never passed
over. The nodes it makes carry the locations of tokens that were passed over, never of the end.
-/
namespace TuffSafety

namespace Parse

variable {all ts rest : List Token} {α β : Type}

/-- The location of one of the tokens. -/
def AtToken (all : List Token) (l : Loc) : Prop :=
  ∃ t ∈ all, l = t.loc

/-- The location of one of the tokens before the end. -/
def AtWord (all : List Token) (l : Loc) : Prop :=
  ∃ t ∈ all, t.kind ≠ .eof ∧ l = t.loc

def isEnd : TokenKind → Bool
  | .eof => true
  | _ => false

theorem ne_eof {kind : TokenKind} (h : isEnd kind = false) : kind ≠ .eof := by
  rintro rfl
  cases h

/-- What is left of a token list, its end included. -/
structure Within (all ts : List Token) : Prop where
  isSuffix : ts <:+ all
  hasEnd : ∃ t ∈ ts, t.kind = .eof

namespace Within

theorem place (h : Within all ts) : Marked (AtToken all) (place? ts) := by
  obtain ⟨hsuffix, t, ht, -⟩ := h
  cases ts with
  | nil => cases ht
  | cons first rest => exact .some ⟨first, hsuffix.subset List.mem_cons_self, rfl⟩

/-- A token other than the end is passed over. -/
theorem tail {t : Token} (h : Within all (t :: ts)) (ht : isEnd t.kind = false) : Within all ts := by
  refine ⟨(List.suffix_cons t ts).trans h.isSuffix, ?_⟩
  obtain ⟨last, hlast, hkind⟩ := h.hasEnd
  rcases List.mem_cons.mp hlast with rfl | hlast
  · exact absurd hkind (ne_eof ht)
  · exact ⟨last, hlast, hkind⟩

theorem head {t : Token} (h : Within all (t :: ts)) (ht : isEnd t.kind = false) :
    Marked (AtWord all) (some t.loc) :=
  .some ⟨t, h.isSuffix.subset List.mem_cons_self, ne_eof ht, rfl⟩

theorem symbol {s : Symbol} {pos : Pos} (h : Within all (⟨.symbol s, pos⟩ :: ts)) : Within all ts :=
  h.tail rfl

theorem symbolLoc {s : Symbol} {pos : Pos} (h : Within all (⟨.symbol s, pos⟩ :: ts)) :
    Marked (AtWord all) (some (Loc.ofPos pos)) :=
  h.head rfl

theorem ident {name : String} {pos : Pos} (h : Within all (⟨.ident name, pos⟩ :: ts)) : Within all ts :=
  h.tail rfl

theorem accept {s : Symbol} {found : Bool} (h : Within all ts) (hacc : accept s ts = (found, rest)) :
    Within all rest := by
  unfold Parse.accept at hacc
  split at hacc
  · split at hacc
    · obtain ⟨-, rfl⟩ := Prod.mk.inj hacc
      exact h.symbol
    · obtain ⟨-, rfl⟩ := Prod.mk.inj hacc
      exact h
  · obtain ⟨-, rfl⟩ := Prod.mk.inj hacc
    exact h

end Within

/-- A reader fails at a token, or gives a good value and leaves a rest with the end in it. -/
structure Reads (all : List Token) (Good : α → Prop) (r : Attempt (α × List Token)) : Prop where
  blames : Blames (AtToken all) r
  leaves : ∀ a rest, r = .ok (a, rest) → Good a ∧ Within all rest

namespace Reads

variable {Good : α → Prop} {Good' : β → Prop}

theorem ok {a : α} (ha : Good a) (h : Within all ts) : Reads all Good (.ok (a, ts)) := by
  refine ⟨.ok _, fun a' rest heq => ?_⟩
  obtain ⟨rfl, rfl⟩ := Prod.mk.inj (Except.ok.inj heq)
  exact ⟨ha, h⟩

theorem fail {cause : ParseFault} (h : Within all ts) : Reads all Good (fail cause ts) := by
  refine ⟨.error h.place, fun a rest heq => ?_⟩
  cases heq

theorem bind {r : Attempt (α × List Token)} {f : α × List Token → Attempt (β × List Token)}
    (h : Reads all Good r) (hf : ∀ a rest, Good a → Within all rest → Reads all Good' (f (a, rest))) :
    Reads all Good' (r >>= f) := by
  refine ⟨h.blames.bind fun (a, rest) hr => ?_, fun b rest' heq => ?_⟩
  · obtain ⟨ha, hrest⟩ := h.leaves a rest hr
    exact (hf a rest ha hrest).blames
  · obtain ⟨⟨a, rest⟩, hr, heq⟩ := bind_eq_ok.mp heq
    obtain ⟨ha, hrest⟩ := h.leaves a rest hr
    exact (hf a rest ha hrest).leaves b rest' heq

/-- Where the closing symbol comes next, nothing is read. -/
theorem bindUnless {r : Attempt (α × List Token)} {p : Prop} [Decidable p] {a : α}
    {f : α × List Token → Attempt (β × List Token)} (hr : Reads all Good r) (ha : Good a)
    (h : Within all ts)
    (hf : ∀ a rest, Good a → Within all rest → Reads all Good' (f (a, rest))) :
    Reads all Good' (if p then .ok (a, ts) >>= f else r >>= f) := by
  split
  · exact (ok ha h).bind hf
  · exact hr.bind hf

end Reads

/-- Any value is good. -/
def Any {α : Type} (_ : α) : Prop := True

theorem expect_reads (s : Symbol) (place : String) (h : Within all ts) :
    Reads all Any (expect s place ts) := by
  unfold expect
  split
  · exact .ok trivial (h.accept ‹_›)
  · exact .fail (h.accept ‹_›)

theorem ident_reads (h : Within all ts) : Reads all Any (ident ts) := by
  unfold ident
  split
  · exact .ok trivial (h.tail rfl)
  · exact .fail h

theorem identList_reads (h : Within all ts) : Reads all Any (identList ts) := by
  fun_induction identList ts with
  | case1 name pos pos' ts ih => exact (ih h.ident.symbol).bind fun _ _ _ h => .ok trivial h
  | case2 name pos ts => exact .ok trivial h.ident
  | case3 => exact .fail h

theorem generics_reads (h : Within all ts) : Reads all Any (generics ts) := by
  unfold generics
  split
  · exact .ok trivial (h.accept ‹_›)
  · have h := h.accept ‹_›
    exact (identList_reads h).bindUnless trivial h fun _ _ _ h =>
      (expect_reads _ _ h).bind fun _ _ _ h => .ok trivial h

theorem nameTail_reads (h : Within all ts) : Reads all Any (nameTail ts) := by
  fun_induction nameTail ts with
  | case1 pos part pos' ts ih => exact (ih h.symbol.ident).bind fun _ _ _ h => .ok trivial h
  | case2 => exact .fail h.symbol
  | case3 => exact .ok trivial h

theorem qualifiedName_reads (h : Within all ts) : Reads all Any (qualifiedName ts) :=
  (ident_reads h).bind fun _ _ _ h => (nameTail_reads h).bind fun _ _ _ h => .ok trivial h

theorem variants_reads (h : Within all ts) : Reads all Any (variants ts) := by
  fun_induction variants ts with
  | case1 name pos pos' ts ih => exact (ih h.ident.symbol).bind fun _ _ _ h => .ok trivial h
  | case2 name pos pos' ts ih => exact (ih h.ident.symbol).bind fun _ _ _ h => .ok trivial h
  | case3 name pos ts _ _ ih => exact (ih h.ident).bind fun _ _ _ h => .ok trivial h
  | case4 => exact .ok trivial h
  | case5 => exact .fail h

theorem pattern_reads (h : Within all ts) : Reads all Any (pattern ts) := by
  unfold pattern
  split
  · split
    · exact .ok trivial h.ident
    · split
      · exact .ok trivial (h.ident.accept ‹_›)
      · have h := h.ident.accept ‹_›
        exact (identList_reads h).bindUnless trivial h fun _ _ _ h =>
          (expect_reads _ _ h).bind fun _ _ _ h => .ok trivial h
  · exact .ok trivial (h.tail rfl)
  · exact .ok trivial h.symbol
  · exact .ok trivial h.symbol
  · exact .ok trivial (h.tail rfl)
  · exact .fail h

theorem refinementOp?_isEnd {kind : TokenKind} {op : BinaryOp} (h : refinementOp? kind = some op) :
    isEnd kind = false := by
  cases kind with
  | eof => cases h
  | _ => rfl

theorem ofToken?_isEnd {kind : TokenKind} {sign : Infix} (h : Infix.ofToken? kind = some sign) :
    isEnd kind = false := by
  cases kind with
  | eof => cases h
  | _ => rfl

/-! ### Nodes made from others -/

theorem callOf_placed {Q : Loc → Prop} {callee : Expr} {args : List Expr} (hcallee : callee.Placed Q)
    (hargs : ∀ e ∈ args, e.Placed Q) : (callOf callee args).Placed Q := by
  unfold callOf
  split
  · obtain - | - | - | - | - | - | - | - | - | ⟨hobject, h⟩ := hcallee
    exact .call (.ident h) (List.forall_mem_cons.mpr ⟨hobject, hargs⟩) h
  · exact .call hcallee hargs hcallee.loc?

theorem ifStatement?_placed {Q : Loc → Prop} {e : Expr} {s : Stmt} (h : ifStatement? e = some s)
    (he : e.Placed Q) : s.Placed Q := by
  unfold ifStatement? at h
  split at h
  · split at h
    · obtain rfl := Option.some.inj h
      exact .ite he
    · cases h
  · cases h

/-! ### The readers -/

mutual

theorem typeExpr_reads : ∀ n {ts}, Within all ts → Reads all Any (typeExpr n ts)
  | 0, _, h => .fail h
  | n + 1, _, h => (typeTerm_reads n h).bind fun _ _ _ h => unionTail_reads n _ h

theorem unionTail_reads : ∀ n left {ts}, Within all ts → Reads all Any (unionTail n left ts)
  | 0, _, _, h => .fail h
  | n + 1, _, _, h => by
    rw [unionTail]
    split
    · exact .ok trivial (h.accept ‹_›)
    · exact (typeTerm_reads n (h.accept ‹_›)).bind fun _ _ _ h => unionTail_reads n _ h

theorem typeTerm_reads : ∀ n {ts}, Within all ts → Reads all Any (typeTerm n ts)
  | 0, _, h => .fail h
  | n + 1, _, h => by
    unfold typeTerm
    split <;> cases ‹n + 1 = _›
    · split
      exact (typeTerm_reads n (h.symbol.accept ‹_›)).bind fun _ _ _ h => .ok trivial h
    · refine (typeExpr_reads n h.symbol).bind fun _ _ _ h => ?_
      dsimp only
      split
      · exact (expect_reads _ _ (h.accept ‹_›)).bind fun _ _ _ h => .ok trivial h
      · exact (expression_reads n 0 (h.accept ‹_›)).bind fun _ _ _ h =>
          (expect_reads _ _ h).bind fun _ _ _ h => (expression_reads n 0 h).bind fun _ _ _ h =>
          (expect_reads _ _ h).bind fun _ _ _ h => .ok trivial h
    · exact (typeList_reads n h.symbol).bindUnless trivial h.symbol fun _ _ _ h =>
        (expect_reads _ _ h).bind fun _ _ _ h => .ok trivial h
    · exact (qualifiedName_reads h).bind fun _ _ _ h => (typeArguments_reads n h).bind fun _ _ _ h =>
        refinement_reads n _ h

theorem typeList_reads : ∀ n {ts}, Within all ts → Reads all Any (typeList n ts)
  | 0, _, h => .fail h
  | n + 1, _, h => by
    rw [typeList]
    refine (typeExpr_reads n h).bind fun _ _ _ h => ?_
    dsimp only
    split
    · exact .ok trivial (h.accept ‹_›)
    · exact (typeList_reads n (h.accept ‹_›)).bind fun _ _ _ h => .ok trivial h

theorem typeArguments_reads : ∀ n {ts}, Within all ts → Reads all Any (typeArguments n ts)
  | 0, _, h => .fail h
  | n + 1, _, h => by
    rw [typeArguments]
    split
    · split
      · exact (typeList_reads n (h.accept ‹_›)).bind fun _ _ _ h =>
          (expect_reads _ _ h).bind fun _ _ _ h => .ok trivial h
      · exact .ok trivial h
    · exact .ok trivial (h.accept ‹_›)

theorem refinement_reads : ∀ n base {ts}, Within all ts → Reads all Any (refinement n base ts)
  | 0, _, _, h => .fail h
  | _ + 1, _, [], h => .ok trivial h
  | n + 1, _, t :: _, h => by
    rw [refinement]
    split
    · rename_i op hop
      have ht : isEnd t.kind = false := refinementOp?_isEnd hop
      split
      · exact (expression_reads n 0 (h.tail ht)).bind fun _ _ _ h => .ok trivial h
      · exact .ok trivial h
    · exact .ok trivial h

theorem annotation_reads : ∀ n {ts}, Within all ts → Reads all Any ( annotation n ts)
  | 0, _, h => .fail h
  | n + 1, _, h => by
    rw [ annotation]
    split
    · exact .ok trivial (h.accept ‹_›)
    · exact (typeExpr_reads n (h.accept ‹_›)).bind fun _ _ _ h => .ok trivial h

theorem expression_reads :
    ∀ n level {ts}, Within all ts → Reads all (Expr.Placed (AtWord all)) (expression n level ts)
  | 0, _, _, h => .fail h
  | n + 1, level, _, h => by
    rw [expression]
    refine (unary_reads n h).bind fun _ _ hleft h =>
      (infixTail_reads n level hleft h).bind fun _ _ hwhole h => ?_
    dsimp only
    split
    · exact .ok (.unwrap hwhole hwhole.loc?) (h.accept ‹_›)
    · exact .ok hwhole (h.accept ‹_›)

theorem infixTail_reads :
    ∀ n level {left ts}, left.Placed (AtWord all) → Within all ts →
      Reads all (Expr.Placed (AtWord all)) (infixTail n level left ts)
  | 0, _, _, _, _, h => .fail h
  | _ + 1, _, _, [], hleft, h => .ok hleft h
  | n + 1, level, left, t :: ts, hleft, h => by
    rw [infixTail]
    split
    · exact .ok hleft h
    · rename_i sign hsign
      have ht : isEnd t.kind = false := ofToken?_isEnd hsign
      have hloc : Marked (AtWord all) (left.loc? <|> some t.loc) := hleft.loc?.orElse _
      split
      · exact .ok hleft h
      · split
        · exact (pattern_reads (h.tail ht)).bind fun _ _ _ h =>
            infixTail_reads n level (.isPattern hleft hloc) h
        · exact (expression_reads n _ (h.tail ht)).bind fun _ _ hright h =>
            infixTail_reads n level (.binary hleft hright hloc) h

theorem unary_reads :
    ∀ n {ts}, Within all ts → Reads all (Expr.Placed (AtWord all)) (unary n ts)
  | 0, _, h => .fail h
  | n + 1, _, h => by
    unfold unary
    split <;> cases ‹n + 1 = _›
    · exact (unary_reads n h.symbol).bind fun _ _ he hrest => .ok (.unary he h.symbolLoc) hrest
    · exact (unary_reads n h.symbol).bind fun _ _ he hrest => .ok (.unary he h.symbolLoc) hrest
    · split
      exact (unary_reads n (h.symbol.accept ‹_›)).bind fun _ _ he hrest =>
        .ok (.unary he h.symbolLoc) hrest
    · exact primary_reads n h

theorem primary_reads :
    ∀ n {ts}, Within all ts → Reads all (Expr.Placed (AtWord all)) (primary n ts)
  | 0, _, h => .fail h
  | n + 1, _, h => (atom_reads n h).bind fun _ _ he h => suffixes_reads n he h

theorem atom_reads :
    ∀ n {ts}, Within all ts → Reads all (Expr.Placed (AtWord all)) (atom n ts)
  | 0, _, h => .fail h
  | n + 1, _, h => by
    unfold atom
    split <;> cases ‹n + 1 = _›
    · exact .ok (.number (h.head rfl)) (h.tail rfl)
    · exact .ok (.float (h.head rfl)) (h.tail rfl)
    · exact .ok (.bool h.symbolLoc) h.symbol
    · exact .ok (.bool h.symbolLoc) h.symbol
    · exact .ok (.string (h.head rfl)) (h.tail rfl)
    · exact .ok (.char (h.head rfl)) (h.tail rfl)
    · exact (expression_reads n 0 h.symbol).bind fun _ _ he h =>
        (expect_reads _ _ h).bind fun _ _ _ h => .ok he h
    · exact (block_reads n (h.head rfl) h.symbol).bind fun _ _ hbody h => .ok hbody h
    · refine (expect_reads _ _ h.symbol).bind fun _ _ _ hrest =>
        (expression_reads n 0 hrest).bind fun _ _ hcondition hrest =>
        (expect_reads _ _ hrest).bind fun _ _ _ hrest =>
        (branch_reads n hrest).bind fun _ _ hthen hrest => ?_
      dsimp only
      split
      · exact .ok (.ite hcondition hthen (fun _ he => by cases he) h.symbolLoc) (hrest.accept ‹_›)
      · refine (branch_reads n (hrest.accept ‹_›)).bind fun _ _ helse hrest => .ok ?_ hrest
        exact .ite hcondition hthen (fun _ he => Option.some.inj he ▸ helse) h.symbolLoc
    · exact (expect_reads _ _ h.symbol).bind fun _ _ _ hrest =>
        (expression_reads n 0 hrest).bind fun _ _ htarget hrest =>
        (expect_reads _ _ hrest).bind fun _ _ _ hrest =>
        (expect_reads _ _ hrest).bind fun _ _ _ hrest =>
        (matchCases_reads n hrest).bind fun _ _ hcases hrest =>
        (expect_reads _ _ hrest).bind fun _ _ _ hrest =>
          .ok (.matchOn htarget hcases h.symbolLoc) hrest
    · split
      · exact .ok (.ident (h.head rfl)) (h.ident.accept ‹_›)
      · have hopen := h.ident.accept ‹_›
        exact (fieldInits_reads n hopen).bindUnless (List.forall_mem_nil _) hopen fun _ _ hfields hrest =>
          (expect_reads _ _ hrest).bind fun _ _ _ hrest =>
            .ok (.structInit hfields (h.head rfl)) hrest
    · exact .fail h

theorem branch_reads :
    ∀ n {ts}, Within all ts → Reads all (Expr.Placed (AtWord all)) (branch n ts)
  | 0, _, h => .fail h
  | n + 1, _, h => by
    unfold branch
    split <;> cases ‹n + 1 = _›
    · exact (block_reads n (h.head rfl) h.symbol).bind fun _ _ hbody h => .ok hbody h
    · exact expression_reads n 0 h

theorem matchCases_reads :
    ∀ n {ts}, Within all ts →
      Reads all (fun cases => ∀ arm ∈ cases, arm.body.Placed (AtWord all)) (matchCases n ts)
  | 0, _, h => .fail h
  | n + 1, _, h => by
    unfold matchCases
    split <;> cases ‹n + 1 = _›
    · exact (pattern_reads h.symbol).bind fun _ _ _ h => (expect_reads _ _ h).bind fun _ _ _ h =>
        (branch_reads n h).bind fun _ _ hbody h => (expect_reads _ _ h).bind fun _ _ _ h =>
        (matchCases_reads n h).bind fun _ _ hrest h =>
          .ok (List.forall_mem_cons.mpr ⟨hbody, hrest⟩) h
    · split
      · exact .ok (List.forall_mem_nil _) h
      · exact .fail h

theorem fieldInits_reads :
    ∀ n {ts}, Within all ts →
      Reads all (fun fields => ∀ f ∈ fields, f.value.Placed (AtWord all)) (fieldInits n ts)
  | 0, _, h => .fail h
  | n + 1, _, h => by
    rw [fieldInits]
    refine (ident_reads h).bind fun _ _ _ h => (expect_reads _ _ h).bind fun _ _ _ h =>
      (expression_reads n 0 h).bind fun _ _ hvalue h => ?_
    dsimp only
    split
    · exact .ok (List.forall_mem_singleton.mpr hvalue) (h.accept ‹_›)
    · split
      · exact .ok (List.forall_mem_singleton.mpr hvalue) (h.accept ‹_›)
      · exact (fieldInits_reads n (h.accept ‹_›)).bind fun _ _ hrest h =>
          .ok (List.forall_mem_cons.mpr ⟨hvalue, hrest⟩) h

theorem suffixes_reads :
    ∀ n {base ts}, base.Placed (AtWord all) → Within all ts →
      Reads all (Expr.Placed (AtWord all)) (suffixes n base ts)
  | 0, _, _, _, h => .fail h
  | n + 1, _, _, hbase, h => by
    unfold suffixes
    split <;> cases ‹n + 1 = _›
    · exact (arguments_reads n h.symbol).bindUnless (List.forall_mem_nil _) h.symbol fun _ _ hargs h =>
        (expect_reads _ _ h).bind fun _ _ _ h => suffixes_reads n (callOf_placed hbase hargs) h
    · exact (ident_reads h.symbol).bind fun _ _ _ h =>
        suffixes_reads n (.member hbase hbase.loc?) h
    · exact (expression_reads n 0 h.symbol).bind fun _ _ hposition h =>
        (expect_reads _ _ h).bind fun _ _ _ h =>
          suffixes_reads n (.index hbase hposition (hbase.loc?.orElse _)) h
    · exact .ok hbase h

theorem arguments_reads :
    ∀ n {ts}, Within all ts →
      Reads all (fun args => ∀ e ∈ args, e.Placed (AtWord all)) (arguments n ts)
  | 0, _, h => .fail h
  | n + 1, _, h => by
    rw [arguments]
    refine (expression_reads n 0 h).bind fun _ _ he h => ?_
    dsimp only
    split
    · exact .ok (List.forall_mem_singleton.mpr he) (h.accept ‹_›)
    · exact (arguments_reads n (h.accept ‹_›)).bind fun _ _ hrest h =>
        .ok (List.forall_mem_cons.mpr ⟨he, hrest⟩) h

theorem block_reads :
    ∀ n {opening ts}, Marked (AtWord all) (some opening.loc) → Within all ts →
      Reads all (fun body => Expr.Placed (AtWord all) (.block body)) (block n opening ts)
  | 0, _, _, _, h => .fail h
  | n + 1, _, _, hopening, h =>
    (statements_reads n h).bind fun _ _ hstatements h => (expect_reads _ _ h).bind fun _ _ _ h =>
      .ok (.block hstatements hopening) h

theorem requiredBlock_reads :
    ∀ n {ts}, Within all ts →
      Reads all (fun body => Expr.Placed (AtWord all) (.block body)) (requiredBlock n ts)
  | 0, _, h => .fail h
  | n + 1, _, h => by
    unfold requiredBlock
    split <;> cases ‹n + 1 = _›
    · exact block_reads n (h.head rfl) h.symbol
    · exact .fail h

theorem statements_reads :
    ∀ n {ts}, Within all ts →
      Reads all (fun ss => ∀ s ∈ ss, s.Placed (AtWord all)) (statements n ts)
  | 0, _, h => .fail h
  | n + 1, _, h => by
    rw [statements]
    split
    · exact .ok (List.forall_mem_nil _) h
    · exact (statement_reads n h).bind fun _ _ hfirst h =>
        (statements_reads n h).bind fun _ _ hrest h =>
          .ok (List.forall_mem_cons.mpr ⟨hfirst, hrest⟩) h

theorem statement_reads :
    ∀ n {ts}, Within all ts → Reads all (Stmt.Placed (AtWord all)) (statement n ts)
  | 0, _, h => .fail h
  | n + 1, _, h => by
    unfold statement
    split <;> cases ‹n + 1 = _›
    · exact fnDecl_reads n true h.symbol.symbolLoc h.symbol.symbol
    · exact structDecl_reads n true h.symbol.symbolLoc h.symbol.symbol
    · exact enumDecl_reads n true h.symbol.symbolLoc h.symbol.symbol
    · exact typeAlias_reads n true h.symbol.symbolLoc h.symbol.symbol
    · exact .fail h.symbol
    · exact (ident_reads h.symbol).bind fun _ _ _ hrest =>
        (annotation_reads n hrest).bind fun _ _ _ hrest =>
        (expect_reads _ _ hrest).bind fun _ _ _ hrest =>
        (expression_reads n 0 hrest).bind fun _ _ hvalue hrest =>
        (expect_reads _ _ hrest).bind fun _ _ _ hrest => .ok (.letDecl hvalue h.symbolLoc) hrest
    · exact structDecl_reads n false h.symbolLoc h.symbol
    · exact enumDecl_reads n false h.symbolLoc h.symbol
    · exact typeAlias_reads n false h.symbolLoc h.symbol
    · exact fnDecl_reads n false h.symbolLoc h.symbol
    · exact foreignItem_reads n h.symbolLoc h.symbol
    · dsimp only
      split
      · exact (expect_reads _ _ h.symbol).bind fun _ _ _ hrest =>
          .ok (.ret (fun _ he => by cases he) h.symbolLoc) hrest
      · refine (expression_reads n 0 h.symbol).bind fun _ _ hvalue hrest =>
          (expect_reads _ _ hrest).bind fun _ _ _ hrest => .ok (.ret ?_ h.symbolLoc) hrest
        exact fun _ he => Option.some.inj he ▸ hvalue
    · refine (primary_reads n h).bind fun _ _ hwhole h => ?_
      dsimp only
      split
      · exact .ok (ifStatement?_placed ‹_› hwhole) h
      · exact (expect_reads _ _ h).bind fun _ _ _ h => .ok (.expr hwhole hwhole.loc?) h
    · exact (expect_reads _ _ h.symbol).bind fun _ _ _ hrest =>
        (expression_reads n 0 hrest).bind fun _ _ hcondition hrest =>
        (expect_reads _ _ hrest).bind fun _ _ _ hrest =>
        (requiredBlock_reads n hrest).bind fun _ _ hbody hrest =>
          .ok (.whileLoop hcondition hbody h.symbolLoc) hrest
    · exact (expect_reads _ _ h.symbol).bind fun _ _ _ hrest =>
        (ident_reads hrest).bind fun _ _ _ hrest =>
        (expect_reads _ _ hrest).bind fun _ _ _ hrest =>
        (expression_reads n 0 hrest).bind fun _ _ hfirst hrest =>
        (expect_reads _ _ hrest).bind fun _ _ _ hrest =>
        (expression_reads n 0 hrest).bind fun _ _ hlast hrest =>
        (expect_reads _ _ hrest).bind fun _ _ _ hrest =>
        (requiredBlock_reads n hrest).bind fun _ _ hbody hrest =>
          .ok (.forLoop hfirst hlast hbody h.symbolLoc) hrest
    · exact (expect_reads _ _ h.symbol).bind fun _ _ _ hrest => .ok (.breakLoop h.symbolLoc) hrest
    · exact (expect_reads _ _ h.symbol).bind fun _ _ _ hrest => .ok (.continueLoop h.symbolLoc) hrest
    · exact (block_reads n (h.head rfl) h.symbol).bind fun _ _ hbody h => .ok (.block hbody) h
    · exact expressionStatement_reads n h

theorem expressionStatement_reads :
    ∀ n {ts}, Within all ts → Reads all (Stmt.Placed (AtWord all)) (expressionStatement n ts)
  | 0, _, h => .fail h
  | n + 1, _, h => by
    rw [expressionStatement]
    refine (expression_reads n 0 h).bind fun _ _ htarget h => ?_
    dsimp only
    split
    · exact (expression_reads n 0 (h.accept ‹_›)).bind fun _ _ hvalue h =>
        (expect_reads _ _ h).bind fun _ _ _ h => .ok (.assign htarget hvalue htarget.loc?) h
    · have h := h.accept ‹_›
      split
      · exact .ok (.expr htarget htarget.loc?) (h.accept ‹_›)
      · split
        · exact .ok (.expr htarget htarget.loc?) (h.accept ‹_›)
        · exact .fail (h.accept ‹_›)

theorem fnDecl_reads :
    ∀ n exported {pos ts}, Marked (AtWord all) (some (Loc.ofPos pos)) → Within all ts →
      Reads all (Stmt.Placed (AtWord all)) (fnDecl n exported pos ts)
  | 0, _, _, _, _, h => .fail h
  | n + 1, _, _, _, hpos, h =>
    (signature_reads n hpos h).bind fun _ _ hloc h => (expect_reads _ _ h).bind fun _ _ _ h =>
      (fnBody_reads n h).bind fun _ _ hbody h =>
        .ok (.fnDecl (fun _ he => Option.some.inj he ▸ hbody) hloc) h

theorem signature_reads :
    ∀ n {pos ts}, Marked (AtWord all) (some (Loc.ofPos pos)) → Within all ts →
      Reads all (fun decl => Marked (AtWord all) decl.loc) (signature n pos ts)
  | 0, _, _, _, h => .fail h
  | n + 1, _, _, hpos, h => by
    rw [signature]
    refine (ident_reads h).bind fun _ _ _ h => (generics_reads h).bind fun _ _ _ h =>
      (expect_reads _ _ h).bind fun _ _ _ h => ?_
    exact (params_reads n h).bindUnless trivial h fun _ _ _ h =>
      (expect_reads _ _ h).bind fun _ _ _ h => (annotation_reads n h).bind fun _ _ _ h => .ok hpos h

theorem fnBody_reads :
    ∀ n {ts}, Within all ts → Reads all (Expr.Placed (AtWord all)) (fnBody n ts)
  | 0, _, h => .fail h
  | n + 1, _, h => by
    unfold fnBody
    split <;> cases ‹n + 1 = _›
    · exact (block_reads n (h.head rfl) h.symbol).bind fun _ _ hbody h => .ok hbody (h.accept rfl)
    · refine (expression_reads n 0 h).bind fun _ _ hbody h => ?_
      dsimp only
      split
      · exact .ok hbody h
      · exact (expect_reads _ _ h).bind fun _ _ _ h => .ok hbody h

theorem params_reads : ∀ n {ts}, Within all ts → Reads all Any (params n ts)
  | 0, _, h => .fail h
  | n + 1, _, h => by
    rw [params]
    refine (ident_reads h).bind fun _ _ _ h => (annotation_reads n h).bind fun _ _ _ h => ?_
    dsimp only
    split
    · exact .ok trivial (h.accept ‹_›)
    · exact (params_reads n (h.accept ‹_›)).bind fun _ _ _ h => .ok trivial h

theorem structDecl_reads :
    ∀ n exported {pos ts}, Marked (AtWord all) (some (Loc.ofPos pos)) → Within all ts →
      Reads all (Stmt.Placed (AtWord all)) (structDecl n exported pos ts)
  | 0, _, _, _, _, h => .fail h
  | n + 1, _, _, _, hpos, h =>
    (ident_reads h).bind fun _ _ _ h => (generics_reads h).bind fun _ _ _ h =>
      (expect_reads _ _ h).bind fun _ _ _ h => (fieldDecls_reads n h).bind fun _ _ _ h =>
      (expect_reads _ _ h).bind fun _ _ _ h => .ok (.structDecl hpos) h

theorem fieldDecls_reads : ∀ n {ts}, Within all ts → Reads all Any (fieldDecls n ts)
  | 0, _, h => .fail h
  | n + 1, _, h => by
    rw [fieldDecls]
    split
    · exact .ok trivial h
    · refine (ident_reads h).bind fun _ _ _ h => (expect_reads _ _ h).bind fun _ _ _ h =>
        (typeExpr_reads n h).bind fun _ _ _ h => ?_
      dsimp only
      split
      · exact (fieldDecls_reads n (h.accept ‹_›)).bind fun _ _ _ h => .ok trivial h
      · have h := h.accept ‹_›
        exact (fieldDecls_reads n (h.accept rfl)).bind fun _ _ _ h => .ok trivial h

theorem enumDecl_reads :
    ∀ n exported {pos ts}, Marked (AtWord all) (some (Loc.ofPos pos)) → Within all ts →
      Reads all (Stmt.Placed (AtWord all)) (enumDecl n exported pos ts)
  | 0, _, _, _, _, h => .fail h
  | _ + 1, _, _, _, hpos, h =>
    (ident_reads h).bind fun _ _ _ h => (expect_reads _ _ h).bind fun _ _ _ h =>
      (variants_reads h).bind fun _ _ _ h => (expect_reads _ _ h).bind fun _ _ _ h =>
        .ok (.enumDecl hpos) h

theorem typeAlias_reads :
    ∀ n exported {pos ts}, Marked (AtWord all) (some (Loc.ofPos pos)) → Within all ts →
      Reads all (Stmt.Placed (AtWord all)) (typeAlias n exported pos ts)
  | 0, _, _, _, _, h => .fail h
  | n + 1, _, _, _, hpos, h =>
    (ident_reads h).bind fun _ _ _ h => (generics_reads h).bind fun _ _ _ h =>
      (expect_reads _ _ h).bind fun _ _ _ h => (typeExpr_reads n h).bind fun _ _ _ h =>
      (expect_reads _ _ h).bind fun _ _ _ h => .ok (.typeAlias hpos) h

theorem foreignItem_reads :
    ∀ n {pos ts}, Marked (AtWord all) (some (Loc.ofPos pos)) → Within all ts →
      Reads all (Stmt.Placed (AtWord all)) (foreignItem n pos ts)
  | 0, _, _, _, h => .fail h
  | n + 1, _, _, hpos, h => by
    unfold foreignItem
    split <;> cases ‹n + 1 = _›
    · exact (signature_reads n hpos h.symbol).bind fun _ _ hloc h =>
        (expect_reads _ _ h).bind fun _ _ _ h => .ok (.foreignFn hloc) h
    · exact (ident_reads h.symbol).bind fun _ _ _ h => (expect_reads _ _ h).bind fun _ _ _ h =>
        (typeExpr_reads n h).bind fun _ _ _ h => (expect_reads _ _ h).bind fun _ _ _ h =>
          .ok (.foreignLet hpos) h
    · exact (ident_reads h.symbol).bind fun _ _ _ h => (generics_reads h).bind fun _ _ _ h =>
        (expect_reads _ _ h).bind fun _ _ _ h => .ok (.foreignType hpos) h
    · exact .fail h

end

theorem topLevel_blames : ∀ n {ts}, Within all ts → Blames (AtToken all) (topLevel n ts)
  | 0, _, h => .error h.place
  | n + 1, _, h => by
    rw [topLevel]
    split
    · exact .ok []
    · refine (statement_reads n h).blames.bind fun (first, rest) hfirst => ?_
      obtain ⟨-, h⟩ := (statement_reads n h).leaves first rest hfirst
      exact (topLevel_blames n h).bind fun _ _ => .ok _

theorem topLevel_placed :
    ∀ n {ts ss}, Within all ts → topLevel n ts = .ok ss → ∀ s ∈ ss, s.Placed (AtWord all)
  | 0, _, _, _, hread => by cases hread
  | n + 1, _, _, h, hread => by
    rw [topLevel] at hread
    split at hread
    · cases hread
      exact List.forall_mem_nil _
    · obtain ⟨⟨first, rest⟩, hfirst, hread⟩ := bind_eq_ok.mp hread
      obtain ⟨hplaced, h⟩ := (statement_reads n h).leaves first rest hfirst
      obtain ⟨ss, hss, hread⟩ := bind_eq_ok.mp hread
      cases hread
      exact List.forall_mem_cons.mpr ⟨hplaced, topLevel_placed n h hss⟩

end Parse

/-- A parser that fails is at one of the tokens, the end included. -/
theorem Program.parse_blames {tokens : List Token} (hend : ∃ t ∈ tokens, t.kind = .eof) :
    Blames (Parse.AtToken tokens) (Program.parse tokens) :=
  (Parse.topLevel_blames _ ⟨List.suffix_rfl, hend⟩).bind fun _ _ => .ok _

/-- Every node of a parsed program carries the location of a token before the end. -/
theorem Program.parse_placed {tokens : List Token} {program : Program}
    (hend : ∃ t ∈ tokens, t.kind = .eof) (h : Program.parse tokens = .ok program) :
    ∀ s ∈ program.body, s.Placed (Parse.AtWord tokens) := by
  obtain ⟨body, hbody, h⟩ := bind_eq_ok.mp h
  cases h
  exact Parse.topLevel_placed _ ⟨List.suffix_rfl, hend⟩ hbody

end TuffSafety
