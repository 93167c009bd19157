import TuffSafety.Proofs.Reading

/-!
# A reader gets on

Every reader that succeeds has passed over at least one token, unless it reads something that may be
missing, and the end is still left. The allowance never runs out: readers that call each other without
passing over a token lie in eight layers, so eight units for each token that is left are more than
nested calls can spend. With that many units one more changes nothing.
-/
namespace TuffSafety

namespace Parse

variable {all ts rest : List Token} {α β : Type} {passed more : Nat}

def HasEnd (ts : List Token) : Prop :=
  ∃ t ∈ ts, t.kind = .eof

/-- What is left of a token list, its end included, after so many tokens at least. -/
structure Left (passed : Nat) (all ts : List Token) : Prop extends Within all ts where
  length_le : ts.length + passed ≤ all.length

namespace Left

theorem refl (h : HasEnd ts) : Left 0 ts ts :=
  ⟨⟨List.suffix_rfl, h⟩, Nat.le_refl _⟩

theorem trans (h : Left passed all ts) (h' : Left more ts rest) : Left passed all rest := by
  refine ⟨⟨h'.isSuffix.trans h.isSuffix, h'.hasEnd⟩, ?_⟩
  have := h.length_le
  have := h'.length_le
  omega

theorem weaken (h : Left passed all ts) : Left 0 all ts :=
  ⟨h.toWithin, Nat.le_trans (Nat.le_add_right _ _) h.length_le⟩

/-- A token other than the end is passed over. -/
theorem tail {t : Token} (h : HasEnd (t :: ts)) (ht : isEnd t.kind = false) : Left 1 (t :: ts) ts :=
  ⟨Within.tail ⟨List.suffix_rfl, h⟩ ht, Nat.le_refl _⟩

theorem symbol {s : Symbol} {pos : Pos} (h : HasEnd (⟨.symbol s, pos⟩ :: ts)) :
    Left 1 (⟨.symbol s, pos⟩ :: ts) ts :=
  tail h rfl

/-- One more symbol is passed over. -/
theorem next {s : Symbol} {pos : Pos} (h : Left passed all (⟨.symbol s, pos⟩ :: ts)) :
    Left passed all ts :=
  h.trans (symbol h.hasEnd)

theorem accepted {s : Symbol} (h : HasEnd ts) (hacc : Parse.accept s ts = (true, rest)) :
    Left 1 ts rest := by
  unfold Parse.accept at hacc
  split at hacc
  · split at hacc
    · obtain ⟨-, rfl⟩ := Prod.mk.inj hacc
      exact symbol h
    · cases hacc
  · cases hacc

theorem accept {s : Symbol} {found : Bool} (h : Left passed all ts)
    (hacc : Parse.accept s ts = (found, rest)) : Left passed all rest := by
  cases found with
  | true => exact h.trans (accepted h.hasEnd hacc)
  | false =>
    unfold Parse.accept at hacc
    split at hacc
    · split at hacc
      · cases hacc
      · obtain ⟨-, rfl⟩ := Prod.mk.inj hacc
        exact h
    · obtain ⟨-, rfl⟩ := Prod.mk.inj hacc
      exact h

end Left

/-- Units that a reader of a layer needs at most for the tokens that are left. -/
def needed (layer : Fin 8) (ts : List Token) : Nat :=
  8 * ts.length + layer + 1

/-- A reader leaves enough behind it. If the allowance suffices, it does not run out, and with one
unit more the answer `r'` is the same. -/
structure Runs (passed : Nat) (all : List Token) (enough : Prop) (r r' : Attempt (α × List Token)) :
    Prop where
  leaves : ∀ a rest, r = .ok (a, rest) → Left passed all rest
  lasts : enough → ∀ place, r ≠ .error ⟨.exhausted, place⟩
  settled : enough → r' = r

namespace Runs

variable {enough enough' : Prop} {r r' : Attempt (α × List Token)} {layer layer' : Fin 8} {n : Nat}

theorem ok {a : α} (h : Left passed all ts) : Runs passed all enough (.ok (a, ts)) (.ok (a, ts)) := by
  refine ⟨fun a' rest heq => ?_, fun _ place heq => (by cases heq), fun _ => rfl⟩
  obtain ⟨-, rfl⟩ := Prod.mk.inj (Except.ok.inj heq)
  exact h

theorem fail {cause : ParseFault} (hcause : cause ≠ .exhausted) :
    Runs (α := α) passed all enough (fail cause ts) (fail cause ts) := by
  refine ⟨fun a rest heq => (by cases heq), fun _ place heq => ?_, fun _ => rfl⟩
  exact hcause (congrArg Located.cause (Except.error.inj heq))

theorem exhausted : Runs passed all (needed layer ts ≤ 0) (exhausted rest) r' := by
  refine ⟨fun a rest heq => (by cases heq), fun henough => ?_, fun henough => ?_⟩ <;>
  · unfold needed at henough
    omega

theorem weaken (h : Runs 1 all enough r r') : Runs 0 all enough r r' :=
  ⟨fun a rest hr => (h.leaves a rest hr).weaken, h.lasts, h.settled⟩

theorem mono (h : Runs passed all enough r r') (henough : enough' → enough) :
    Runs passed all enough' r r' :=
  ⟨h.leaves, fun he => h.lasts (henough he), fun he => h.settled (henough he)⟩

/-- What is left of a rest is left of the whole. -/
theorem after (h : Runs more ts enough r r') (hts : Left passed all ts) :
    Runs passed all enough r r' :=
  ⟨fun a rest hr => hts.trans (h.leaves a rest hr), h.lasts, h.settled⟩

theorem bind {f f' : α × List Token → Attempt (β × List Token)} (h : Runs passed all enough r r')
    (hf : ∀ a rest, Left passed all rest → Runs more all enough (f (a, rest)) (f' (a, rest))) :
    Runs more all enough (r >>= f) (r' >>= f') := by
  refine ⟨fun b rest' heq => ?_, fun he place => ?_, fun he => ?_⟩
  · obtain ⟨⟨a, rest⟩, hr, heq⟩ := bind_eq_ok.mp heq
    exact (hf a rest (h.leaves a rest hr)).leaves b rest' heq
  · cases r with
    | error fault => exact fun heq => h.lasts he place (congrArg Except.error (Except.error.inj heq))
    | ok p => exact (hf p.1 p.2 (h.leaves _ _ rfl)).lasts he place
  · rw [h.settled he]
    cases r with
    | error fault => rfl
    | ok p => exact (hf p.1 p.2 (h.leaves _ _ rfl)).settled he

/-- Where the closing symbol comes next, nothing is read. -/
theorem bindUnless {p : Prop} [Decidable p] {a : α} {f f' : α × List Token → Attempt (β × List Token)}
    (hr : Runs passed all enough r r') (h : Left passed all ts)
    (hf : ∀ a rest, Left passed all rest → Runs more all enough (f (a, rest)) (f' (a, rest))) :
    Runs more all enough (if p then .ok (a, ts) >>= f else r >>= f)
      (if p then .ok (a, ts) >>= f' else r' >>= f') := by
  split
  · exact (ok h).bind hf
  · exact hr.bind hf

/-- A reader of a lower layer is called before a token is passed over. -/
theorem first (h : Runs passed ts (needed layer ts ≤ n) r r') (hlayer : layer < layer') :
    Runs passed ts (needed layer' ts ≤ n + 1) r r' := by
  refine h.mono fun henough => ?_
  have : layer.val < layer'.val := hlayer
  unfold needed at *
  omega

/-- A reader of any layer is called behind a token. -/
theorem later (h : Runs more rest (needed layer rest ≤ n) r r') (hrest : Left 1 ts rest) :
    Runs 1 ts (needed layer' ts ≤ n + 1) r r' := by
  refine (h.after hrest).mono fun henough => ?_
  have := hrest.length_le
  have := layer.isLt
  unfold needed at *
  omega

end Runs

/-! ### Readers without an allowance -/

section Plain

variable {enough : Prop}

theorem expect_runs (s : Symbol) (place : String) (h : HasEnd ts) :
    Runs 1 ts enough (expect s place ts) (expect s place ts) := by
  unfold expect
  split
  · exact .ok (.accepted h ‹_›)
  · exact .fail (by simp)

theorem ident_runs (h : HasEnd ts) : Runs 1 ts enough (ident ts) (ident ts) := by
  unfold ident
  split
  · exact .ok (.tail h rfl)
  · exact .fail (by simp)

theorem Left.expect (h : Left passed all ts) {s : Symbol} {place : String} :
    Runs passed all enough (Parse.expect s place ts) (Parse.expect s place ts) :=
  (expect_runs s place h.hasEnd).after h

theorem Left.ident (h : Left passed all ts) :
    Runs passed all enough (Parse.ident ts) (Parse.ident ts) :=
  (ident_runs h.hasEnd).after h

theorem identList_runs (h : HasEnd ts) : Runs 1 ts enough (identList ts) (identList ts) := by
  fun_induction identList ts with
  | case1 name pos pos' ts ih =>
    have hname := Left.tail h rfl
    have hcomma := hname.next
    exact ((ih hcomma.hasEnd).after hcomma).bind fun _ _ h => .ok h
  | case2 name pos ts => exact .ok (.tail h rfl)
  | case3 => exact .fail (by simp)

theorem generics_runs (h : HasEnd ts) : Runs 0 ts enough (generics ts) (generics ts) := by
  unfold generics
  split
  · exact .ok ((Left.refl h).accept ‹_›)
  · have h := Left.accepted h ‹_›
    exact .weaken (((identList_runs h.hasEnd).after h).bindUnless h fun _ _ h =>
      h.expect.bind fun _ _ h => .ok h)

theorem nameTail_runs (h : HasEnd ts) : Runs 0 ts enough (nameTail ts) (nameTail ts) := by
  fun_induction nameTail ts with
  | case1 pos part pos' ts ih =>
    have hcolons := Left.symbol h
    have hpart := hcolons.trans (Left.tail hcolons.hasEnd rfl)
    exact .weaken (((ih hpart.hasEnd).after hpart).bind fun _ _ h => .ok h)
  | case2 => exact .fail (by simp)
  | case3 => exact .ok (.refl h)

theorem qualifiedName_runs (h : HasEnd ts) : Runs 1 ts enough (qualifiedName ts) (qualifiedName ts) :=
  (ident_runs h).bind fun _ _ h => ((nameTail_runs h.hasEnd).after h).bind fun _ _ h => .ok h

theorem variants_runs (h : HasEnd ts) : Runs 0 ts enough (variants ts) (variants ts) := by
  fun_induction variants ts with
  | case1 name pos pos' ts ih =>
    have hname := Left.tail h rfl
    have hcomma := hname.next
    exact .weaken (((ih hcomma.hasEnd).after hcomma).bind fun _ _ h => .ok h)
  | case2 name pos pos' ts ih =>
    have hname := Left.tail h rfl
    have hsemicolon := hname.next
    exact .weaken (((ih hsemicolon.hasEnd).after hsemicolon).bind fun _ _ h => .ok h)
  | case3 name pos ts _ _ ih =>
    have hname := Left.tail h rfl
    exact .weaken (((ih hname.hasEnd).after hname).bind fun _ _ h => .ok h)
  | case4 => exact .ok (.refl h)
  | case5 => exact .fail (by simp)

theorem pattern_runs (h : HasEnd ts) : Runs 1 ts enough (pattern ts) (pattern ts) := by
  unfold pattern
  split
  · have h := Left.tail h rfl
    split
    · exact .ok h
    · split
      · exact .ok (h.accept ‹_›)
      · have h := h.accept ‹_›
        exact ((identList_runs h.hasEnd).after h).bindUnless h fun _ _ h =>
          h.expect.bind fun _ _ h => .ok h
  · exact .ok (.tail h rfl)
  · exact .ok (.symbol h)
  · exact .ok (.symbol h)
  · exact .ok (.tail h rfl)
  · exact .fail (by simp)

end Plain

/-! ### The readers

The induction is on the allowance. A reader spends one unit and calls others with the rest of it: of a
lower layer where no token was passed over yet, of any layer behind a token. -/

mutual

theorem typeExpr_runs : ∀ n {ts}, HasEnd ts →
    Runs 1 ts (needed 1 ts ≤ n) (typeExpr n ts) (typeExpr (n + 1) ts)
  | 0, _, _ => .exhausted
  | n + 1, _, h => ((typeTerm_runs n h).first (by decide)).bind fun _ _ h =>
    (unionTail_runs n _ h.hasEnd).later h

theorem unionTail_runs : ∀ n left {ts}, HasEnd ts →
    Runs 0 ts (needed 0 ts ≤ n) (unionTail n left ts) (unionTail (n + 1) left ts)
  | 0, _, _, _ => .exhausted
  | n + 1, _, _, h => by
    unfold unionTail
    split
    · exact .ok ((Left.refl h).accept ‹_›)
    · have h := Left.accepted h ‹_›
      exact .weaken (((typeTerm_runs n h.hasEnd).later h).bind fun _ _ h =>
        (unionTail_runs n _ h.hasEnd).later h)

theorem typeTerm_runs : ∀ n {ts}, HasEnd ts →
    Runs 1 ts (needed 0 ts ≤ n) (typeTerm n ts) (typeTerm (n + 1) ts)
  | 0, _, _ => .exhausted
  | n + 1, _, h => by
    unfold typeTerm
    split <;> cases ‹n + 1 = _›
    · split
      have h := (Left.symbol h).accept ‹_›
      exact ((typeTerm_runs n h.hasEnd).later h).bind fun _ _ h => .ok h
    · have h := Left.symbol h
      refine ((typeExpr_runs n h.hasEnd).later h).bind fun _ _ h => ?_
      dsimp only
      split
      · exact (h.accept ‹_›).expect.bind fun _ _ h => .ok h
      · have h := h.accept ‹_›
        exact ((expression_runs n 0 h.hasEnd).later h).bind fun _ _ h => h.expect.bind fun _ _ h =>
          ((expression_runs n 0 h.hasEnd).later h).bind fun _ _ h => h.expect.bind fun _ _ h => .ok h
    · have h := Left.symbol h
      exact ((typeList_runs n h.hasEnd).later h).bindUnless h fun _ _ h =>
        h.expect.bind fun _ _ h => .ok h
    · exact (qualifiedName_runs h).bind fun _ _ h =>
        ((typeArguments_runs n h.hasEnd).later h).bind fun _ _ h =>
        (refinement_runs n _ h.hasEnd).later h

theorem typeList_runs : ∀ n {ts}, HasEnd ts →
    Runs 1 ts (needed 2 ts ≤ n) (typeList n ts) (typeList (n + 1) ts)
  | 0, _, _ => .exhausted
  | n + 1, _, h => by
    unfold typeList
    refine ((typeExpr_runs n h).first (by decide)).bind fun _ _ h => ?_
    dsimp only
    split
    · exact .ok (h.accept ‹_›)
    · have h := h.accept ‹_›
      exact ((typeList_runs n h.hasEnd).later h).bind fun _ _ h => .ok h

theorem typeArguments_runs : ∀ n {ts}, HasEnd ts →
    Runs 0 ts (needed 0 ts ≤ n) (typeArguments n ts) (typeArguments (n + 1) ts)
  | 0, _, _ => .exhausted
  | n + 1, _, h => by
    unfold typeArguments
    split
    · split
      · have h := Left.accepted h ‹_›
        exact .weaken (((typeList_runs n h.hasEnd).later h).bind fun _ _ h =>
          h.expect.bind fun _ _ h => .ok h)
      · -- the bracket belongs to a refinement and is given back
        exact .ok (.refl h)
    · exact .ok ((Left.refl h).accept ‹_›)

theorem refinement_runs : ∀ n base {ts}, HasEnd ts →
    Runs 0 ts (needed 0 ts ≤ n) (refinement n base ts) (refinement (n + 1) base ts)
  | 0, _, _, _ => .exhausted
  | _ + 1, _, [], h => .ok (.refl h)
  | n + 1, _, t :: _, h => by
    unfold refinement
    dsimp only
    split
    · rename_i op hop
      split
      · have h := Left.tail h (refinementOp?_isEnd hop)
        exact .weaken (((expression_runs n 0 h.hasEnd).later h).bind fun _ _ h => .ok h)
      · exact .ok (.refl h)
    · exact .ok (.refl h)

theorem annotation_runs : ∀ n {ts}, HasEnd ts →
    Runs 0 ts (needed 0 ts ≤ n) ( annotation n ts) ( annotation (n + 1) ts)
  | 0, _, _ => .exhausted
  | n + 1, _, h => by
    unfold annotation
    split
    · exact .ok ((Left.refl h).accept ‹_›)
    · have h := Left.accepted h ‹_›
      exact .weaken (((typeExpr_runs n h.hasEnd).later h).bind fun _ _ h => .ok h)

theorem expression_runs : ∀ n level {ts}, HasEnd ts →
    Runs 1 ts (needed 3 ts ≤ n) (expression n level ts) (expression (n + 1) level ts)
  | 0, _, _, _ => .exhausted
  | n + 1, level, _, h => by
    unfold expression
    refine ((unary_runs n h).first (by decide)).bind fun _ _ h =>
      ((infixTail_runs n level _ h.hasEnd).later h).bind fun _ _ h => ?_
    dsimp only
    split
    · exact .ok (h.accept ‹_›)
    · exact .ok (h.accept ‹_›)

theorem infixTail_runs : ∀ n level left {ts}, HasEnd ts →
    Runs 0 ts (needed 0 ts ≤ n) (infixTail n level left ts) (infixTail (n + 1) level left ts)
  | 0, _, _, _, _ => .exhausted
  | _ + 1, _, _, [], h => .ok (.refl h)
  | n + 1, level, _, t :: _, h => by
    unfold infixTail
    dsimp only
    split
    · exact .ok (.refl h)
    · rename_i sign hsign
      split
      · exact .ok (.refl h)
      · have h := Left.tail h (ofToken?_isEnd hsign)
        split
        · exact .weaken (((pattern_runs h.hasEnd).after h).bind fun _ _ h =>
            (infixTail_runs n level _ h.hasEnd).later h)
        · exact .weaken (((expression_runs n _ h.hasEnd).later h).bind fun _ _ h =>
            (infixTail_runs n level _ h.hasEnd).later h)

theorem unary_runs : ∀ n {ts}, HasEnd ts →
    Runs 1 ts (needed 2 ts ≤ n) (unary n ts) (unary (n + 1) ts)
  | 0, _, _ => .exhausted
  | n + 1, _, h => by
    unfold unary
    split <;> cases ‹n + 1 = _›
    · have h := Left.symbol h
      exact ((unary_runs n h.hasEnd).later h).bind fun _ _ h => .ok h
    · have h := Left.symbol h
      exact ((unary_runs n h.hasEnd).later h).bind fun _ _ h => .ok h
    · split
      have h := (Left.symbol h).accept ‹_›
      exact ((unary_runs n h.hasEnd).later h).bind fun _ _ h => .ok h
    · exact (primary_runs n h).first (by decide)

theorem primary_runs : ∀ n {ts}, HasEnd ts →
    Runs 1 ts (needed 1 ts ≤ n) (primary n ts) (primary (n + 1) ts)
  | 0, _, _ => .exhausted
  | n + 1, _, h => ((atom_runs n h).first (by decide)).bind fun _ _ h =>
    (suffixes_runs n _ h.hasEnd).later h

theorem atom_runs : ∀ n {ts}, HasEnd ts →
    Runs 1 ts (needed 0 ts ≤ n) (atom n ts) (atom (n + 1) ts)
  | 0, _, _ => .exhausted
  | n + 1, _, h => by
    unfold atom
    split <;> cases ‹n + 1 = _›
    · exact .ok (.tail h rfl)
    · exact .ok (.tail h rfl)
    · exact .ok (.symbol h)
    · exact .ok (.symbol h)
    · exact .ok (.tail h rfl)
    · exact .ok (.tail h rfl)
    · have h := Left.symbol h
      exact ((expression_runs n 0 h.hasEnd).later h).bind fun _ _ h => h.expect.bind fun _ _ h => .ok h
    · have h := Left.symbol h
      exact ((block_runs n _ h.hasEnd).later h).bind fun _ _ h => .ok h
    · refine (Left.symbol h).expect.bind fun _ _ h =>
        ((expression_runs n 0 h.hasEnd).later h).bind fun _ _ h => h.expect.bind fun _ _ h =>
        ((branch_runs n h.hasEnd).later h).bind fun _ _ h => ?_
      dsimp only
      split
      · exact .ok (h.accept ‹_›)
      · have h := h.accept ‹_›
        exact ((branch_runs n h.hasEnd).later h).bind fun _ _ h => .ok h
    · exact (Left.symbol h).expect.bind fun _ _ h =>
        ((expression_runs n 0 h.hasEnd).later h).bind fun _ _ h => h.expect.bind fun _ _ h =>
        h.expect.bind fun _ _ h => ((matchCases_runs n h.hasEnd).later h).bind fun _ _ h =>
        h.expect.bind fun _ _ h => .ok h
    · have h := Left.tail h rfl
      split
      · exact .ok (h.accept ‹_›)
      · have h := h.accept ‹_›
        exact ((fieldInits_runs n h.hasEnd).later h).bindUnless h fun _ _ h =>
          h.expect.bind fun _ _ h => .ok h
    · exact .fail (by simp)

theorem branch_runs : ∀ n {ts}, HasEnd ts →
    Runs 1 ts (needed 4 ts ≤ n) (branch n ts) (branch (n + 1) ts)
  | 0, _, _ => .exhausted
  | n + 1, _, h => by
    unfold branch
    split <;> cases ‹n + 1 = _›
    · have h := Left.symbol h
      exact ((block_runs n _ h.hasEnd).later h).bind fun _ _ h => .ok h
    · exact (expression_runs n 0 h).first (by decide)

theorem matchCases_runs : ∀ n {ts}, HasEnd ts →
    Runs 0 ts (needed 0 ts ≤ n) (matchCases n ts) (matchCases (n + 1) ts)
  | 0, _, _ => .exhausted
  | n + 1, _, h => by
    unfold matchCases
    split <;> cases ‹n + 1 = _›
    · have h := Left.symbol h
      exact .weaken (((pattern_runs h.hasEnd).after h).bind fun _ _ h => h.expect.bind fun _ _ h =>
        ((branch_runs n h.hasEnd).later h).bind fun _ _ h => h.expect.bind fun _ _ h =>
        ((matchCases_runs n h.hasEnd).later h).bind fun _ _ h => .ok h)
    · split
      · exact .ok (.refl h)
      · exact .fail (by simp)

theorem fieldInits_runs : ∀ n {ts}, HasEnd ts →
    Runs 1 ts (needed 0 ts ≤ n) (fieldInits n ts) (fieldInits (n + 1) ts)
  | 0, _, _ => .exhausted
  | n + 1, _, h => by
    unfold fieldInits
    refine (ident_runs h).bind fun _ _ h => h.expect.bind fun _ _ h =>
      ((expression_runs n 0 h.hasEnd).later h).bind fun _ _ h => ?_
    dsimp only
    split
    · exact .ok (h.accept ‹_›)
    · have h := h.accept ‹_›
      split
      · exact .ok h
      · exact ((fieldInits_runs n h.hasEnd).later h).bind fun _ _ h => .ok h

theorem suffixes_runs : ∀ n base {ts}, HasEnd ts →
    Runs 0 ts (needed 0 ts ≤ n) (suffixes n base ts) (suffixes (n + 1) base ts)
  | 0, _, _, _ => .exhausted
  | n + 1, _, _, h => by
    unfold suffixes
    split <;> cases ‹n + 1 = _›
    · have h := Left.symbol h
      exact .weaken (((arguments_runs n h.hasEnd).later h).bindUnless h fun _ _ h =>
        h.expect.bind fun _ _ h => (suffixes_runs n _ h.hasEnd).later h)
    · exact .weaken ((Left.symbol h).ident.bind fun _ _ h => (suffixes_runs n _ h.hasEnd).later h)
    · have h := Left.symbol h
      exact .weaken (((expression_runs n 0 h.hasEnd).later h).bind fun _ _ h =>
        h.expect.bind fun _ _ h => (suffixes_runs n _ h.hasEnd).later h)
    · exact .ok (.refl h)

theorem arguments_runs : ∀ n {ts}, HasEnd ts →
    Runs 1 ts (needed 4 ts ≤ n) (arguments n ts) (arguments (n + 1) ts)
  | 0, _, _ => .exhausted
  | n + 1, _, h => by
    unfold arguments
    refine ((expression_runs n 0 h).first (by decide)).bind fun _ _ h => ?_
    dsimp only
    split
    · exact .ok (h.accept ‹_›)
    · have h := h.accept ‹_›
      exact ((arguments_runs n h.hasEnd).later h).bind fun _ _ h => .ok h

theorem block_runs : ∀ n opening {ts}, HasEnd ts →
    Runs 0 ts (needed 7 ts ≤ n) (block n opening ts) (block (n + 1) opening ts)
  | 0, _, _, _ => .exhausted
  | n + 1, _, _, h => ((statements_runs n h).first (by decide)).bind fun _ _ h =>
    h.expect.bind fun _ _ h => .ok h

theorem requiredBlock_runs : ∀ n {ts}, HasEnd ts →
    Runs 1 ts (needed 0 ts ≤ n) (requiredBlock n ts) (requiredBlock (n + 1) ts)
  | 0, _, _ => .exhausted
  | n + 1, _, h => by
    unfold requiredBlock
    split <;> cases ‹n + 1 = _›
    · have h := Left.symbol h
      exact (block_runs n _ h.hasEnd).later h
    · exact .fail (by simp)

theorem statements_runs : ∀ n {ts}, HasEnd ts →
    Runs 0 ts (needed 6 ts ≤ n) (statements n ts) (statements (n + 1) ts)
  | 0, _, _ => .exhausted
  | n + 1, _, h => by
    unfold statements
    split
    · exact .ok (.refl h)
    · exact .weaken (((statement_runs n h).first (by decide)).bind fun _ _ h =>
        ((statements_runs n h.hasEnd).later h).bind fun _ _ h => .ok h)

theorem statement_runs : ∀ n {ts}, HasEnd ts →
    Runs 1 ts (needed 5 ts ≤ n) (statement n ts) (statement (n + 1) ts)
  | 0, _, _ => .exhausted
  | n + 1, _, h => by
    unfold statement
    split <;> cases ‹n + 1 = _›
    · have h := (Left.symbol h).next
      exact (fnDecl_runs n true _ h.hasEnd).later h
    · have h := (Left.symbol h).next
      exact (structDecl_runs n true _ h.hasEnd).later h
    · have h := (Left.symbol h).next
      exact (enumDecl_runs n true _ h.hasEnd).later h
    · have h := (Left.symbol h).next
      exact (typeAlias_runs n true _ h.hasEnd).later h
    · exact .fail (by simp)
    · exact (Left.symbol h).ident.bind fun _ _ h =>
        ((annotation_runs n h.hasEnd).later h).bind fun _ _ h => h.expect.bind fun _ _ h =>
        ((expression_runs n 0 h.hasEnd).later h).bind fun _ _ h => h.expect.bind fun _ _ h => .ok h
    · exact (structDecl_runs n false _ (Left.symbol h).hasEnd).later (Left.symbol h)
    · exact (enumDecl_runs n false _ (Left.symbol h).hasEnd).later (Left.symbol h)
    · exact (typeAlias_runs n false _ (Left.symbol h).hasEnd).later (Left.symbol h)
    · exact (fnDecl_runs n false _ (Left.symbol h).hasEnd).later (Left.symbol h)
    · exact (foreignItem_runs n _ (Left.symbol h).hasEnd).later (Left.symbol h)
    · have h := Left.symbol h
      dsimp only
      split
      · exact h.expect.bind fun _ _ h => .ok h
      · exact ((expression_runs n 0 h.hasEnd).later h).bind fun _ _ h =>
          h.expect.bind fun _ _ h => .ok h
    · -- the keyword is left for the operand, so it has not been passed over yet
      refine ((primary_runs n h).first (by decide)).bind fun _ _ h => ?_
      dsimp only
      split
      · exact .ok h
      · exact h.expect.bind fun _ _ h => .ok h
    · exact (Left.symbol h).expect.bind fun _ _ h =>
        ((expression_runs n 0 h.hasEnd).later h).bind fun _ _ h => h.expect.bind fun _ _ h =>
        ((requiredBlock_runs n h.hasEnd).later h).bind fun _ _ h => .ok h
    · exact (Left.symbol h).expect.bind fun _ _ h => h.ident.bind fun _ _ h =>
        h.expect.bind fun _ _ h => ((expression_runs n 0 h.hasEnd).later h).bind fun _ _ h =>
        h.expect.bind fun _ _ h => ((expression_runs n 0 h.hasEnd).later h).bind fun _ _ h =>
        h.expect.bind fun _ _ h => ((requiredBlock_runs n h.hasEnd).later h).bind fun _ _ h => .ok h
    · exact (Left.symbol h).expect.bind fun _ _ h => .ok h
    · exact (Left.symbol h).expect.bind fun _ _ h => .ok h
    · have h := Left.symbol h
      exact ((block_runs n _ h.hasEnd).later h).bind fun _ _ h => .ok h
    · exact (expressionStatement_runs n h).first (by decide)

theorem expressionStatement_runs : ∀ n {ts}, HasEnd ts →
    Runs 1 ts (needed 4 ts ≤ n) (expressionStatement n ts) (expressionStatement (n + 1) ts)
  | 0, _, _ => .exhausted
  | n + 1, _, h => by
    unfold expressionStatement
    refine ((expression_runs n 0 h).first (by decide)).bind fun _ _ h => ?_
    dsimp only
    split
    · have h := h.accept ‹_›
      exact ((expression_runs n 0 h.hasEnd).later h).bind fun _ _ h => h.expect.bind fun _ _ h => .ok h
    · have h := h.accept ‹_›
      split
      · exact .ok (h.accept ‹_›)
      · split
        · exact .ok (h.accept ‹_›)
        · exact .fail (by simp)

theorem fnDecl_runs : ∀ n exported pos {ts}, HasEnd ts →
    Runs 1 ts (needed 1 ts ≤ n) (fnDecl n exported pos ts) (fnDecl (n + 1) exported pos ts)
  | 0, _, _, _, _ => .exhausted
  | n + 1, _, _, _, h => ((signature_runs n _ h).first (by decide)).bind fun _ _ h =>
    h.expect.bind fun _ _ h => ((fnBody_runs n h.hasEnd).later h).bind fun _ _ h => .ok h

theorem signature_runs : ∀ n pos {ts}, HasEnd ts →
    Runs 1 ts (needed 0 ts ≤ n) (signature n pos ts) (signature (n + 1) pos ts)
  | 0, _, _, _ => .exhausted
  | n + 1, _, _, h => by
    unfold signature
    refine (ident_runs h).bind fun _ _ h => ((generics_runs h.hasEnd).after h).bind fun _ _ h =>
      h.expect.bind fun _ _ h => ?_
    exact ((params_runs n h.hasEnd).later h).bindUnless h fun _ _ h => h.expect.bind fun _ _ h =>
      ((annotation_runs n h.hasEnd).later h).bind fun _ _ h => .ok h

theorem fnBody_runs : ∀ n {ts}, HasEnd ts →
    Runs 1 ts (needed 4 ts ≤ n) (fnBody n ts) (fnBody (n + 1) ts)
  | 0, _, _ => .exhausted
  | n + 1, _, h => by
    unfold fnBody
    split <;> cases ‹n + 1 = _›
    · have h := Left.symbol h
      exact ((block_runs n _ h.hasEnd).later h).bind fun _ _ h => .ok (h.accept rfl)
    · refine ((expression_runs n 0 h).first (by decide)).bind fun _ _ h => ?_
      dsimp only
      split
      · exact .ok h
      · exact h.expect.bind fun _ _ h => .ok h

theorem params_runs : ∀ n {ts}, HasEnd ts →
    Runs 1 ts (needed 0 ts ≤ n) (params n ts) (params (n + 1) ts)
  | 0, _, _ => .exhausted
  | n + 1, _, h => by
    unfold params
    refine (ident_runs h).bind fun _ _ h =>
      ((annotation_runs n h.hasEnd).later h).bind fun _ _ h => ?_
    dsimp only
    split
    · exact .ok (h.accept ‹_›)
    · have h := h.accept ‹_›
      exact ((params_runs n h.hasEnd).later h).bind fun _ _ h => .ok h

theorem structDecl_runs : ∀ n exported pos {ts}, HasEnd ts →
    Runs 1 ts (needed 0 ts ≤ n) (structDecl n exported pos ts) (structDecl (n + 1) exported pos ts)
  | 0, _, _, _, _ => .exhausted
  | n + 1, _, _, _, h => (ident_runs h).bind fun _ _ h =>
    ((generics_runs h.hasEnd).after h).bind fun _ _ h => h.expect.bind fun _ _ h =>
    ((fieldDecls_runs n h.hasEnd).later h).bind fun _ _ h => h.expect.bind fun _ _ h => .ok h

theorem fieldDecls_runs : ∀ n {ts}, HasEnd ts →
    Runs 0 ts (needed 0 ts ≤ n) (fieldDecls n ts) (fieldDecls (n + 1) ts)
  | 0, _, _ => .exhausted
  | n + 1, _, h => by
    unfold fieldDecls
    split
    · exact .ok (.refl h)
    · refine .weaken ((ident_runs h).bind fun _ _ h => h.expect.bind fun _ _ h =>
        ((typeExpr_runs n h.hasEnd).later h).bind fun _ _ h => ?_)
      dsimp only
      split
      · have h := h.accept ‹_›
        exact ((fieldDecls_runs n h.hasEnd).later h).bind fun _ _ h => .ok h
      · have h := (h.accept ‹_›).accept (s := .semicolon) rfl
        exact ((fieldDecls_runs n h.hasEnd).later h).bind fun _ _ h => .ok h

theorem enumDecl_runs : ∀ n exported pos {ts}, HasEnd ts →
    Runs 1 ts (needed 0 ts ≤ n) (enumDecl n exported pos ts) (enumDecl (n + 1) exported pos ts)
  | 0, _, _, _, _ => .exhausted
  | _ + 1, _, _, _, h => (ident_runs h).bind fun _ _ h => h.expect.bind fun _ _ h =>
    ((variants_runs h.hasEnd).after h).bind fun _ _ h => h.expect.bind fun _ _ h => .ok h

theorem typeAlias_runs : ∀ n exported pos {ts}, HasEnd ts →
    Runs 1 ts (needed 0 ts ≤ n) (typeAlias n exported pos ts) (typeAlias (n + 1) exported pos ts)
  | 0, _, _, _, _ => .exhausted
  | n + 1, _, _, _, h => (ident_runs h).bind fun _ _ h =>
    ((generics_runs h.hasEnd).after h).bind fun _ _ h => h.expect.bind fun _ _ h =>
    ((typeExpr_runs n h.hasEnd).later h).bind fun _ _ h => h.expect.bind fun _ _ h => .ok h

theorem foreignItem_runs : ∀ n pos {ts}, HasEnd ts →
    Runs 1 ts (needed 0 ts ≤ n) (foreignItem n pos ts) (foreignItem (n + 1) pos ts)
  | 0, _, _, _ => .exhausted
  | n + 1, _, _, h => by
    unfold foreignItem
    split <;> cases ‹n + 1 = _›
    · have h := Left.symbol h
      exact ((signature_runs n _ h.hasEnd).later h).bind fun _ _ h => h.expect.bind fun _ _ h => .ok h
    · exact (Left.symbol h).ident.bind fun _ _ h => h.expect.bind fun _ _ h =>
        ((typeExpr_runs n h.hasEnd).later h).bind fun _ _ h => h.expect.bind fun _ _ h => .ok h
    · exact (Left.symbol h).ident.bind fun _ _ h =>
        ((generics_runs h.hasEnd).after h).bind fun _ _ h => h.expect.bind fun _ _ h => .ok h
    · exact .fail (by simp)

end

end Parse

end TuffSafety
