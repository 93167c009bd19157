import TuffSafety.Scope

/-!
# Elementary laws

An attempt that succeeds did so in every part, and one that fails did so in one of them. Ordered
maps, facts and scopes are read through `get?` only: for each operation on them the equations below
say what every name is found to mean afterwards. A scope also says which names its innermost frame
owns and which outer ones it has reassigned.
-/
namespace TuffSafety

theorem bind_eq_ok {ε α β : Type} {x : Except ε α} {f : α → Except ε β} {b : β} :
    (x >>= f) = .ok b ↔ ∃ a, x = .ok a ∧ f a = .ok b := by
  cases x with
  | error e =>
    constructor
    · intro h
      cases h
    · rintro ⟨a, ha, _⟩
      cases ha
  | ok a =>
    constructor
    · intro h
      exact ⟨a, rfl, h⟩
    · rintro ⟨a, ha, h⟩
      cases ha
      exact h

theorem bind_eq_error {ε α β : Type} {x : Except ε α} {f : α → Except ε β} {e : ε} :
    (x >>= f) = .error e ↔ x = .error e ∨ ∃ a, x = .ok a ∧ f a = .error e := by
  cases x with
  | error e' =>
    constructor
    · intro h
      cases h
      exact .inl rfl
    · rintro (h | ⟨a, ha, _⟩)
      · cases h
        rfl
      · cases ha
  | ok a =>
    constructor
    · intro h
      exact .inr ⟨a, rfl, h⟩
    · rintro (h | ⟨a, ha, h⟩)
      · cases h
      · cases ha
        exact h

theorem mem_addNew {x y : String} {xs : List String} : y ∈ addNew x xs ↔ y = x ∨ y ∈ xs := by
  unfold addNew
  split
  · rename_i hx
    constructor
    · exact Or.inr
    · rintro (rfl | hy)
      · exact hx
      · exact hy
  · rw [List.mem_append, List.mem_singleton, or_comm]

namespace OrderedMap

variable {β : Type}

theorem lookup_cons_of_ne {key k : String} (h : key ≠ k) (v : β) (rest : List (String × β)) :
    ((k, v) :: rest).lookup key = rest.lookup key := by
  rw [List.lookup_cons, beq_false_of_ne h]

theorem lookup_putEntry (f : Option β → β) (name key : String) (l : List (String × β)) :
    (putEntry f name l).lookup key =
      if key = name then some (f (l.lookup name)) else l.lookup key := by
  induction l with
  | nil =>
    by_cases h : key = name
    · simp [putEntry, h]
    · rw [putEntry, lookup_cons_of_ne h, if_neg h]
  | cons e rest ih =>
    obtain ⟨k, v⟩ := e
    by_cases hk : k = name
    · subst hk
      by_cases h : key = k
      · simp [putEntry, h]
      · rw [putEntry, if_pos rfl, lookup_cons_of_ne h, lookup_cons_of_ne h, if_neg h]
    · rw [putEntry, if_neg hk, lookup_cons_of_ne (fun e => hk e.symm)]
      by_cases h : key = k
      · subst h
        simp [hk]
      · rw [lookup_cons_of_ne h, lookup_cons_of_ne h, ih]

@[simp] theorem get?_empty (key : String) : (empty : OrderedMap β).get? key = none := rfl

/-- Names are distinct, so every entry is the one that is found. -/
theorem get?_of_mem {m : OrderedMap β} {key : String} {value : β} (h : (key, value) ∈ m.entries) :
    m.get? key = some value := by
  obtain ⟨entries, distinct⟩ := m
  change entries.lookup key = some value
  induction entries with
  | nil => cases h
  | cons e rest ih =>
    obtain ⟨k, v⟩ := e
    rw [List.map_cons, List.nodup_cons] at distinct
    rcases List.mem_cons.mp h with he | hr
    · cases he
      rw [List.lookup_cons_self]
    · have hne : key ≠ k := by
        rintro rfl
        exact distinct.1 (List.mem_map.mpr ⟨_, hr, rfl⟩)
      rw [lookup_cons_of_ne hne]
      exact ih distinct.2 hr

theorem get?_alter (m : OrderedMap β) (name key : String) (f : Option β → β) :
    (m.alter name f).get? key = if key = name then some (f (m.get? name)) else m.get? key :=
  lookup_putEntry f name key m.entries

theorem get?_insert (m : OrderedMap β) (name key : String) (value : β) :
    (m.insert name value).get? key = if key = name then some value else m.get? key :=
  get?_alter m name key fun _ => value

theorem lookup_filter_ne (name key : String) (l : List (String × β)) :
    (l.filter fun e => e.1 != name).lookup key = if key = name then none else l.lookup key := by
  induction l with
  | nil => simp
  | cons e rest ih =>
    obtain ⟨k, v⟩ := e
    by_cases hk : k = name
    · subst hk
      rw [List.filter_cons_of_neg (by simp), ih]
      by_cases h : key = k
      · rw [if_pos h, if_pos h]
      · rw [if_neg h, if_neg h, lookup_cons_of_ne h]
    · rw [List.filter_cons_of_pos (by simpa using hk)]
      by_cases h : key = k
      · subst h
        simp [hk]
      · rw [lookup_cons_of_ne h, lookup_cons_of_ne h, ih]

theorem get?_erase (m : OrderedMap β) (name key : String) :
    (m.erase name).get? key = if key = name then none else m.get? key :=
  lookup_filter_ne name key m.entries

end OrderedMap

namespace Facts

theorem get?_add (facts : Facts) (name key : String) (patch : Patch) :
    (facts.add name patch).get? key =
      if key = name then some (((facts.get? name).getD Patch.empty).overlay patch)
      else facts.get? key :=
  OrderedMap.get?_alter facts name key _

/-- What the facts say about a name; nothing, when there is no fact. -/
def about (facts : Facts) (name : String) : Patch :=
  (facts.get? name).getD .empty

theorem about_of_none {facts : Facts} {name : String} (h : facts.get? name = none) :
    facts.about name = .empty := by
  unfold about
  rw [h]
  rfl

theorem about_of_some {facts : Facts} {name : String} {p : Patch} (h : facts.get? name = some p) :
    facts.about name = p := by
  unfold about
  rw [h]
  rfl

theorem get?_addAll (facts : Facts) {patches : List (String × Patch)}
    (hdistinct : (patches.map Prod.fst).Nodup) (key : String) :
    (facts.addAll patches).get? key =
      ((patches.lookup key).map (facts.about key).overlay).or (facts.get? key) := by
  unfold addAll
  induction patches generalizing facts with
  | nil => rfl
  | cons e rest ih =>
    obtain ⟨name, patch⟩ := e
    rw [List.map_cons, List.nodup_cons] at hdistinct
    rw [List.foldl_cons, ih _ hdistinct.2]
    unfold about
    rw [get?_add]
    by_cases hkey : key = name
    · subst hkey
      have hrest : rest.lookup key = none := by
        rw [List.lookup_eq_none_iff]
        intro e he
        rw [bne_iff_ne]
        rintro rfl
        exact hdistinct.1 (List.mem_map.mpr ⟨_, he, rfl⟩)
      rw [if_pos rfl, hrest, List.lookup_cons_self]
      rfl
    · rw [if_neg hkey, OrderedMap.lookup_cons_of_ne hkey]

/-- Newer facts are laid over older ones name by name. -/
theorem get?_merge (facts newer : Facts) (key : String) :
    (facts.merge newer).get? key =
      ((newer.get? key).map (facts.about key).overlay).or (facts.get? key) :=
  get?_addAll facts newer.distinct key

theorem get?_forget (facts : Facts) (name key : String) :
    (facts.forget name).get? key = if key = name then none else facts.get? key :=
  OrderedMap.get?_erase facts name key

theorem get?_forgetAll (facts : Facts) (names : List String) (key : String) :
    (facts.forgetAll names).get? key = if key ∈ names then none else facts.get? key := by
  unfold forgetAll
  induction names generalizing facts with
  | nil => simp
  | cons name rest ih =>
    rw [List.foldl_cons, ih, get?_forget]
    by_cases hr : key ∈ rest
    · simp [hr]
    · by_cases hn : key = name <;> simp [hr, hn]

/-- A property of patches that they keep when they are laid over each other. -/
structure Cumulative (Q : String → Patch → Prop) : Prop where
  empty : ∀ name, Q name .empty
  overlay : ∀ {name p q}, Q name p → Q name q → Q name (p.overlay q)

namespace Cumulative

variable {Q : String → Patch → Prop} {facts : Facts}

theorem addAll (hQ : Cumulative Q) {patches : List (String × Patch)}
    (h : ∀ name p, facts.get? name = some p → Q name p) (hp : ∀ e ∈ patches, Q e.1 e.2) :
    ∀ name p, (facts.addAll patches).get? name = some p → Q name p := by
  unfold Facts.addAll
  induction patches generalizing facts with
  | nil => exact h
  | cons e rest ih =>
    rw [List.foldl_cons]
    refine ih ?_ fun e' he => hp e' (List.mem_cons_of_mem _ he)
    intro name p hget
    rw [get?_add] at hget
    split at hget
    · rename_i hname
      subst hname
      cases hget
      refine hQ.overlay ?_ (hp e (List.mem_cons_self ..))
      cases hf : facts.get? e.1 with
      | none => exact hQ.empty e.1
      | some q => exact h e.1 q hf
    · exact h name p hget

theorem merge (hQ : Cumulative Q) {newer : Facts}
    (h : ∀ name p, facts.get? name = some p → Q name p)
    (hn : ∀ name p, newer.get? name = some p → Q name p) :
    ∀ name p, (facts.merge newer).get? name = some p → Q name p :=
  hQ.addAll h fun e he => hn e.1 e.2 (OrderedMap.get?_of_mem he)

end Cumulative

/-- All that a comparison that holds tells: what it says about a name compared with a number, and that a
name compared with the null literal is a pointer that is not null. -/
theorem mem_ofComparison {left right : Expr} {op : BinaryOp} {e : String × Patch}
    (he : e ∈ ofComparison left op right) :
    (∃ loc m, left = .ident e.1 loc ∧ right.intLiteral? = some m ∧
        Patch.ofComparison? op m = some e.2) ∨
      e.2 = .notNull ∧ op = .ne ∧ ((∃ loc, left = .ident e.1 loc) ∧ right.isNullLiteral = true ∨
        left.isNullLiteral = true ∧ ∃ loc, right = .ident e.1 loc) := by
  unfold ofComparison at he
  split at he
  · rename_i name loc
    split at he
    · rename_i patch hp
      obtain ⟨m, hm, hp⟩ := Option.bind_eq_some_iff.mp hp
      split at he
      · rename_i hnull
        rw [List.mem_cons, List.mem_singleton] at he
        rcases he with rfl | rfl
        · exact .inl ⟨loc, m, rfl, hm, hp⟩
        · exact .inr ⟨rfl, hnull.1, .inl ⟨⟨loc, rfl⟩, hnull.2⟩⟩
      · rw [List.mem_singleton] at he
        subst he
        exact .inl ⟨loc, m, rfl, hm, hp⟩
    · cases he
  · rename_i name loc _
    split at he
    · rename_i hnull
      rw [List.mem_singleton] at he
      subst he
      exact .inr ⟨rfl, hnull.1, .inr ⟨hnull.2, loc, rfl⟩⟩
    · cases he
  · cases he

/-- What a condition tells is told by its comparisons: those of a conjunction that holds, those of a
disjunction that fails, and a comparison that fails read as the opposite one. -/
theorem learned_forall {R : Expr → Bool → Prop} {Q : String → Patch → Prop}
    (hand : ∀ {l r loc}, R (.binary .and l r loc) true → R l true ∧ R r true)
    (hor : ∀ {l r loc}, R (.binary .or l r loc) false → R l false ∧ R r false)
    (hholds : ∀ {op l r loc}, op ≠ .and → op ≠ .or → R (.binary op l r loc) true →
      ∀ e ∈ ofComparison l op r, Q e.1 e.2)
    (hfails : ∀ {op op' l r loc}, op ≠ .and → op ≠ .or → op.negated? = some op' →
      R (.binary op l r loc) false → ∀ e ∈ ofComparison l op' r, Q e.1 e.2)
    (cond : Expr) (truth : Bool) (h : R cond truth) : ∀ e ∈ learned cond truth, Q e.1 e.2 := by
  fun_induction learned cond truth with
  | case1 left right loc ihl ihr =>
    obtain ⟨hl, hr⟩ := hand h
    exact List.forall_mem_append.mpr ⟨ihl hl, ihr hr⟩
  | case2 | case3 | case7 | case8 =>
    intro e he
    cases he
  | case4 left right loc truth ht ihl ihr =>
    rw [Bool.not_eq_true] at ht
    subst ht
    obtain ⟨hl, hr⟩ := hor h
    exact List.forall_mem_append.mpr ⟨ihl hl, ihr hr⟩
  | case5 op left right loc hnand hnor => exact hholds hnand hnor h
  | case6 op left right loc hnand hnor op' hop => exact hfails hnand hnor hop h

end Facts

namespace Scope

/-- The names declared in the innermost frame. -/
def locals (s : Scope) : List String :=
  match s.frames with
  | [] => []
  | f :: _ => f.locals

/-- A change of the innermost frame shows through where the frame answers, and leaves the rest. -/
theorem get?_modifyHead (s : Scope) (change : Frame → Frame) (name key : String) (b : Binding)
    (h : ∀ f : Frame, (change f).bindings = f.bindings.insert name b) :
    (s.modifyHead change).get? key = if key = name then some b else s.get? key := by
  obtain ⟨frames⟩ := s
  cases frames with
  | nil =>
    change List.findSome? _ [change {}] = _
    rw [List.findSome?_cons, h, OrderedMap.get?_insert]
    by_cases hk : key = name
    · simp [hk]
    · simp [hk, get?]
  | cons f fs =>
    change List.findSome? _ (change f :: fs) = _
    rw [List.findSome?_cons, h, OrderedMap.get?_insert]
    by_cases hk : key = name
    · simp [hk]
    · simp [hk, get?, List.findSome?_cons]

theorem get?_declare (s : Scope) (name key : String) (b : Binding) :
    (s.declare name b).get? key = if key = name then some b else s.get? key :=
  get?_modifyHead s _ name key b fun _ => rfl

theorem assigned_declare (s : Scope) (name : String) (b : Binding) :
    (s.declare name b).assigned = s.assigned := by
  unfold declare modifyHead assigned
  cases s.frames <;> rfl

theorem mem_locals_declare (s : Scope) (name key : String) (b : Binding) :
    key ∈ (s.declare name b).locals ↔ key = name ∨ key ∈ s.locals := by
  obtain ⟨frames⟩ := s
  cases frames with
  | nil => exact @mem_addNew name key []
  | cons f fs => exact mem_addNew

theorem get?_update (s : Scope) (name key : String) (t : TypeInfo) :
    (s.update name t).get? key =
      if key = name then (s.get? name).map fun b => ⟨b.declared, t⟩ else s.get? key := by
  unfold update
  cases hb : s.get? name with
  | none => by_cases h : key = name <;> simp [h, hb]
  | some b => exact get?_modifyHead s _ name key ⟨b.declared, t⟩ fun _ => rfl

theorem locals_update (s : Scope) (name : String) (t : TypeInfo) :
    (s.update name t).locals = s.locals := by
  unfold update modifyHead locals
  cases s.get? name with
  | none => rfl
  | some b => cases s.frames <;> rfl

theorem mem_assigned_update (s : Scope) (name key : String) (t : TypeInfo) :
    key ∈ (s.update name t).assigned ↔
      key ∈ s.assigned ∨ (key = name ∧ (s.get? name).isSome ∧ name ∉ s.locals) := by
  unfold update modifyHead assigned locals
  cases hb : s.get? name with
  | none => simp
  | some b =>
    cases s.frames with
    | nil => simp [Frame.update, mem_addNew]
    | cons f fs =>
      by_cases hl : name ∈ f.locals
      · simp [Frame.update, hl]
      · simp [Frame.update, hl, mem_addNew, or_comm]

theorem get?_widen (s : Scope) (name key : String) :
    (s.widen name).get? key =
      if key = name then (s.get? name).map fun b => .fixed b.declared else s.get? key := by
  unfold widen
  cases hb : s.get? name with
  | none => by_cases h : key = name <;> simp [h, hb]
  | some b =>
    rw [get?_update, hb]
    rfl

theorem locals_widen (s : Scope) (name : String) : (s.widen name).locals = s.locals := by
  unfold widen
  cases s.get? name with
  | none => rfl
  | some b => exact locals_update s name b.declared

theorem mem_assigned_widen (s : Scope) (name key : String) :
    key ∈ (s.widen name).assigned ↔
      key ∈ s.assigned ∨ (key = name ∧ (s.get? name).isSome ∧ name ∉ s.locals) := by
  unfold widen
  cases hb : s.get? name with
  | none => simp
  | some b =>
    rw [mem_assigned_update, hb]

/-- Widening reaches exactly the names it is given, and never changes what was declared. -/
theorem get?_widenAll (s : Scope) (names : List String) (key : String) :
    (s.widenAll names).get? key =
      if key ∈ names then (s.get? key).map fun b => .fixed b.declared else s.get? key := by
  unfold widenAll
  induction names generalizing s with
  | nil => simp
  | cons name rest ih =>
    rw [List.foldl_cons, ih, get?_widen]
    by_cases hn : key = name
    · subst hn
      by_cases hr : key ∈ rest
      · cases s.get? key <;> simp [hr, Binding.fixed]
      · simp [hr]
    · by_cases hr : key ∈ rest <;> simp [hn, hr]

theorem locals_widenAll (s : Scope) (names : List String) :
    (s.widenAll names).locals = s.locals := by
  unfold widenAll
  induction names generalizing s with
  | nil => rfl
  | cons name rest ih => rw [List.foldl_cons, ih, locals_widen]

theorem mem_assigned_widenAll (s : Scope) (names : List String) (key : String) :
    key ∈ (s.widenAll names).assigned ↔
      key ∈ s.assigned ∨ (key ∈ names ∧ (s.get? key).isSome ∧ key ∉ s.locals) := by
  unfold widenAll
  induction names generalizing s with
  | nil => simp
  | cons name rest ih =>
    have hvisible : ((s.widen name).get? key).isSome = (s.get? key).isSome := by
      rw [get?_widen]
      by_cases hn : key = name
      · simp [hn]
      · simp [hn]
    rw [List.foldl_cons, ih, mem_assigned_widen, locals_widen, hvisible, List.mem_cons]
    grind

end Scope

end TuffSafety
