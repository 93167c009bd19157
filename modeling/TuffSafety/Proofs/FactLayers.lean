import TuffSafety.Proofs.Narrowing

/-!
# Layers of facts

An ordered map is determined by its names, in their order, and by what each of them is found to mean.
Facts laid over others keep the names of the older ones in front, and override them field by field; this
is associative, and no facts at all change nothing on either side. So guards may be nested in any way:
the facts of a conjunction that holds are those of its operands learned one after the other.
-/
namespace TuffSafety

namespace OrderedMap

variable {β : Type} {m m' : OrderedMap β} {name : String}

theorem keys_alter (m : OrderedMap β) (name : String) (f : Option β → β) :
    (m.alter name f).keys = addNew name m.keys :=
  keys_putEntry f name m.entries

/-- The entries are the names with what they are found to mean. -/
theorem map_some_entries (m : OrderedMap β) :
    m.entries.map some = m.keys.map fun name => (m.get? name).map fun value => (name, value) := by
  rw [keys, List.map_map]
  refine List.map_congr_left fun e he => ?_
  rw [Function.comp_apply, get?_of_mem he]
  rfl

theorem eq_of_get? (hkeys : m.keys = m'.keys) (hget : ∀ name, m.get? name = m'.get? name) :
    m = m' := by
  have hentries : m.entries = m'.entries := by
    rw [← List.map_inj_right fun _ _ => Option.some.inj, map_some_entries m, map_some_entries m',
      hkeys, funext hget]
  cases m
  cases m'
  cases hentries
  rfl

theorem erase_of_get?_eq_none (h : m.get? name = none) : m.erase name = m := by
  have hkept : m.entries.filter (fun e => e.1 != name) = m.entries := by
    rw [List.filter_eq_self]
    intro e he
    rw [bne_comm]
    exact List.lookup_eq_none_iff.mp h e he
  cases m
  simp only [erase, hkept]

/-- Erasing takes out one entry and leaves what stands before and behind it. -/
theorem erase_of_get?_eq_some {value : β} (h : m.get? name = some value) :
    ∃ before after, m.entries = before ++ (name, value) :: after ∧
      (m.erase name).entries = before ++ after := by
  obtain ⟨before, after, hentries, hbefore⟩ := List.lookup_eq_some_iff.mp h
  have hafter : ∀ e ∈ after, (e.1 != name) = true := by
    have hdistinct := m.distinct
    rw [hentries, List.map_append, List.map_cons] at hdistinct
    have hname := (List.nodup_cons.mp (List.nodup_append.mp hdistinct).2.1).1
    intro e he
    rw [bne_iff_ne]
    intro heq
    exact hname (List.mem_map.mpr ⟨e, he, heq⟩)
  refine ⟨before, after, hentries, ?_⟩
  have hfilter : (m.erase name).entries = m.entries.filter fun e => e.1 != name := rfl
  rw [hfilter, hentries, List.filter_append, List.filter_cons_of_neg (by simp),
    List.filter_eq_self.mpr hafter, List.filter_eq_self.mpr]
  intro e he
  rw [bne_comm]
  exact hbefore e he

end OrderedMap

namespace Patch

theorem overlay_assoc (p q r : Patch) : (p.overlay q).overlay r = p.overlay (q.overlay r) := by
  simp only [overlay, Option.orElse_eq_orElse, Option.orElse_eq_or, Option.or_assoc, Bool.or_assoc]

@[simp] theorem empty_overlay (p : Patch) : empty.overlay p = p := by
  obtain ⟨min, max, nonZero, nonNull⟩ := p
  simp [overlay, empty]

theorem overlay_self (p : Patch) : p.overlay p = p := by
  obtain ⟨min, max, nonZero, nonNull⟩ := p
  simp [overlay]

instance : Std.Associative overlay := ⟨overlay_assoc⟩

end Patch

namespace Facts

open OrderedMap

/-! ### Names and their order -/

theorem keys_add (f : Facts) (name : String) (p : Patch) : (f.add name p).keys = addNew name f.keys :=
  keys_alter f name _

theorem keys_addAll (f : Facts) {patches : List (String × Patch)}
    (hdistinct : (patches.map Prod.fst).Nodup) :
    (f.addAll patches).keys = f.keys ++ (patches.map Prod.fst).filter (· ∉ f.keys) := by
  unfold addAll
  induction patches generalizing f with
  | nil => simp
  | cons e rest ih =>
    rw [List.map_cons, List.nodup_cons] at hdistinct
    rw [List.foldl_cons, ih _ hdistinct.2, keys_add, List.map_cons, addNew]
    split
    · rename_i hold
      rw [List.filter_cons_of_neg (by simpa using hold)]
    · rename_i hnew
      rw [List.filter_cons_of_pos (by simpa using hnew), List.append_assoc, List.singleton_append]
      -- The name has just come in; it is not among those that are still to come.
      congr 2
      refine List.filter_congr fun name hname => ?_
      have hne : name ≠ e.1 := fun heq => hdistinct.1 (heq ▸ hname)
      simp [hne]

theorem keys_merge (f g : Facts) : (f.merge g).keys = f.keys ++ g.keys.filter (· ∉ f.keys) :=
  keys_addAll f g.distinct

/-! ### Patches -/

theorem get?_merge_eq (f g : Facts) (name : String) :
    (f.merge g).get? name = Option.merge Patch.overlay (f.get? name) (g.get? name) := by
  rw [get?_merge, about]
  cases f.get? name <;> cases g.get? name <;> simp

theorem contains_merge (f g : Facts) (name : String) :
    (f.merge g).contains name = (f.contains name || g.contains name) := by
  unfold contains
  rw [get?_merge_eq, Option.isSome_merge]

/-! ### Laws -/

theorem merge_assoc (f g h : Facts) : (f.merge g).merge h = f.merge (g.merge h) := by
  refine eq_of_get? ?_ fun name => ?_
  · have hnew : ∀ name, decide (name ∉ f.keys ++ g.keys.filter (· ∉ f.keys)) =
        (decide (name ∉ f.keys) && decide (name ∉ g.keys)) := by
      intro name
      by_cases hf : name ∈ f.keys <;> by_cases hg : name ∈ g.keys <;> simp [hf, hg]
    simp only [keys_merge, List.filter_append, List.filter_filter, List.append_assoc, hnew]
  · simp only [get?_merge_eq, Std.Associative.assoc]

theorem merge_empty (f : Facts) : f.merge .empty = f := rfl

theorem empty_merge (f : Facts) : Facts.empty.merge f = f := by
  refine eq_of_get? ?_ fun name => ?_
  · rw [keys_merge]
    exact List.filter_eq_self.mpr fun _ _ => rfl
  · rw [get?_merge_eq]
    exact Option.merge_none_left

/-- A part of the facts laid over them changes nothing. -/
theorem merge_forget (f : Facts) (name : String) : f.merge (f.forget name) = f := by
  refine eq_of_get? ?_ fun key => ?_
  · have hold : ∀ key ∈ (f.forget name).keys, ¬ decide (key ∉ f.keys) = true := by
      intro key hkey
      have hpart : (f.forget name).keys.Sublist f.keys := List.filter_sublist.map Prod.fst
      simpa using hpart.subset hkey
    rw [keys_merge, List.filter_eq_nil_iff.mpr hold, List.append_nil]
  · rw [get?_merge_eq, get?_forget]
    split
    · exact Option.merge_none_right
    · cases f.get? key with
      | none => rfl
      | some p => exact congrArg some p.overlay_self

/-! ### Guards inside guards -/

theorem add_eq_merge (f : Facts) (name : String) (p : Patch) :
    f.add name p = f.merge (Facts.empty.add name p) := by
  have hsingle : (Facts.empty.add name p).entries = [(name, p)] :=
    congrArg (fun q => [(name, q)]) p.empty_overlay
  rw [merge, hsingle]
  rfl

theorem merge_addAll (f g : Facts) (patches : List (String × Patch)) :
    f.merge (g.addAll patches) = (f.merge g).addAll patches := by
  unfold addAll
  induction patches generalizing g with
  | nil => rfl
  | cons e rest ih =>
    have hfirst : f.merge (g.add e.1 e.2) = (f.merge g).add e.1 e.2 := by
      rw [add_eq_merge g, ← merge_assoc, ← add_eq_merge]
    rw [List.foldl_cons, List.foldl_cons, ih, hfirst]

theorem addAll_append (f : Facts) (patches later : List (String × Patch)) :
    f.addAll (patches ++ later) =
      (f.merge (Facts.empty.addAll patches)).merge (Facts.empty.addAll later) := by
  rw [merge_addAll, merge_addAll, merge_empty, merge_empty]
  exact List.foldl_append

theorem derive_and (l r : Expr) (loc : Option Loc) :
    derive (.binary .and l r loc) true = (derive l true).merge (derive r true) := by
  rw [derive, learned, if_pos rfl, addAll_append, empty_merge]
  rfl

theorem derive_or (l r : Expr) (loc : Option Loc) :
    derive (.binary .or l r loc) false = (derive l false).merge (derive r false) := by
  rw [derive, learned, if_neg Bool.false_ne_true, addAll_append, empty_merge]
  rfl

end Facts

/-- A guard that holds for a conjunction tells what guards for its operands tell inside each other. -/
theorem Flow.learn_and (flow : Flow) (l r : Expr) (loc : Option Loc) :
    flow.learn (Facts.derive (.binary .and l r loc) true) =
      (flow.learn (Facts.derive l true)).learn (Facts.derive r true) := by
  unfold Flow.learn
  rw [Facts.derive_and, Facts.merge_assoc]

/-- A guard that fails for a disjunction tells what the failure of its operands tells. -/
theorem Flow.learn_or (flow : Flow) (l r : Expr) (loc : Option Loc) :
    flow.learn (Facts.derive (.binary .or l r loc) false) =
      (flow.learn (Facts.derive l false)).learn (Facts.derive r false) := by
  unfold Flow.learn
  rw [Facts.derive_or, Facts.merge_assoc]

/-- Facts laid over others have each field that the newer ones set from these and the rest from the
older ones, and a name is known not to be null if either says so. They are about the names of both, those
of the older facts in front. Layers can be grouped at will, and no facts are neutral on both sides. To
forget a name takes out its entry, if it has one, and leaves the others where they are; laid over the
facts it was taken from, the rest changes nothing. -/
theorem facts_override_monoid (f g h : Facts) (n : String) :
    (((f.merge g).get? n).bind Patch.min =
        ((g.get? n).bind Patch.min).or ((f.get? n).bind Patch.min) ∧
      ((f.merge g).get? n).bind Patch.max =
        ((g.get? n).bind Patch.max).or ((f.get? n).bind Patch.max) ∧
      ((f.merge g).get? n).bind Patch.nonZero =
        ((g.get? n).bind Patch.nonZero).or ((f.get? n).bind Patch.nonZero) ∧
      ((f.merge g).get? n).any Patch.nonNull =
        ((f.get? n).any Patch.nonNull || (g.get? n).any Patch.nonNull)) ∧
    ((f.merge g).contains n = (f.contains n || g.contains n)) ∧
    (f.merge g).keys = f.keys ++ g.keys.filter (· ∉ f.keys) ∧
    (f.merge g).merge h = f.merge (g.merge h) ∧
    (f.merge .empty = f ∧ Facts.empty.merge f = f) ∧
    (∀ m, (f.forget n).get? m = if m = n then none else f.get? m) ∧
    ((f.get? n = none ∧ f.forget n = f) ∨
      ∃ before p after, f.entries = before ++ (n, p) :: after ∧
        (f.forget n).entries = before ++ after) ∧
    f.merge (f.forget n) = f := by
  refine ⟨?_, f.contains_merge g n, f.keys_merge g, f.merge_assoc g h,
    ⟨f.merge_empty, f.empty_merge⟩, f.get?_forget n, ?_, f.merge_forget n⟩
  · rw [Facts.get?_merge_eq]
    cases f.get? n <;> cases g.get? n <;> simp [Patch.overlay]
  · cases hn : f.get? n with
    | none => exact .inl ⟨rfl, OrderedMap.erase_of_get?_eq_none hn⟩
    | some p =>
      obtain ⟨before, after, hsplit⟩ := OrderedMap.erase_of_get?_eq_some hn
      exact .inr ⟨before, p, after, hsplit⟩

-- `x <= 4` keeps the older `x >= 0` and the place of `x`; the new name comes last.
example :
    let older := (Facts.empty.add "x" (.atLeast 0)).add "y" .notZero
    let newer := (Facts.empty.add "z" .notNull).add "x" (.atMost 4)
    (older.merge newer).entries =
      [("x", { min := some 0, max := some 4 }), ("y", .notZero), ("z", .notNull)] := by
  decide

end TuffSafety
