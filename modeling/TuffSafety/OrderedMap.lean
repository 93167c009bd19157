/-!
# Ordered maps

Maps from names that remember the order in which the names came in. A name keeps its place when
its value changes; a name that is erased and inserted again goes to the end.
-/
namespace TuffSafety

/-- A list with an element added at the end, unless it is in the list already. -/
def addNew (x : String) (xs : List String) : List String :=
  if x ∈ xs then xs else xs ++ [x]

structure OrderedMap (β : Type) where
  entries : List (String × β)
  distinct : (entries.map Prod.fst).Nodup

namespace OrderedMap

variable {β : Type}

deriving instance DecidableEq, Repr for OrderedMap

def empty : OrderedMap β := ⟨[], List.nodup_nil⟩

instance : Inhabited (OrderedMap β) := ⟨empty⟩

def keys (m : OrderedMap β) : List String :=
  m.entries.map Prod.fst

def size (m : OrderedMap β) : Nat :=
  m.entries.length

def isEmpty (m : OrderedMap β) : Bool :=
  m.entries.isEmpty

def get? (m : OrderedMap β) (name : String) : Option β :=
  m.entries.lookup name

def contains (m : OrderedMap β) (name : String) : Bool :=
  (m.get? name).isSome

/-- Replaces the value of a name in place, or adds the name at the end. -/
def putEntry (f : Option β → β) (name : String) : List (String × β) → List (String × β)
  | [] => [(name, f none)]
  | (k, v) :: rest => if k = name then (k, f (some v)) :: rest else (k, v) :: putEntry f name rest

theorem keys_putEntry (f : Option β → β) (name : String) (l : List (String × β)) :
    (putEntry f name l).map Prod.fst = addNew name (l.map Prod.fst) := by
  induction l with
  | nil => simp [putEntry, addNew]
  | cons e rest ih =>
    obtain ⟨k, v⟩ := e
    by_cases h : k = name
    · simp [putEntry, addNew, h]
    · have h' : ¬ name = k := fun e => h e.symm
      simp only [putEntry, h, if_false, List.map_cons, ih, addNew, List.mem_cons, h', false_or]
      split <;> simp

theorem nodup_addNew {name : String} {names : List String} (h : names.Nodup) :
    (addNew name names).Nodup := by
  unfold addNew
  split
  · exact h
  · rename_i hn
    rw [List.nodup_append]
    refine ⟨h, by simp, ?_⟩
    intro a ha b hb
    rw [List.mem_singleton] at hb
    rintro rfl
    exact hn (hb ▸ ha)

/-- Gives a name the value computed from the one it has, if any. -/
def alter (m : OrderedMap β) (name : String) (f : Option β → β) : OrderedMap β where
  entries := putEntry f name m.entries
  distinct := by rw [keys_putEntry]; exact nodup_addNew m.distinct

def insert (m : OrderedMap β) (name : String) (value : β) : OrderedMap β :=
  m.alter name fun _ => value

/-- Removes a name; the others keep their order. -/
def erase (m : OrderedMap β) (name : String) : OrderedMap β where
  entries := m.entries.filter fun e => e.1 != name
  distinct := m.distinct.sublist (List.filter_sublist.map Prod.fst)

end OrderedMap

end TuffSafety
