import TuffSafety.Ast.Decode
import TuffSafety.Proofs.JsonText

/-!
# Fields of nodes

A record is read field by field. A field that was written once is found whatever stands around it, one
that was left out gets its value for that case, and a node is read by the form that its kind names,
inside another node as well as on its own.
-/
namespace TuffSafety

namespace Decode

/-! ### Results without a fault -/

/-- Reading gives this value. -/
def Ranked.Gives {α : Type} (x : Ranked α) (a : α) : Prop :=
  x.result = .ok a

namespace Ranked.Gives

variable {α β : Type} {a : α}

theorem map {x : Ranked α} (h : x.Gives a) (f : α → β) : (f <$> x).Gives (f a) := by
  change (apply (pure f) x).result = _
  unfold apply
  rw [h]
  rfl

theorem seq {f : Ranked (α → β)} {g : α → β} {x : Ranked α} (hf : f.Gives g) (hx : x.Gives a) :
    (f <*> x).Gives (g a) := by
  change (apply f x).result = _
  unfold apply
  rw [hf, hx]

end Ranked.Gives

/-! ### Finding a field -/

/-- The values of the members of a name. -/
def valuesOf (name : String) (members : List JsonMember) : List Json :=
  (members.filter fun m => m.key == name).map JsonMember.value

section

variable {name key : String} {members : List JsonMember} {value : Json}

@[simp] theorem valuesOf_nil : valuesOf name [] = [] := rfl

@[simp] theorem valuesOf_cons :
    valuesOf name (⟨key, value⟩ :: members) =
      if key = name then value :: valuesOf name members else valuesOf name members := by
  unfold valuesOf
  by_cases h : key = name
  · rw [List.filter_cons_of_pos (by simpa using h), if_pos h, List.map_cons]
  · rw [List.filter_cons_of_neg (by simpa using h), if_neg h]

@[simp] theorem valuesOf_append (members' : List JsonMember) :
    valuesOf name (members ++ members') = valuesOf name members ++ valuesOf name members' := by
  unfold valuesOf
  rw [List.filter_append, List.map_append]

@[simp] theorem valuesOf_optional (value : Option Json) :
    valuesOf name (Json.optional key value) = if key = name then value.toList else [] := by
  cases value with
  | none => simp [Json.optional]
  | some value => simp [Json.optional]

@[simp] theorem valuesOf_loc (place : Option Loc) :
    valuesOf name (Encode.loc place) = if "loc" = name then (place.map Loc.encode).toList else [] :=
  valuesOf_optional _

theorem occurrences_values (name : String) (members : List JsonMember) :
    (Record.occurrences name members).map Prod.snd = valuesOf name members := by
  have hfrom : ∀ k, ((members.zipIdx k).filter fun p => p.1.key == name).map
      (fun p => p.1.value) = valuesOf name members := by
    induction members with
    | nil => exact fun _ => rfl
    | cons m members ih =>
      intro k
      obtain ⟨key, value⟩ := m
      rw [List.zipIdx_cons, valuesOf_cons]
      by_cases h : key = name
      · rw [List.filter_cons_of_pos (by simpa using h), if_pos h, List.map_cons, ih]
      · rw [List.filter_cons_of_neg (by simpa using h), if_neg h, ih]
  rw [Record.occurrences, List.map_map]
  exact hfrom 0

/-- A value lies one level below the object that holds it. -/
theorem depth_of_mem {m : JsonMember} (h : m ∈ members) :
    m.value.depth < (Json.object members).depth := by
  rw [Json.depth]
  induction members with
  | nil => cases h
  | cons m' members ih =>
    obtain ⟨key', value'⟩ := m'
    rw [Json.membersDepth]
    rcases List.mem_cons.mp h with rfl | h
    · dsimp only
      omega
    · have := ih h
      omega

theorem depth_of_valuesOf (h : valuesOf name members = [value]) :
    value.depth < (Json.object members).depth := by
  have hmem : value ∈ valuesOf name members := h ▸ List.mem_singleton_self value
  obtain ⟨m, hm, rfl⟩ := List.mem_map.mp hmem
  exact depth_of_mem (List.mem_filter.mp hm).1

theorem depth_of_item {items : List Json} {item : Json} (h : item ∈ items) :
    item.depth < (Json.array items).depth := by
  rw [Json.depth]
  induction items with
  | nil => cases h
  | cons item' items ih =>
    rw [Json.itemsDepth]
    rcases List.mem_cons.mp h with rfl | h
    · omega
    · have := ih h
      omega

end

section

variable {α : Type} {type name : String} {names : List String} {members : List JsonMember}
  {decode : Json → Decoded α} {value : Json} {a : α}

theorem field_written (hvalue : valuesOf name members = [value]) (hdecode : decode value = .ok a)
    (absent : Option α) : (Record.field ⟨type, names, .named members⟩ name absent decode).Gives a := by
  have hvalues := occurrences_values name members
  rw [hvalue, List.map_eq_singleton_iff] at hvalues
  obtain ⟨⟨i, value'⟩, hoccurrences, rfl⟩ := hvalues
  unfold Record.field Ranked.Gives
  dsimp only
  rw [hoccurrences]
  dsimp only [Ranked.ranked]
  rw [hdecode]
  rfl

theorem field_absent (hvalue : valuesOf name members = []) (a : α) :
    (Record.field ⟨type, names, .named members⟩ name (some a) decode).Gives a := by
  have hvalues := occurrences_values name members
  rw [hvalue, List.map_eq_nil_iff] at hvalues
  unfold Record.field Ranked.Gives
  dsimp only
  rw [hvalues]
  rfl

/-- Each value may be decoded under the assumption that it is less deep than the record. -/
theorem required_gives (hvalue : valuesOf name members = [value])
    (hdecode : value.depth < (Json.object members).depth → decode value = .ok a) :
    (Record.required ⟨type, names, .named members⟩ name decode).Gives a :=
  field_written hvalue (hdecode (depth_of_valuesOf hvalue)) none

theorem optional_gives {x : Option α} {encode : α → Json}
    (hvalue : valuesOf name members = (x.map encode).toList) (hnull : ∀ a, encode a ≠ .null)
    (hdecode : ∀ a, x = some a → (encode a).depth < (Json.object members).depth →
      decode (encode a) = .ok a) :
    (Record.optional ⟨type, names, .named members⟩ name decode).Gives x := by
  cases x with
  | none => exact field_absent hvalue none
  | some a =>
    refine field_written hvalue ?_ _
    have ha := hdecode a rfl (depth_of_valuesOf hvalue)
    unfold Decode.optional
    split
    · exact absurd ‹_› (hnull a)
    · rw [ha]
      rfl

theorem list_gives {items : List Json} {values : List α}
    (hvalue : valuesOf name members = [.array items])
    (hdecode : (∀ item ∈ items, item.depth + 1 < (Json.object members).depth) →
      all decode items = .ok values) :
    (Record.list ⟨type, names, .named members⟩ name decode).Gives values := by
  refine field_written hvalue (hdecode fun item hitem => ?_) _
  have harray := depth_of_valuesOf hvalue
  have hdepth := depth_of_item hitem
  omega

theorem flag_gives {flag : Bool} (hvalue : valuesOf name members = [.bool flag]) :
    (Record.flag ⟨type, names, .named members⟩ name).Gives flag :=
  field_written hvalue (show Decode.bool (.bool flag) = .ok flag from rfl) _

theorem record_gives {build : Record → Ranked α}
    (h : (build ⟨type, names, .named members⟩).Gives a) :
    record type names build (.named members) = .ok a := by
  unfold record
  rw [h]

theorem plainRecord_gives {build : Record → Ranked α}
    (h : (build ⟨type, names, .named members⟩).Gives a) :
    plainRecord type names build (.object members) = .ok a :=
  record_gives h

end

/-! ### Nodes -/

/-- The JSON value is a node of a kind with a form, and the form reads its fields as this value. -/
inductive Tells {α : Type} (forms : Forms α) : Json → α → Prop where
  | node {kind : String} {fields : List JsonMember} {form : Fields → Decoded α} {a : α}
      (hform : forms.lookup kind = some form) (hkind : valuesOf "kind" fields = [])
      (hreads : form (.named fields) = .ok a) : Tells forms (Encode.node kind fields) a

section

variable {α : Type} {forms : Forms α} {j : Json} {a : α}

theorem Tells.record {type kind : String} {names : List String} {fields : List JsonMember}
    {build : Record → Ranked α} (hform : forms.lookup kind = some (Decode.record type names build))
    (hkind : valuesOf "kind" fields = []) (h : (build ⟨type, names, .named fields⟩).Gives a) :
    Tells forms (Encode.node kind fields) a :=
  .node hform hkind (record_gives h)

theorem valuesOf_cons_eq_nil {name key : String} {value : Json} {members : List JsonMember}
    (h : valuesOf name (⟨key, value⟩ :: members) = []) : key ≠ name ∧ valuesOf name members = [] := by
  rw [valuesOf_cons] at h
  split at h
  · cases h
  · exact ⟨‹_›, h⟩

theorem splitKind_rest {β : Type} (decodeKind : Json → Decoded β) (form : β)
    {fields : List JsonMember} (h : valuesOf "kind" fields = []) :
    splitKind decodeKind (some form) fields = .ok (form, fields) := by
  induction fields with
  | nil => rfl
  | cons m fields ih =>
    obtain ⟨key, value⟩ := m
    obtain ⟨hkey, hfields⟩ := valuesOf_cons_eq_nil h
    rw [splitKind, if_neg hkey, ih hfields]
    rfl

theorem docSplitKind_rest {β : Type} {room : Nat} (decodeKind : Doc → Decoded β) (form : β)
    {fields : List JsonMember} (h : valuesOf "kind" fields = [])
    (hdepth : Json.membersDepth fields ≤ room) :
    docSplitKind room decodeKind (some form) (Json.docMembers fields) = .ok (form, fields) := by
  induction fields with
  | nil => rfl
  | cons m fields ih =>
    obtain ⟨key, value⟩ := m
    obtain ⟨hkey, hfields⟩ := valuesOf_cons_eq_nil h
    rw [Json.membersDepth] at hdepth
    rw [Json.docMembers, docSplitKind]
    change (if key = "kind" then _ else _) = _
    rw [if_neg hkey, Doc.buffer_doc (by omega)]
    change (docSplitKind room decodeKind (some form) (Json.docMembers fields) >>= _) = _
    rw [ih hfields (by omega)]
    rfl

theorem Tells.tagged (h : Tells forms j a) (type : String) : tagged type forms j = .ok a := by
  obtain @⟨kind, fields, form, _, hform, hkind, hreads⟩ := h
  have hvariant : variant forms kind = .ok form := by rw [variant, hform]
  rw [Encode.node, Decode.tagged, splitKind, if_pos rfl]
  dsimp only
  rw [Decode.kind, hvariant]
  change (splitKind (Decode.kind forms) (some form) fields >>= _) = _
  rw [splitKind_rest _ form hkind]
  exact hreads

/-- A node that stands in no other node is read like any other, if there is room for what it
holds. -/
theorem Tells.docTagged (h : Tells forms j a) (type : String) {room : Nat}
    (hdepth : j.depth ≤ room + 1) : docTagged type forms room j.doc = .ok a := by
  obtain @⟨kind, fields, form, _, hform, hkind, hreads⟩ := h
  have hvariant : variant forms kind = .ok form := by rw [variant, hform]
  rw [Encode.node, Json.depth, Json.membersDepth] at hdepth
  have hfields : docSplitKind room (docKind forms) (some form) (Json.docMembers fields) =
      .ok (form, fields) := docSplitKind_rest _ form hkind (by omega)
  rw [Encode.node, Json.doc, Decode.docTagged, Json.docMembers, docSplitKind]
  change ((variant forms kind >>= fun form =>
    docSplitKind room (docKind forms) (some form) (Json.docMembers fields)) >>= _) = _
  rw [hvariant]
  change (docSplitKind room (docKind forms) (some form) (Json.docMembers fields) >>= _) = _
  rw [hfields]
  exact hreads

end

end Decode

end TuffSafety
