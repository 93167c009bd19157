import TuffSafety.Facts

/-!
# Scopes

A scope is a stack of frames, the innermost first. Writes go to the innermost frame; it notes the
outer names it has reassigned, so that they can be widened when the frame is left.
-/
namespace TuffSafety

structure Binding where
  /-- What every value assigned to the name has to fit. -/
  declared : TypeInfo
  /-- The narrowest type proven of the present value. -/
  current : TypeInfo
deriving DecidableEq, Repr

namespace Binding

def fixed (t : TypeInfo) : Binding := ⟨t, t⟩

end Binding

structure Frame where
  bindings : OrderedMap Binding := .empty
  /-- The names declared in this frame. -/
  locals : List String := []
  /-- The outer names reassigned in this frame, in order. -/
  assigned : List String := []

namespace Frame

def declare (f : Frame) (name : String) (b : Binding) : Frame :=
  { f with bindings := f.bindings.insert name b, locals := addNew name f.locals }

def update (f : Frame) (name : String) (b : Binding) : Frame :=
  { f with
    bindings := f.bindings.insert name b
    assigned := if name ∈ f.locals then f.assigned else addNew name f.assigned }

end Frame

structure Scope where
  frames : List Frame := []

namespace Scope

def empty : Scope := {}

def child (s : Scope) : Scope := ⟨{} :: s.frames⟩

def get? (s : Scope) (name : String) : Option Binding :=
  s.frames.findSome? fun f => f.bindings.get? name

/-- Changes the innermost frame, which is made if there is none. -/
def modifyHead (s : Scope) (change : Frame → Frame) : Scope :=
  match s.frames with
  | [] => ⟨[change {}]⟩
  | f :: fs => ⟨change f :: fs⟩

def declare (s : Scope) (name : String) (b : Binding) : Scope :=
  s.modifyHead fun f => f.declare name b

/-- Notes a new present value; a name that is not visible stays so. -/
def update (s : Scope) (name : String) (current : TypeInfo) : Scope :=
  match s.get? name with
  | some b => s.modifyHead fun f => f.update name ⟨b.declared, current⟩
  | none => s

/-- Drops what was proven of the present value. -/
def widen (s : Scope) (name : String) : Scope :=
  match s.get? name with
  | some b => s.update name b.declared
  | none => s

def widenAll (s : Scope) (names : List String) : Scope :=
  names.foldl widen s

/-- The outer names reassigned in the innermost frame. -/
def assigned (s : Scope) : List String :=
  match s.frames with
  | [] => []
  | f :: _ => f.assigned

end Scope

/-- What is known at a point of a program: the visible names and the facts about them. -/
structure Flow where
  scope : Scope := .empty
  facts : Facts := .empty

namespace Flow

def empty : Flow := {}

/-- The flow at the start of a nested block. -/
def child (flow : Flow) : Flow :=
  { flow with scope := flow.scope.child }

/-- Drops everything proven about the given names. -/
def loosen (flow : Flow) (names : List String) : Flow where
  scope := flow.scope.widenAll names
  facts := flow.facts.forgetAll names

/-- The flow behind a nested block: what the block reassigned is widened. -/
def settle (outer inner : Flow) : Flow :=
  outer.loosen inner.scope.assigned

end Flow

end TuffSafety
