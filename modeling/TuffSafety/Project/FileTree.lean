import TuffSafety.Project.Path

/-!
# File trees

A file tree holds files by their names from the root, and the directory that relative paths start
in. A directory exists if a file lies below it or the current directory is at or below it.
-/
namespace TuffSafety

structure FileTree where
  files : List (List String × String)
  current : List String := []
deriving DecidableEq, Repr

namespace FileTree

def isDirectory (tree : FileTree) (place : List String) : Bool :=
  place.isPrefixOf tree.current ||
    tree.files.any fun file => place.isPrefixOf file.1 && decide (place ≠ file.1)

/-- One name further; `..` leads to the directory above and the root is above itself. -/
def step (place : List String) (name : String) : List String :=
  match name with
  | "." => place
  | ".." => place.dropLast
  | name => place ++ [name]

/-- Follows names from a place; only directories can be left. -/
def follow (tree : FileTree) : List String → List String → Option (List String)
  | place, [] => some place
  | place, name :: names =>
    if tree.isDirectory place then tree.follow (step place name) names else none

/-- The place that a path names, whether or not something is there. -/
def resolve? (tree : FileTree) (p : Path) : Option (List String) :=
  tree.follow (if p.absolute then [] else tree.current) p.names

/-- The content of the file at a path. -/
def read? (tree : FileTree) (p : Path) : Option String := do
  let place ← tree.resolve? p
  if p.directory then none else tree.files.lookup place

def isFile (tree : FileTree) (p : Path) : Bool :=
  (tree.read? p).isSome

end FileTree

end TuffSafety
