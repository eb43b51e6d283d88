import HostBridge.Manifest

/-!
# Manifests in files

Reading a manifest from a tree of directories and files.  A path is followed name
by name from the root of the tree.  The empty name and the dot stay in the
directory that they are met in, two dots leave it, and no name at all leads on
from a file.
-/

namespace HostBridge

/-- What stands at a place in a tree. -/
inductive FileNode where
  | directory
  | file (contents : List UInt8)
  deriving DecidableEq, Repr

/-- Directories and files by place.  A place is the list of names that lead to it
from the root, dots and empty names left out; where one place occurs twice the
entry in front counts. -/
structure FileTree where
  nodes : List (List String × FileNode)

namespace FileTree

/-- Why the text of a file cannot be had. -/
inductive Fault where
  | notFound
  | isADirectory
  | notADirectory
  /-- A name or a path is longer than the limit. -/
  | nameTooLong
  /-- The path holds a NUL character. -/
  | invalidPath
  /-- The contents are no UTF-8. -/
  | invalidData
  deriving DecidableEq, Repr

/-- How many bytes a name may have. -/
def nameLimit : Nat := 255

/-- How many bytes a path may have. -/
def pathLimit : Nat := 4095

/-- One path below another.  A path that starts at the root is below none. -/
def join (base path : String) : String :=
  if path.startsWith "/" then path
  else if base = "" || base.endsWith "/" then base ++ path
  else base ++ "/" ++ path

/-- What stands at a place; the root is always a directory. -/
def node? (tree : FileTree) (place : List String) : Option FileNode :=
  if place = [] then some .directory else tree.nodes.lookup place

/-- Put a directory or a file at a place. -/
def put (tree : FileTree) (place : List String) (node : FileNode) : FileTree :=
  ⟨(place, node) :: tree.nodes⟩

theorem node?_put_same (tree : FileTree) {place : List String} (node : FileNode)
    (proper : place ≠ []) : (tree.put place node).node? place = some node := by
  simp [node?, put, proper]

theorem node?_put_other (tree : FileTree) {place other : List String} (node : FileNode)
    (apart : other ≠ place) : (tree.put place node).node? other = tree.node? other := by
  simp [node?, put, List.lookup_cons, beq_false_of_ne apart]

/-- The place that a name leads to. -/
def follow (tree : FileTree) (here : List String) (name : String) :
    Except Fault (List String) :=
  match tree.node? here with
  | none => .error .notFound
  | some (.file _) => .error .notADirectory
  | some .directory =>
    if name = "" ∨ name = "." then .ok here
    else if name = ".." then .ok here.dropLast
    else if nameLimit < name.utf8ByteSize then .error .nameTooLong
    else .ok (here ++ [name])

/-- The names on a path. -/
def names (path : String) : Except Fault (List String) :=
  if path.contains '\x00' then .error .invalidPath
  else if pathLimit < path.utf8ByteSize then .error .nameTooLong
  else .ok (path.splitOn "/")

/-- The place that a path leads to. -/
def locate (tree : FileTree) (path : String) : Except Fault (List String) := do
  (← names path).foldlM tree.follow []

/-- The text of a file. -/
def read (tree : FileTree) (path : String) : Except Fault String := do
  match tree.node? (← tree.locate path) with
  | none => .error .notFound
  | some .directory => .error .isADirectory
  | some (.file contents) =>
    match String.fromUTF8? ⟨contents.toArray⟩ with
    | some text => .ok text
    | none => .error .invalidData

/-- Follow a name, and make a directory if it leads to nothing yet. -/
def enter (tree : FileTree) (here : List String) (name : String) :
    Except Fault (FileTree × List String) := do
  let place ← tree.follow here name
  match tree.node? place with
  | some _ => .ok (tree, place)
  | none => .ok (tree.put place .directory, place)

/-- Follow names from the root, and make the directories that are missing. -/
def enterAll (tree : FileTree) (names : List String) :
    Except Fault (FileTree × List String) :=
  names.foldlM (fun reached name => reached.1.enter reached.2 name) (tree, [])

/-- Write a file, and make the directories that it lies in. -/
def write (tree : FileTree) (path : String) (contents : List UInt8) :
    Except Fault FileTree := do
  let names ← names path
  let (tree, here) ← tree.enterAll names.dropLast
  let place ← tree.follow here (names.getLastD "")
  match tree.node? place with
  | some .directory => .error .isADirectory
  | _ => .ok (tree.put place (.file contents))

end FileTree

namespace Manifest

/-- Why a manifest cannot be read from a file. -/
inductive ReadFault where
  | unreadable (path : String) (fault : FileTree.Fault)
  | malformed (line : MalformedLine)
  deriving DecidableEq, Repr

/-- Read the manifest at a path. -/
def load (tree : FileTree) (path : String) : Except ReadFault Manifest :=
  match tree.read path with
  | .error fault => .error (.unreadable path fault)
  | .ok text =>
    match parse text with
    | .error line => .error (.malformed line)
    | .ok manifest => .ok manifest

/-- Read the manifest of a project. -/
def loadProject (tree : FileTree) (project : String) : Except ReadFault Manifest :=
  load tree (FileTree.join project standardPath)

end Manifest

end HostBridge
