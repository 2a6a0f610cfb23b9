/-! Trees of files, and what reading a path in one gives. A path is followed segment by segment
from a place in the tree; only directories can be passed through, and an empty segment stays where
it is, so a path that ends in a slash leads to a directory or nowhere. -/

namespace TypeEnv

/-- Why a path has no text. -/
inductive ReadFailure where
  | notFound
  | permissionDenied
  | notADirectory
  | isDirectory
  | nameTooLong
  | notUtf8
  deriving DecidableEq, Repr, Inhabited

def ReadFailure.message : ReadFailure → String
  | notFound => "No such file or directory (os error 2)"
  | permissionDenied => "Permission denied (os error 13)"
  | notADirectory => "Not a directory (os error 20)"
  | isDirectory => "Is a directory (os error 21)"
  | nameTooLong => "File name too long (os error 36)"
  | notUtf8 => "stream did not contain valid UTF-8"

/-- The text that the bytes of a file are. -/
def decodeText (bytes : ByteArray) : Except ReadFailure String :=
  match String.fromUTF8? bytes with
  | some text => .ok text
  | none => .error .notUtf8

inductive FileTree where
  | file (bytes : ByteArray)
  | directory (entries : List (String × FileTree))

/-- A subtree together with the directories it lies in, innermost first. -/
structure Place where
  here : FileTree
  above : List FileTree

namespace FileTree

/-- The place at the top of a tree. -/
def top (tree : FileTree) : Place := { here := tree, above := [] }

def entries : FileTree → List (String × FileTree)
  | file _ => []
  | directory entries => entries

/-- The tree with `subtree` at the end of a way of names; directories that are missing on the way
are made. -/
def put : FileTree → List String → FileTree → FileTree
  | _, [], subtree => subtree
  | tree, name :: names, subtree =>
    let below := put ((tree.entries.lookup name).getD (directory [])) names subtree
    directory ((name, below) :: tree.entries.filter (·.1 ≠ name))

end FileTree

namespace Place

/-- The greatest number of bytes in a name. -/
def maxName : Nat := 255

/-- The greatest number of bytes in a path. -/
def maxPath : Nat := 4095

def top (place : Place) : Place :=
  (place.above.getLast?.getD place.here).top

/-- The place that one segment of a path leads to. The top lies in itself. -/
def step (place : Place) (segment : String) : Except ReadFailure Place :=
  match place.here, place.above with
  | .file _, _ => .error .notADirectory
  | .directory entries, above =>
    if segment = "" ∨ segment = "." then .ok place
    else if segment = ".." then
      match above with
      | [] => .ok place
      | parent :: above => .ok { here := parent, above }
    else if maxName < segment.utf8ByteSize then .error .nameTooLong
    else
      match entries.lookup segment with
      | some here => .ok { here, above := place.here :: above }
      | none => .error .notFound

/-- What stands between the slashes of a path. -/
def segments (path : String) : List String :=
  (path.toList.splitOn '/').map String.ofList

/-- The place that a path leads to; one that begins with a slash starts at the top. -/
def follow (place : Place) (path : String) : Except ReadFailure Place :=
  if path.isEmpty then .error .notFound
  else if maxPath < path.utf8ByteSize then .error .nameTooLong
  else (segments path).foldlM step (if path.startsWith "/" then place.top else place)

/-- The text of the file that a path leads to. -/
def read (place : Place) (path : String) : Except ReadFailure String := do
  match (← place.follow path).here with
  | .directory _ => throw .isDirectory
  | .file bytes => decodeText bytes

end Place

end TypeEnv
