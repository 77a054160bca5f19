import TradeScript.Path

/-!
# TradeScript.FileTree

A tree of files and directories, as a run of the program finds it. A place in the
tree is the list of names that lead to it, last one first; the root is a
directory. Paths are looked up from the root or from a working directory, name by
name, and every name but the last has to be that of a directory.
-/

namespace TradeScript

/-- Why something cannot be done with a file. -/
inductive FileFault where
  | notFound
  | alreadyThere
  | notDirectory
  | isDirectory
  /-- A name or a whole path is too long. -/
  | nameTooLong
  /-- The file is not a text. -/
  | notText
  deriving Repr, DecidableEq

namespace FileFault

def message : FileFault → String
  | notFound => "No such file or directory (os error 2)"
  | alreadyThere => "File exists (os error 17)"
  | notDirectory => "Not a directory (os error 20)"
  | isDirectory => "Is a directory (os error 21)"
  | nameTooLong => "File name too long (os error 36)"
  | notText => "stream did not contain valid UTF-8"

end FileFault

/-- What stands at a place. -/
inductive Entry where
  | directory
  | file (bytes : ByteArray)

namespace Entry

/-- The size that is given for a directory. -/
def directorySize : Nat := 4096

/-- Is it a directory? -/
def isDirectory : Entry → Bool
  | directory => true
  | file _ => false

/-- The size in bytes. -/
def size : Entry → Nat
  | directory => directorySize
  | file bytes => bytes.size

/-- The text of a file. -/
def text : Entry → Except FileFault String
  | directory => .error .isDirectory
  | file bytes =>
      match String.fromUTF8? bytes with
      | some s => .ok s
      | none => .error .notText

end Entry

/-- A place in a tree: the names that lead to it, last one first. -/
abbrev Place := List String

/-- A tree, as its places other than the root. -/
structure FileTree where
  entries : List (Place × Entry)

namespace FileTree

/-- The tree with nothing but the root. -/
def empty : FileTree :=
  ⟨[]⟩

/-- What stands at a place. -/
def entry? (tree : FileTree) (place : Place) : Option Entry :=
  if place.isEmpty then some .directory
  else (tree.entries.find? fun e => e.1 == place).map Prod.snd

/-- The longest name, in bytes. -/
def maxName : Nat := 255

/-- The longest path, in bytes. -/
def maxPath : Nat := 4095

/-- Go on from a place by a name of a path. -/
def step (tree : FileTree) (place : Place) (name : String) : Except FileFault Place :=
  match tree.entry? place with
  | none => .error .notFound
  | some (.file _) => .error .notDirectory
  | some .directory =>
      match name with
      | "" | "." => .ok place
      | ".." => .ok place.tail
      | name => if maxName < name.utf8ByteSize then .error .nameTooLong else .ok (name :: place)

/-- The place that names lead to; nothing needs to stand there. -/
def follow (tree : FileTree) (place : Place) (names : List String) : Except FileFault Place :=
  names.foldlM tree.step place

/-- The place where a path starts. -/
def origin (cwd : Place) (path : String) : Place :=
  if Path.isAbsolute path then [] else cwd

/-- The place that names of a path lead to, as seen from a working directory. -/
def resolve (tree : FileTree) (cwd : Place) (path : String) (names : List String) :
    Except FileFault Place :=
  if maxPath < path.utf8ByteSize then .error .nameTooLong
  else tree.follow (origin cwd path) names

/-- What stands at a path, as seen from a working directory. -/
def lookup (tree : FileTree) (cwd : Place) (path : String) : Except FileFault Entry := do
  if path.isEmpty then throw .notFound
  match tree.entry? (← tree.resolve cwd path (Path.pieces path)) with
  | some entry => return entry
  | none => throw .notFound

/-- The text of the file at a path. -/
def readText (tree : FileTree) (cwd : Place) (path : String) : Except FileFault String := do
  (← tree.lookup cwd path).text

/-- Does anything stand at a path? -/
def present (tree : FileTree) (cwd : Place) (path : String) : Bool :=
  match tree.lookup cwd path with
  | .ok _ => true
  | .error _ => false

/-- Does a file stand at a path? -/
def isFile (tree : FileTree) (cwd : Place) (path : String) : Bool :=
  match tree.lookup cwd path with
  | .ok entry => !entry.isDirectory
  | .error _ => false

/-- Does a directory stand at a path? -/
def isDirectory (tree : FileTree) (cwd : Place) (path : String) : Bool :=
  match tree.lookup cwd path with
  | .ok entry => entry.isDirectory
  | .error _ => false

/-- The directory at a path, as a place. -/
def directoryAt (tree : FileTree) (cwd : Place) (path : String) : Except FileFault Place := do
  match ← tree.lookup cwd path with
  | .directory => tree.resolve cwd path (Path.pieces path)
  | .file _ => throw .notDirectory

/-- The absolute path of a place. -/
def pathOf (place : Place) : String :=
  Path.ofBackwards true place

/-! ### Growing a tree -/

/-- Put something at a place. -/
def insert (tree : FileTree) (place : Place) (entry : Entry) : FileTree :=
  ⟨(place, entry) :: tree.entries.filter fun e => !(e.1 == place)⟩

/-- Put something at a place, and directories at the places on the way to it where
nothing stands. -/
def insertDeep (tree : FileTree) : Place → Entry → FileTree
  | [], _ => tree
  | name :: place, entry =>
      let tree := match tree.entry? place with
        | some _ => tree
        | none => insertDeep tree place .directory
      tree.insert (name :: place) entry

/-- Make a directory at a path where nothing stands. -/
def makeDirectory (tree : FileTree) (cwd : Place) (path : String) : Except FileFault FileTree := do
  let names := ((Path.pieces path).reverse.dropWhile (· == "")).reverse
  let place ← tree.resolve cwd path names
  match tree.entry? place with
  | some _ => throw .alreadyThere
  | none => return tree.insert place .directory

/-- Open the file at a path for writing: it is there, or it is made. -/
def openFile (tree : FileTree) (cwd : Place) (path : String) : Except FileFault FileTree := do
  let place ← tree.resolve cwd path (Path.pieces path)
  match tree.entry? place with
  | some .directory => throw .isDirectory
  | some (.file _) => return tree
  | none => return tree.insert place (.file ByteArray.empty)

/-- Make a directory at a path; one that is there already will do. -/
def makeOrKeep (tree : FileTree) (cwd : Place) (path : String) : Option FileFault × FileTree :=
  if path.isEmpty then (none, tree)
  else
    match tree.makeDirectory cwd path with
    | .ok tree => (none, tree)
    | .error fault => (if tree.isDirectory cwd path then none else some fault, tree)

/-- Make a directory at a path and at those of the directories above it, nearest
first, that are missing. -/
def makeDirectoriesFrom (tree : FileTree) (cwd : Place) (path : String) :
    (above : List String) → Option FileFault × FileTree
  | [] => tree.makeOrKeep cwd path
  | dir :: above =>
      match path.isEmpty, tree.makeDirectory cwd path with
      | false, .error .notFound =>
          match makeDirectoriesFrom tree cwd dir above with
          | (none, tree) => tree.makeOrKeep cwd path
          | stopped => stopped
      | _, _ => tree.makeOrKeep cwd path

/-- Make a directory at a path, with all directories on the way to it. What was made
before a fault stays. -/
def makeDirectories (tree : FileTree) (cwd : Place) (path : String) :
    Option FileFault × FileTree :=
  tree.makeDirectoriesFrom cwd path (Path.above path)

/-- The places where something stands that is not in another tree. -/
def newSince (tree old : FileTree) : List (Place × Entry) :=
  tree.entries.filter fun e => (old.entry? e.1).isNone

end FileTree

end TradeScript
