import TradeScript.Text.Basic

/-!
# TradeScript.Path

File paths as text. A path is cut into names at the slashes; empty names and
dots do not count, except for a dot at the front of a relative path. Nothing here
looks at a file system, so `..` stays where it is.
-/

namespace TradeScript.Path

/-- Does the path start at the root? -/
def isAbsolute (path : String) : Bool :=
  path.toList.head? == some '/'

/-- The names of a path without its root, empty ones and dots included. -/
def pieces (path : String) : List String :=
  let cs := path.toList
  let body := if isAbsolute path then cs.drop 1 else cs
  (Text.splitAt '/' body).map String.ofList

/-- Does the name `p` not count, where the names `ps` stand in front of it, last one
first? -/
def isIdle (absolute : Bool) (p : String) (ps : List String) : Bool :=
  p == "" || (p == "." && (absolute || !ps.isEmpty))

/-- The names, last one first, without those at the end that do not count. -/
def settle (absolute : Bool) : List String → List String
  | [] => []
  | p :: ps => if isIdle absolute p ps then settle absolute ps else p :: ps

/-- The names of a path, last one first, up to one that counts. -/
def backwards (path : String) : List String :=
  settle (isAbsolute path) (pieces path).reverse

/-- The path with the given names, last one first. -/
def ofBackwards (absolute : Bool) (names : List String) : String :=
  (if absolute then "/" else "") ++ "/".intercalate names.reverse

/-- The path without its last name; the root and the empty path have none. -/
def parent? (path : String) : Option String :=
  match backwards path with
  | [] => none
  | _ :: ps =>
      let absolute := isAbsolute path
      some (ofBackwards absolute (settle absolute ps))

/-- The last name, if it is the name of something. -/
def fileName? (path : String) : Option String :=
  match backwards path with
  | [] => none
  | p :: _ => if p == "." || p == ".." then none else some p

/-- What stands behind the last dot of the last name. A dot at its front does not
count. -/
def extension? (path : String) : Option String := do
  let name ← fileName? path
  match (Text.splitAt '.' name.toList).reverse with
  | ext :: stem :: more => if stem.isEmpty && more.isEmpty then none else some (String.ofList ext)
  | _ => none

/-- The path of `name` as seen from `dir`. -/
def join (dir name : String) : String :=
  if isAbsolute name then name
  else if dir.isEmpty || dir.toList.getLast? == some '/' then dir ++ name
  else dir ++ "/" ++ name

/-- The path with the given names, last one first, and those above it, nearest
first. -/
def upwards (absolute : Bool) : List String → List String
  | [] => [ofBackwards absolute []]
  | p :: ps =>
      if isIdle absolute p ps then upwards absolute ps
      else ofBackwards absolute (p :: ps) :: upwards absolute ps

/-- The directories above a path, nearest first. -/
def above (path : String) : List String :=
  match backwards path with
  | [] => []
  | _ :: ps => upwards (isAbsolute path) ps

end TradeScript.Path
