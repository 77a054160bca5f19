import TradeScript.About
import TradeScript.Path

/-!
# TradeScript.Settings.Search

Where settings files are looked for. A project has its files in the directory
where the search starts or in the nearest directory above it that has some; the
search does not go on above a directory with a marker, such as a repository's. A
user has one file, in the directory for such files.
-/

namespace TradeScript.Settings

/-- The extensions of settings files, in the order in which they are looked for. -/
def extensions : List String :=
  ["toml", "yaml", "yml", "json"]

/-- The settings files that a directory may have for its project, lowest rank
first. -/
def candidates (dir : String) : List String :=
  extensions.map (fun ext => Path.join dir s!".{About.name}.{ext}") ++
    extensions.map fun ext => Path.join dir s!"{About.name}.{ext}"

/-- The settings files that a directory has. -/
def filesIn (isFile : String → Bool) (dir : String) : List String :=
  (candidates dir).filter isFile

/-- Does a directory have the marker? -/
def isMarked (present : String → Bool) (marker : Option String) (dir : String) : Bool :=
  marker.any fun name => present (Path.join dir name)

/-- The settings files of the first directory that has some; the search ends at a
directory with the marker. -/
def searchUpwards (isFile present : String → Bool) (marker : Option String) :
    List String → List String
  | [] => []
  | dir :: dirs =>
      match filesIn isFile dir with
      | [] => if isMarked present marker dir then [] else searchUpwards isFile present marker dirs
      | files => files

/-- The settings files of a project. A marker in the directory where the search
starts does not end it. -/
def projectFiles (isFile present : String → Bool) (marker : Option String) (start : String) :
    List String :=
  match filesIn isFile start with
  | [] => searchUpwards isFile present marker (Path.above start)
  | files => files

/-- The directory of a user's settings files. A directory for all such files that
the environment names counts only if its path is absolute. -/
def userDirectory? (env : String → Option String) : Option String :=
  let base := match (env "XDG_CONFIG_HOME").filter Path.isAbsolute with
    | some dir => some dir
    | none => ((env "HOME").filter fun (home : String) => !home.isEmpty).map fun home =>
        Path.join home ".config"
  base.map fun dir => Path.join dir About.name

/-- The settings files that a user may have, in the order in which they are looked
for. -/
def userCandidates (env : String → Option String) : List String :=
  match userDirectory? env with
  | some dir => extensions.map fun ext => Path.join dir s!"config.{ext}"
  | none => []

/-- The settings file of a user. -/
def userFile? (isFile : String → Bool) (env : String → Option String) : Option String :=
  (userCandidates env).find? isFile

end TradeScript.Settings
