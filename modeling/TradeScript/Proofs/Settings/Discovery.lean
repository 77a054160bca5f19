import TradeScript.FileTree
import TradeScript.Proofs.Path
import TradeScript.Settings.Search

/-!
# TradeScript.Proofs.Settings.Discovery

Which directory gives a project its settings. The search goes up from the directory where it
starts to the nearest directory with settings files, and gives all files of that directory
(`project_files_of_nearest`). Up means from a path to its parent as paths are written: `..` is
a name like any other.

A marker is meant to end the search, so that no settings come from above a directory that has
one. Every directory is asked for the marker, except the one where the search starts. So
settings come from above a marked directory exactly if the search starts in one that has no
settings of its own, and finds some (`project_files_within_marked_iff`).
-/

namespace TradeScript.Settings

/-- The names of the settings files of a project, lowest rank first. -/
def projectNames : List String :=
  [".mqlint.toml", ".mqlint.yaml", ".mqlint.yml", ".mqlint.json",
   "mqlint.toml", "mqlint.yaml", "mqlint.yml", "mqlint.json"]

theorem projectNames_eq :
    projectNames = (extensions.map fun ext => s!".{About.name}.{ext}") ++
      extensions.map fun ext => s!"{About.name}.{ext}" := by
  decide

theorem candidates_eq (dir : String) : candidates dir = projectNames.map (Path.join dir) := by
  rw [projectNames_eq, List.map_append, List.map_map, List.map_map]
  rfl

theorem filesIn_eq (isFile : String → Bool) (dir : String) :
    filesIn isFile dir = (projectNames.map (Path.join dir)).filter isFile := by
  rw [filesIn, candidates_eq]

variable {isFile present : String → Bool} {marker : Option String} {dirs : List String}
  {start dir : String} {n : Nat}

/-! ### The search upwards -/

/-- Of the directories, the one at `n` is the first with settings files, and none before it
has the marker. -/
structure IsFirst (isFile present : String → Bool) (marker : Option String) (dirs : List String)
    (n : Nat) (dir : String) : Prop where
  place : dirs[n]? = some dir
  has_files : filesIn isFile dir ≠ []
  nearest : ∀ m < n, ∀ d, dirs[m]? = some d → filesIn isFile d = []
  unmarked : ∀ m < n, ∀ d, dirs[m]? = some d → isMarked present marker d = false

theorem isFirst_zero_iff {first : String} :
    IsFirst isFile present marker (first :: dirs) 0 dir ↔
      first = dir ∧ filesIn isFile first ≠ [] := by
  constructor
  · intro h
    obtain rfl : first = dir := by simpa using h.place
    exact ⟨rfl, h.has_files⟩
  · intro h
    obtain ⟨rfl, hfiles⟩ := h
    exact ⟨rfl, hfiles, by simp, by simp⟩

theorem isFirst_succ_iff {first : String} :
    IsFirst isFile present marker (first :: dirs) (n + 1) dir ↔
      filesIn isFile first = [] ∧ isMarked present marker first = false ∧
        IsFirst isFile present marker dirs n dir := by
  constructor
  · intro h
    refine ⟨h.nearest 0 n.succ_pos first rfl, h.unmarked 0 n.succ_pos first rfl, ?_⟩
    exact ⟨h.place, h.has_files, fun m hm => h.nearest (m + 1) (Nat.succ_lt_succ hm),
      fun m hm => h.unmarked (m + 1) (Nat.succ_lt_succ hm)⟩
  · intro h
    obtain ⟨hnone, hunmarked, hfirst⟩ := h
    refine ⟨hfirst.place, hfirst.has_files, fun m hm d hd => ?_, fun m hm d hd => ?_⟩
    · cases m with
      | zero => exact Option.some.inj hd ▸ hnone
      | succ m => exact hfirst.nearest m (Nat.lt_of_succ_lt_succ hm) d hd
    · cases m with
      | zero => exact Option.some.inj hd ▸ hunmarked
      | succ m => exact hfirst.unmarked m (Nat.lt_of_succ_lt_succ hm) d hd

theorem searchUpwards_of_isFirst (h : IsFirst isFile present marker dirs n dir) :
    searchUpwards isFile present marker dirs = filesIn isFile dir := by
  induction dirs generalizing n with
  | nil => exact absurd h.place (by simp)
  | cons first dirs ih =>
      rw [searchUpwards]
      cases n with
      | zero =>
          obtain ⟨rfl, hfiles⟩ := isFirst_zero_iff.mp h
          split
          · contradiction
          · rfl
      | succ n =>
          obtain ⟨hnone, hunmarked, hfirst⟩ := isFirst_succ_iff.mp h
          simp only [hnone, hunmarked, Bool.false_eq_true, if_false]
          exact ih hfirst

theorem exists_isFirst (h : searchUpwards isFile present marker dirs ≠ []) :
    ∃ n dir, IsFirst isFile present marker dirs n dir := by
  induction dirs with
  | nil => exact absurd rfl h
  | cons first dirs ih =>
      by_cases hfiles : filesIn isFile first = []
      · simp only [searchUpwards, hfiles] at h
        split at h
        · exact absurd rfl h
        · rename_i hunmarked
          obtain ⟨n, dir, hfirst⟩ := ih h
          exact ⟨n + 1, dir, isFirst_succ_iff.mpr ⟨hfiles, by simpa using hunmarked, hfirst⟩⟩
      · exact ⟨0, first, isFirst_zero_iff.mpr ⟨rfl, hfiles⟩⟩

/-! ### The search from a directory -/

/-- The directory `n` steps above `start` is the nearest one with settings files, and no
directory between the two has the marker. -/
structure Supplies (isFile present : String → Bool) (marker : Option String) (start : String)
    (n : Nat) (dir : String) : Prop where
  place : Path.ancestor? start n = some dir
  has_files : ∃ name ∈ projectNames, isFile (Path.join dir name) = true
  nearest : ∀ m < n, ∀ d, Path.ancestor? start m = some d →
    ∀ name ∈ projectNames, isFile (Path.join d name) = false
  unmarked : ∀ m < n, 0 < m → ∀ d, Path.ancestor? start m = some d →
    isMarked present marker d = false

theorem filesIn_eq_nil_iff :
    filesIn isFile dir = [] ↔ ∀ name ∈ projectNames, isFile (Path.join dir name) = false := by
  rw [filesIn_eq, List.filter_eq_nil_iff, List.forall_mem_map]
  simp only [Bool.not_eq_true]

theorem filesIn_ne_nil_iff :
    filesIn isFile dir ≠ [] ↔ ∃ name ∈ projectNames, isFile (Path.join dir name) = true := by
  rw [Ne, filesIn_eq_nil_iff]
  simp

theorem supplies_zero_iff :
    Supplies isFile present marker start 0 dir ↔ start = dir ∧ filesIn isFile start ≠ [] := by
  constructor
  · intro h
    obtain rfl := Option.some.inj h.place
    exact ⟨rfl, filesIn_ne_nil_iff.mpr h.has_files⟩
  · intro h
    obtain ⟨rfl, hfiles⟩ := h
    exact ⟨rfl, filesIn_ne_nil_iff.mp hfiles, by simp, by simp⟩

/-- Behind its first directory the search is one through the directories above. -/
theorem supplies_succ_iff :
    Supplies isFile present marker start (n + 1) dir ↔
      filesIn isFile start = [] ∧ IsFirst isFile present marker (Path.above start) n dir := by
  constructor
  · intro h
    refine ⟨filesIn_eq_nil_iff.mpr (h.nearest 0 n.succ_pos start rfl), ?_, ?_, ?_, ?_⟩
    · rw [Path.getElem?_above, h.place]
    · exact filesIn_ne_nil_iff.mpr h.has_files
    · intro m hm d hd
      rw [Path.getElem?_above] at hd
      exact filesIn_eq_nil_iff.mpr (h.nearest (m + 1) (Nat.succ_lt_succ hm) d hd)
    · intro m hm d hd
      rw [Path.getElem?_above] at hd
      exact h.unmarked (m + 1) (Nat.succ_lt_succ hm) m.succ_pos d hd
  · intro h
    obtain ⟨hnone, hfirst⟩ := h
    refine ⟨?_, filesIn_ne_nil_iff.mp hfirst.has_files, fun m hm d hd => ?_,
      fun m hm hpos d hd => ?_⟩
    · rw [← Path.getElem?_above, hfirst.place]
    · cases m with
      | zero => exact Option.some.inj hd ▸ filesIn_eq_nil_iff.mp hnone
      | succ m =>
          rw [← Path.getElem?_above] at hd
          exact filesIn_eq_nil_iff.mp (hfirst.nearest m (Nat.lt_of_succ_lt_succ hm) d hd)
    · cases m with
      | zero => exact absurd hpos (Nat.lt_irrefl 0)
      | succ m =>
          rw [← Path.getElem?_above] at hd
          exact hfirst.unmarked m (Nat.lt_of_succ_lt_succ hm) d hd

theorem projectFiles_of_filesIn (h : filesIn isFile start ≠ []) :
    projectFiles isFile present marker start = filesIn isFile start := by
  rw [projectFiles]
  split
  · contradiction
  · rfl

theorem projectFiles_of_filesIn_eq_nil (h : filesIn isFile start = []) :
    projectFiles isFile present marker start =
      searchUpwards isFile present marker (Path.above start) := by
  simp only [projectFiles, h]

theorem projectFiles_of_supplies (h : Supplies isFile present marker start n dir) :
    projectFiles isFile present marker start = filesIn isFile dir := by
  cases n with
  | zero =>
      obtain ⟨rfl, hfiles⟩ := supplies_zero_iff.mp h
      exact projectFiles_of_filesIn hfiles
  | succ n =>
      obtain ⟨hnone, hfirst⟩ := supplies_succ_iff.mp h
      rw [projectFiles_of_filesIn_eq_nil hnone, searchUpwards_of_isFirst hfirst]

theorem exists_supplies (h : projectFiles isFile present marker start ≠ []) :
    ∃ n dir, Supplies isFile present marker start n dir := by
  by_cases hfiles : filesIn isFile start = []
  · rw [projectFiles_of_filesIn_eq_nil hfiles] at h
    obtain ⟨n, dir, hfirst⟩ := exists_isFirst h
    exact ⟨n + 1, dir, supplies_succ_iff.mpr ⟨hfiles, hfirst⟩⟩
  · exact ⟨0, start, supplies_zero_iff.mpr ⟨rfl, hfiles⟩⟩

/-- The settings files of a project are all those of one directory: the nearest one, from
`start` upwards, that has some, if no directory strictly between the two has the marker. Where
nothing is found, there is no such directory. -/
theorem project_files_of_nearest (tree : FileTree) (cwd : Place) (marker : Option String)
    (start : String) :
    let isFile := tree.isFile cwd
    let present := tree.present cwd
    let files := projectFiles isFile present marker start
    (files ≠ [] → ∃ n dir, Supplies isFile present marker start n dir ∧
      Path.backwards dir <:+ Path.backwards start ∧
      files = (projectNames.map (Path.join dir)).filter isFile) ∧
    (files = [] → ∀ n dir, ¬ Supplies isFile present marker start n dir) := by
  intro isFile present files
  refine ⟨fun hfound => ?_, fun hnothing n dir h => ?_⟩
  · obtain ⟨n, dir, h⟩ := exists_supplies hfound
    refine ⟨n, dir, h, Path.backwards_suffix_of_ancestor? h.place, ?_⟩
    rw [← filesIn_eq]
    exact projectFiles_of_supplies h
  · have hfiles := projectFiles_of_supplies h
    exact filesIn_ne_nil_iff.mpr h.has_files (hfiles.symm.trans hnothing)

/-! ### Markers -/

/-- Every file is one that a project can have in a directory at most `n` steps above
`start`. -/
def Within (start : String) (n : Nat) (files : List String) : Prop :=
  ∀ file ∈ files, ∃ m ≤ n, ∃ dir, Path.ancestor? start m = some dir ∧
    ∃ name ∈ projectNames, file = Path.join dir name

theorem mem_filesIn_iff {file : String} :
    file ∈ filesIn isFile dir ↔
      isFile file = true ∧ ∃ name ∈ projectNames, file = Path.join dir name := by
  rw [filesIn_eq, List.mem_filter, List.mem_map, and_comm]
  simp only [eq_comm]

/-- A marker above the start keeps the search within its directory. -/
theorem within_of_marked (hn : 0 < n) (hplace : Path.ancestor? start n = some dir)
    (hmarked : isMarked present marker dir = true) :
    Within start n (projectFiles isFile present marker start) := by
  intro file hfile
  obtain ⟨m, d, h⟩ := exists_supplies (List.ne_nil_of_mem hfile)
  have hle : m ≤ n := by
    apply Nat.le_of_not_lt
    intro hlt
    rw [h.unmarked n hlt hn dir hplace] at hmarked
    exact absurd hmarked Bool.false_ne_true
  rw [projectFiles_of_supplies h, mem_filesIn_iff] at hfile
  exact ⟨m, hle, d, h.place, hfile.2⟩

theorem within_zero_iff :
    Within start 0 (projectFiles isFile present marker start) ↔
      projectFiles isFile present marker start = filesIn isFile start := by
  constructor
  · intro h
    by_cases hfiles : filesIn isFile start = []
    · rw [hfiles, List.eq_nil_iff_forall_not_mem]
      intro file hfile
      obtain ⟨m, hm, dir, hdir, hname⟩ := h file hfile
      obtain rfl := Nat.le_zero.mp hm
      obtain rfl := Option.some.inj hdir
      obtain ⟨k, d, hsupplies⟩ := exists_supplies (List.ne_nil_of_mem hfile)
      rw [projectFiles_of_supplies hsupplies, mem_filesIn_iff] at hfile
      have hmem := mem_filesIn_iff.mpr ⟨hfile.1, hname⟩
      rw [hfiles] at hmem
      exact absurd hmem List.not_mem_nil
    · exact projectFiles_of_filesIn hfiles
  · intro h file hfile
    rw [h, mem_filesIn_iff] at hfile
    exact ⟨0, Nat.le_refl 0, start, rfl, hfile.2⟩

/-- A directory with the marker, other than the one where the search starts, is as far up as
settings come from. For the start itself this holds exactly if the settings found are its
own. -/
theorem project_files_within_marked_iff (tree : FileTree) (cwd : Place) (marker start : String) :
    let isFile := tree.isFile cwd
    let present := tree.present cwd
    let files := projectFiles isFile present (some marker) start
    (∀ n dir, 0 < n → Path.ancestor? start n = some dir →
      present (Path.join dir marker) = true → Within start n files) ∧
    ((∀ n dir, Path.ancestor? start n = some dir →
        present (Path.join dir marker) = true → Within start n files) ↔
      (present (Path.join start marker) = true →
        files = (projectNames.map (Path.join start)).filter isFile)) := by
  intro isFile present files
  rw [← filesIn_eq]
  have habove : ∀ n dir, 0 < n → Path.ancestor? start n = some dir →
      present (Path.join dir marker) = true → Within start n files :=
    fun n dir hn hplace hmarked => within_of_marked hn hplace hmarked
  refine ⟨habove, fun h hmarked => ?_, fun h n dir hplace hmarked => ?_⟩
  · exact within_zero_iff.mp (h 0 start rfl hmarked)
  · cases n with
    | zero =>
        obtain rfl := Option.some.inj hplace
        exact within_zero_iff.mpr (h hmarked)
    | succ n => exact habove (n + 1) dir n.succ_pos hplace hmarked

/-- Started in a marked directory, the search goes on above it. -/
theorem project_files_above_marked_start :
    let tree : FileTree := ⟨[(["p"], .directory), (["repo", "p"], .directory),
      ([".git", "repo", "p"], .directory), ([".mqlint.toml", "p"], .file ByteArray.empty)]⟩
    let files := projectFiles (tree.isFile []) (tree.present []) (some ".git") "/p/repo"
    Path.ancestor? "/p/repo" 0 = some "/p/repo" ∧
      tree.present [] (Path.join "/p/repo" ".git") = true ∧ files = ["/p/.mqlint.toml"] ∧
      ¬ Within "/p/repo" 0 files := by
  intro tree files
  have hfiles : files = ["/p/.mqlint.toml"] := by decide +kernel
  refine ⟨rfl, by decide +kernel, hfiles, fun h => ?_⟩
  have hown := within_zero_iff.mp h
  have hnone : filesIn (tree.isFile []) "/p/repo" = [] := by decide +kernel
  rw [hnone, show projectFiles (tree.isFile []) (tree.present []) (some ".git") "/p/repo" = files
    from rfl, hfiles] at hown
  exact absurd hown (by decide)

end TradeScript.Settings
