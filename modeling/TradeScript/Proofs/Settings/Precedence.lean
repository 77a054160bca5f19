import TradeScript.Proofs.Data.Keys

/-!
# TradeScript.Proofs.Settings.Precedence

Which source a setting is taken from. The sources stand in one order: the defaults, the
file of the user, the files of the project, the files asked for by name, the environment
(`Source.order`). Settings that are loaded have, in every field, the value of the last
source that mentions the field (`Wins`). Loading fails where a source cannot be read or
where the value that counts for a field is not of its kind.

Values that are overruled are not looked at, with one exception: two maps for one field
are joined key by key, so a map that is overruled by a map lives on in the keys that the
second one does not have.

The layers are merged as records and the fields are read from the result. That each layer
has a key once (`nodup_keys_of_layer?`) turns this into a statement about one field at a
time (`read?_winning?`).
-/

namespace TradeScript.Settings

/-! ### Fields -/

/-- The fields of the settings. -/
inductive Field where
  | logLevel
  | logDir
  | maxProblems
  | dialect
  | defaultDialect
  | validationEnabled
  | disabledCodes
  | maxInputBytes
  | disableInputLimit
  deriving Repr, DecidableEq

namespace Field

/-- What a field holds. -/
def Value : Field → Type
  | logLevel => LogLevel
  | logDir => Option String
  | dialect | defaultDialect => Option Dialect
  | validationEnabled | disableInputLimit => Bool
  | disabledCodes => Option (List String)
  | maxProblems | maxInputBytes => Option Nat

def name : Field → String
  | logLevel => "log_level"
  | logDir => "log_dir"
  | maxProblems => "max_problems"
  | dialect => "dialect"
  | defaultDialect => "default_dialect"
  | validationEnabled => "validation_enabled"
  | disabledCodes => "disabled_codes"
  | maxInputBytes => "max_input_bytes"
  | disableInputLimit => "disable_input_limit"

/-- The value that data stands for, if it is of the kind of the field. -/
def decode : (f : Field) → Data → Option f.Value
  | logLevel, d => d.asLeadingTag?.bind LogLevel.ofTag?
  | logDir, d => d.asOption? Data.asString?
  | dialect, d | defaultDialect, d => d.asOption? fun d => d.asLeadingTag?.bind Dialect.ofTag?
  | validationEnabled, d | disableInputLimit, d => d.asBool?
  | disabledCodes, d => d.asOption? (Data.asList? Data.asString?)
  | maxProblems, d | maxInputBytes, d => d.asOption? Data.asNat64?

/-- The value of a field. -/
def get : (f : Field) → Settings → f.Value
  | logLevel, s => s.logLevel
  | logDir, s => s.logDir
  | maxProblems, s => s.maxProblems
  | dialect, s => s.dialect
  | defaultDialect, s => s.defaultDialect
  | validationEnabled, s => s.validationEnabled
  | disabledCodes, s => s.disabledCodes
  | maxInputBytes, s => s.maxInputBytes
  | disableInputLimit, s => s.disableInputLimit

/-- A field is read from values by name, and has its default where there is none. -/
def read? (f : Field) (value? : String → Option Data) : Option f.Value :=
  optionalField? value? f.name (f.get {}) f.decode

end Field

variable {value? : String → Option Data}

/-- Settings are read field by field. -/
theorem ofFields?_eq_some_iff {settings : Settings} :
    ofFields? Data.asLeadingTag? value? = some settings ↔
      ∀ f : Field, f.read? value? = some (f.get settings) := by
  constructor
  · intro h f
    simp only [ofFields?, Option.bind_eq_bind, Option.bind_eq_some_iff] at h
    obtain ⟨_, h₁, _, h₂, _, h₃, _, h₄, _, h₅, _, h₆, _, h₇, _, h₈, _, h₉, hsettings⟩ := h
    obtain rfl := Option.some.inj hsettings
    cases f with
    | logLevel => exact h₁
    | logDir => exact h₂
    | maxProblems => exact h₃
    | dialect => exact h₄
    | defaultDialect => exact h₅
    | validationEnabled => exact h₆
    | disabledCodes => exact h₇
    | maxInputBytes => exact h₈
    | disableInputLimit => exact h₉
  · intro h
    simp only [ofFields?, Option.bind_eq_bind, Option.bind_eq_some_iff]
    exact ⟨_, h .logLevel, _, h .logDir, _, h .maxProblems, _, h .dialect, _, h .defaultDialect,
      _, h .validationEnabled, _, h .disabledCodes, _, h .maxInputBytes, _, h .disableInputLimit,
      rfl⟩

/-- Settings that cannot be read have a field that cannot be read. -/
theorem exists_of_ofFields?_eq_none (h : ofFields? Data.asLeadingTag? value? = none) :
    ∃ f : Field, f.read? value? = none := by
  by_contra hall
  simp only [not_exists, ← ne_eq, Option.ne_none_iff_exists'] at hall
  choose v hv using hall
  have hsome : ofFields? Data.asLeadingTag? value? =
      some ⟨v .logLevel, v .logDir, v .maxProblems, v .dialect, v .defaultDialect,
        v .validationEnabled, v .disabledCodes, v .maxInputBytes, v .disableInputLimit⟩ := by
    refine ofFields?_eq_some_iff.mpr fun f => ?_
    cases f <;> exact hv _
  rw [h] at hsome
  cases hsome

/-! ### Sources -/

/-- Where a value can come from. -/
inductive Source where
  | defaults
  | file (path : String)
  | environment
  deriving Repr, DecidableEq

/-- The default settings, as the lowest layer. -/
def defaultLayer : Layer :=
  match ({} : Settings).toData with
  | .map entries => entries
  | _ => []

namespace Source

/-- The sources, lowest rank first. -/
def order (found : Sources) : List Source :=
  .defaults :: (found.user.toList ++ found.project ++ found.explicit).map .file ++ [.environment]

/-- The file that a source is. -/
def path? : Source → Option String
  | file path => some path
  | _ => none

/-- What a source says, if it can be read. -/
def layer? (s : Surroundings) : Source → Option Layer
  | defaults => some defaultLayer
  | file path => Layer.ofFile? s.tree s.cwd path
  | environment => (Layer.ofEnvironment s.environment).toOption

end Source

/-- A file that is not there, cannot be read as a text, or is not in its format. -/
def Unreadable (s : Surroundings) (path : String) : Prop :=
  (∃ fault, s.tree.readText s.cwd path = .error fault) ∨
    ∃ text, s.tree.readText s.cwd path = .ok text ∧ Layer.ofText? path text = none

/-- What the sources say about a field, lowest rank first. -/
def said (s : Surroundings) (found : Sources) (f : Field) : List Data :=
  (Source.order found).filterMap fun source => (source.layer? s).bind (Data.lookup · f.name)

/-- The value that counts for a field is the last one that a source gives it. If that is a
map and the one before it is a map too, it is merged into what was said before. -/
def Wins (s : Surroundings) (found : Sources) (f : Field) (value : Data) : Prop :=
  ∃ before last, said s found f = before ++ [last] ∧
    value = if last.isMap && before.getLast?.any Data.isMap then (Data.joined before).merge last
      else last

/-- The file of the highest rank is the last one of the order. -/
theorem primary?_eq_getLast? (found : Sources) :
    found.primary? = ((Source.order found).filterMap Source.path?).getLast? := by
  have hfiles : ∀ paths : List String, (paths.map Source.file).filterMap Source.path? = paths := by
    intro paths
    rw [List.filterMap_map]
    exact List.filterMap_some
  have hpaths : (Source.order found).filterMap Source.path? = found.files := by
    rw [Source.order, List.cons_append, List.filterMap_cons_none rfl, List.filterMap_append, hfiles]
    exact List.append_nil _
  rw [hpaths, Sources.files, List.getLast?_append, List.getLast?_append, Sources.primary?,
    Option.or_assoc]
  cases found.user <;> rfl

/-! ### Reading the sources -/

theorem map_eq_of_mapM {α β : Type} {f : α → Option β} {xs : List α} {ys : List β}
    (h : xs.mapM f = some ys) : xs.map f = ys.map some := by
  induction xs generalizing ys with
  | nil =>
      obtain rfl : [] = ys := by simpa using h
      rfl
  | cons x xs ih =>
      simp only [List.mapM_cons, Option.bind_eq_bind, Option.bind_eq_some_iff] at h
      obtain ⟨y, hy, rest, hrest, h⟩ := h
      obtain rfl := Option.some.inj h
      rw [List.map_cons, List.map_cons, hy, ih hrest]

theorem exists_of_mapM_eq_none {α β : Type} {f : α → Option β} {xs : List α}
    (h : xs.mapM f = none) : ∃ x ∈ xs, f x = none := by
  induction xs with
  | nil => simp at h
  | cons x xs ih =>
      cases hx : f x with
      | none => exact ⟨x, List.mem_cons_self, hx⟩
      | some y =>
          cases hrest : xs.mapM f with
          | none =>
              obtain ⟨x', hx', hnone⟩ := ih hrest
              exact ⟨x', List.mem_cons_of_mem x hx', hnone⟩
          | some ys => simp [List.mapM_cons, hx, hrest] at h

variable {s : Surroundings} {found : Sources} {ls : List Layer}

/-- The sources behind the defaults give the layers that are merged, in their order. -/
theorem map_layer?_order (h : layers s found = .ok ls) :
    (Source.order found).map (Source.layer? s) = (defaultLayer :: ls).map some := by
  simp only [layers] at h
  split at h
  · simp at h
  · simp at h
  · next files environment hfiles henvironment =>
      obtain rfl := Except.ok.inj h
      have hread := map_eq_of_mapM hfiles
      rw [Sources.files] at hread
      simp [Source.order, Source.layer?, henvironment, Except.toOption, ← hread, Function.comp_def]

theorem isSome_layer? (h : layers s found = .ok ls) :
    ∀ source ∈ Source.order found, (source.layer? s).isSome := by
  intro source hsource
  have hmem : source.layer? s ∈ (Source.order found).map (Source.layer? s) :=
    List.mem_map.mpr ⟨source, hsource, rfl⟩
  rw [map_layer?_order h] at hmem
  obtain ⟨layer, -, hlayer⟩ := List.mem_map.mp hmem
  rw [← hlayer]
  rfl

theorem unreadable_of_ofFile? {path : String} (h : Layer.ofFile? s.tree s.cwd path = none) :
    Unreadable s path := by
  unfold Layer.ofFile? at h
  split at h
  · next text htext => exact .inr ⟨text, htext, h⟩
  · next fault hfault => exact .inl ⟨fault, hfault⟩

/-- Why there are no layers. -/
theorem layers_eq_error {fault : LoadFault} (h : layers s found = .error fault) :
    (fault = .torn ∧ Layer.ofEnvironment s.environment = .error .torn) ∨
      (fault = .unreadable ∧ ∃ path ∈ found.files, Unreadable s path) := by
  simp only [layers] at h
  split at h
  · next henvironment =>
      exact .inl ⟨(Except.error.inj h).symm, henvironment⟩
  · next hfiles _ =>
      obtain ⟨path, hpath, hread⟩ := exists_of_mapM_eq_none hfiles
      exact .inr ⟨(Except.error.inj h).symm, path, hpath, unreadable_of_ofFile? hread⟩
  · simp at h

theorem said_eq (h : layers s found = .ok ls) (f : Field) :
    said s found f = (defaultLayer :: ls).filterMap (Data.lookup · f.name) := by
  have hbind : said s found f = ((Source.order found).map (Source.layer? s)).filterMap
      (·.bind (Data.lookup · f.name)) := by
    rw [List.filterMap_map]
    rfl
  rw [hbind, map_layer?_order h, List.filterMap_map]
  rfl

theorem nodup_keys_of_layer? {source : Source} {layer : Layer} (h : source.layer? s = some layer) :
    (Data.keys layer).Nodup := by
  cases source with
  | defaults =>
      obtain rfl := Option.some.inj h
      decide
  | file path =>
      simp only [Source.layer?, Layer.ofFile?] at h
      split at h
      · exact Layer.nodup_keys_of_ofText? h
      · simp at h
  | environment =>
      simp only [Source.layer?] at h
      cases henv : Layer.ofEnvironment s.environment with
      | error => simp [henv, Except.toOption] at h
      | ok read =>
          obtain rfl : read = layer := by simpa [henv, Except.toOption] using h
          exact Layer.nodup_keys_of_ofEnvironment henv

theorem nodup_keys_of_layers (h : layers s found = .ok ls) :
    ∀ layer ∈ ls, (Data.keys layer).Nodup := by
  intro layer hlayer
  have hmem : some layer ∈ (Source.order found).map (Source.layer? s) := by
    rw [map_layer?_order h]
    exact List.mem_map.mpr ⟨layer, List.mem_cons_of_mem _ hlayer, rfl⟩
  obtain ⟨source, -, hsource⟩ := List.mem_map.mp hmem
  exact nodup_keys_of_layer? hsource

/-- The default of a field is no map, and it is read as that default. -/
theorem lookup_defaultLayer (f : Field) :
    ∃ d, Data.lookup defaultLayer f.name = some d ∧ d.isMap = false ∧
      f.decode d = some (f.get {}) := by
  cases f <;> exact ⟨_, rfl, rfl, rfl⟩

/-- What is read of a field: its default and all that the layers say about it, joined. -/
theorem read?_winning? (h : layers s found = .ok ls) (f : Field) :
    f.read? (Layer.winning? ls) = f.decode (Data.joined (said s found f)) := by
  obtain ⟨d, hd, hmap, hdecode⟩ := lookup_defaultLayer f
  have hsaid : said s found f = d :: ls.filterMap (Data.lookup · f.name) := by
    rw [said_eq h, List.filterMap_cons, hd]
  rw [hsaid, Field.read?, optionalField?, Layer.winning?, Layer.merged,
    Data.lookup_foldl_mergeEntries (nodup_keys_of_layers h)]
  cases ls.filterMap (Data.lookup · f.name) with
  | nil =>
      show some (f.get {}) = f.decode (Data.null.merge d)
      rw [Data.null_merge, hdecode]
  | cons value values =>
      rw [Data.joined_cons_of_not_isMap hmap]
      rfl

/-- What the sources say comes to the value that counts. -/
theorem wins_joined (h : layers s found = .ok ls) (f : Field) :
    Wins s found f (Data.joined (said s found f)) := by
  have hne : said s found f ≠ [] := by
    obtain ⟨d, hd, -⟩ := lookup_defaultLayer f
    rw [said_eq h, List.filterMap_cons, hd]
    exact List.cons_ne_nil _ _
  obtain ⟨before, last, hsaid⟩ := List.eq_nil_or_concat' (said s found f) |>.resolve_left hne
  refine ⟨before, last, hsaid, ?_⟩
  rw [hsaid]
  split
  · exact Data.joined_concat before last
  · next hmaps => exact Data.joined_concat_eq (Bool.not_eq_true _ ▸ hmaps)

/-- Loading settings takes every field from the last source that mentions it, and fails
only because a source cannot be read or because the value that counts is not of the kind of
its field. -/
theorem load_takes_last_mention (s : Surroundings) (query : Query) :
    match load s query with
    | .ok (settings, found) =>
        found = sources s query ∧
        found.primary? = ((Source.order found).filterMap Source.path?).getLast? ∧
        (∀ source ∈ Source.order found, (source.layer? s).isSome) ∧
        ∀ f : Field, ∃ value, Wins s found f value ∧ f.decode value = some (f.get settings)
    | .error fault =>
        (fault = .torn ∧ Layer.ofEnvironment s.environment = .error .torn) ∨
        (fault = .unreadable ∧ ∃ path ∈ (sources s query).files, Unreadable s path) ∨
        (fault = .unreadable ∧
          (∀ source ∈ Source.order (sources s query), (source.layer? s).isSome) ∧
          ∃ f value, Wins s (sources s query) f value ∧ f.decode value = none) := by
  simp only [load]
  cases hlayers : layers s (sources s query) with
  | error fault =>
      show _ ∨ _ ∨ _
      obtain htorn | hfile := layers_eq_error hlayers
      · exact .inl htorn
      · exact .inr (.inl hfile)
  | ok ls =>
      have hreadable := isSome_layer? hlayers
      cases hfields : ofFields? Data.asLeadingTag? (Layer.winning? ls) with
      | some settings =>
          simp only [bind, Except.bind, hfields]
          refine ⟨rfl, primary?_eq_getLast? _, hreadable, fun f => ?_⟩
          refine ⟨_, wins_joined hlayers f, ?_⟩
          rw [← read?_winning? hlayers]
          exact ofFields?_eq_some_iff.mp hfields f
      | none =>
          simp only [bind, Except.bind, hfields]
          refine .inr (.inr ⟨rfl, hreadable, ?_⟩)
          obtain ⟨f, hf⟩ := exists_of_ofFields?_eq_none hfields
          refine ⟨f, _, wins_joined hlayers f, ?_⟩
          rw [← read?_winning? hlayers]
          exact hf

/-- Two settings files, of which the second one has the higher rank. -/
def twoFiles (first second : String) : Surroundings :=
  { tree := ⟨[(["a.json"], .file first.toUTF8), (["b.json"], .file second.toUTF8)]⟩ }

/-- Both files, asked for by name. -/
def bothFiles : Query :=
  { explicit := ["/a.json", "/b.json"] }

/-- Each file names a dialect by a map. -/
def dialectTwice : Surroundings :=
  twoFiles "\x7b\"dialect\": \x7b\"mql4\": null\x7d\x7d"
    "\x7b\"dialect\": \x7b\"mql5\": null\x7d\x7d"

/-- The second file names a level by a map, and the first one has a map that is none. -/
def levelTwice : Surroundings :=
  twoFiles "\x7b\"log_level\": \x7b\"aa\": 1\x7d\x7d"
    "\x7b\"log_level\": \x7b\"warn\": null\x7d\x7d"

/-- A map for a field is not always overruled by a later one. Of two dialects the first is
loaded, and a map that names no level makes loading fail although a later one names one. -/
theorem load_joins_maps :
    ((load dialectTwice bothFiles).toOption.map fun (settings, _) => settings.dialect) =
        some (some .mql4) ∧
      ((said dialectTwice (sources dialectTwice bothFiles) .dialect).getLast?.bind
        (Field.decode .dialect) : Option (Option Dialect)) = some (some .mql5) ∧
      (load levelTwice bothFiles).toOption = none ∧
      ((said levelTwice (sources levelTwice bothFiles) .logLevel).getLast?.bind
        (Field.decode .logLevel) : Option LogLevel) = some .warn ∧
      ∀ source ∈ Source.order (sources levelTwice bothFiles),
        (source.layer? levelTwice).isSome := by
  decide +kernel

end TradeScript.Settings
