import Keeper.Proofs.Layers
import Mathlib.Data.List.Basic

/-!
# Keeper — which layer a setting comes from

A configuration takes each setting from the highest layer that has it: the command line, the environment,
the file, the defaults. What a layer has there makes no difference; null, false and the empty text are
settings like any other.

* **`Environment.settings`**, **`Layer.ofEnvironment_eq`** — the settings the variables give.
* **`Options.places_settings_nodup`** — the options give each setting once.
* **`Config.keyed_readFirst`** — the file has each setting once.
* **`Config.setting?_merged`** — what stands at a setting when the layers are merged.
* **`Config.setting?_ofFields`** — a configuration has what is given for a setting, else the default.
* **`Config.highest?`**, **`Config.setting?_load`** — which layer each setting of a configuration comes
  from.
-/

namespace Keeper

open Command (Options)
open Cluster (fieldsAt)
open Layer (given? places merge references resolved coerceAt coerceEntries resolveEntries)

/-! ## The environment -/

/-- The settings that the variables of a mark give, if their names have two parts. -/
def Environment.settings (env : Environment) (mark : Text) : List (Text × Text × Value) :=
  env.filterMap fun e =>
    if e.1.startsWith mark then
      match Layer.namePath (e.1.drop mark.length) with
      | [sect, key] => some (sect, key, .text e.2)
      | _ => none
    else none

/-- A variable gives a text and never a map, so a setting of the environment replaces what
is below it as a whole. -/
theorem Environment.settings_ne_map (env : Environment) (mark : Text) :
    ∀ s ∈ env.settings mark, ∀ inner, s.2.2 ≠ .map inner := by
  intro s hs inner
  obtain ⟨e, -, he⟩ := List.mem_filterMap.mp hs
  split at he
  · split at he
    · obtain rfl := Option.some.inj he
      exact Value.noConfusion
    · cases he
  · cases he

namespace Layer

/-- A variable with two parts in its name is written as an option for the same setting
would be. This makes the environment a layer of the same kind as the command line. -/
theorem eq_write_of_writeAt {layer layer' : Fields} {text sect key : Text}
    (h : writeAt layer text [sect, key] = .ok layer') :
    layer' = Options.write layer (sect, key, .text text) := by
  rw [write_eq]
  unfold writeAt at h
  -- the section is not there or is a map; in anything else nothing can be written
  split at h
  next hget =>
    rw [fieldsAt, hget]
    exact (Except.ok.inj h).symm
  next inner hget =>
    rw [fieldsAt, hget]
    exact (Except.ok.inj h).symm
  next => cases h
  next => cases h

/-- So the layer of the environment comes about from its settings one by one, from the
empty layer. The induction is on the variables with the layer as a parameter; a variable
without the mark leaves it. -/
theorem ofEnvironment_eq {env : Environment} {mark : Text} {layer : Fields}
    (hpaths : ∀ e ∈ env, e.1.startsWith mark = true → (namePath (e.1.drop mark.length)).length = 2)
    (h : ofEnvironment env mark = .ok layer) : layer = (env.settings mark).foldl Options.write [] := by
  unfold ofEnvironment at h
  generalize ([] : Fields) = start at h ⊢
  induction env generalizing start with
  | nil => exact (Except.ok.inj h).symm
  | cons e rest ih =>
    obtain ⟨name, value⟩ := e
    obtain ⟨hpath, hrest⟩ := List.forall_mem_cons.mp hpaths
    rw [List.foldlM_cons] at h
    obtain ⟨next, hstep, h⟩ := Fault.bind_eq_ok.mp h
    rw [ih hrest next h, Environment.settings, Environment.settings, List.filterMap_cons]
    dsimp only at hstep hpath ⊢
    -- a variable with the mark has two parts by the hypothesis, so it is one setting
    by_cases hmark : name.startsWith mark = true
    · obtain ⟨sect, key, hway⟩ := List.length_eq_two.mp (hpath hmark)
      rw [if_pos hmark, hway] at hstep
      rw [if_pos hmark, hway, eq_write_of_writeAt hstep]
      rfl
    · rw [if_neg hmark] at hstep
      rw [if_neg hmark, Except.ok.inj hstep]

end Layer

/-! ## The command line -/

namespace Command.Options

/-- Where the options belong. -/
def sites : List (Text × Text) :=
  [("app", "dry_run"), ("owner", "name"), ("owner", "uid"), ("owner", "kind"), ("owner", "api_version"),
    ("owner", "namespace"), ("target", "namespace"), ("api", "base_url"), ("api", "token"),
    ("api", "verify_tls"), ("api", "ca_file"), ("api", "timeout_sec"), ("logging", "base_dir"),
    ("logging", "console_level"), ("logging", "file_level")]

/-- An option that was given adds its place to those behind it, and one that was not adds
nothing. -/
theorem sublist_given (sect key : Text) (v : Option Value) {rest : List (Text × Text × Value)}
    {sites : List (Text × Text)} (h : (places rest).Sublist sites) :
    (places ((v.map fun v => (sect, key, v)).toList ++ rest)).Sublist ((sect, key) :: sites) := by
  cases v with
  | none => exact h.cons _
  | some v => exact h.cons_cons _

/-- The settings of the options stand at some of the fifteen sites, in their order. The
dry run is split off since it is a switch and not an optional value. -/
theorem places_settings_sublist (o : Options) : (places o.settings).Sublist sites := by
  rw [← List.append_nil o.settings]
  unfold settings sites
  simp only [List.append_assoc]
  split
  · iterate 15 refine sublist_given _ _ _ ?_
    exact .refl _
  · refine .cons _ ?_
    iterate 14 refine sublist_given _ _ _ ?_
    exact .refl _

theorem places_settings_nodup (o : Options) : (places o.settings).Nodup :=
  o.places_settings_sublist.nodup (by decide +kernel)

end Command.Options

namespace Config

/-! ## The file -/

/-- A file that is read has sections with keys that are there once, as the reader of YAML
makes them. -/
theorem keyed_readFile {files : Files.Tree} {path : Text} {file : Fields}
    (h : readFile files path = .ok file) : file.Keyed := by
  obtain ⟨bytes, -, h⟩ := Fault.bind_eq_ok.mp h
  obtain ⟨v, hread, h⟩ := Fault.bind_eq_ok.mp h
  split at h
  next fields hv =>
    obtain rfl := Except.ok.inj h
    unfold Value.orElse at hv
    -- a document that counts as false stands for no settings
    split at hv
    · subst hv
      exact Yaml.keyed_read hread
    · obtain rfl := Value.map.inj hv
      exact .nil
  next => cases h

/-- The same of the first file there is, and of none at all. -/
theorem keyed_readFirst {files : Files.Tree} {paths : List Text} {file : Fields}
    (h : readFirst files paths = .ok file) : file.Keyed := by
  unfold readFirst at h
  split at h
  · exact keyed_readFile h
  · obtain rfl := Except.ok.inj h
    exact .nil

/-! ## The defaults -/

/-- What stands at a key is less deep than the map around it allows. -/
theorem fitsIn_of_get? {levels : Nat} {fields : Fields} (hfits : entriesFitIn levels fields = true)
    {t : Text} {v : Value} (h : Fields.get? fields (.text t) = some v) : fitsIn levels v = true := by
  induction fields with
  | nil => cases h
  | cons e rest ih =>
    obtain ⟨hv, hrest⟩ := Bool.and_eq_true_iff.mp hfits
    rw [Fields.get?_cons_text] at h
    split at h
    · exact Option.some.inj h ▸ hv
    · exact ih hrest h

theorem fitsIn_map (levels : Nat) (fields : Fields) :
    fitsIn (levels + 1) (.map fields) = entriesFitIn levels fields := by
  simp [fitsIn]

theorem fitsIn_defaults : entriesFitIn 1 defaults = true := by
  decide +kernel

/-- No default of a setting is a map, so that merging never goes below a setting. -/
theorem default_ne_map {sect key : Text} {v : Value} (h : defaults.setting? sect key = some v)
    (inner : Fields) : v ≠ .map inner := by
  rintro rfl
  obtain ⟨settings, hsettings, hv⟩ := Fields.setting?_eq_some_iff.mp h
  have hsection := fitsIn_of_get? fitsIn_defaults hsettings
  rw [fitsIn_map] at hsection
  have hdefault : fitsIn 0 (.map inner) = true := fitsIn_of_get? hsection hv
  cases hdefault

theorem coerceEntries_defaults : coerceEntries defaults = .ok defaults := by
  rfl

theorem references_defaults : references (.map defaults) = [] := by
  decide +kernel

/-- A default is what it stands for and what it is converted to. -/
theorem coerceAt_resolved_default (env : Environment) {sect key : Text} {v : Value}
    (h : defaults.setting? sect key = some v) : coerceAt (.text key) (resolved env v) = .ok v := by
  have hresolved := Layer.setting?_resolveEntries env defaults sect key
  rw [Layer.resolveEntries_of_no_references env references_defaults, h, Option.map_some] at hresolved
  have hcoerced := Layer.setting?_coerceEntries coerceEntries_defaults sect key
  rw [h] at hcoerced
  cases hcoerced with
  | some hv => rw [← Option.some.inj hresolved, hv]

/-! ## The layers together -/

/-- A file laid over the defaults: its setting, or the default; where its section is no
map, neither. -/
theorem setting?_merge_file {file : Fields} (hfile : file.Keyed) {sect key : Text} {default : Value}
    (hdefault : defaults.setting? sect key = some default) :
    ((merge defaults file).setting? sect key).getD default = (file.setting? sect key).getD default := by
  by_cases hmap : ∀ v, Fields.get? file (.text sect) = some v → ∃ settings, v = .map settings
  · rw [Layer.setting?_merge hfile hmap fun _ inner _ hinner => default_ne_map hinner inner rfl, hdefault]
    cases file.setting? sect key <;> rfl
  · obtain ⟨v, hget, hv⟩ :
        ∃ v, Fields.get? file (.text sect) = some v ∧ ¬∃ settings, v = .map settings := by
      simpa using hmap
    obtain ⟨hnone, hmerged⟩ :
        file.setting? sect key = none ∧ (merge defaults file).setting? sect key = none :=
      Layer.setting?_merge_of_not_map hfile hget (not_exists.mp hv) key
    rw [hnone, hmerged]

/-- What stands at a setting of the merged layers, if anything: what the highest layer has
that has something. -/
theorem setting?_merged {file : Fields} (hfile : file.Keyed)
    {environment commandLine : List (Text × Text × Value)} (honce : (places environment).Nodup)
    (honce' : (places commandLine).Nodup)
    (hflat : ∀ s ∈ environment, ∀ inner, s.2.2 ≠ .map inner)
    (hflat' : ∀ s ∈ commandLine, ∀ inner, s.2.2 ≠ .map inner) {sect key : Text} {default : Value}
    (hdefault : defaults.setting? sect key = some default) :
    ((merge (merge (merge defaults file) (environment.foldl Options.write []))
        (commandLine.foldl Options.write [])).setting? sect key).getD default
      = (((given? commandLine sect key).or (given? environment sect key)).or
          (file.setting? sect key)).getD default := by
  rw [Layer.setting?_merge_written honce' hflat', Layer.setting?_merge_written honce hflat]
  cases given? commandLine sect key with
  | some v => rfl
  | none =>
    cases given? environment sect key with
    | some v => rfl
    | none => exact setting?_merge_file hfile hdefault

end Config

/-! ## The configuration -/

/-- A record with what is given for its keys. -/
def Fields.filled (record given : Fields) : Fields :=
  record.mapKeyed fun key default => given.getD key default

/-- A section with what a layer has for its keys. -/
def Fields.filledSection (layer : Fields) : Scalar → Value → Value
  | .text sect, .map record => .map (Fields.filled record (fieldsAt layer sect))
  | _, v => v

/-- A record whose names have been checked is the record that was made before the
check. -/
theorem eq_of_checked {α : Type} {record : Text} {names : List Text} {given : Fields} {a s : α}
    (h : (do Fields.checkNames record names given; return a) = .ok s) : s = a := by
  obtain ⟨-, -, h⟩ := Fault.bind_eq_ok.mp h
  exact (Except.ok.inj h).symm

/-- A section has what is given for its keys and its defaults for the others. The lemma is
stated for each of the six sections, since each has a record of its own; their proofs are
the same. -/
theorem AppSection.fields_ofFields {given : Fields} {s : AppSection} (h : ofFields given = .ok s) :
    s.fields = ({} : AppSection).fields.filled given := by
  rw [eq_of_checked h]
  rfl

theorem ApiSection.fields_ofFields {given : Fields} {s : ApiSection} (h : ofFields given = .ok s) :
    s.fields = ({} : ApiSection).fields.filled given := by
  rw [eq_of_checked h]
  rfl

theorem ServiceSection.fields_ofFields {given : Fields} {s : ServiceSection} (h : ofFields given = .ok s) :
    s.fields = ({} : ServiceSection).fields.filled given := by
  rw [eq_of_checked h]
  rfl

theorem OwnerSection.fields_ofFields {given : Fields} {s : OwnerSection} (h : ofFields given = .ok s) :
    s.fields = ({} : OwnerSection).fields.filled given := by
  rw [eq_of_checked h]
  rfl

theorem TargetSection.fields_ofFields {given : Fields} {s : TargetSection} (h : ofFields given = .ok s) :
    s.fields = ({} : TargetSection).fields.filled given := by
  rw [eq_of_checked h]
  rfl

theorem LoggingSection.fields_ofFields {given : Fields} {s : LoggingSection} (h : ofFields given = .ok s) :
    s.fields = ({} : LoggingSection).fields.filled given := by
  rw [eq_of_checked h]
  rfl

namespace Config

/-- A section is taken from the layer as it stands there. -/
theorem sectionOf_eq {layer : Fields} {name : Text} {settings : Fields}
    (h : sectionOf layer name = .ok settings) : settings = fieldsAt layer name := by
  unfold sectionOf at h
  unfold fieldsAt
  split at h
  next hget =>
    rw [hget]
    exact (Except.ok.inj h).symm
  next settings hget =>
    rw [hget]
    exact (Except.ok.inj h).symm
  next => cases h

/-- So a configuration, seen as a map, is the defaults filled with what the layer has. All
settings can be spoken of at once in this form, where the configuration itself has a field
for each. -/
theorem fields_ofFields {layer : Fields} {config : Config} (h : ofFields layer = .ok config) :
    config.fields = defaults.mapKeyed layer.filledSection := by
  -- the six sections are read one after the other; all of them have to succeed
  obtain ⟨s₁, hs₁, h⟩ := Fault.bind_eq_ok.mp h
  obtain ⟨app, happ, h⟩ := Fault.bind_eq_ok.mp h
  obtain ⟨s₂, hs₂, h⟩ := Fault.bind_eq_ok.mp h
  obtain ⟨api, hapi, h⟩ := Fault.bind_eq_ok.mp h
  obtain ⟨s₃, hs₃, h⟩ := Fault.bind_eq_ok.mp h
  obtain ⟨service, hservice, h⟩ := Fault.bind_eq_ok.mp h
  obtain ⟨s₄, hs₄, h⟩ := Fault.bind_eq_ok.mp h
  obtain ⟨owner, howner, h⟩ := Fault.bind_eq_ok.mp h
  obtain ⟨s₅, hs₅, h⟩ := Fault.bind_eq_ok.mp h
  obtain ⟨target, htarget, h⟩ := Fault.bind_eq_ok.mp h
  obtain ⟨s₆, hs₆, h⟩ := Fault.bind_eq_ok.mp h
  obtain ⟨logging, hlogging, h⟩ := Fault.bind_eq_ok.mp h
  obtain rfl := Except.ok.inj h
  rw [fields, AppSection.fields_ofFields happ, ApiSection.fields_ofFields hapi,
    ServiceSection.fields_ofFields hservice, OwnerSection.fields_ofFields howner,
    TargetSection.fields_ofFields htarget, LoggingSection.fields_ofFields hlogging,
    sectionOf_eq hs₁, sectionOf_eq hs₂, sectionOf_eq hs₃, sectionOf_eq hs₄, sectionOf_eq hs₅,
    sectionOf_eq hs₆]
  rfl

/-- The same for one setting that is known. -/
theorem setting?_ofFields {layer : Fields} {config : Config} (h : ofFields layer = .ok config)
    {sect key : Text} {default : Value} (hdefault : defaults.setting? sect key = some default) :
    config.fields.setting? sect key = some ((layer.setting? sect key).getD default) := by
  obtain ⟨record, hrecord, hvalue⟩ := Fields.setting?_eq_some_iff.mp hdefault
  rw [Fields.setting?_eq_some_iff, fields_ofFields h, Fields.get?_mapKeyed, hrecord]
  refine ⟨Fields.filled record (fieldsAt layer sect), rfl, ?_⟩
  rw [Fields.filled, Fields.get?_mapKeyed, hvalue]
  rfl

/-! ## Loading -/

/-- A configuration that is assembled has gone through three stages, each of which may be
looked at by itself: merged, resolved and converted, and made. -/
theorem assemble_eq_ok {env : Environment} {layers : Layers} {checked : Bool} {config : Config}
    (h : assemble env layers checked = .ok config) :
    ∃ merged coerced, layers.merged = .ok merged
      ∧ coerceEntries (resolveEntries env merged) = .ok coerced ∧ ofFields coerced = .ok config := by
  obtain ⟨merged, hmerged, h⟩ := Fault.bind_eq_ok.mp h
  dsimp only at h
  by_cases hdeep : (!fitsIn depthLimit (.map merged)) = true
  · rw [if_pos hdeep] at h
    cases h
  · rw [if_neg hdeep] at h
    obtain ⟨-, -, h⟩ := Fault.bind_eq_ok.mp h
    obtain ⟨coerced, hcoerced, h⟩ := Fault.bind_eq_ok.mp h
    refine ⟨merged, coerced, hmerged, hcoerced, ?_⟩
    -- whether the required settings were checked does not change the result
    cases checked with
    | true =>
      obtain ⟨-, -, h⟩ := Fault.bind_eq_ok.mp h
      exact h
    | false => exact h

/-- A configuration has what the merged layers have for a setting, resolved and converted.
Which layer that comes from was settled when they were merged; the two changes after that
look at one setting at a time. -/
theorem setting?_of_merged {env : Environment} {merged coerced : Fields} {config : Config}
    (hcoerced : coerceEntries (resolveEntries env merged) = .ok coerced) (h : ofFields coerced = .ok config)
    {sect key : Text} {default : Value} (hdefault : defaults.setting? sect key = some default) :
    ∃ value, config.fields.setting? sect key = some value
      ∧ coerceAt (.text key) (resolved env ((merged.setting? sect key).getD default)) = .ok value := by
  refine ⟨_, setting?_ofFields h hdefault, ?_⟩
  have hvalue := Layer.setting?_coerceEntries hcoerced sect key
  rw [Layer.setting?_resolveEntries] at hvalue
  generalize coerced.setting? sect key = w at hvalue ⊢
  -- a setting that no layer has is filled from the defaults, and these are converted already
  cases hmerged : merged.setting? sect key with
  | none =>
    rw [hmerged] at hvalue
    cases hvalue
    exact coerceAt_resolved_default env hdefault
  | some v =>
    rw [hmerged] at hvalue
    cases hvalue with
    | some hw => exact hw

/-- What the highest layer has that has something at a setting. -/
def highest? (options : Options) (environment : List (Text × Text × Value)) (file : Fields)
    (sect key : Text) : Option Value :=
  [given? options.settings sect key, given? environment sect key, file.setting? sect key,
    defaults.setting? sect key].findSome? id

/-- The highest layer with something at a setting, written out as a choice between the
four. -/
theorem highest?_eq (options : Options) (environment : List (Text × Text × Value)) (file : Fields)
    {sect key : Text} {default : Value} (hdefault : defaults.setting? sect key = some default) :
    highest? options environment file sect key
      = some ((((given? options.settings sect key).or (given? environment sect key)).or
          (file.setting? sect key)).getD default) := by
  rw [highest?, hdefault]
  cases given? options.settings sect key <;> cases given? environment sect key
    <;> cases file.setting? sect key <;> rfl

/-- The configuration takes each setting from the highest layer that has it, resolved and
converted; a value that refers to no variable is converted as it is. Without an option for
it, a setting is what it is without any option. Layers are merged first and changed
afterwards, so precedence is a fact about merging alone. -/
theorem setting?_load {env : Environment} {files : Files.Tree} {options : Options} {paths : List Text}
    {mark : Text} {checked : Bool} {config : Config}
    (hload : load env files { overrides := .map options.overrides, paths, mark, checked } = .ok config)
    (hpaths : ∀ e ∈ env, e.1.startsWith mark = true →
      (Layer.namePath (e.1.drop mark.length)).length = 2)
    (honce : (places (env.settings mark)).Nodup)
    (hflat : ∀ s ∈ options.settings, ∀ inner, s.2.2 ≠ .map inner) :
    ∃ file, readFirst files paths = .ok file ∧
      ∀ sect key, (defaults.setting? sect key).isSome = true →
        ∃ given value, highest? options (env.settings mark) file sect key = some given
          ∧ config.fields.setting? sect key = some value
          ∧ coerceAt (.text key) (resolved env given) = .ok value
          ∧ (references given = [] → coerceAt (.text key) given = .ok value)
          ∧ (given? options.settings sect key = none →
            highest? {} (env.settings mark) file sect key = some given) := by
  -- loading is undone stage by stage, from the file to the configuration
  obtain ⟨file, hfile, h⟩ := Fault.bind_eq_ok.mp hload
  obtain ⟨environment, henvironment, h⟩ := Fault.bind_eq_ok.mp h
  obtain ⟨merged, coerced, hmerged, hcoerced, hconfig⟩ := assemble_eq_ok h
  obtain rfl := Layer.ofEnvironment_eq hpaths henvironment
  obtain rfl := Except.ok.inj ((Layer.lay_map _ _).symm.trans hmerged)
  refine ⟨file, hfile, fun sect key hknown => ?_⟩
  obtain ⟨default, hdefault⟩ := Option.isSome_iff_exists.mp hknown
  have hgiven := setting?_merged (keyed_readFirst hfile) honce options.places_settings_nodup
    (env.settings_ne_map mark) hflat hdefault
  obtain ⟨value, hvalue, hconverted⟩ := setting?_of_merged hcoerced hconfig hdefault
  rw [Options.overrides, hgiven] at hconverted
  have hhighest := highest?_eq options (env.settings mark) file hdefault
  refine ⟨_, value, hhighest, hvalue, hconverted, fun hplain => ?_, fun hnone => ?_⟩
  · rw [Layer.resolved_of_no_references env hplain] at hconverted
    exact hconverted
  · have hempty : given? ({} : Options).settings sect key = none := rfl
    rw [← hhighest, highest?, highest?, hnone, hempty]

/-! ## A configuration of four layers -/

namespace Layered

def environment : Environment :=
  [("HOME", "/home"), ("SVCSYNC_API__BASE_URL", "https://env"), ("SVCSYNC_API__TOKEN", ""),
    ("SVCSYNC_OWNER__NAME", "cluster")]

def files : Files.Tree :=
  ({} : Files.Tree).putFile ["servicesync.yml"]
    (Text.Utf8.encode "api:\n  token: t\nowner:\n  uid: u\nservice:\n  label_key: null\n")

/-- A time limit of none. -/
def options : Command.Options where
  baseUrl := some "https://api"
  space := some "ops"
  timeout := some (.int 0)

def request : Request where
  overrides := .map options.overrides
  paths := defaultPaths "/home"

/-- The empty token of the environment, the null label of the file and the time limit of
none stand. -/
def config : Config where
  api := { baseUrl := "https://api", token := "", timeout := .int 0 }
  service := { labelKey := .null }
  owner := { name := "cluster", uid := "u" }
  target := { space := "ops" }

end Layered

set_option maxRecDepth 100000 in
theorem setting?_load_layered :
    load Layered.environment Layered.files Layered.request = .ok Layered.config
      ∧ (∀ e ∈ Layered.environment, e.1.startsWith Layer.variableMark = true →
        (Layer.namePath (e.1.drop Layer.variableMark.length)).length = 2)
      ∧ (places (Layered.environment.settings Layer.variableMark)).Nodup
      ∧ (∀ s ∈ Layered.options.settings, ∀ inner, s.2.2 ≠ .map inner)
      ∧ ∃ file, readFirst Layered.files (defaultPaths "/home") = .ok file ∧
        ∀ sect key, (defaults.setting? sect key).isSome = true →
          ∃ given value,
            highest? Layered.options (Layered.environment.settings Layer.variableMark) file sect key
              = some given
            ∧ Layered.config.fields.setting? sect key = some value
            ∧ coerceAt (.text key) (resolved Layered.environment given) = .ok value := by
  have hload : load Layered.environment Layered.files Layered.request = .ok Layered.config :=
    Fault.eq_ok_of_toOption (by decide +kernel)
  have hpaths : ∀ e ∈ Layered.environment, e.1.startsWith Layer.variableMark = true →
      (Layer.namePath (e.1.drop Layer.variableMark.length)).length = 2 := by
    decide +kernel
  have honce : (places (Layered.environment.settings Layer.variableMark)).Nodup := by
    decide +kernel
  have hflat : ∀ s ∈ Layered.options.settings, ∀ inner, s.2.2 ≠ .map inner := by
    simp [Layered.options, Command.Options.settings]
  -- all hypotheses are computed; what the theorem says is then said of every known setting
  obtain ⟨file, hfile, hsettings⟩ := setting?_load hload hpaths honce hflat
  refine ⟨hload, hpaths, honce, hflat, file, hfile, fun sect key hknown => ?_⟩
  obtain ⟨given, value, hhighest, hvalue, hconverted, -, -⟩ := hsettings sect key hknown
  exact ⟨given, value, hhighest, hvalue, hconverted⟩

end Config

end Keeper
