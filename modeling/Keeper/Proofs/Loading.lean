import Keeper.Proofs.Breakage
import Keeper.Proofs.Precedence

/-!
# Keeper — how loading a configuration ends

Loading gives a configuration, refuses a bad value or breaks. How it breaks can be told stage by stage: by
what the variables say, how deep the layers are, which leaf is converted first to no end, and what the
sections are once all is converted.

A configuration that is given need not be of use. Where an integer is wanted, null, lists and maps are let
through, and whoever then asks for the integer fails.

* **`Config.Parsed`** — what the file says.
* **`Config.validate_eq_ok_iff`**, **`breaks_validate_iff`** — the settings no run can do without.
* **`Config.ofFields_cases`** — the layers that are a configuration.
* **`Config.Breaking`** — everything by which loading breaks.
* **`Config.load_settles`** — loading breaks by that alone, and which configurations are of use.
-/

namespace Keeper

open Cluster (fieldsAt)
open Layer (coerceEntries resolveEntries coerceAt coerceLeaf resolved)

namespace Config

/-! ## The file -/

/-- The first of the files that is there can be read, and says the value; without one it
is an empty map. -/
def Parsed (files : Files.Tree) (paths : List Text) (document : Value) : Prop :=
  match paths.find? fun path => (files.at? path).isSome with
  | some path => ∃ bytes, files.bytes path = .ok bytes ∧ Yaml.read (supply bytes) = .ok document
  | none => document = .map []

/-- A file that is read gives the map its document is; a null stands for an empty one, and
anything else is refused. -/
theorem readFile_eq {files : Files.Tree} {path : Text} {bytes : List UInt8} {document : Value}
    (hbytes : files.bytes path = .ok bytes) (hread : Yaml.read (supply bytes) = .ok document) :
    readFile files path = match document.orElse (.map []) with
      | .map fields => .ok fields
      | _ => .error (.badValue (.notAMapping path)) := by
  unfold readFile
  simp only [hbytes, hread, bind, Except.bind]
  cases document.orElse (.map []) <;> rfl

/-- A file that says a map, or nothing, is a layer; any other is a bad value. An empty
document counts as an empty map. -/
theorem readFirst_cases {files : Files.Tree} {paths : List Text} {document : Value}
    (h : Parsed files paths document) :
    (∃ file, document.orElse (.map []) = .map file ∧ readFirst files paths = .ok file)
      ∨ ((∀ file, document.orElse (.map []) ≠ .map file)
        ∧ ∃ b, readFirst files paths = .error (.badValue b)) := by
  unfold Parsed at h
  unfold readFirst
  -- no file there counts as an empty one; a file that is there is read, and only a map is accepted
  cases hpath : paths.find? fun path => (files.at? path).isSome with
  | none =>
    rw [hpath] at h
    dsimp only at h
    rw [h]
    exact .inl ⟨[], rfl, rfl⟩
  | some path =>
    rw [hpath] at h
    obtain ⟨bytes, hbytes, hread⟩ := h
    dsimp only
    rw [readFile_eq hbytes hread]
    split
    next fields hmap => exact .inl ⟨fields, hmap, rfl⟩
    next hnot => exact .inr ⟨hnot, _, rfl⟩

/-! ## What no run can do without -/

/-- A setting is there and counts as true. -/
def Given (layer : Fields) (place : Text × Text) : Prop :=
  ∃ v, layer.setting? place.1 place.2 = some v ∧ v.truthy = true

theorem Given.sectioned {layer : Fields} {place : Text × Text} (h : Given layer place) :
    Sectioned layer place.1 := by
  obtain ⟨v, hv, -⟩ := h
  obtain ⟨settings, hsettings, -⟩ := Fields.setting?_eq_some_iff.mp hv
  intro w hw
  exact ⟨settings, Option.some.inj (hw.symm.trans hsettings)⟩

/-- A setting that is not there counts as null, so it is given exactly if its value is
true. -/
theorem given_iff {layer : Fields} {place : Text × Text} :
    Given layer place ↔ ((layer.setting? place.1 place.2).getD .null).truthy = true := by
  unfold Given
  cases layer.setting? place.1 place.2 with
  | none => simp [Value.truthy, Scalar.truthy]
  | some v => simp

/-- In a section that is a map, or is not there, a setting is looked up and judged. -/
theorem isMissing_of_sectioned {layer : Fields} {place : Text × Text} (h : Sectioned layer place.1) :
    isMissing layer place = .ok (!((layer.setting? place.1 place.2).getD .null).truthy) := by
  unfold isMissing Fields.setting? fieldsAt
  cases hget : Fields.get? layer (.text place.1) with
  | none => rfl
  | some v =>
    obtain ⟨settings, rfl⟩ := h v hget
    rfl

/-- In anything else the lookup breaks, before the setting is judged. -/
theorem breaks_isMissing {layer : Fields} {place : Text × Text} (h : ¬Sectioned layer place.1) :
    Breaks (isMissing layer place) := by
  obtain ⟨v, hget, hv⟩ := (not_sectioned_iff layer place.1).mp h
  unfold isMissing
  rw [hget]
  cases v with
  | map settings => exact absurd rfl (hv settings)
  | _ => exact breaks_misuse _

section Asking

variable {α : Type} {ask : α → Except Fault Bool} {answer : α → Bool} {xs : List α}

/-- Items that all answer are kept by their answers. Asking for a required place may fail,
where its section is no map; where no question fails, the loop is a plain filter. -/
theorem filterM_eq_ok (hask : ∀ x ∈ xs, ask x = .ok (answer x)) :
    xs.filterM ask = .ok (xs.filter answer) := by
  -- the filter collects what it keeps in reverse, so the induction is about what has been kept so far
  have hfrom (kept : List α) :
      xs.filterAuxM ask kept = .ok ((xs.filter answer).reverse ++ kept) := by
    induction xs generalizing kept with
    | nil => rfl
    | cons x rest ih =>
      rw [List.forall_mem_cons] at hask
      refine Fault.bind_eq_ok.mpr ⟨answer x, hask.1, ?_⟩
      rw [ih hask.2]
      cases hx : answer x <;> simp [hx]
  refine Fault.bind_eq_ok.mpr ⟨_, hfrom [], ?_⟩
  rw [List.append_nil, List.reverse_reverse]
  rfl

/-- If one of them breaks, and those that do not answer, so do all. Loading asks in order
and stops at the first that breaks; that there is one is enough, whichever it is. -/
theorem breaks_filterM (hask : ∀ x ∈ xs, (∃ b, ask x = .ok b) ∨ Breaks (ask x))
    (hbreaks : ∃ x ∈ xs, Breaks (ask x)) : Breaks (xs.filterM ask) := by
  have hfrom (kept : List α) : Breaks (xs.filterAuxM ask kept) := by
    induction xs generalizing kept with
    | nil => simp at hbreaks
    | cons x rest ih =>
      rw [List.forall_mem_cons] at hask
      refine breaks_bind_iff.mpr ?_
      rcases hask.1 with ⟨b, hanswer⟩ | hbroken
      · -- it is a later one that breaks
        refine .inr ⟨b, hanswer, ih hask.2 ?_ _⟩
        obtain ⟨y, hy, hbroken⟩ := hbreaks
        rcases List.mem_cons.mp hy with rfl | hy
        · rw [hanswer] at hbroken
          exact absurd hbroken (not_breaks_ok _)
        · exact ⟨y, hy, hbroken⟩
      · exact .inl hbroken
  exact breaks_bind_iff.mpr (.inl (hfrom []))

end Asking

/-- The settings no run can do without are accepted if all of them are there, and else are
a bad value, as long as their sections are maps. -/
theorem validate_of_sectioned {layer : Fields} (h : ∀ place ∈ required, Sectioned layer place.1) :
    ((∀ place ∈ required, Given layer place) ∧ validate layer = .ok ())
      ∨ ((∃ place ∈ required, ¬Given layer place) ∧ ∃ b, validate layer = .error (.badValue b)) := by
  have hmissing : required.filterM (isMissing layer)
      = .ok (required.filter fun place => !((layer.setting? place.1 place.2).getD .null).truthy) :=
    filterM_eq_ok fun place hplace => isMissing_of_sectioned (h place hplace)
  unfold validate
  rw [hmissing]
  -- the settings that are missing are listed, and an empty list means that all are given
  cases hempty : required.filter fun place =>
      !((layer.setting? place.1 place.2).getD .null).truthy with
  | nil =>
    refine .inl ⟨fun place hplace => given_iff.mpr ?_, rfl⟩
    simpa using List.filter_eq_nil_iff.mp hempty place hplace
  | cons place rest =>
    have hmem := hempty ▸ List.mem_cons_self (a := place) (l := rest)
    rw [List.mem_filter] at hmem
    refine .inr ⟨⟨place, hmem.1, ?_⟩, _, rfl⟩
    rw [given_iff]
    simpa using hmem.2

/-- All four required settings are looked up, so one of them in a broken section is
enough. -/
theorem breaks_validate {layer : Fields} {place : Text × Text} (hplace : place ∈ required)
    (h : ¬Sectioned layer place.1) : Breaks (validate layer) := by
  have hasked : ∀ place ∈ required,
      (∃ b, isMissing layer place = .ok b) ∨ Breaks (isMissing layer place) := by
    intro place _
    by_cases hsectioned : Sectioned layer place.1
    · exact .inl ⟨_, isMissing_of_sectioned hsectioned⟩
    · exact .inr (breaks_isMissing hsectioned)
  exact breaks_bind_iff.mpr (.inl (breaks_filterM hasked ⟨place, hplace, breaks_isMissing h⟩))

/-- The check passes exactly if all that is required is given. A place is given if its
setting counts as true, so a null or an empty text is as good as none; the port is not
among the places. -/
theorem validate_eq_ok_iff (layer : Fields) :
    validate layer = .ok () ↔ ∀ place ∈ required, Given layer place := by
  constructor
  · intro hvalid
    -- a section that is no map would have broken the check before it could pass
    have hsectioned : ∀ place ∈ required, Sectioned layer place.1 := by
      intro place hplace
      refine Classical.byContradiction fun hnot => ?_
      obtain ⟨f, hf, -⟩ := breaks_validate hplace hnot
      cases hvalid.symm.trans hf
    rcases validate_of_sectioned hsectioned with ⟨hgiven, -⟩ | ⟨-, b, hbad⟩
    · exact hgiven
    · cases hvalid.symm.trans hbad
  · intro hgiven
    rcases validate_of_sectioned fun place hplace => (hgiven place hplace).sectioned with
      ⟨-, hvalid⟩ | ⟨⟨place, hplace, hnot⟩, -⟩
    · exact hvalid
    · exact absurd (hgiven place hplace) hnot

/-- Asking for these settings breaks if a section of theirs is no map. Whether the
settings themselves are there is another question, and answered with a bad value. -/
theorem breaks_validate_iff (layer : Fields) :
    Breaks (validate layer) ↔ ∃ place ∈ required, ¬Sectioned layer place.1 := by
  constructor
  · intro hbreaks
    refine Classical.byContradiction fun hnone => ?_
    have hsectioned : ∀ place ∈ required, Sectioned layer place.1 := by simpa using hnone
    rcases validate_of_sectioned hsectioned with ⟨-, hvalid⟩ | ⟨-, b, hbad⟩
    · exact not_breaks_ok _ (hvalid ▸ hbreaks)
    · exact not_breaks_badValue b (hbad ▸ hbreaks)
  · rintro ⟨place, hplace, hnot⟩
    exact breaks_validate hplace hnot

/-! ## The sections

Each section is a record that takes its fields by their names, and all names are among the defaults. -/

/-- The keys are names all of them, or one is none. -/
theorem names?_cases (fields : Fields) :
    (∃ names, fields.names? = some names ∧ fields.map Prod.fst = names.map Scalar.text)
      ∨ (fields.names? = none ∧ ∃ e ∈ fields, ∀ name : Text, e.1 ≠ .text name) := by
  induction fields with
  | nil => exact .inl ⟨[], rfl, rfl⟩
  | cons e rest ih =>
    obtain ⟨k, v⟩ := e
    -- a key that is no name makes the whole fail, wherever it stands
    by_cases hk : ∃ name : Text, k = .text name
    · obtain ⟨name, rfl⟩ := hk
      rw [Fields.names?]
      rcases ih with ⟨names, hnames, hkeys⟩ | ⟨hnone, e, he, hname⟩
      · rw [hnames]
        exact .inl ⟨name :: names, rfl, congrArg (Scalar.text name :: ·) hkeys⟩
      · rw [hnone]
        exact .inr ⟨rfl, e, List.mem_cons_of_mem _ he, hname⟩
    · have hname : ∀ name : Text, k ≠ .text name := not_exists.mp hk
      refine .inr ⟨?_, (k, v), List.mem_cons_self, hname⟩
      cases k with
      | text name => exact absurd rfl (hname name)
      | _ => rfl

/-- A record takes fields that all have names of its own. Any other field is what calling
the record with an unknown keyword comes to, which is no bad value and is not caught. -/
theorem checkNames_cases (record : Text) (known : List Text) (fields : Fields) :
    ((∀ e ∈ fields, ∃ name ∈ known, e.1 = .text name) ∧ fields.checkNames record known = .ok ())
      ∨ (¬(∀ e ∈ fields, ∃ name ∈ known, e.1 = .text name)
        ∧ Breaks (fields.checkNames record known)) := by
  unfold Fields.checkNames
  rcases names?_cases fields with ⟨names, hnames, hkeys⟩ | ⟨hnone, e, he, hname⟩
  · have hknown : (∀ e ∈ fields, ∃ name ∈ known, e.1 = .text name) ↔ ∀ name ∈ names, name ∈ known := by
      have hfields : (∀ e ∈ fields, ∃ name ∈ known, e.1 = .text name)
          ↔ ∀ k ∈ fields.map Prod.fst, ∃ name ∈ known, k = .text name := by
        rw [List.forall_mem_map]
      rw [hfields, hkeys, List.forall_mem_map]
      simp
    rw [hnames, hknown]
    dsimp only
    -- the first unknown name decides; the name of the record itself is refused for another reason
    cases hfind : names.find? (!known.contains ·) with
    | none => exact .inl ⟨by simpa using hfind, rfl⟩
    | some name =>
      have hmem := List.mem_of_find?_eq_some hfind
      have hunknown : name ∉ known := by simpa using List.find?_some hfind
      refine .inr ⟨fun h => hunknown (h name hmem), ?_⟩
      dsimp only
      rw [breaks_error_iff]
      split <;> rfl
  · rw [hnone]
    refine .inr ⟨fun h => ?_, breaks_misuse _⟩
    obtain ⟨name, -, hname'⟩ := h e he
    exact hname name hname'

/-- All sections of a configuration. -/
def sections : List Text := ["app", "api", "service", "owner", "target", "logging"]

/-- What stands at a section, if something does, is a map of settings that have a default
there. -/
def Proper (layer : Fields) (sect : Text) : Prop :=
  ∀ v, Fields.get? layer (.text sect) = some v → ∃ settings, v = .map settings
    ∧ ∀ e ∈ settings, ∃ key : Text, (defaults.setting? sect key).isSome = true ∧ e.1 = .text key

/-- The known settings of a section are the names of its record. -/
theorem isSome_default_iff {sect : Text} {record : Fields} {known : List Text}
    (hrecord : Fields.get? defaults (.text sect) = some (.map record))
    (hkeys : record.map Prod.fst = known.map Scalar.text) (key : Text) :
    (defaults.setting? sect key).isSome = true ↔ key ∈ known := by
  have hnone := Fields.get?_eq_none_iff record key
  rw [hkeys, List.mem_map] at hnone
  rw [Fields.setting?, Fields.fieldsAt_of_map hrecord, Option.isSome_iff_ne_none, ne_eq, hnone]
  simp

/-- A section is taken, and its names are checked. `Proper` holds exactly if both pass;
else one of them breaks. -/
theorem sectionOf_cases (layer : Fields) {sect : Text} (record : Text) {known : List Text}
    (hknown : ∀ key, (defaults.setting? sect key).isSome = true ↔ key ∈ known) :
    (Proper layer sect ∧ ∃ given, sectionOf layer sect = .ok given
        ∧ Fields.checkNames record known given = .ok ())
      ∨ (¬Proper layer sect ∧ (Breaks (sectionOf layer sect) ∨ ∃ given,
        sectionOf layer sect = .ok given ∧ Breaks (Fields.checkNames record known given))) := by
  unfold sectionOf Proper
  simp only [hknown]
  -- no section is a proper one; a map is judged by its names, and anything else breaks at once
  cases hget : Fields.get? layer (.text sect) with
  | none => exact .inl ⟨by simp, [], rfl, rfl⟩
  | some v =>
    cases v with
    | map settings =>
      rcases checkNames_cases record known settings with ⟨hnames, hchecked⟩ | ⟨hnames, hbreaks⟩
      · refine .inl ⟨?_, settings, rfl, hchecked⟩
        rintro v ⟨⟩
        exact ⟨settings, rfl, hnames⟩
      · refine .inr ⟨fun h => ?_, .inr ⟨settings, rfl, hbreaks⟩⟩
        obtain ⟨settings', heq, hnames'⟩ := h _ rfl
        obtain rfl := Value.map.inj heq
        exact hnames hnames'
    | _ => exact .inr ⟨by simp, .inl (breaks_misuse _)⟩

/-- A section that is made into a record, and what comes after it. The five sections of a
configuration are made one after the other, so this is the step of `ofFields_cases`. -/
theorem section_bind_cases {α β : Type} {layer : Fields} {sect record : Text} {known : List Text}
    {build : Fields → α} {next : α → Except Fault β} {later : Prop}
    (hknown : ∀ key, (defaults.setting? sect key).isSome = true ↔ key ∈ known)
    (hnext : ∀ a, (later ∧ ∃ b, next a = .ok b) ∨ (¬later ∧ Breaks (next a))) :
    ((Proper layer sect ∧ later) ∧ ∃ b, (do
        let given ← sectionOf layer sect
        let a ← (do Fields.checkNames record known given; return build given)
        next a) = .ok b)
      ∨ (¬(Proper layer sect ∧ later) ∧ Breaks (do
        let given ← sectionOf layer sect
        let a ← (do Fields.checkNames record known given; return build given)
        next a)) := by
  -- the sections are read one after the other, so the later ones matter only if this one is proper
  rcases sectionOf_cases layer record hknown with
    ⟨hproper, given, hgiven, hchecked⟩ | ⟨himproper, hbreaks⟩
  · rw [hgiven]
    simp only [bind, Except.bind, hchecked, pure, Except.pure]
    rcases hnext (build given) with ⟨hlater, hok⟩ | ⟨hnot, hbreaks⟩
    · exact .inl ⟨⟨hproper, hlater⟩, hok⟩
    · exact .inr ⟨fun h => hnot h.2, hbreaks⟩
  · refine .inr ⟨fun h => himproper h.1, breaks_bind_iff.mpr ?_⟩
    rcases hbreaks with hbreaks | ⟨given, hgiven, hbreaks⟩
    · exact .inl hbreaks
    · exact .inr ⟨given, hgiven, breaks_bind_iff.mpr (.inl (breaks_bind_iff.mpr (.inl hbreaks)))⟩

/-- A configuration is made of sections that are proper, and else it breaks. Making it
converts nothing, so there are no bad values at this point. -/
theorem ofFields_cases (layer : Fields) :
    ((∀ sect ∈ sections, Proper layer sect) ∧ ∃ config, ofFields layer = .ok config)
      ∨ (¬(∀ sect ∈ sections, Proper layer sect) ∧ Breaks (ofFields layer)) := by
  have hproper : (∀ sect ∈ sections, Proper layer sect)
      ↔ Proper layer "app" ∧ Proper layer "api" ∧ Proper layer "service" ∧ Proper layer "owner"
        ∧ Proper layer "target" ∧ Proper layer "logging" ∧ True := by
    simp [sections]
  rw [hproper]
  -- one step for each section, in the order in which they are read
  refine section_bind_cases (isSome_default_iff rfl rfl) fun app => ?_
  refine section_bind_cases (isSome_default_iff rfl rfl) fun api => ?_
  refine section_bind_cases (isSome_default_iff rfl rfl) fun service => ?_
  refine section_bind_cases (isSome_default_iff rfl rfl) fun owner => ?_
  refine section_bind_cases (isSome_default_iff rfl rfl) fun target => ?_
  refine section_bind_cases (isSome_default_iff rfl rfl) fun logging => ?_
  exact .inl ⟨trivial, _, rfl⟩

/-! ## Stage by stage -/

/-- The layers of a configuration, merged. -/
def Merges (env : Environment) (mark : Text) (overrides : Fields) (document : Value) (merged : Fields) :
    Prop :=
  ∃ file environment, document.orElse (.map []) = .map file
    ∧ Layer.ofEnvironment env mark = .ok environment
    ∧ merged = Layer.merge (Layer.merge (Layer.merge defaults file) environment) overrides

/-- Merged layers that can be gone through to their end, and refer to nothing but what can
be a variable. -/
structure Resolves (merged : Fields) : Prop where
  fits : fitsIn depthLimit (.map merged) = true
  references : ∀ name ∈ Layer.references (.map merged), Environment.checkText name = .ok ()

/-- Merged layers, and what they are once they are resolved and converted. -/
structure Converts (env : Environment) (merged converted : Fields) : Prop extends Resolves merged where
  converted : coerceEntries (resolveEntries env merged) = .ok converted

/-- Everything by which loading breaks, from the variables of a mark, the options and what
the file says. -/
inductive Breaking (env : Environment) (mark : Text) (overrides : Fields) (document : Value) : Prop where
  /-- A variable leads through where one before it ended. -/
  | crossed {file : Fields} (hfile : document.orElse (.map []) = .map file)
    (hcrossed : ¬Layer.Uncrossed (Layer.ways env mark))
  /-- The layers go too deep, or have no end. -/
  | deep {merged : Fields} (hmerged : Merges env mark overrides document merged)
    (hdeep : fitsIn depthLimit (.map merged) = false)
  /-- The first leaf that cannot be converted is an infinite number where an integer is wanted. -/
  | infinite {merged : Fields} {before after : List (Scalar × Value)} {key : Scalar} {sign : Bool}
    (hmerged : Merges env mark overrides document merged) (hresolves : Resolves merged)
    (hleaves : Layer.leavesOfEntries (resolveEntries env merged)
      = before ++ (key, .float (.infinite sign)) :: after)
    (hkind : Setting.kind? key = some .integer)
    (hbefore : ∀ leaf ∈ before, ∃ w, coerceAt leaf.1 leaf.2 = .ok w)
  /-- A section of a setting no run can do without is no map. -/
  | unsectioned {merged converted : Fields} (hmerged : Merges env mark overrides document merged)
    (hconverted : Converts env merged converted) {place : Text × Text} (hplace : place ∈ required)
    (hsection : ¬Sectioned converted place.1)
  /-- These settings are there, but some section is no map, or has a setting without a default. -/
  | improper {merged converted : Fields} (hmerged : Merges env mark overrides document merged)
    (hconverted : Converts env merged converted) (hgiven : ∀ place ∈ required, Given converted place)
    {sect : Text} (hsect : sect ∈ sections) (hsection : ¬Proper converted sect)

/-- References are followed, or one of them is a bad value. Following needs nothing but a
name that the environment can be asked for, so an unset variable is no failure here. -/
theorem checkReferences_cases (names : List Text) :
    ((∀ name ∈ names, Environment.checkText name = .ok ()) ∧ names.forM Environment.checkText = .ok ())
      ∨ (¬(∀ name ∈ names, Environment.checkText name = .ok ())
        ∧ ∃ f, names.forM Environment.checkText = .error f ∧ f.isBadValue = true) := by
  induction names with
  | nil => exact .inl ⟨by simp, rfl⟩
  | cons name rest ih =>
    rw [List.forall_mem_cons]
    show (_ ∧ (Environment.checkText name >>= fun _ => rest.forM Environment.checkText) = _)
      ∨ (_ ∧ ∃ f, (Environment.checkText name >>= fun _ => rest.forM Environment.checkText) = _ ∧ _)
    -- the first name that cannot be a variable ends the check, as a bad value
    cases hname : Environment.checkText name with
    | ok u => simpa [bind, Except.bind] using ih
    | error f =>
      refine .inr ⟨by simp, f, rfl, ?_⟩
      unfold Environment.checkText at hname
      split at hname
      · cases hname
      · obtain rfl := Except.error.inj hname
        rfl

/-- Assembling breaks at one of its stages. A stage is only reached if those before it
have been passed, which is why each of the cases repeats what came before. -/
theorem breaks_assemble_iff {env : Environment} {layers : Layers} {merged : Fields}
    (hmerged : layers.merged = .ok merged) :
    Breaks (assemble env layers) ↔ fitsIn depthLimit (.map merged) = false
      ∨ (Resolves merged ∧ (Breaks (coerceEntries (resolveEntries env merged))
        ∨ ∃ converted, coerceEntries (resolveEntries env merged) = .ok converted
          ∧ (Breaks (validate converted)
            ∨ (validate converted = .ok () ∧ Breaks (ofFields converted))))) := by
  unfold assemble
  rw [hmerged]
  show Breaks (if (!fitsIn depthLimit (.map merged)) = true then _ else _) ↔ _
  -- the depth is looked at first, then the references, then the rest in its order
  cases hfits : fitsIn depthLimit (.map merged) with
  | false => exact iff_of_true (breaks_misuse _) (.inl rfl)
  | true =>
    show Breaks (Layer.checkReferences (.map merged) >>= fun _ => _) ↔ _
    unfold Layer.checkReferences
    rcases checkReferences_cases (Layer.references (.map merged)) with
      ⟨hreferences, hchecked⟩ | ⟨hreferences, f, hrefused, hbad⟩
    · have hresolves : Resolves merged := ⟨hfits, hreferences⟩
      rw [hchecked, and_iff_right hresolves]
      show Breaks (coerceEntries (resolveEntries env merged) >>= fun converted =>
        validate converted >>= fun _ => ofFields converted) ↔ _
      simp only [breaks_bind_iff, Bool.true_eq_false, false_or]
      refine or_congr_right (exists_congr fun converted => and_congr_right fun _ => or_congr_right ?_)
      constructor
      · rintro ⟨u, hvalid, hbreaks⟩
        exact ⟨hvalid, hbreaks⟩
      · rintro ⟨hvalid, hbreaks⟩
        exact ⟨(), hvalid, hbreaks⟩
    · -- a bad value ends it here
      rw [hrefused]
      have hunbroken : ¬Breaks (Except.error f : Except Fault Config) := by
        rw [breaks_error_iff, hbad]
        exact Bool.noConfusion
      refine iff_of_false hunbroken ?_
      rintro (h | ⟨hresolves, -⟩)
      · cases h
      · exact hreferences hresolves.references

/-- The conversion breaks at an infinite number, provided that it comes so far: a leaf
before it that is refused as a bad value ends the conversion first. -/
theorem Resolves.breaks_coerceEntries_iff {env : Environment} {merged : Fields} (h : Resolves merged) :
    Breaks (coerceEntries (resolveEntries env merged))
      ↔ ∃ before key sign after, Layer.leavesOfEntries (resolveEntries env merged)
          = before ++ (key, .float (.infinite sign)) :: after
        ∧ Setting.kind? key = some .integer
        ∧ ∀ leaf ∈ before, ∃ w, coerceAt leaf.1 leaf.2 = .ok w := by
  have hfits := h.fits
  rw [fitsIn, Bool.and_eq_true, ← Layer.entriesFitIn_resolveEntries env] at hfits
  exact Layer.breaks_coerceEntries_iff hfits.2

section Stages

variable {env : Environment} {mark : Text} {overrides merged : Fields} {document : Value}

/-- The layers can be merged in one way only. -/
theorem Merges.functional {merged' : Fields} (h : Merges env mark overrides document merged)
    (h' : Merges env mark overrides document merged') : merged' = merged := by
  obtain ⟨file, environment, hfile, henvironment, rfl⟩ := h
  obtain ⟨file', environment', hfile', henvironment', rfl⟩ := h'
  obtain rfl := Value.map.inj (hfile'.symm.trans hfile)
  obtain rfl := Except.ok.inj (henvironment'.symm.trans henvironment)
  rfl

/-- Layers that could be merged break in the last four ways. References and bad texts give
bad values; what is left is a tree that is too deep, an infinite number, a section that is
no map, and fields that no record takes. -/
theorem Merges.breaks_assemble_iff (h : Merges env mark overrides document merged)
    (huncrossed : Layer.Uncrossed (Layer.ways env mark)) {layers : Layers}
    (hlayers : layers.merged = .ok merged) :
    Breaks (assemble env layers) ↔ Breaking env mark overrides document := by
  rw [Config.breaks_assemble_iff hlayers]
  constructor
  · rintro (hdeep | ⟨hresolves, hbreaks | ⟨converted, hconverted, hbreaks | ⟨hvalid, hbreaks⟩⟩⟩)
    · exact .deep h hdeep
    · obtain ⟨before, key, sign, after, hleaves, hkind, hbefore⟩ :=
        hresolves.breaks_coerceEntries_iff.mp hbreaks
      exact .infinite h hresolves hleaves hkind hbefore
    · obtain ⟨place, hplace, hsection⟩ := (breaks_validate_iff converted).mp hbreaks
      exact .unsectioned h ⟨hresolves, hconverted⟩ hplace hsection
    · rcases ofFields_cases converted with ⟨-, config, hok⟩ | ⟨hnot, -⟩
      · rw [hok] at hbreaks
        exact absurd hbreaks (not_breaks_ok _)
      · obtain ⟨sect, hsect, hsection⟩ : ∃ sect ∈ sections, ¬Proper converted sect := by
          simpa using hnot
        exact .improper h ⟨hresolves, hconverted⟩ ((validate_eq_ok_iff converted).mp hvalid) hsect
          hsection
  · intro hbreaking
    -- each way of breaking belongs to one stage, and the stages before it are passed by what the case
    -- says
    cases hbreaking with
    | crossed hfile hcrossed => exact absurd huncrossed hcrossed
    | deep h' hdeep =>
      obtain rfl := h.functional h'
      exact .inl hdeep
    | infinite h' hresolves hleaves hkind hbefore =>
      obtain rfl := h.functional h'
      exact .inr ⟨hresolves, .inl (hresolves.breaks_coerceEntries_iff.mpr
        ⟨_, _, _, _, hleaves, hkind, hbefore⟩)⟩
    | @unsectioned _ converted h' hconverts place hplace hsection =>
      obtain rfl := h.functional h'
      have hbreaks := (breaks_validate_iff converted).mpr ⟨place, hplace, hsection⟩
      exact .inr ⟨hconverts.toResolves, .inr ⟨converted, hconverts.converted, .inl hbreaks⟩⟩
    | @improper _ converted h' hconverts hgiven sect hsect hsection =>
      obtain rfl := h.functional h'
      have hvalid := (validate_eq_ok_iff converted).mpr hgiven
      have hbreaks : Breaks (ofFields converted) := by
        rcases ofFields_cases converted with ⟨hproper, -⟩ | ⟨-, hbreaks⟩
        · exact absurd (hproper sect hsect) hsection
        · exact hbreaks
      exact .inr ⟨hconverts.toResolves, .inr ⟨converted, hconverts.converted, .inr ⟨hvalid, hbreaks⟩⟩⟩

/-- Whatever breaks, the file was a layer. -/
theorem Breaking.exists_file (h : Breaking env mark overrides document) :
    ∃ file, document.orElse (.map []) = .map file := by
  have hmerges {merged : Fields} (h : Merges env mark overrides document merged) :
      ∃ file, document.orElse (.map []) = .map file := by
    obtain ⟨file, -, hfile, -⟩ := h
    exact ⟨file, hfile⟩
  cases h with
  | crossed hfile hcrossed => exact ⟨_, hfile⟩
  | deep h hdeep => exact hmerges h
  | infinite h hresolves hleaves hkind hbefore => exact hmerges h
  | unsectioned h hconverts hplace hsection => exact hmerges h
  | improper h hconverts hgiven hsect hsection => exact hmerges h

/-- Loading breaks in one of these ways, and in no other: the environment's ways cross, or
the layers that could be merged break as `Merges.breaks_assemble_iff` says. -/
theorem breaks_load_iff {files : Files.Tree} {paths : List Text}
    (hparsed : Parsed files paths document) :
    Breaks (load env files { overrides := .map overrides, paths, mark })
      ↔ Breaking env mark overrides document := by
  show Breaks (readFirst files paths >>= fun file => Layer.ofEnvironment env mark >>= fun environment =>
    assemble env { file, environment, commandLine := .map overrides }) ↔ _
  -- the file comes first: if it is refused nothing else is looked at, and nothing breaks
  rcases readFirst_cases hparsed with ⟨file, hmap, hfile⟩ | ⟨hnomap, b, hbad⟩
  · rw [hfile]
    show Breaks (Layer.ofEnvironment env mark >>= fun environment =>
      assemble env { file, environment, commandLine := .map overrides }) ↔ _
    rcases Layer.ofEnvironment_cases env mark with
      ⟨huncrossed, environment, henvironment⟩ | ⟨hcrossed, hbreaks⟩
    · rw [henvironment]
      have hmerges : Merges env mark overrides document _ := ⟨file, environment, hmap, henvironment, rfl⟩
      exact hmerges.breaks_assemble_iff huncrossed (Layer.lay_map _ _)
    · exact iff_of_true (breaks_bind_iff.mpr (.inl hbreaks)) (.crossed hmap hcrossed)
  · rw [hbad]
    refine iff_of_false (not_breaks_badValue b) fun hbreaking => ?_
    obtain ⟨file, hfile⟩ := hbreaking.exists_file
    exact hnomap file hfile

end Stages

/-! ## Configurations that are of use

Where an integer is wanted, null, lists and maps are let through; all else is converted. -/

/-- What is let through where an integer is wanted. -/
inductive LetThrough : Value → Prop where
  | null : LetThrough .null
  | list (items : List Value) : LetThrough (.list items)
  | map (fields : Fields) : LetThrough (.map fields)

/-- References change texts alone, so that a null, a list or a map stays one. -/
theorem letThrough_resolved_iff (env : Environment) (v : Value) :
    LetThrough (resolved env v) ↔ LetThrough v := by
  cases v with
  | scalar s =>
    cases s with
    | text t =>
      have htext (t : Text) : ¬LetThrough (.text t) := by rintro ⟨⟩
      exact iff_of_false (htext _) (htext t)
    | _ => exact Iff.rfl
  | map fields => exact iff_of_true (Layer.resolved_map env fields ▸ .map _) (.map fields)
  | list items => exact iff_of_true (.list _) (.list items)
  | tuple items | set members | endless => exact Iff.rfl

theorem resolved_eq_null_iff (env : Environment) (v : Value) : resolved env v = .null ↔ v = .null := by
  cases v with
  | scalar s => cases s <;> simp [resolved, Layer.resolve]
  | map fields => simp
  | list items => simp [resolved, Layer.resolve]
  | tuple items | set members | endless => exact Iff.rfl

/-- Where an integer is wanted, a leaf that is converted is an integer afterwards, or it
was null and is so still. -/
theorem coerceLeaf_integer_cases {key : Scalar} (hkind : Setting.kind? key = some .integer) {v w : Value}
    (h : coerceLeaf key v = .ok w) : (v = .null ∧ w = .null) ∨ (v ≠ .null ∧ ∃ i, w = .int i) := by
  unfold coerceLeaf at h
  rw [hkind] at h
  -- the kind is that of integers, which rules out the second and the last case
  split at h
  next => exact .inl ⟨rfl, (Except.ok.inj h).symm⟩
  next htruth => cases htruth
  next hnot _ =>
    unfold Layer.toInteger at h
    split at h
    next i hread => exact .inr ⟨fun hnull => hnot hnull, i, (Except.ok.inj h).symm⟩
    all_goals cases h
  next hnone => cases hnone

/-- What is given where an integer is wanted, and what becomes of it: an integer, unless
it is let through. -/
structure Conveys (given value : Value) : Prop where
  cases : LetThrough value ∨ ∃ i, value = .int i
  integer : (∃ i, value = .int i) ↔ ¬LetThrough given
  null : value = .null ↔ given = .null

theorem conveys_int {given : Value} (h : ¬LetThrough given) (i : Int) : Conveys given (.int i) where
  cases := .inr ⟨i, rfl⟩
  integer := iff_of_true ⟨i, rfl⟩ h
  null := iff_of_false (by simp) fun hnull => h (hnull ▸ .null)

theorem LetThrough.ne_int {v : Value} (h : LetThrough v) (i : Int) : v ≠ .int i := by
  rintro rfl
  cases h

/-- What is let through has become something that is let through again, and is null only
if it was. -/
theorem LetThrough.conveys {given value : Value} (h : LetThrough given) (hvalue : LetThrough value)
    (hnull : value = .null ↔ given = .null) : Conveys given value where
  cases := .inl hvalue
  integer := by
    refine iff_of_false ?_ (not_not_intro h)
    rintro ⟨i, hi⟩
    exact hvalue.ne_int i hi
  null := hnull

/-- The conversion by a key conveys what stands there, in each of its three cases: a map,
a list, a leaf. -/
theorem conveys_of_coerceAt {key : Scalar} (hkind : Setting.kind? key = some .integer) {v w : Value}
    (h : coerceAt key v = .ok w) : Conveys v w := by
  -- a map and a list are let through whatever becomes of their parts; a leaf is converted
  cases v with
  | map fields =>
    obtain ⟨converted, -, heq⟩ := Fault.bind_eq_ok.mp h
    obtain rfl := Except.ok.inj heq
    exact (LetThrough.map fields).conveys (.map converted) (by simp)
  | list items =>
    obtain ⟨converted, -, heq⟩ := Fault.bind_eq_ok.mp h
    obtain rfl := Except.ok.inj heq
    exact (LetThrough.list items).conveys (.list converted) (by simp)
  | endless => cases h
  | scalar s | tuple items | set members =>
    rcases coerceLeaf_integer_cases hkind h with ⟨hv, rfl⟩ | ⟨hv, i, rfl⟩
    · rw [hv]
      exact LetThrough.null.conveys .null Iff.rfl
    · refine conveys_int (fun hlet => ?_) i
      cases hlet <;> exact hv rfl

/-- What the merged layers have for a setting, or else the default. -/
def laid (merged : Fields) (sect key : Text) : Value :=
  (merged.setting? sect key).getD ((defaults.setting? sect key).getD .null)

/-- What becomes of a setting where an integer is wanted: it is resolved and then
converted, and what is neither a number nor a text is let through as it is. -/
theorem conveys_laid {env : Environment} {merged converted : Fields} {config : Config}
    (hconverted : coerceEntries (resolveEntries env merged) = .ok converted)
    (hconfig : ofFields converted = .ok config) {sect key : Text}
    (hkind : Setting.kind? (.text key) = some .integer) {v : Value}
    (hv : config.fields.setting? sect key = some v) (hknown : (defaults.setting? sect key).isSome = true) :
    Conveys (laid merged sect key) v := by
  obtain ⟨default, hdefault⟩ := Option.isSome_iff_exists.mp hknown
  obtain ⟨w, hw, hcoerced⟩ := setting?_of_merged hconverted hconfig hdefault
  obtain rfl := Option.some.inj (hv.symm.trans hw)
  have hconveys := conveys_of_coerceAt hkind hcoerced
  rw [laid, hdefault]
  exact ⟨hconveys.cases, by rw [hconveys.integer, letThrough_resolved_iff]; rfl,
    by rw [hconveys.null, resolved_eq_null_iff]; rfl⟩

theorem LetThrough.toInteger_eq_error {v : Value} (h : LetThrough v) :
    v.toInteger = .error (.misuse .wrongType) := by
  cases h <;> rfl

/-- An integer can be had of a conveyed value only if it is one: neither null nor a list
nor a map can be made one. -/
theorem exists_toInteger_iff {v : Value} (h : LetThrough v ∨ ∃ i, v = .int i) :
    (∃ i, v.toInteger = .ok i) ↔ ∃ i, v = .int i := by
  rcases h with h | ⟨i, rfl⟩
  · refine iff_of_false ?_ fun hint => ?_
    · rw [h.toInteger_eq_error]
      simp
    · obtain ⟨i, hi⟩ := hint
      exact h.ne_int i hi
  · exact iff_of_true ⟨i, rfl⟩ ⟨i, rfl⟩

/-- The settings of a service can be read off if its port is an integer, and its target
port as well unless there is none. -/
theorem exists_settings_iff {s : ServiceSection} (hport : LetThrough s.port ∨ ∃ i, s.port = .int i)
    (htarget : LetThrough s.targetPort ∨ ∃ i, s.targetPort = .int i) :
    (∃ settings, s.settings = .ok settings)
      ↔ (∃ i, s.port = .int i) ∧ (s.targetPort = .null ∨ ∃ i, s.targetPort = .int i) := by
  rw [← exists_toInteger_iff hport]
  unfold ServiceSection.settings
  -- the port is read first, and without it there are no settings whatever the target is
  cases hread : s.port.toInteger with
  | error f =>
    refine iff_of_false ?_ ?_
    · rintro ⟨settings, ⟨⟩⟩
    · rintro ⟨⟨i, ⟨⟩⟩, -⟩
  | ok i =>
    rw [and_iff_right ⟨i, rfl⟩]
    generalize s.targetPort = target at htarget ⊢
    rcases htarget with htarget | ⟨j, rfl⟩
    · cases htarget with
      | null => exact iff_of_true ⟨_, rfl⟩ (.inl rfl)
      | list items | map fields =>
        refine iff_of_false ?_ (by simp)
        rintro ⟨settings, ⟨⟩⟩
    · exact iff_of_true ⟨_, rfl⟩ (.inr ⟨j, rfl⟩)

/-- **How loading ends.** Once the file is parsed, loading breaks in one of the five ways,
and in no other: whatever else is wrong is a bad value. A configuration that is given has
its service and the time limit read off it exactly if the layers have, where an integer is
wanted, none of null, lists and maps; only the target port may be null. The first half is
`breaks_load_iff`, stage by stage in the order of loading; the second follows the five
integers from the layers to the configuration. -/
theorem load_settles {env : Environment} {files : Files.Tree} {paths : List Text} {mark : Text}
    {overrides : Fields} {document : Value} (hparsed : Parsed files paths document) :
    let loaded := load env files { overrides := .map overrides, paths, mark }
    (Breaks loaded ↔ Breaking env mark overrides document)
    ∧ ∀ config, loaded = .ok config → ∃ merged, Merges env mark overrides document merged
      ∧ ((∃ settings, config.service.settings = .ok settings)
        ↔ ¬LetThrough (laid merged "service" "port")
          ∧ (laid merged "service" "target_port" = .null
            ∨ ¬LetThrough (laid merged "service" "target_port")))
      ∧ ((∃ seconds, config.api.timeout.toInteger = .ok seconds)
        ↔ ¬LetThrough (laid merged "api" "timeout_sec")) := by
  intro loaded
  refine ⟨breaks_load_iff hparsed, fun config hconfig => ?_⟩
  obtain ⟨file, hfile, h⟩ := Fault.bind_eq_ok.mp hconfig
  obtain ⟨environment, henvironment, h⟩ := Fault.bind_eq_ok.mp h
  obtain ⟨merged, converted, hmerged, hconverted, hmade⟩ := assemble_eq_ok h
  -- a document that is no map has been refused before, so there are merged layers
  have hmerges : Merges env mark overrides document merged := by
    rcases readFirst_cases hparsed with ⟨file', hmap, hfile'⟩ | ⟨-, b, hbad⟩
    · obtain rfl := Except.ok.inj (hfile'.symm.trans hfile)
      have hlaid := Layer.lay_map (Layer.merge (Layer.merge defaults file') environment) overrides
      exact ⟨file', environment, hmap, henvironment, Except.ok.inj (hmerged.symm.trans hlaid)⟩
    · cases hbad.symm.trans hfile
  have hport : Conveys (laid merged "service" "port") config.service.port :=
    conveys_laid hconverted hmade rfl rfl rfl
  have htarget : Conveys (laid merged "service" "target_port") config.service.targetPort :=
    conveys_laid hconverted hmade rfl rfl rfl
  have htimeout : Conveys (laid merged "api" "timeout_sec") config.api.timeout :=
    conveys_laid hconverted hmade rfl rfl rfl
  refine ⟨merged, hmerges, ?_, ?_⟩
  · rw [exists_settings_iff hport.cases htarget.cases, hport.integer, htarget.integer, htarget.null]
  · rw [exists_toInteger_iff htimeout.cases, htimeout.integer]

/-- For the files of the cases below: the first file that is there, its bytes and what
they are read as. -/
theorem parsed_of_found {files : Files.Tree} {paths : List Text} {document : Value} {path : Text}
    {bytes : List UInt8} (hfound : (paths.find? fun path => (files.at? path).isSome) = some path)
    (hbytes : files.bytes path = .ok bytes) (hread : Yaml.read (supply bytes) = .ok document) :
    Parsed files paths document := by
  unfold Parsed
  rw [hfound]
  exact ⟨bytes, hbytes, hread⟩

/-- The misuse that something fails by. -/
def misuse? {α : Type} : Except Fault α → Option Misuse
  | .error (.misuse m) => some m
  | _ => none

theorem eq_error_of_misuse? {α : Type} {x : Except Fault α} {m : Misuse} (h : misuse? x = some m) :
    x = .error (.misuse m) := by
  unfold misuse? at h
  split at h
  next => rw [Option.some.inj h]
  next => cases h

/-! ## Files about a port -/

namespace Ported

def paths : List Text := ["./servicesync.yml"]

/-- What a file says that gives a port. -/
def source (port : String) : List UInt8 :=
  Text.Utf8.encode (Text.ofString ("service:\n  port: " ++ port ++ "\n"))

def files (port : String) : Files.Tree := ({} : Files.Tree).putFile ["servicesync.yml"] (source port)

/-- What it says when it is parsed. -/
def document (port : Value) : Value := .map [(.text "service", .map [(.text "port", port)])]

/-- The settings no run can do without. -/
def options : Command.Options where
  baseUrl := some "https://api"
  ownerName := some "cluster"
  ownerUid := some "u"
  space := some "ops"

def request : Request where
  overrides := .map options.overrides
  paths

/-- A configuration without a port. -/
def portless : Config where
  api := { baseUrl := "https://api" }
  service := { port := .null }
  owner := { name := "cluster", uid := "u" }
  target := { space := "ops" }

set_option maxRecDepth 100000 in
/-- The program takes a null for a port, and the configuration without one is the
result. -/
theorem load_portless : load [] (files "null") request = .ok portless :=
  Fault.eq_ok_of_toOption (by decide +kernel)

theorem parsed_null : Parsed (files "null") paths (document .null) := by
  have hfound : (paths.find? fun path => ((files "null").at? path).isSome) = some "./servicesync.yml" := by
    decide +kernel
  have hbytes : (files "null").bytes "./servicesync.yml" = .ok (source "null") :=
    Fault.eq_ok_of_toOption (by decide +kernel)
  have hread : Yaml.read (supply (source "null")) = .ok (document .null) :=
    Fault.eq_ok_of_toOption (by decide +kernel)
  exact parsed_of_found hfound hbytes hread

end Ported

/-- A null port is let through: nothing breaks, and no settings can be read off the
configuration. -/
theorem load_settles_portless :
    Parsed (Ported.files "null") Ported.paths (Ported.document .null)
      ∧ load [] (Ported.files "null") Ported.request = .ok Ported.portless
      ∧ ¬Breaking [] Layer.variableMark Ported.options.overrides (Ported.document .null)
      ∧ (∃ merged, Merges [] Layer.variableMark Ported.options.overrides (Ported.document .null) merged
        ∧ ¬LetThrough (laid merged "api" "timeout_sec"))
      ∧ ¬∃ settings, Ported.portless.service.settings = .ok settings := by
  obtain ⟨hbreaks, hgiven⟩ := @load_settles [] _ _ Layer.variableMark Ported.options.overrides _
    Ported.parsed_null
  -- the configuration is there, so nothing has broken; it is the settings that are missing
  have hunbroken : ¬Breaking [] Layer.variableMark Ported.options.overrides (Ported.document .null) := by
    rw [← hbreaks]
    show ¬Breaks (load [] (Ported.files "null") Ported.request)
    rw [Ported.load_portless]
    exact not_breaks_ok _
  obtain ⟨merged, hmerges, -, hseconds⟩ := hgiven _ Ported.load_portless
  refine ⟨Ported.parsed_null, Ported.load_portless, hunbroken, ⟨merged, hmerges, hseconds.mp ⟨30, rfl⟩⟩, ?_⟩
  rintro ⟨settings, ⟨⟩⟩

set_option maxRecDepth 100000 in
/-- **Neither a configuration nor a bad value.** An infinite port is too large for an
integer, and that is told to nobody; a null one is accepted, and fails whoever wants the
settings. Conversion catches a bad text and a bad type, but not a number that is too
large. -/
theorem infinite_port_breaks :
    load [] (Ported.files ".inf") Ported.request = .error (.misuse .tooLarge)
      ∧ (Fault.misuse .tooLarge).isBadValue = false
      ∧ load [] (Ported.files "null") Ported.request = .ok Ported.portless
      ∧ Ported.portless.service.settings = .error (.misuse .wrongType) :=
  ⟨eq_error_of_misuse? (by decide +kernel), rfl, Ported.load_portless, rfl⟩

end Config

end Keeper
