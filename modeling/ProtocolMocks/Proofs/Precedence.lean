import ProtocolMocks.Proofs.Overrides

/-!
# Which layer an option comes from

In orderly layers each option is looked for on its own: its last override counts, else the last file
that sets it, else its default. A file that sets some of the options leaves the others as they are,
and an optional file that is not there, or is not text, could as well be left out.
-/

namespace ProtocolMocks

/-- The value as one of the type, if no conversion is needed. -/
def FieldType.ofValue? : FieldType → Toml.Value → Option Scalar
  | .text, .text s => some (.text s)
  | .boolean, .boolean b => some (.boolean b)
  | _, _ => none

/-- A value that needs no conversion is of the type. -/
theorem FieldType.admits_of_ofValue? {type : FieldType} {value : Toml.Value} {scalar : Scalar}
    (h : type.ofValue? value = some scalar) : type.Admits scalar := by
  cases type <;> cases value <;> cases h <;> trivial

/-- A value that needs no conversion becomes a setting as it is. -/
theorem Setting.ofValue_of_ofValue? {type : FieldType} {value : Toml.Value} {s : Scalar}
    (h : type.ofValue? value = some s) (origin : Option String) :
    ofValue origin value = scalar origin s := by
  cases type <;> cases value <;> cases h <;> rw [ofValue]

namespace Settings

/-- The values under a name in any letter case, in order. -/
def valuesUnder (name : String) (entries : List (String × Toml.Value)) : List Toml.Value :=
  (entries.filter fun entry => Text.lowercase entry.1 = name).map Prod.snd

/-- There is at most one value, and if there is one it has the property. -/
def AtMostOne (p : Toml.Value → Prop) : List Toml.Value → Prop
  | [] => True
  | [value] => p value
  | _ => False

instance (p : Toml.Value → Prop) [DecidablePred p] : DecidablePred (AtMostOne p)
  | [] => inferInstanceAs (Decidable True)
  | [value] => inferInstanceAs (Decidable (p value))
  | _ :: _ :: _ => inferInstanceAs (Decidable False)

/-- There is no value, or there is one that has the property. -/
theorem AtMostOne.eq_nil_or_singleton {p : Toml.Value → Prop} {values : List Toml.Value}
    (h : AtMostOne p values) : values = [] ∨ ∃ value, values = [value] ∧ p value := by
  match values, h with
  | [], _ => exact .inl rfl
  | [value], hp => exact .inr ⟨value, rfl, hp⟩

/-- A table with plain keys sets each option at most once, and to a value of its type. -/
def OrderlyOptions (fields : List (String × Toml.Value)) : Prop :=
  (∀ key ∈ fields.map Prod.fst, IsBareKey key) ∧
    ∀ field ∈ OptionField.all,
      AtMostOne (fun value => field.type.ofValue? value ≠ none) (valuesUnder field.name fields)

instance : DecidablePred OrderlyOptions := fun fields =>
  inferInstanceAs (Decidable ((∀ key ∈ fields.map Prod.fst, IsBareKey key) ∧
    ∀ field ∈ OptionField.all,
      AtMostOne (fun value => field.type.ofValue? value ≠ none) (valuesUnder field.name fields)))

/-- The value is a table that sets options. -/
def IsOptionTable : Toml.Value → Prop
  | .table fields => OrderlyOptions fields
  | _ => False

instance : DecidablePred IsOptionTable := fun value => by
  unfold IsOptionTable
  split <;> infer_instance

/-- A document has plain keys and at most one table of options. Other entries are free. -/
def OrderlyDocument (entries : List (String × Toml.Value)) : Prop :=
  (∀ key ∈ entries.map Prod.fst, IsBareKey key) ∧
    AtMostOne IsOptionTable (valuesUnder optionsKey entries)

instance : DecidablePred OrderlyDocument := fun entries =>
  inferInstanceAs (Decidable ((∀ key ∈ entries.map Prod.fst, IsBareKey key) ∧
    AtMostOne IsOptionTable (valuesUnder optionsKey entries)))

/-- An option is set at most once. -/
theorem OrderlyOptions.eq_nil_or_typed {fields : List (String × Toml.Value)}
    (h : OrderlyOptions fields) (field : OptionField) :
    valuesUnder field.name fields = [] ∨ ∃ value scalar,
      valuesUnder field.name fields = [value] ∧ field.type.ofValue? value = some scalar := by
  rcases (h.2 field field.mem_all).eq_nil_or_singleton with hnil | ⟨value, hvalue, htype⟩
  · exact .inl hnil
  · obtain ⟨scalar, hscalar⟩ := Option.ne_none_iff_exists'.1 htype
    exact .inr ⟨value, scalar, hvalue, hscalar⟩

/-- There is at most one table of options. -/
theorem OrderlyDocument.eq_nil_or_table {entries : List (String × Toml.Value)}
    (h : OrderlyDocument entries) :
    valuesUnder optionsKey entries = [] ∨ ∃ fields,
      valuesUnder optionsKey entries = [.table fields] ∧ OrderlyOptions fields := by
  rcases h.2.eq_nil_or_singleton with hnil | ⟨value, hvalue, htable⟩
  · exact .inl hnil
  · cases value with
    | table fields => exact .inr ⟨fields, hvalue, htable⟩
    | _ => exact htable.elim

/-- The value that a document gives to an option. -/
def setIn? (field : OptionField) (entries : List (String × Toml.Value)) : Option Scalar :=
  match valuesUnder optionsKey entries with
  | [.table fields] => (valuesUnder field.name fields).head?.bind field.type.ofValue?
  | _ => none

/-- A document without options gives no value to any of them. -/
theorem setIn?_of_nil {entries : List (String × Toml.Value)}
    (h : valuesUnder optionsKey entries = []) (field : OptionField) :
    setIn? field entries = none := by
  rw [setIn?, h]

/-- A document with one table of options gives the values that stand in this table. -/
theorem setIn?_of_table {entries fields : List (String × Toml.Value)}
    (h : valuesUnder optionsKey entries = [.table fields]) (field : OptionField) :
    setIn? field entries =
      (valuesUnder field.name fields).head?.bind field.type.ofValue? := by
  rw [setIn?, h]

/-- What a document gives to an option is of the type of the option. -/
theorem admits_of_setIn? {field : OptionField} {entries : List (String × Toml.Value)}
    {scalar : Scalar} (h : setIn? field entries = some scalar) : field.type.Admits scalar := by
  rw [setIn?] at h
  split at h
  · obtain ⟨value, -, hvalue⟩ := Option.bind_eq_some_iff.1 h
    exact FieldType.admits_of_ofValue? hvalue
  · cases h

/-- The keys of a document become those of the settings. -/
theorem keys_ofEntries (origin : Option String) (entries : List (String × Toml.Value)) :
    (Setting.ofEntries origin entries).map Prod.fst = entries.map Prod.fst := by
  induction entries with
  | nil => rw [Setting.ofEntries]; rfl
  | cons entry entries ih =>
    obtain ⟨key, value⟩ := entry
    rw [Setting.ofEntries, Setting.ofEntry, List.map_cons, List.map_cons, ih]

/-- The values under a name become the settings under this name. -/
theorem under_ofEntries (name : String) (origin : Option String)
    (entries : List (String × Toml.Value)) :
    Setting.under name (Setting.ofEntries origin entries) =
      (valuesUnder name entries).map (Setting.ofValue origin) := by
  induction entries with
  | nil => rw [Setting.ofEntries]; rfl
  | cons entry entries ih =>
    obtain ⟨key, value⟩ := entry
    rw [Setting.ofEntries, Setting.ofEntry, Setting.under_cons, ih, valuesUnder, valuesUnder]
    by_cases h : Text.lowercase key = name
    · rw [if_pos h, List.filter_cons_of_pos (by simpa using h)]
      rfl
    · rw [if_neg h, List.filter_cons_of_neg (by simpa using h)]
      rfl

/-- The value of a setting without parts. -/
def scalar? : Setting → Option Scalar
  | .scalar _ value => some value
  | .list _ _ | .table _ _ => none

/-- A setting with a value has no parts. -/
theorem eq_scalar_of_scalar? {s : Setting} {value : Scalar} (h : scalar? s = some value) :
    ∃ origin, s = .scalar origin value := by
  cases s <;> cases h
  exact ⟨_, rfl⟩

/-- A tidy tree with a tidy table of options, which holds the given values and no other options. -/
structure Holds (values : OptionField → Option Scalar) (root : Setting) : Prop where
  tidy : root.Tidy
  options_tidy : ∀ s, root.get? optionsKey = some s → s.Tidy
  held : ∀ field, (option? root field.name).map scalar? = (values field).map some

/-- An empty table holds no options. -/
theorem holds_emptyTable : Holds (fun _ => none) Setting.emptyTable :=
  ⟨Setting.tidy_emptyTable, nofun, fun _ => rfl⟩

/-- A file sets the options that it mentions and leaves the others, which are all of them if the
document has no table of options. -/
theorem Holds.assignEntries {values : OptionField → Option Scalar} {root : Setting}
    (h : Holds values root) {entries : List (String × Toml.Value)} (hdoc : OrderlyDocument entries)
    (origin : Option String) :
    Holds (fun field => (setIn? field entries).or (values field))
      (Setting.assignEntries (Setting.ofEntries origin entries) root) := by
  have hplain : ∀ key ∈ (Setting.ofEntries origin entries).map Prod.fst, IsBareKey key := by
    rw [keys_ofEntries]
    exact hdoc.1
  rw [Setting.assignEntries_of_bare hplain]
  have hunder := under_ofEntries optionsKey origin entries
  have htidy := h.tidy.mergeMembers hplain
  rcases hdoc.eq_nil_or_table with hnil | ⟨fields, hfields, hoptions⟩
  · rw [hnil] at hunder
    have hsame := Setting.get?_mergeMembers_of_nil hunder root
    refine ⟨htidy, ?_, ?_⟩
    · rw [hsame]
      exact h.options_tidy
    · intro field
      rw [option?, hsame, ← option?, setIn?_of_nil hnil]
      exact h.held field
  · rw [hfields, List.map_singleton, Setting.ofValue] at hunder
    have hmerged := Setting.get?_mergeMembers_of_singleton hunder root
    rw [Setting.laidOver] at hmerged
    have hold : ((root.get? optionsKey).getD Setting.emptyTable).Tidy := by
      cases hroot : root.get? optionsKey with
      | none => exact Setting.tidy_emptyTable
      | some old => exact h.options_tidy old hroot
    refine ⟨htidy, ?_, ?_⟩
    · intro s hs
      rw [hmerged, Option.some.injEq] at hs
      rw [← hs]
      apply hold.mergeMembers
      rw [keys_ofEntries]
      exact hoptions.1
    · intro field
      rw [option?, hmerged, Option.bind_some, setIn?_of_table hfields]
      have hname := under_ofEntries field.name origin fields
      rcases hoptions.eq_nil_or_typed field with hnone | ⟨value, scalar, hvalue, hscalar⟩
      · have hsame : ((root.get? optionsKey).getD Setting.emptyTable).get? field.name =
            option? root field.name := by
          rw [option?]
          cases root.get? optionsKey <;> rfl
        rw [hnone] at hname
        rw [Setting.get?_mergeMembers_of_nil hname, hsame, hnone]
        exact h.held field
      · rw [hvalue, List.map_singleton, Setting.ofValue_of_ofValue? hscalar] at hname
        rw [Setting.get?_mergeMembers_of_singleton hname, hvalue, List.head?_cons,
          Option.bind_some, hscalar]
        rfl

/-- Gathering the entries of a tree once more changes no option, as what is held has no parts that
could be merged. -/
theorem Holds.regather {values : OptionField → Option Scalar} {root : Setting}
    (h : Holds values root) :
    Holds values (Setting.assignEntries root.asTable.2 Setting.emptyTable) := by
  have hplain : ∀ key ∈ root.asTable.2.map Prod.fst, IsBareKey key :=
    fun key hkey => (h.tidy.plain key hkey).1
  rw [Setting.assignEntries_of_bare hplain]
  have hroot := h.tidy.get?_mergeMembers optionsKey
  refine ⟨Setting.tidy_emptyTable.mergeMembers hplain, ?_, ?_⟩
  · intro t ht
    rw [hroot] at ht
    obtain ⟨s, hs, rfl⟩ := Option.map_eq_some_iff.1 ht
    exact (h.options_tidy s hs).laidOver
  · intro field
    have hheld := h.held field
    rw [← hheld, option?, option?, hroot]
    rw [option?] at hheld
    cases hs : root.get? optionsKey with
    | none => rfl
    | some s =>
      rw [hs, Option.bind_some] at hheld
      rw [Option.map_some, Option.bind_some, Option.bind_some,
        (h.options_tidy s hs).get?_laidOver field.name]
      cases ht : s.get? field.name with
      | none => rfl
      | some t =>
        rw [ht, Option.map_some] at hheld
        obtain ⟨value, -, hvalue⟩ := Option.map_eq_some_iff.1 hheld.symm
        obtain ⟨origin, rfl⟩ := eq_scalar_of_scalar? hvalue.symm
        rfl

/-- The text of the configuration file that a path leads to, if there is such a file and it can be
read as text. -/
def textOf? (read : FileReader) (path : String) : Option String :=
  (findFile? read path).bind fun found => (read.readText found).toOption

/-- The value that the configuration file at a path gives to an option. -/
def setAt? (read : FileReader) (path : String) (field : OptionField) : Option Scalar :=
  ((textOf? read path).bind Toml.parse?).bind (setIn? field)

/-- In a tree that holds options, the entries set those that the file at a path sets. -/
def SetFrom (read : FileReader) (path : String) (entries : Setting.Entries) : Prop :=
  ∀ values root, Holds values root →
    Holds (fun field => (setAt? read path field).or (values field))
      (Setting.assignEntries entries root)

/-- The text is a document in which options are set. -/
def IsOrderlyText (text : String) : Prop := ∃ entries ∈ Toml.parse? text, OrderlyDocument entries

instance : DecidablePred IsOrderlyText := fun text =>
  inferInstanceAs (Decidable (∃ entries ∈ Toml.parse? text, OrderlyDocument entries))

/-- An orderly file can be read, and what is read sets the options that it mentions. -/
theorem exists_readFile {read : FileReader} {path text : String}
    (htext : textOf? read path = some text) (horderly : IsOrderlyText text) :
    ∃ entries, readFile read path = .ok entries ∧ SetFrom read path entries := by
  obtain ⟨entries, hparse, hdoc⟩ := horderly
  rw [Option.mem_def] at hparse
  have hset : setAt? read path = fun field => setIn? field entries := by
    funext field
    rw [setAt?, htext, Option.bind_some, hparse, Option.bind_some]
  obtain ⟨found, hfind, hfound⟩ := Option.bind_eq_some_iff.1 htext
  have hread : read.readText found = .ok text := toOption_eq_some_iff.1 hfound
  refine ⟨Setting.ofEntries (some (Path.relative read.workingDir found)) entries, ?_, ?_⟩
  · simp only [readFile, hfind, hread, hparse]
  · intro values root hroot
    rw [hset]
    exact hroot.assignEntries hdoc _

/-- An optional file that is not there, or cannot be read as text, has no entries. -/
theorem readOptionalFile_of_textOf? {read : FileReader} {path : String}
    (h : textOf? read path = none) : readOptionalFile read path = .ok [] := by
  rw [textOf?] at h
  cases hfind : findFile? read path with
  | none => simp only [readOptionalFile, readFile, hfind]
  | some found =>
    rw [hfind, Option.bind_some] at h
    obtain ⟨error, herror⟩ := toOption_eq_none_iff.1 h
    simp only [readOptionalFile, readFile, hfind, herror]

/-- An optional file can be read if it is orderly or has no text at all, and it sets the options
that it mentions. -/
theorem exists_readOptionalFile {read : FileReader} {path : String}
    (horderly : ∀ text ∈ textOf? read path, IsOrderlyText text) :
    ∃ entries, readOptionalFile read path = .ok entries ∧ SetFrom read path entries := by
  cases htext : textOf? read path with
  | none =>
    refine ⟨[], readOptionalFile_of_textOf? htext, fun values root hroot => ?_⟩
    simp only [setAt?, htext]
    exact hroot
  | some text =>
    obtain ⟨entries, hread, hset⟩ := exists_readFile htext (horderly text htext)
    refine ⟨entries, ?_, hset⟩
    rw [readOptionalFile, hread]

/-- The value that a layer gives to an option, if the layer is a file that sets it. -/
def writtenBy? (read : FileReader) (field : OptionField) : SettingsLayer → Option Scalar
  | .file path | .optionalFile path => setAt? read path field
  | .override _ _ => none

/-- The values that files give to an option, in order. -/
def writtenIn (read : FileReader) (field : OptionField) (layers : List SettingsLayer) :
    List Scalar :=
  layers.filterMap (writtenBy? read field)

/-- What a first layer gives to an option counts if no further one gives a value to it. -/
theorem getLast?_writtenIn_cons (read : FileReader) (field : OptionField) (layer : SettingsLayer)
    (layers : List SettingsLayer) (value : Option Scalar) :
    (writtenIn read field (layer :: layers)).getLast?.or value =
      (writtenIn read field layers).getLast?.or ((writtenBy? read field layer).or value) := by
  rw [writtenIn, writtenIn, List.filterMap_cons]
  cases writtenBy? read field layer with
  | none => rfl
  | some written =>
    rw [List.getLast?_cons]
    cases (layers.filterMap (writtenBy? read field)).getLast? <;> rfl

/-- The layer can be used: a required file is there, a file that is text is an orderly document, and
an override gives an option a value of its type. -/
def OrderlyLayer (read : FileReader) : SettingsLayer → Prop
  | .file path => ∃ text ∈ textOf? read path, IsOrderlyText text
  | .optionalFile path => ∀ text ∈ textOf? read path, IsOrderlyText text
  | .override path value =>
    ∃ field ∈ OptionField.all, path = optionPath field.name ∧ field.type.Admits value

instance (read : FileReader) : DecidablePred (OrderlyLayer read) := fun layer => by
  unfold OrderlyLayer
  split <;> infer_instance

/-- All layers can be used. -/
def OrderlyLayers (read : FileReader) (layers : List SettingsLayer) : Prop :=
  ∀ layer ∈ layers, OrderlyLayer read layer

instance (read : FileReader) : DecidablePred (OrderlyLayers read) := fun layers =>
  inferInstanceAs (Decidable (∀ layer ∈ layers, OrderlyLayer read layer))

namespace OrderlyLayers

variable {read : FileReader} {layers : List SettingsLayer}

/-- All overrides of orderly layers are overrides of options. -/
theorem overrideOptions (h : OrderlyLayers read layers) : OverrideOptions layers := by
  intro path value hmem
  obtain ⟨field, -, rfl, -⟩ := h _ hmem
  exact ⟨_, field.isOptionName, rfl⟩

/-- Reading the files in order, a tree goes on to hold options: of each, what the last file that
sets it gives. -/
theorem exists_files (h : OrderlyLayers read layers) :
    ∃ contents, files read layers = .ok contents ∧ ∀ values root, Holds values root →
      Holds (fun field => (writtenIn read field layers).getLast?.or (values field))
        (contents.foldl (fun tree entries => Setting.assignEntries entries tree) root) := by
  induction layers with
  | nil => exact ⟨[], rfl, fun _ _ hroot => hroot⟩
  | cons layer layers ih =>
    obtain ⟨hlayer, hlayers⟩ := List.forall_mem_cons.1 h
    obtain ⟨contents, hfiles, hholds⟩ := ih hlayers
    simp only [getLast?_writtenIn_cons]
    cases layer with
    | override path value => exact ⟨contents, hfiles, hholds⟩
    | file path =>
      obtain ⟨text, htext, horderly⟩ := hlayer
      obtain ⟨first, hfirst, hset⟩ := exists_readFile htext horderly
      refine ⟨first :: contents, ?_, fun values root hroot => hholds _ _ (hset values root hroot)⟩
      rw [files, hfirst, hfiles]
      rfl
    | optionalFile path =>
      obtain ⟨first, hfirst, hset⟩ := exists_readOptionalFile hlayer
      refine ⟨first :: contents, ?_, fun values root hroot => hholds _ _ (hset values root hroot)⟩
      rw [files, hfirst, hfiles]
      rfl

/-- What overrides give to an option is of the type of the option. -/
theorem admits_of_mem_overridesAt (h : OrderlyLayers read layers) {field : OptionField}
    {value : Scalar} (hmem : value ∈ overridesAt (optionPath field.name) layers) :
    field.type.Admits value := by
  obtain ⟨layer, hlayer, hvalue⟩ := List.mem_filterMap.1 hmem
  cases layer with
  | file path | optionalFile path => cases hvalue
  | override path other =>
    obtain ⟨owner, -, rfl, hadmits⟩ := h _ hlayer
    simp only [optionPath_inj] at hvalue
    split at hvalue
    · case isTrue hname =>
      cases hvalue
      rwa [OptionField.name_injective hname] at hadmits
    · cases hvalue

end OrderlyLayers

/-- What files give to an option is of the type of the option. -/
theorem admits_of_mem_writtenIn {read : FileReader} {field : OptionField}
    {layers : List SettingsLayer} {value : Scalar} (h : value ∈ writtenIn read field layers) :
    field.type.Admits value := by
  obtain ⟨layer, -, hvalue⟩ := List.mem_filterMap.1 h
  cases layer with
  | file path | optionalFile path =>
    obtain ⟨entries, -, hset⟩ := Option.bind_eq_some_iff.1 hvalue
    exact admits_of_setIn? hset
  | override path value => cases hvalue

/-- The document of the defaults. -/
def defaultDocument : List (String × Toml.Value) :=
  let options : MockOptions := {}
  [(optionsKey, .table [("marker", .text options.marker), ("suffix", .text options.suffix),
    ("indent", .text options.indent),
    ("conform_to_protocol", .boolean options.conformToProtocol)])]

/-- The document of the defaults gives each option its default. -/
theorem setIn?_defaultDocument (field : OptionField) :
    setIn? field defaultDocument = some (({} : MockOptions).value field) := by
  have hall : ∀ field ∈ OptionField.all,
      setIn? field defaultDocument = some (({} : MockOptions).value field) := by decide +kernel
  exact hall field field.mem_all

/-- The document of the defaults is orderly. -/
theorem orderlyDocument_defaultDocument : OrderlyDocument defaultDocument := by decide +kernel

/-- The tree that files are layered over holds the defaults. -/
theorem holds_defaults :
    Holds (fun field => some (({} : MockOptions).value field))
      (Setting.assignEntries defaults.asTable.2 Setting.emptyTable) := by
  have hdefaults : defaults.asTable.2 = Setting.ofEntries none defaultDocument := by
    simp only [defaultDocument, Setting.ofEntries, Setting.ofEntry, Setting.ofValue]
    rfl
  have hholds := holds_emptyTable.assignEntries orderlyDocument_defaultDocument none
  simp only [setIn?_defaultDocument, Option.some_or] at hholds
  rwa [hdefaults]

/-- The value of an option in layers: of its last override, else in the last file that sets it, else
the default. -/
def precedent (read : FileReader) (layers : List SettingsLayer) (field : OptionField) : Scalar :=
  ((overridesAt (optionPath field.name) layers).getLast?.or
    (writtenIn read field layers).getLast?).getD (({} : MockOptions).value field)

/-- The value that takes precedence is of the type of the option. -/
theorem OrderlyLayers.admits_precedent {read : FileReader} {layers : List SettingsLayer}
    (h : OrderlyLayers read layers) (field : OptionField) :
    field.type.Admits (precedent read layers field) := by
  rw [precedent]
  cases hover : (overridesAt (optionPath field.name) layers).getLast? with
  | some value => exact h.admits_of_mem_overridesAt (List.mem_of_getLast? hover)
  | none =>
    cases hfile : (writtenIn read field layers).getLast? with
    | some value => exact admits_of_mem_writtenIn (List.mem_of_getLast? hfile)
    | none => cases field <;> trivial

/-- Orderly layers give a tree in which each option stands with the value of the layer that takes
precedence. -/
theorem OrderlyLayers.exists_root {read : FileReader} {layers : List SettingsLayer}
    (h : OrderlyLayers read layers) :
    ∃ root, load read layers = readOptions root ∧ ∀ field : OptionField, ∃ origin,
      option? root field.name = some (.scalar origin (precedent read layers field)) := by
  obtain ⟨assigned, hassigned, hnames, hat⟩ := exists_assigned h.overrideOptions
  obtain ⟨contents, hfiles, hholds⟩ := h.exists_files
  refine ⟨_, by rw [load, hassigned, hfiles]; rfl, fun field => ?_⟩
  have hheld := (hholds _ _ holds_defaults).regather.held field
  rw [gather, List.foldl_map, option?_foldl_assign _ hnames, ← hat, precedent]
  cases (overridesAt (optionPath field.name) layers).getLast? with
  | some value => exact ⟨none, rfl⟩
  | none =>
    obtain ⟨s, hs, hvalue⟩ := Option.map_eq_some_iff.1 (hheld.trans (by
      rw [Option.or_some, Option.map_some]))
    obtain ⟨origin, rfl⟩ := eq_scalar_of_scalar? hvalue
    exact ⟨origin, hs⟩

/-- A further file changes no overrides. -/
theorem overrides_insert_optionalFile (front : List SettingsLayer) (path : String)
    (back : List SettingsLayer) :
    overrides (front ++ .optionalFile path :: back) = overrides (front ++ back) := by
  rw [← overrides_filter, ← overrides_filter (front ++ back), List.filter_append,
    List.filter_append, List.filter_cons_of_neg (by simp [SettingsLayer.isOverride])]

/-- The tree that files are layered into, if all of them can be read. -/
def layered (read : FileReader) (layers : List SettingsLayer) (root : Setting) :
    Except SettingsError Setting :=
  (files read layers).map (·.foldl (fun tree entries => Setting.assignEntries entries tree) root)

/-- Layers are put into the tree one by one, and the first file that cannot be read stops this. -/
theorem layered_cons {read : FileReader} {layer : SettingsLayer} {layers : List SettingsLayer}
    {outcome : Except SettingsError Setting.Entries}
    (h : files read (layer :: layers) = (do return (← outcome) :: (← files read layers)))
    (root : Setting) :
    layered read (layer :: layers) root = outcome.bind fun entries =>
      layered read layers (Setting.assignEntries entries root) := by
  rw [layered, h]
  cases outcome with
  | error e => rfl
  | ok entries =>
    simp only [Except.bind, layered]
    cases files read layers <;> rfl

/-- An optional file without text leaves the tree as it is. -/
theorem layered_insert_optionalFile {read : FileReader} {path : String}
    (h : textOf? read path = none) (front back : List SettingsLayer) (root : Setting) :
    layered read (front ++ .optionalFile path :: back) root =
      layered read (front ++ back) root := by
  induction front generalizing root with
  | nil =>
    rw [List.nil_append, List.nil_append, layered_cons rfl, readOptionalFile_of_textOf? h]
    rfl
  | cons layer front ih =>
    rw [List.cons_append, List.cons_append]
    cases layer with
    | override other value => exact ih root
    | file other | optionalFile other =>
      rw [layered_cons rfl, layered_cons rfl]
      simp only [ih]

/-- Of the files no more counts than the tree they are layered into. -/
theorem load_eq_layered (read : FileReader) (layers : List SettingsLayer) :
    load read layers = (overrides layers).bind fun assigned =>
      (layered read layers (Setting.assignEntries defaults.asTable.2 Setting.emptyTable)).bind
        fun tree => readOptions (assigned.foldl
          (fun tree entry => Setting.assign entry.1 (.scalar none entry.2) tree)
          (Setting.assignEntries tree.asTable.2 Setting.emptyTable)) := by
  rw [load, layered]
  cases overrides layers with
  | error e => rfl
  | ok assigned => cases files read layers <;> rfl

/-- An optional file without text could as well be left out. -/
theorem load_insert_optionalFile {read : FileReader} {path : String}
    (h : textOf? read path = none) (front back : List SettingsLayer) :
    load read (front ++ .optionalFile path :: back) = load read (front ++ back) := by
  rw [load_eq_layered, load_eq_layered, overrides_insert_optionalFile,
    layered_insert_optionalFile h]

/-- In orderly layers every option has the value of its last override, else of the last file that
sets it, else its default. An optional file that is not there, or is not text, changes nothing,
whatever the other layers are. -/
theorem options_by_precedence {read : FileReader} {layers : List SettingsLayer}
    (h : OrderlyLayers read layers) :
    (∃ options, load read layers = .ok options ∧
      ∀ field, options.value field = precedent read layers field) ∧
    ∀ front path back, textOf? read path = none →
      load read (front ++ .optionalFile path :: back) = load read (front ++ back) := by
  obtain ⟨root, hload, hroot⟩ := h.exists_root
  have hread : ∃ options, readOptions root = .ok options := by
    refine exists_readOptions fun field => ?_
    obtain ⟨origin, hfield⟩ := hroot field
    exact ⟨origin, _, hfield, h.admits_precedent field⟩
  obtain ⟨options, hoptions⟩ := hread
  refine ⟨⟨options, hload.trans hoptions, fun field => ?_⟩, ?_⟩
  · obtain ⟨origin, hfield⟩ := hroot field
    exact value_of_readOptions hoptions hfield (h.admits_precedent field)
  · exact fun front path back hnone => load_insert_optionalFile hnone front back

/-- Two files that set some of the options, one that sets none, and one that is not text. -/
def partialFiles : FileReader :=
  .ofList ["work"]
    [("/work/a.toml", .holding "[mock]\nsuffix = \"Fake\"\nconform_to_protocol = false\n".toUTF8),
      ("/work/b",
        .holding "x.\"y z\" = 1\n[MOCK]\nmarker = \"Mocked\"\nSuffix = \"Stub\"\n".toUTF8),
      ("/work/c", .holding "mark = [1]\n".toUTF8), ("/work/d", .holding ⟨#[255]⟩)]

/-- The marker comes from the last override, the suffix from the last file that sets it, the
conformance from the file before, and the indent is the default. -/
theorem partialFiles_by_precedence :
    let layers : List SettingsLayer :=
      [.override "mock.marker" (.text "First"), .file "a", .optionalFile "b.toml",
        .optionalFile "b", .override "mock.marker" (.text "Last"), .file "c"]
    let values : MockOptions := ⟨"Last", "Stub", "    ", false⟩
    OrderlyLayers partialFiles layers ∧ textOf? partialFiles "d" = none ∧
      (∃ options, load partialFiles layers = .ok options ∧
        ∀ field, options.value field = values.value field) ∧
      load partialFiles (.override "mock.marker" (.text "First") :: .optionalFile "d" ::
        layers.tail) = load partialFiles layers := by
  intro layers values
  have hlayers : OrderlyLayers partialFiles layers := by decide +kernel
  have hnone : textOf? partialFiles "d" = none := by decide +kernel
  have hprecedent : ∀ field ∈ OptionField.all,
      precedent partialFiles layers field = values.value field := by decide +kernel
  obtain ⟨⟨options, hload, hvalue⟩, hinsert⟩ := options_by_precedence hlayers
  refine ⟨hlayers, hnone, ⟨options, hload, fun field => ?_⟩, ?_⟩
  · rw [hvalue, hprecedent field field.mem_all]
  · exact hinsert [.override "mock.marker" (.text "First")] "d" layers.tail hnone

end Settings

end ProtocolMocks
