import Mathlib.Data.String.Basic
import ProtocolMocks.Data.Except
import ProtocolMocks.Proofs.SettingTable

/-!
# Overrides stand above files

An override of an option makes a table of whatever stands under the key of the options, so its value
is found whatever the files hold. The last override of an option decides, and it does not matter
where the overrides stand among the files.
-/

namespace ProtocolMocks

/-- The options of the generator. -/
inductive OptionField where
  | marker
  | suffix
  | indent
  | conformToProtocol
deriving DecidableEq, Repr

namespace OptionField

/-- The name under which the option is set. -/
def name : OptionField → String
  | .marker => "marker"
  | .suffix => "suffix"
  | .indent => "indent"
  | .conformToProtocol => "conform_to_protocol"

/-- What the option holds. -/
def type : OptionField → FieldType
  | .marker | .suffix | .indent => .text
  | .conformToProtocol => .boolean

/-- All options. -/
def all : List OptionField := [.marker, .suffix, .indent, .conformToProtocol]

/-- No option is missing from the list. -/
theorem mem_all (field : OptionField) : field ∈ all := by
  cases field <;> decide

end OptionField

/-- A value of the type, which needs no conversion. -/
def FieldType.Admits : FieldType → Scalar → Prop
  | .text, .text _ => True
  | .boolean, .boolean _ => True
  | _, _ => False

instance (type : FieldType) : DecidablePred type.Admits := fun value => by
  unfold FieldType.Admits
  split <;> infer_instance

/-- The value of an option. -/
def MockOptions.value (options : MockOptions) : OptionField → Scalar
  | .marker => .text options.marker
  | .suffix => .text options.suffix
  | .indent => .text options.indent
  | .conformToProtocol => .boolean options.conformToProtocol

/-- A plain key in lower case. -/
def IsOptionName (name : String) : Prop := IsBareKey name ∧ Text.lowercase name = name

instance : DecidablePred IsOptionName := fun name =>
  inferInstanceAs (Decidable (IsBareKey name ∧ Text.lowercase name = name))

/-- A plain key in small letters can be the name of an option. -/
theorem IsBareKey.isOptionName {name : String} (h : IsBareKey name)
    (hlower : name.toList.map Char.toLower = name.toList) : IsOptionName name := by
  refine ⟨h, ?_⟩
  rw [← String.toList_inj, h.toList_lowercase, hlower]

/-- The names of the options are plain keys in small letters. -/
theorem OptionField.isOptionName (field : OptionField) : IsOptionName field.name := by
  apply IsBareKey.isOptionName <;> cases field <;> decide

/-- No two options have the same name. -/
theorem OptionField.name_injective {field other : OptionField} (h : field.name = other.name) :
    field = other := by
  revert h
  cases field <;> cases other <;> decide

namespace Settings

/-- The key of all options is plain and in small letters. -/
theorem isOptionName_optionsKey : IsOptionName optionsKey := by
  apply IsBareKey.isOptionName <;> decide

/-- The path that leads to an option. -/
def optionPath (name : String) : String := optionsKey ++ "." ++ name

/-- The path of an option is read as the key of all options and the name. -/
theorem parse_optionPath {name : String} (h : IsBareKey name) :
    KeyPath.parse (optionPath name) = .ok ⟨optionsKey, [.key name]⟩ := by
  have htext : (optionPath name).toList = optionsKey.toList ++ '.' :: name.toList := by
    simp [optionPath]
  have hfirst : KeyPath.takeKey? (optionPath name).toList =
      some (optionsKey, '.' :: name.toList) := by
    rw [htext, KeyPath.takeKey?_append (by decide) (by decide) (by rfl), String.ofList_toList]
  have hsteps (fuel : Nat) :
      KeyPath.takeSteps (fuel + 1) ('.' :: name.toList) = .ok [.key name] := by
    rw [KeyPath.takeSteps, h.takeKey?]
    cases fuel <;> rfl
  rw [KeyPath.parse, hfirst]
  simp only [List.length_cons, hsteps]
  rfl

/-- The setting of an option, if there is one. -/
def option? (root : Setting) (name : String) : Option Setting :=
  (root.get? optionsKey).bind (·.get? name)

/-- An assignment to an option makes tables on the way, and changes no other option. -/
theorem option?_assign (root : Setting) {name : String} (hname : Text.lowercase name = name)
    (value : Scalar) (other : String) :
    option? (Setting.assign ⟨optionsKey, [.key name]⟩ (.scalar none value) root) other =
      if other = name then some (.scalar none value) else option? root other := by
  have hroot : (Setting.assign ⟨optionsKey, [.key name]⟩ (.scalar none value) root).get?
      optionsKey = some (Setting.merge name (.scalar none value)
        ((root.get? optionsKey).getD Setting.blank)) := by
    rw [Setting.assign, Setting.assignBelow, Setting.get?_table, Setting.lookup_put,
      isOptionName_optionsKey.2, if_pos rfl]
    · rfl
    · nofun
  rw [option?, hroot, Option.bind_some, Setting.get?_merge, hname]
  by_cases h : other = name
  · rw [if_pos h, if_pos h]
    rfl
  · rw [if_neg h, if_neg h, option?]
    cases root.get? optionsKey <;> rfl

/-- The values assigned to a name, in order. -/
def assignedTo (name : String) (assigned : List (String × Scalar)) : List Scalar :=
  (assigned.filter (·.1 = name)).map Prod.snd

/-- Of several assignments to an option the last one counts. -/
theorem option?_foldl_assign (root : Setting) {assigned : List (String × Scalar)}
    (h : ∀ entry ∈ assigned, IsOptionName entry.1) (name : String) :
    option? (assigned.foldl (fun tree entry =>
        Setting.assign ⟨optionsKey, [.key entry.1]⟩ (.scalar none entry.2) tree) root) name =
      ((assignedTo name assigned).getLast?.map (.scalar none)).or (option? root name) := by
  induction assigned generalizing root with
  | nil => rfl
  | cons entry assigned ih =>
    obtain ⟨hentry, hrest⟩ := List.forall_mem_cons.1 h
    rw [List.foldl_cons, ih _ hrest, option?_assign root hentry.2]
    by_cases hname : name = entry.1
    · rw [if_pos hname, assignedTo, assignedTo, List.filter_cons_of_pos (by simp [hname]),
        List.map_cons, List.getLast?_cons]
      cases ((assigned.filter (·.1 = name)).map Prod.snd).getLast? <;> rfl
    · rw [if_neg hname, assignedTo, assignedTo,
        List.filter_cons_of_neg (by simpa using Ne.symm hname)]

/-- A required field is what is read from the setting that stands under its name. -/
theorem eq_of_readField? {α : Type} {read : String → Setting → Except SettingsError α}
    {entries : Setting.Entries} {name : String} {field : Option α} {a b : α} {s : Setting}
    (hfield : readField? read entries name = .ok field) (ha : require name field = .ok a)
    (hfound : entries.lookup name = some s)
    (hread : read (optionsKey ++ "." ++ name) s = .ok b) : a = b := by
  rw [readField?, hfound, Option.mapM_some, hread] at hfield
  cases hfield
  cases ha
  rfl

/-- If options are read at all, a field that is set to a value of its type has this value. -/
theorem value_of_readTable {entries : Setting.Entries} {options : MockOptions}
    (h : readTable entries = .ok options) {field : OptionField} {origin : Option String}
    {value : Scalar} (hfound : entries.lookup field.name = some (.scalar origin value))
    (htype : field.type.Admits value) : options.value field = value := by
  simp only [readTable, bind_eq_ok_iff] at h
  obtain ⟨_, hmarker, _, hsuffix, _, hindent, _, hconform, _, rmarker, _, rsuffix, _, rindent,
    _, rconform, hoptions⟩ := h
  cases hoptions
  cases field <;> cases value <;> try exact htype.elim
  case marker.text text => exact congrArg _ (eq_of_readField? hmarker rmarker hfound rfl)
  case suffix.text text => exact congrArg _ (eq_of_readField? hsuffix rsuffix hfound rfl)
  case indent.text text => exact congrArg _ (eq_of_readField? hindent rindent hfound rfl)
  case conformToProtocol.boolean b =>
    exact congrArg _ (eq_of_readField? hconform rconform hfound rfl)

/-- Options are read from a table that sets each of them to a value of its type. -/
theorem exists_readTable {entries : Setting.Entries}
    (h : ∀ field : OptionField, ∃ origin value,
      entries.lookup field.name = some (.scalar origin value) ∧ field.type.Admits value) :
    ∃ options, readTable entries = .ok options := by
  have htext (field : OptionField) (htype : field.type = .text) :
      ∃ origin text, entries.lookup field.name = some (.scalar origin (.text text)) := by
    obtain ⟨origin, value, hfound, hadmits⟩ := h field
    rw [htype] at hadmits
    cases value with
    | text text => exact ⟨origin, text, hfound⟩
    | _ => exact hadmits.elim
  obtain ⟨_, marker, hmarker⟩ := htext .marker rfl
  obtain ⟨_, suffix, hsuffix⟩ := htext .suffix rfl
  obtain ⟨_, indent, hindent⟩ := htext .indent rfl
  obtain ⟨_, conform, hconform, hadmits⟩ := h .conformToProtocol
  cases conform with
  | boolean b =>
    simp only [OptionField.name] at hmarker hsuffix hindent hconform
    refine ⟨⟨marker, suffix, indent, b⟩, ?_⟩
    simp only [readTable, readField?, hmarker, hsuffix, hindent, hconform, Option.mapM_some]
    rfl
  | _ => exact hadmits.elim

/-- Where some option is found the options are read from a table, and in this table all of them are
found. -/
theorem readOptions_of_option? {root found : Setting} {name : String}
    (h : option? root name = some found) :
    ∃ entries, readOptions root = readTable entries ∧
      ∀ other, option? root other = entries.lookup other := by
  obtain ⟨s, hs, hfound⟩ := Option.bind_eq_some_iff.1 h
  have htable := Setting.eq_table_of_get? hfound
  refine ⟨s.asTable.2, ?_, ?_⟩
  · have hlookup : root.asTable.2.lookup optionsKey = some s := hs
    rw [readOptions, hlookup, htable]
    rfl
  · intro other
    rw [option?, hs]
    rfl

/-- An option that was found with a value of its type has this value, if the options can be read. -/
theorem value_of_readOptions {root : Setting} {options : MockOptions}
    (h : readOptions root = .ok options) {field : OptionField} {origin : Option String}
    {value : Scalar} (hfound : option? root field.name = some (.scalar origin value))
    (htype : field.type.Admits value) : options.value field = value := by
  obtain ⟨entries, hread, hlookup⟩ := readOptions_of_option? hfound
  rw [hread] at h
  exact value_of_readTable h (hlookup _ ▸ hfound) htype

/-- The options can be read if all of them are found with values of their types. -/
theorem exists_readOptions {root : Setting}
    (h : ∀ field : OptionField, ∃ origin value,
      option? root field.name = some (.scalar origin value) ∧ field.type.Admits value) :
    ∃ options, readOptions root = .ok options := by
  obtain ⟨_, _, hmarker, -⟩ := h .marker
  obtain ⟨entries, hread, hlookup⟩ := readOptions_of_option? hmarker
  rw [hread]
  simp only [hlookup] at h
  exact exists_readTable h

end Settings

/-- Whether a layer is an override. -/
def SettingsLayer.isOverride : SettingsLayer → Bool
  | .override _ _ => true
  | .file _ | .optionalFile _ => false

namespace Settings

/-- The values that overrides give to a path, in order. -/
def overridesAt (path : String) (layers : List SettingsLayer) : List Scalar :=
  layers.filterMap fun layer =>
    match layer with
    | .override other value => if other = path then some value else none
    | .file _ | .optionalFile _ => none

/-- The files among the layers do not matter for the overrides. -/
theorem overrides_filter (layers : List SettingsLayer) :
    overrides (layers.filter (·.isOverride)) = overrides layers := by
  induction layers with
  | nil => rfl
  | cons layer layers ih =>
    cases layer with
    | override path value =>
      rw [List.filter_cons_of_pos (by rfl), overrides, overrides, ih]
    | file path | optionalFile path =>
      rw [List.filter_cons_of_neg (by simp [SettingsLayer.isOverride]), ih]
      rfl

/-- The overrides among the layers do not matter for the files. -/
theorem files_filter (read : FileReader) (layers : List SettingsLayer) :
    files read (layers.filter (!·.isOverride)) = files read layers := by
  induction layers with
  | nil => rfl
  | cons layer layers ih =>
    cases layer with
    | override path value =>
      rw [List.filter_cons_of_neg (by simp [SettingsLayer.isOverride]), ih]
      rfl
    | file path | optionalFile path =>
      rw [List.filter_cons_of_pos (by rfl), files, files, ih]

/-- Layers with the same overrides and the same files, each in the same order, give the same
options or the same error. -/
theorem load_eq_of_filter_eq (read : FileReader) {layers moved : List SettingsLayer}
    (hoverrides : moved.filter (·.isOverride) = layers.filter (·.isOverride))
    (hfiles : moved.filter (!·.isOverride) = layers.filter (!·.isOverride)) :
    load read moved = load read layers := by
  rw [load, load, ← overrides_filter moved, ← files_filter read moved, hoverrides, hfiles,
    overrides_filter, files_filter]

/-- Every override in the layers is one of an option. -/
def OverrideOptions (layers : List SettingsLayer) : Prop :=
  ∀ path value, .override path value ∈ layers → ∃ name, IsOptionName name ∧ path = optionPath name

/-- Paths of different options differ. -/
theorem optionPath_inj {name other : String} :
    optionPath name = optionPath other ↔ name = other := by
  constructor
  · intro h
    rw [optionPath, optionPath] at h
    exact String.append_right_inj _ |>.1 h
  · exact congrArg optionPath

/-- The overrides of options, by name. -/
theorem exists_assigned {layers : List SettingsLayer} (h : OverrideOptions layers) :
    ∃ assigned : List (String × Scalar),
      overrides layers =
        .ok (assigned.map fun entry => (⟨optionsKey, [.key entry.1]⟩, entry.2)) ∧
      (∀ entry ∈ assigned, IsOptionName entry.1) ∧
      ∀ name, overridesAt (optionPath name) layers = assignedTo name assigned := by
  induction layers with
  | nil => exact ⟨[], rfl, nofun, fun _ => rfl⟩
  | cons layer layers ih =>
    obtain ⟨assigned, hassigned, hnames, hat⟩ :=
      ih fun path value hmem => h path value (List.mem_cons_of_mem _ hmem)
    cases layer with
    | file path | optionalFile path => exact ⟨assigned, hassigned, hnames, hat⟩
    | override path value =>
      obtain ⟨name, hname, rfl⟩ := h path value List.mem_cons_self
      refine ⟨(name, value) :: assigned, ?_, List.forall_mem_cons.2 ⟨hname, hnames⟩, ?_⟩
      · rw [overrides, parse_optionPath hname.1, hassigned]
        rfl
      · intro other
        rw [overridesAt, List.filterMap_cons, ← overridesAt, hat, assignedTo, assignedTo]
        by_cases hother : name = other
        · subst hother
          simp
        · have hpath : optionPath name ≠ optionPath other := fun heq =>
            hother (optionPath_inj.1 heq)
          simp [hother, hpath]

/-- The tree of all settings, with the assignments to options carried out by name. -/
theorem exists_gather {read : FileReader} {layers : List SettingsLayer} {options : MockOptions}
    (h : load read layers = .ok options) (hlayers : OverrideOptions layers) :
    ∃ root, readOptions root = .ok options ∧ ∀ name value,
      (overridesAt (optionPath name) layers).getLast? = some value →
        option? root name = some (.scalar none value) := by
  obtain ⟨assigned, hassigned, hnames, hat⟩ := exists_assigned hlayers
  rw [load, hassigned, bind_eq_ok_iff] at h
  obtain ⟨_, hok, h⟩ := h
  cases hok
  obtain ⟨files, -, h⟩ := bind_eq_ok_iff.1 h
  refine ⟨_, h, ?_⟩
  intro name value hlast
  rw [gather, List.foldl_map, option?_foldl_assign _ hnames, ← hat, hlast]
  rfl

/-- An option has the value of its last override, if this is of its type. -/
theorem value_of_last_override {read : FileReader} {layers : List SettingsLayer}
    {options : MockOptions} (h : load read layers = .ok options) (hlayers : OverrideOptions layers)
    {field : OptionField} {value : Scalar} (htype : field.type.Admits value)
    (hlast : (overridesAt (optionPath field.name) layers).getLast? = some value) :
    options.value field = value := by
  obtain ⟨root, hread, hroot⟩ := exists_gather h hlayers
  exact value_of_readOptions hread (hroot _ _ hlast) htype

/-- A text that is the last override of the marker or of the suffix is the marker or the suffix,
whatever stands in the files. Overrides may stand anywhere among the files. -/
theorem overrides_win (read : FileReader) {layers : List SettingsLayer}
    (h : OverrideOptions layers) :
    (∀ options text, load read layers = .ok options →
      (overridesAt (optionPath "marker") layers).getLast? = some (.text text) →
        options.marker = text) ∧
    (∀ options text, load read layers = .ok options →
      (overridesAt (optionPath "suffix") layers).getLast? = some (.text text) →
        options.suffix = text) ∧
    ∀ moved : List SettingsLayer,
      moved.filter (·.isOverride) = layers.filter (·.isOverride) →
      moved.filter (!·.isOverride) = layers.filter (!·.isOverride) →
        load read moved = load read layers := by
  refine ⟨?_, ?_, fun moved => load_eq_of_filter_eq read⟩
  · intro options text hload hlast
    have hvalue : options.value .marker = .text text :=
      value_of_last_override hload h trivial hlast
    exact Scalar.text.inj hvalue
  · intro options text hload hlast
    have hvalue : options.value .suffix = .text text :=
      value_of_last_override hload h trivial hlast
    exact Scalar.text.inj hvalue

/-- A file in which a number stands in the place of all options. -/
def numberForOptions : FileReader :=
  .ofList ["work"] [("/work/a.toml", .holding "MOCK = 5\n".toUTF8)]

/-- The number gives way to the overrides in front of the file and behind it, which may as well
stand together. -/
theorem numberForOptions_gives_way :
    let layers : List SettingsLayer :=
      [.override "mock.indent" (.text " "), .override "mock.marker" (.boolean true),
        .override "mock.conform_to_protocol" (.integer 0), .file "a", .optionalFile "b",
        .override "mock.suffix" (.text "Stub"), .override "mock.marker" (.text "M")]
    let moved : List SettingsLayer :=
      [.file "a", .override "mock.indent" (.text " "), .override "mock.marker" (.boolean true),
        .override "mock.conform_to_protocol" (.integer 0), .override "mock.suffix" (.text "Stub"),
        .override "mock.marker" (.text "M"), .optionalFile "b"]
    OverrideOptions layers ∧ load numberForOptions layers = .ok ⟨"M", "Stub", " ", false⟩ ∧
      (⟨"M", "Stub", " ", false⟩ : MockOptions).marker = "M" ∧
      (⟨"M", "Stub", " ", false⟩ : MockOptions).suffix = "Stub" ∧
      load numberForOptions moved = load numberForOptions layers := by
  intro layers moved
  have hoverrides : OverrideOptions layers := by
    intro path value hmem
    simp only [layers, List.mem_cons, List.not_mem_nil, SettingsLayer.override.injEq, reduceCtorEq,
      or_false, false_or] at hmem
    rcases hmem with ⟨rfl, -⟩ | ⟨rfl, -⟩ | ⟨rfl, -⟩ | ⟨rfl, -⟩ | ⟨rfl, -⟩
    · exact ⟨_, OptionField.indent.isOptionName, rfl⟩
    · exact ⟨_, OptionField.marker.isOptionName, rfl⟩
    · exact ⟨_, OptionField.conformToProtocol.isOptionName, rfl⟩
    · exact ⟨_, OptionField.suffix.isOptionName, rfl⟩
    · exact ⟨_, OptionField.marker.isOptionName, rfl⟩
  have hload : load numberForOptions layers = .ok ⟨"M", "Stub", " ", false⟩ := by decide +kernel
  obtain ⟨hmarker, hsuffix, hmoved⟩ := overrides_win numberForOptions hoverrides
  refine ⟨hoverrides, hload, ?_, ?_, ?_⟩
  · exact hmarker _ "M" hload (by decide +kernel)
  · exact hsuffix _ "Stub" hload (by decide +kernel)
  · exact hmoved moved (by decide +kernel) (by decide +kernel)

end Settings

end ProtocolMocks
