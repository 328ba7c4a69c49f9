import ProtocolMocks.Data.Char
import ProtocolMocks.Data.List
import ProtocolMocks.Settings

/-!
# Tables of settings

What a table holds under a name after something was merged into it. One equation says it for a
single assignment (`get?_merge`) and one for a whole table (`get?_mergeMembers`): under each name
the settings that stand under it, in any letter case, are put over what was there, in order, and no
other name matters. A tidy table has lower-case names without duplicates, and merging plain keys
keeps it so; merging a tidy table once more finds the same settings in it.
-/

namespace ProtocolMocks

/-- A key that needs no quotes in a document. -/
def IsBareKey (key : String) : Prop :=
  key ≠ "" ∧ key.toList.all Toml.isBareKeyPart = true

instance : DecidablePred IsBareKey := fun key =>
  inferInstanceAs (Decidable (key ≠ "" ∧ key.toList.all Toml.isBareKeyPart = true))

namespace Text

/-- Plain keys are written in ASCII. -/
theorem isAscii_of_isBareKeyPart {c : Char} (h : Toml.isBareKeyPart c = true) : c.toNat < 128 := by
  simp only [Toml.isBareKeyPart, Bool.or_eq_true, beq_iff_eq] at h
  rcases h with (h | rfl) | rfl
  · exact isAscii_of_isAlphanum h
  · decide
  · decide

/-- Among the characters of ASCII only the capital letters have another lower case. -/
theorem lowerChar_of_lt {c : Char} (h : c.toNat < 128) : lowerChar c = [c.toLower] := by
  have hdotted : c ≠ '\u0130' := by
    rintro rfl
    exact absurd h (by decide)
  have hranges : ∀ range ∈ lowercaseRanges.tail, 128 ≤ range.1 := by decide +kernel
  have hcapital : ∀ n < 128, (if 65 ≤ n && n ≤ 90 then Char.ofNat (n + 32) else Char.ofNat n) =
      (Char.ofNat n).toLower := by decide +kernel
  have hlower := hcapital c.toNat h
  rw [Char.ofNat_toNat] at hlower
  have hsplit : lowercaseRanges = (65, 90, 1, 32) :: lowercaseRanges.tail := rfl
  rw [lowerChar, if_neg hdotted]
  simp only
  rw [hsplit, List.find?_cons, List.find?_eq_none.2, ← hlower]
  rotate_left
  · intro range hrange
    have hfirst : ¬ range.1 ≤ c.toNat := Nat.not_le.2 (Nat.lt_of_lt_of_le h (hranges range hrange))
    simp [hfirst]
  simp only [Nat.mod_one, beq_self_eq_true, Bool.and_true]
  cases 65 ≤ c.toNat && c.toNat ≤ 90 with
  | true => rfl
  | false => rfl

/-- In small letters a character of a plain key is still one. -/
theorem isBareKeyPart_toLower {c : Char} (h : Toml.isBareKeyPart c = true) :
    Toml.isBareKeyPart c.toLower = true := by
  have hall : ∀ n < 128, Toml.isBareKeyPart (Char.ofNat n) = true →
      Toml.isBareKeyPart (Char.ofNat n).toLower = true := by decide +kernel
  have hc := hall c.toNat (isAscii_of_isBareKeyPart h)
  rw [Char.ofNat_toNat] at hc
  exact hc h

/-- Without other letters than those of ASCII, each character is lowered on its own. -/
theorem lowerAfter_of_lt {cs : List Char} (h : ∀ c ∈ cs, c.toNat < 128) (before : List Char) :
    lowerAfter before cs = cs.map Char.toLower := by
  induction cs generalizing before with
  | nil => rfl
  | cons c cs ih =>
    have hc := h c List.mem_cons_self
    have hsigma : c ≠ '\u03a3' := by
      rintro rfl
      exact absurd hc (by decide)
    rw [lowerAfter, if_neg hsigma, lowerChar_of_lt hc,
      ih (fun d hd => h d (List.mem_cons_of_mem c hd))]
    rfl

end Text

/-- A plain key consists of the characters of plain keys. -/
theorem IsBareKey.forall {key : String} (h : IsBareKey key) :
    ∀ c ∈ key.toList, Toml.isBareKeyPart c = true :=
  List.all_eq_true.1 h.2

/-- A plain key is lowered character by character. -/
theorem IsBareKey.toList_lowercase {key : String} (h : IsBareKey key) :
    (Text.lowercase key).toList = key.toList.map Char.toLower := by
  rw [Text.lowercase, String.toList_ofList,
    Text.lowerAfter_of_lt fun c hc => Text.isAscii_of_isBareKeyPart (h.forall c hc)]

/-- In small letters a plain key is still one. -/
theorem IsBareKey.lowercase {key : String} (h : IsBareKey key) :
    IsBareKey (Text.lowercase key) := by
  constructor
  · intro hempty
    have hnil := h.toList_lowercase
    rw [hempty] at hnil
    apply h.1
    rw [← String.toList_inj]
    exact List.map_eq_nil_iff.1 hnil.symm
  · rw [h.toList_lowercase, List.all_map, List.all_eq_true]
    exact fun c hc => Text.isBareKeyPart_toLower (h.forall c hc)

/-- A key in lower case stays as it is. -/
theorem IsBareKey.lowercase_lowercase {key : String} (h : IsBareKey key) :
    Text.lowercase (Text.lowercase key) = Text.lowercase key := by
  rw [← String.toList_inj, h.lowercase.toList_lowercase, h.toList_lowercase, List.map_map]
  refine List.map_congr_left fun c hc => ?_
  exact toLower_toLower (Text.isAscii_of_isBareKeyPart (h.forall c hc))

/-- The characters of plain keys may stand in a path. -/
theorem isKeyPart_of_isBareKeyPart {c : Char} (h : Toml.isBareKeyPart c = true) :
    KeyPath.isKeyPart c = true := by
  simp only [Toml.isBareKeyPart, Bool.or_eq_true] at h
  simp only [KeyPath.isKeyPart, Bool.or_eq_true]
  rcases h with (h | h) | h
  · exact .inl (.inl (.inl h))
  · exact .inr h
  · exact .inl (.inr h)

namespace KeyPath

/-- A run of key characters is taken as one key. -/
theorem takeKey?_append {key rest : List Char} (hne : key ≠ []) (hkey : key.all isKeyPart = true)
    (hrest : rest.takeWhile isKeyPart = []) :
    takeKey? (key ++ rest) = some (String.ofList key, rest) := by
  have hpos := List.all_eq_true.1 hkey
  have hdrop : rest.dropWhile isKeyPart = rest := by
    have hsplit := List.takeWhile_append_dropWhile (p := isKeyPart) (l := rest)
    rwa [hrest, List.nil_append] at hsplit
  rw [takeKey?, List.takeWhile_append_of_pos hpos, List.dropWhile_append_of_pos hpos, hrest, hdrop,
    List.append_nil]
  simp [hne]

end KeyPath

/-- A plain key is taken off a path as a whole. -/
theorem IsBareKey.takeKey? {key : String} (h : IsBareKey key) :
    KeyPath.takeKey? key.toList = some (key, []) := by
  have hne : key.toList ≠ [] := fun hnil => h.1 (String.toList_eq_nil_iff.1 hnil)
  have hall : key.toList.all KeyPath.isKeyPart = true :=
    List.all_eq_true.2 fun c hc => isKeyPart_of_isBareKeyPart (h.forall c hc)
  have htake := KeyPath.takeKey?_append hne hall (List.takeWhile_nil (p := KeyPath.isKeyPart))
  rwa [List.append_nil, String.ofList_toList] at htake

/-- A plain key is a path of one step. -/
theorem IsBareKey.parse {key : String} (h : IsBareKey key) : KeyPath.parse key = .ok ⟨key, []⟩ := by
  rw [KeyPath.parse, h.takeKey?]
  rfl

namespace Setting

/-- The setting under a name, if there is a table and the name is in it. -/
def get? (s : Setting) (name : String) : Option Setting := s.asTable.2.lookup name

/-- The names in a table, in order. -/
def names (s : Setting) : List String := s.asTable.2.map Prod.fst

@[simp] theorem get?_table (origin : Option String) (entries : Entries) (name : String) :
    (table origin entries).get? name = entries.lookup name := rfl

@[simp] theorem names_table (origin : Option String) (entries : Entries) :
    (table origin entries).names = entries.map Prod.fst := rfl

/-- Only in tables names are found. -/
theorem eq_table_of_get? {s found : Setting} {name : String} (h : s.get? name = some found) :
    s = table s.asTable.1 s.asTable.2 := by
  cases s with
  | scalar origin value => cases h
  | list origin items => cases h
  | table origin entries => rfl

/-- A setting that is put under a key is found there, and what stands under other names is found as
before. -/
theorem lookup_put (key name : String) (s : Setting) (entries : Entries) :
    (put key s entries).lookup name = if name = key then some s else entries.lookup name := by
  induction entries with
  | nil => rw [put, lookup_cons_eq]
  | cons entry entries ih =>
    obtain ⟨other, old⟩ := entry
    rw [put]
    by_cases hother : other = key
    · subst hother
      rw [if_pos rfl, lookup_cons_eq, lookup_cons_eq]
      by_cases h : name = other
      · rw [if_pos h, if_pos h]
      · rw [if_neg h, if_neg h, if_neg h]
    · rw [if_neg hother, lookup_cons_eq, lookup_cons_eq, ih]
      by_cases h : name = other
      · rw [if_pos h, if_neg (h ▸ hother)]
        exact (if_pos h).symm
      · rw [if_neg h, if_neg h]

/-- A key keeps its place, and a new one comes last. -/
theorem keys_put (key : String) (s : Setting) (entries : Entries) :
    (put key s entries).map Prod.fst =
      if key ∈ entries.map Prod.fst then entries.map Prod.fst
      else entries.map Prod.fst ++ [key] := by
  induction entries with
  | nil => rfl
  | cons entry entries ih =>
    obtain ⟨other, old⟩ := entry
    rw [put]
    by_cases hother : other = key
    · subst hother
      simp
    · rw [if_neg hother, List.map_cons, ih]
      by_cases h : key ∈ entries.map Prod.fst
      · simp [h]
      · simp [h, Ne.symm hother]

/-- What comes of a setting that is assigned where another one may stand: the members of a table are
merged, anything else takes the place. -/
def laidOver : Setting → Option Setting → Setting
  | table _ members, old => mergeMembers members (old.getD emptyTable)
  | s, _ => s

/-- All that an assignment does to a table. -/
theorem merge_eq (key : String) (s target : Setting) :
    merge key s target = table target.asTable.1
      (put (Text.lowercase key) (s.laidOver (target.get? (Text.lowercase key)))
        target.asTable.2) := by
  cases s <;> rw [merge] <;> simp [laidOver, get?]

/-- What is merged under a key is laid over what stands there, and other names are left as they
are. -/
theorem get?_merge (key name : String) (s target : Setting) :
    (merge key s target).get? name =
      if name = Text.lowercase key then some (s.laidOver (target.get? name))
      else target.get? name := by
  rw [merge_eq, get?_table, lookup_put]
  by_cases h : name = Text.lowercase key
  · rw [if_pos h, if_pos h, ← h]
  · rw [if_neg h, if_neg h, get?]

/-- The settings under a name in any letter case, in order. -/
def under (name : String) (members : Entries) : List Setting :=
  (members.filter fun member => Text.lowercase member.1 = name).map Prod.snd

/-- A first member counts if its key is the name, in any letter case. -/
theorem under_cons (name : String) (member : String × Setting) (members : Entries) :
    under name (member :: members) =
      (if Text.lowercase member.1 = name then [member.2] else []) ++ under name members := by
  by_cases h : Text.lowercase member.1 = name
  · rw [if_pos h, under, List.filter_cons_of_pos (by simpa using h)]
    rfl
  · rw [if_neg h, under, List.filter_cons_of_neg (by simpa using h)]
    rfl

/-- Under each name the members of that name count, in order, and no others. -/
theorem get?_mergeMembers (name : String) (members : Entries) (target : Setting) :
    (mergeMembers members target).get? name =
      (under name members).foldl (fun old s => some (s.laidOver old)) (target.get? name) := by
  induction members generalizing target with
  | nil => rw [mergeMembers]; rfl
  | cons member members ih =>
    obtain ⟨key, s⟩ := member
    rw [mergeMembers, mergeMember, ih, get?_merge, under_cons]
    by_cases h : name = Text.lowercase key
    · rw [if_pos h, if_pos h.symm]
      rfl
    · rw [if_neg h, if_neg (Ne.symm h)]
      rfl

/-- Under a name that no member has, everything stays as it is. -/
theorem get?_mergeMembers_of_nil {name : String} {members : Entries} (h : under name members = [])
    (target : Setting) : (mergeMembers members target).get? name = target.get? name := by
  rw [get?_mergeMembers, h, List.foldl_nil]

/-- Under a name that one member has, this member is laid over what was there. -/
theorem get?_mergeMembers_of_singleton {name : String} {members : Entries} {s : Setting}
    (h : under name members = [s]) (target : Setting) :
    (mergeMembers members target).get? name = some (s.laidOver (target.get? name)) := by
  rw [get?_mergeMembers, h, List.foldl_cons, List.foldl_nil]

/-- The names of a table are plain, in lower case, and all different. -/
structure Tidy (s : Setting) : Prop where
  plain : ∀ name ∈ s.names, IsBareKey name ∧ Text.lowercase name = name
  distinct : s.names.Nodup

/-- An empty table is tidy. -/
theorem tidy_emptyTable : emptyTable.Tidy := ⟨nofun, .nil⟩

/-- A tidy table stays tidy if something is merged under a plain key. -/
theorem Tidy.merge {target : Setting} (h : target.Tidy) {key : String} (hkey : IsBareKey key)
    (s : Setting) : (merge key s target).Tidy := by
  have hnames : (Setting.merge key s target).names =
      if Text.lowercase key ∈ target.names then target.names
      else target.names ++ [Text.lowercase key] := by
    rw [merge_eq, names_table, keys_put]
    rfl
  by_cases hin : Text.lowercase key ∈ target.names
  · rw [if_pos hin] at hnames
    exact ⟨hnames ▸ h.plain, hnames ▸ h.distinct⟩
  · rw [if_neg hin] at hnames
    constructor
    · rw [hnames]
      intro name hname
      rcases List.mem_append.1 hname with hname | hname
      · exact h.plain name hname
      · rw [List.mem_singleton.1 hname]
        exact ⟨hkey.lowercase, hkey.lowercase_lowercase⟩
    · rw [hnames, List.nodup_append]
      refine ⟨h.distinct, List.pairwise_singleton _ _, ?_⟩
      intro name hname other hother heq
      rw [List.mem_singleton.1 hother] at heq
      exact hin (heq ▸ hname)

/-- A tidy table stays tidy if members with plain keys are merged. -/
theorem Tidy.mergeMembers {target : Setting} (h : target.Tidy) {members : Entries}
    (hkeys : ∀ key ∈ members.map Prod.fst, IsBareKey key) : (mergeMembers members target).Tidy := by
  induction members generalizing target with
  | nil => rwa [Setting.mergeMembers]
  | cons member members ih =>
    obtain ⟨hkey, hkeys⟩ := List.forall_mem_cons.1 hkeys
    rw [Setting.mergeMembers, mergeMember]
    exact ih (h.merge hkey member.2) hkeys

/-- In a tidy table a name stands for one setting at most. -/
theorem Tidy.under_entries {s : Setting} (h : s.Tidy) (name : String) :
    under name s.asTable.2 = (s.get? name).toList := by
  obtain ⟨hplain, hdistinct⟩ := h
  rw [names] at hplain hdistinct
  rw [get?]
  generalize s.asTable.2 = entries at hplain hdistinct ⊢
  induction entries with
  | nil => rfl
  | cons entry entries ih =>
    obtain ⟨key, s⟩ := entry
    rw [List.map_cons, List.forall_mem_cons] at hplain
    rw [List.map_cons, List.nodup_cons] at hdistinct
    have hrest := ih hplain.2 hdistinct.2
    rw [under_cons, lookup_cons_eq, hplain.1.2, hrest]
    by_cases hname : name = key
    · have hnone : entries.lookup name = none := by
        refine List.lookup_eq_none_iff.2 fun entry hentry => ?_
        rw [bne_iff_ne]
        intro heq
        exact hdistinct.1 (List.mem_map.2 ⟨entry, hentry, heq.symm.trans hname⟩)
      rw [if_pos hname, if_pos hname.symm, hnone]
      rfl
    · rw [if_neg hname, if_neg (Ne.symm hname), List.nil_append]

/-- What is merged into an empty table stands there as it would on its own. -/
theorem Tidy.get?_mergeMembers {s : Setting} (h : s.Tidy) (name : String) :
    (Setting.mergeMembers s.asTable.2 emptyTable).get? name =
      (s.get? name).map (·.laidOver none) := by
  rw [Setting.get?_mergeMembers, h.under_entries name]
  cases s.get? name <;> rfl

/-- In a tidy setting that is laid over nothing, the same names stand for the same things, laid over
nothing in turn. -/
theorem Tidy.get?_laidOver {s : Setting} (h : s.Tidy) (name : String) :
    (s.laidOver none).get? name = (s.get? name).map (·.laidOver none) := by
  cases s with
  | scalar origin value => rfl
  | list origin items => rfl
  | table origin entries => exact h.get?_mergeMembers name

/-- A tidy setting that is laid over nothing is tidy. -/
theorem Tidy.laidOver {s : Setting} (h : s.Tidy) : (s.laidOver none).Tidy := by
  cases s with
  | scalar origin value => exact h
  | list origin items => exact h
  | table origin entries =>
    exact tidy_emptyTable.mergeMembers fun key hkey => (h.plain key hkey).1

/-- Entries with plain keys are merged as the members of a table. -/
theorem assignEntries_of_bare {entries : Entries}
    (h : ∀ key ∈ entries.map Prod.fst, IsBareKey key) (target : Setting) :
    assignEntries entries target = mergeMembers entries target := by
  induction entries generalizing target with
  | nil => rw [mergeMembers]; rfl
  | cons entry entries ih =>
    obtain ⟨key, s⟩ := entry
    obtain ⟨hkey, hkeys⟩ := List.forall_mem_cons.1 h
    have hassign : assign ⟨key, []⟩ s target = merge key s target := rfl
    rw [mergeMembers, mergeMember, ← ih hkeys, assignEntries, List.foldl_cons]
    simp only [hkey.parse, hassign]
    rfl

end Setting

end ProtocolMocks
