import Mathlib.Data.List.DropRight
import Mathlib.Tactic.SplitIfs
import ProtocolMocks.Data.Except
import ProtocolMocks.Data.List
import ProtocolMocks.FileTree

/-!
# Writing a file

What a program relies on when it writes is that the text becomes the content of the file at the path
and that all other files stay as they are. A tree of files and directories is shown to keep to this:
whether a text can be written to a path, and where it goes, depends on the tree and the path alone,
and afterwards every path that led somewhere leads there still.
-/

namespace ProtocolMocks

namespace FileSystem

variable {State File : Type} {system : FileSystem State}

/-- The files of a file system: which one a path leads to, and what it holds. What is read at a path
is the content of its file, and a text that is written is from then on the content of the file at
the path, with all other files as they were. -/
structure Files (system : FileSystem State) (File : Type) where
  /-- The file that a path leads to. -/
  fileAt? : State → String → Option File
  /-- What a file holds, if it is there. -/
  content? : State → File → Option ByteArray
  /-- Reading at a path yields what its file holds. -/
  read_ok : ∀ {state path content}, ((system.reader state).view path).bytes = .ok content →
    ∃ file, fileAt? state path = some file ∧ content? state file = some content
  /-- Writing changes the file at the path and no other. -/
  write_ok : ∀ {state path text after}, system.write state path text = .ok after →
    ∃ file, fileAt? after path = some file ∧ content? after file = some text.toUTF8 ∧
      ∀ other, other ≠ file → content? after other = content? state other

/-- From the first state to the second only the file at the path has changed, which now holds the
content and yields nothing else to whoever can read it. -/
structure Files.Written (files : system.Files File) (before after : State) (path : String)
    (content : ByteArray) : Prop where
  /-- The file at the path holds the content, and all others hold what they did. -/
  holds : ∃ file, files.fileAt? after path = some file ∧
    files.content? after file = some content ∧
    ∀ other, other ≠ file → files.content? after other = files.content? before other
  /-- Whoever can read at the path reads the content. -/
  read : ∀ found, ((system.reader after).view path).bytes = .ok found → found = content

/-- A text that could be written has been written. -/
theorem Files.written_of_write (files : system.Files File) {state after : State}
    {path text : String} (h : system.write state path text = .ok after) :
    files.Written state after path text.toUTF8 := by
  obtain ⟨file, hfile, hcontent, hothers⟩ := files.write_ok h
  refine ⟨⟨file, hfile, hcontent, hothers⟩, fun found hfound => ?_⟩
  obtain ⟨place, hplace, hheld⟩ := files.read_ok hfound
  obtain rfl : place = file := Option.some.inj (hplace.symm.trans hfile)
  exact Option.some.inj (hheld.symm.trans hcontent)

end FileSystem

namespace FileTree

variable {tree : FileTree}

/-- What makes a place a directory: it is the root, or a listed directory or a file lies at it or
below. -/
theorem isDir_iff {location : List String} :
    tree.isDir location = true ↔ location = [] ∨ (∃ dir ∈ tree.dirs, location <+: dir) ∨
      ∃ file ∈ tree.files.map Prod.fst, location <+: file ∧ location ≠ file := by
  simp [isDir, or_assoc]

/-- What leads to a directory leads through directories. -/
theorem isDir_of_isPrefix {front location : List String} (hfront : front <+: location)
    (h : tree.isDir location = true) : tree.isDir front = true := by
  rw [isDir_iff] at h ⊢
  rcases h with rfl | ⟨dir, hdir, hlocation⟩ | ⟨file, hfile, hlocation, hne⟩
  · exact .inl (List.prefix_nil.1 hfront)
  · exact .inr (.inl ⟨dir, hdir, hfront.trans hlocation⟩)
  · refine .inr (.inr ⟨file, hfile, hfront.trans hlocation, ?_⟩)
    rintro rfl
    exact hne (hlocation.eq_of_length_le hfront.length_le)

/-- The tree in which a file has a content. -/
def withFile (tree : FileTree) (location : List String) (content : ByteArray) : FileTree :=
  { tree with files := putFile location content tree.files }

/-- A file that is put has its content, and the others have theirs. -/
theorem lookup_putFile (location other : List String) (content : ByteArray)
    (files : List (List String × ByteArray)) :
    (putFile location content files).lookup other =
      if other = location then some content else files.lookup other := by
  induction files with
  | nil => rw [putFile, lookup_cons_eq]
  | cons file files ih =>
    obtain ⟨place, old⟩ := file
    rw [putFile]
    by_cases hplace : place = location
    · subst hplace
      rw [if_pos rfl, lookup_cons_eq, lookup_cons_eq]
      by_cases h : other = place
      · rw [if_pos h, if_pos h]
      · rw [if_neg h, if_neg h, if_neg h]
    · rw [if_neg hplace, lookup_cons_eq, lookup_cons_eq, ih]
      by_cases h : other = place
      · subst h
        rw [if_pos rfl, if_neg hplace, if_pos rfl]
      · rw [if_neg h, if_neg h]

/-- Putting a file makes no file but that one. -/
theorem mem_putFile_iff {location other : List String} {content : ByteArray}
    {files : List (List String × ByteArray)} :
    other ∈ (putFile location content files).map Prod.fst ↔
      other = location ∨ other ∈ files.map Prod.fst := by
  induction files with
  | nil => simp [putFile]
  | cons file files ih =>
    obtain ⟨place, old⟩ := file
    rw [putFile]
    by_cases h : place = location
    · simp [h]
    · rw [if_neg h, List.map_cons, List.mem_cons, ih, List.map_cons, List.mem_cons]
      exact or_left_comm

/-- The files of a tree in which one file was put. -/
theorem file?_withFile (location other : List String) (content : ByteArray) :
    (tree.withFile location content).file? other =
      if other = location then some content else tree.file? other :=
  lookup_putFile ..

/-- A file in a directory makes no other directories: on the way to it there are that directory and
what leads there. -/
theorem isDir_withFile {parent : List String} (hparent : tree.isDir parent = true) (name : String)
    (content : ByteArray) (location : List String) :
    (tree.withFile (parent ++ [name]) content).isDir location = tree.isDir location := by
  rw [Bool.eq_iff_iff, isDir_iff, isDir_iff]
  simp only [withFile, mem_putFile_iff]
  constructor
  · rintro (rfl | hdir | ⟨file, rfl | hfile, hprefix, hne⟩)
    · exact .inl rfl
    · exact .inr (.inl hdir)
    · rw [← isDir_iff]
      refine isDir_of_isPrefix ?_ hparent
      rcases List.prefix_concat_iff.1 hprefix with rfl | hfront
      · exact absurd rfl hne
      · exact hfront
    · exact .inr (.inr ⟨file, hfile, hprefix, hne⟩)
  · rintro (rfl | hdir | ⟨file, hfile, hprefix⟩)
    · exact .inl rfl
    · exact .inr (.inl hdir)
    · exact .inr (.inr ⟨file, .inr hfile, hprefix⟩)

/-- The path leads to a directory and there to a name that a file can have. -/
structure LeadsTo (tree : FileTree) (workingDir : List String) (path : String)
    (parent : List String) (name : String) : Prop where
  valid : checkPath path = .ok ()
  steps : ∃ front, Path.split path = front ++ [name] ∧
    tree.walk (Path.start workingDir path) front = .ok parent
  parent_isDir : tree.isDir parent = true
  isName : name ≠ "" ∧ name ≠ "." ∧ name ≠ ".."
  short : byteLength name.toList ≤ nameLimit

/-- A text that could be written is put where the path leads: as no blank steps were cut off its
path, the last step is the name of the file. -/
theorem exists_leadsTo_of_write {after : FileTree} {workingDir : List String} {path text : String}
    (h : tree.write workingDir path text = .ok after) :
    ∃ parent name, tree.LeadsTo workingDir path parent name ∧
      after = tree.withFile (parent ++ [name]) text.toUTF8 := by
  simp only [write] at h
  obtain ⟨_, hvalid, h⟩ := bind_eq_ok_iff.1 h
  generalize hsteps : ((Path.split path).reverse.dropWhile (· == "")).reverse = steps at h
  obtain ⟨parent, hwalk, h⟩ := bind_eq_ok_iff.1 h
  cases hlast : steps.getLast? with
  | none =>
    simp only [hlast, bind, Except.bind] at h
    split_ifs at h
  | some name =>
    simp only [hlast, bind, Except.bind] at h
    split_ifs at h with hdir hname hshort hfree
    simp only [not_or, Nat.not_lt] at hname hshort
    obtain ⟨hdot, hdots, hlength⟩ := hname
    have hall : steps = Path.split path := by
      rw [← hsteps] at hlength ⊢
      exact (List.rdropWhile_prefix _ _).eq_of_length_le hlength
    have hne : steps ≠ [] := by
      rintro rfl
      cases hlast
    have hname : steps.getLast hne = name := by
      rw [List.getLast?_eq_some_getLast hne] at hlast
      exact Option.some.inj hlast
    have hblank : name ≠ "" := by
      subst hsteps
      intro heq
      exact List.rdropWhile_last_not (· == "") (Path.split path) hne
        (beq_iff_eq.2 (hname.trans heq))
    refine ⟨parent, name, ?_, (Except.ok.inj h).symm⟩
    exact {
      valid := hvalid
      steps := ⟨steps.dropLast, by rw [← hall, ← hname, List.dropLast_append_getLast], hwalk⟩
      parent_isDir := by simpa using hdir
      isName := ⟨hblank, hdot, hdots⟩
      short := hshort }

/-- What a step reaches can still be reached after a file was put. -/
theorem step_withFile {parent : List String} (hparent : tree.isDir parent = true) (name : String)
    (content : ByteArray) {location next : List String} {step : String}
    (h : tree.step location step = .ok next) :
    (tree.withFile (parent ++ [name]) content).step location step = .ok next := by
  simp only [FileTree.step, isDir_withFile hparent, file?_withFile] at h ⊢
  by_cases hold : (tree.isDir (location ++ [step]) ||
      (tree.file? (location ++ [step])).isSome) = true
  · have hnew : (tree.isDir (location ++ [step]) || (if location ++ [step] = parent ++ [name] then
        some content else tree.file? (location ++ [step])).isSome) = true := by
      split_ifs
      · simp
      · exact hold
    rw [if_pos hold] at h
    rw [if_pos hnew]
    exact h
  · rw [if_neg hold] at h
    split_ifs at h ⊢
    iterate 2 exact h

/-- What several steps reach can still be reached after a file was put. -/
theorem walk_withFile {parent : List String} (hparent : tree.isDir parent = true) (name : String)
    (content : ByteArray) {steps location target : List String}
    (h : tree.walk location steps = .ok target) :
    (tree.withFile (parent ++ [name]) content).walk location steps = .ok target := by
  induction steps generalizing location with
  | nil => exact h
  | cons step steps ih =>
    rw [walk, List.foldlM_cons] at h ⊢
    obtain ⟨next, hstep, hrest⟩ := bind_eq_ok_iff.1 h
    exact bind_eq_ok_iff.2 ⟨next, step_withFile hparent name content hstep, ih hrest⟩

/-- After a file was put where a path leads, the path leads to the file. -/
theorem LeadsTo.locate_withFile {workingDir : List String} {path : String} {parent : List String}
    {name : String} (h : tree.LeadsTo workingDir path parent name) (content : ByteArray) :
    (tree.withFile (parent ++ [name]) content).locate workingDir path =
      .ok (parent ++ [name]) := by
  obtain ⟨front, hsplit, hfront⟩ := h.steps
  have hfile : (tree.withFile (parent ++ [name]) content).file? (parent ++ [name]) =
      some content := by
    rw [file?_withFile, if_pos rfl]
  have hstep : (tree.withFile (parent ++ [name]) content).step parent name =
      .ok (parent ++ [name]) := by
    rw [FileTree.step, isDir_withFile h.parent_isDir, h.parent_isDir, hfile, if_neg (by simp),
      if_neg (by simp [h.isName]), if_neg h.isName.2.2, if_neg (Nat.not_lt.2 h.short)]
    simp
  have hwalk := walk_withFile h.parent_isDir name content hfront
  rw [walk] at hwalk
  rw [locate, h.valid, hsplit, walk, List.foldlM_append]
  refine bind_eq_ok_iff.2 ⟨(), rfl, bind_eq_ok_iff.2 ⟨parent, hwalk, ?_⟩⟩
  exact bind_eq_ok_iff.2 ⟨_, hstep, rfl⟩

/-- The files of a tree, each known by its steps from the root. -/
def allFiles (workingDir : List String) : (system workingDir).Files (List String) where
  fileAt? tree path := (tree.locate workingDir path).toOption
  content? tree location := tree.file? location
  read_ok {tree path content} h := by
    obtain ⟨location, hlocation, hfile⟩ := bind_eq_ok_iff.1 h
    refine ⟨location, by rw [hlocation]; rfl, ?_⟩
    cases hcontent : tree.file? location with
    | none =>
      rw [hcontent] at hfile
      cases hfile
    | some found =>
      rw [hcontent] at hfile
      cases hfile
      rfl
  write_ok {tree path text after} h := by
    obtain ⟨parent, name, hleads, rfl⟩ := exists_leadsTo_of_write h
    refine ⟨parent ++ [name], by rw [hleads.locate_withFile]; rfl, ?_, fun other hother => ?_⟩
    · rw [file?_withFile, if_pos rfl]
    · rw [file?_withFile, if_neg hother]

end FileTree

end ProtocolMocks
