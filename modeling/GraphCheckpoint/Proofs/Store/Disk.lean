import GraphCheckpoint.Proofs.Table
import GraphCheckpoint.Store.File

/-!
Contract: files and paths under the steps of a store.

Owns:
- contents of files and entries of paths after every kind of step;
- the paths of a store's files, which differ from each other;
- a directory that is there, and stays there while files in it change.

Does not own: which steps a store takes.
-/

namespace GraphCheckpoint.Store

open GraphCheckpoint.Encoding

namespace Disk

variable {disk : Disk} {path other : String} {bytes : Bytes} {number : Nat}

/-! ## Contents and entries -/

@[simp] theorem size_setContents :
    (disk.setContents number bytes).contents.size = disk.contents.size := by
  simp [setContents]

theorem contentsOf_setContents_self (isFile : number < disk.contents.size) :
    (disk.setContents number bytes).contentsOf number = bytes := by
  simp [contentsOf, setContents, isFile]

theorem contentsOf_setContents_of_ne {another : Nat} (differs : another ≠ number) :
    (disk.setContents number bytes).contentsOf another = disk.contentsOf another := by
  have flipped : number ≠ another := differs.symm
  simp [contentsOf, setContents, Array.getD_eq_getD_getElem?, flipped]

@[simp] theorem size_newFile :
    (disk.newFile path bytes).contents.size = disk.contents.size + 1 := by
  simp [newFile]

theorem contentsOf_newFile_new :
    (disk.newFile path bytes).contentsOf disk.contents.size = bytes := by
  simp [newFile, contentsOf]

theorem contentsOf_newFile_old (isFile : number < disk.contents.size) :
    (disk.newFile path bytes).contentsOf number = disk.contentsOf number := by
  have differs : number ≠ disk.contents.size := by omega
  simp [newFile, contentsOf, Array.getD_eq_getD_getElem?, Array.getElem?_push, differs]

theorem get?_newFile_self :
    (disk.newFile path bytes).entries.get? path = some (.file disk.contents.size) :=
  Table.get?_insert_self _ _ _

theorem get?_newFile_of_ne (differs : other ≠ path) :
    (disk.newFile path bytes).entries.get? other = disk.entries.get? other :=
  Table.get?_insert_of_ne differs _ _

theorem file?_of_get? (isFile : disk.entries.get? path = some (.file number)) :
    disk.file? path = .ok number := by
  rw [file?, isFile]

theorem file?_of_absent (absent : disk.entries.get? path = none) :
    disk.file? path = .error .missing := by
  rw [file?, absent]

theorem read_of_get? (isFile : disk.entries.get? path = some (.file number)) :
    disk.read path = .ok (disk.contentsOf number) := by
  rw [read, file?_of_get? isFile]
  rfl

theorem isDirectory_of_get? (isFile : disk.entries.get? path = some (.file number)) :
    disk.isDirectory path = false := by
  rw [isDirectory, isFile]
  rfl

theorem isDirectory_of_absent (absent : disk.entries.get? path = none) :
    disk.isDirectory path = false := by
  rw [isDirectory, absent]
  rfl

/-! ## Files of their own -/

/-- Every file that a path names is there, and no other path names it. -/
structure WellFormed (disk : Disk) : Prop where
  inRange : ∀ path number, disk.entries.get? path = some (.file number) →
    number < disk.contents.size
  apart : ∀ path other number, disk.entries.get? path = some (.file number) →
    disk.entries.get? other = some (.file number) → path = other

theorem wellFormed_empty : empty.WellFormed where
  inRange := fun _ _ isFile => nomatch isFile
  apart := fun _ _ _ isFile => nomatch isFile

theorem WellFormed.setContents (wellFormed : disk.WellFormed) (number : Nat) (bytes : Bytes) :
    (disk.setContents number bytes).WellFormed where
  inRange := by
    intro path other isFile
    rw [size_setContents]
    exact wellFormed.inRange path other isFile
  apart := wellFormed.apart

/-- A new file has a number that no path named before. -/
theorem WellFormed.newFile (wellFormed : disk.WellFormed) (path : String) (bytes : Bytes) :
    (disk.newFile path bytes).WellFormed := by
  have entry : ∀ other number, (disk.newFile path bytes).entries.get? other = some (.file number) →
      (other = path ∧ number = disk.contents.size) ∨
        (other ≠ path ∧ disk.entries.get? other = some (.file number)) := by
    intro other number isFile
    by_cases same : other = path
    · subst same
      rw [get?_newFile_self] at isFile
      cases isFile
      exact Or.inl ⟨rfl, rfl⟩
    · rw [get?_newFile_of_ne same] at isFile
      exact Or.inr ⟨same, isFile⟩
  constructor
  · intro other number isFile
    rw [size_newFile]
    rcases entry other number isFile with ⟨-, rfl⟩ | ⟨-, old⟩
    · exact Nat.lt_succ_self _
    · exact Nat.lt_succ_of_lt (wellFormed.inRange other number old)
  · intro other another number isFile isToo
    rcases entry other number isFile with ⟨rfl, isNew⟩ | ⟨-, old⟩
    · rcases entry another number isToo with ⟨rfl, -⟩ | ⟨-, oldToo⟩
      · rfl
      · have below := wellFormed.inRange another number oldToo
        omega
    · rcases entry another number isToo with ⟨-, isNew⟩ | ⟨-, oldToo⟩
      · have below := wellFormed.inRange other number old
        omega
      · exact wellFormed.apart other another number old oldToo

theorem WellFormed.insertDirectory (wellFormed : disk.WellFormed) (path : String) :
    ({ disk with entries := disk.entries.insert path .directory } : Disk).WellFormed := by
  have entry : ∀ other number,
      (disk.entries.insert path .directory).get? other = some (.file number) →
        disk.entries.get? other = some (.file number) := by
    intro other number isFile
    rw [Table.get?_insert] at isFile
    split at isFile
    · cases isFile
    · exact isFile
  exact {
    inRange := fun other number isFile => wellFormed.inRange other number (entry other number isFile)
    apart := fun other another number isFile isToo =>
      wellFormed.apart other another number (entry other number isFile) (entry another number isToo) }

theorem WellFormed.makeDirectory {made : Disk} (wellFormed : disk.WellFormed)
    (isMade : disk.makeDirectory path = .ok made) : made.WellFormed := by
  unfold Disk.makeDirectory at isMade
  split at isMade
  · cases isMade
    exact wellFormed
  · cases isMade
  · cases isMade
    exact wellFormed.insertDirectory _
  · cases isMade

theorem WellFormed.makeDirectories {made : Disk} (wellFormed : disk.WellFormed)
    (isMade : disk.makeDirectories path = .ok made) : made.WellFormed := by
  have steps : ∀ (paths : List String) (current : Disk), current.WellFormed →
      paths.foldlM (fun current above =>
        if above = "" then .ok current else current.makeDirectory above) current =
          (.ok made : Except DiskFault Disk) → made.WellFormed := by
    intro paths
    induction paths with
    | nil =>
        intro current currentWellFormed isMade
        cases isMade
        exact currentWellFormed
    | cons above rest inductionHypothesis =>
        intro current currentWellFormed isMade
        rw [List.foldlM_cons] at isMade
        by_cases isEmpty : above = ""
        · rw [if_pos isEmpty] at isMade
          exact inductionHypothesis current currentWellFormed isMade
        · rw [if_neg isEmpty] at isMade
          cases isNext : current.makeDirectory above with
          | error fault =>
              rw [isNext] at isMade
              cases isMade
          | ok next =>
              rw [isNext] at isMade
              exact inductionHypothesis next (currentWellFormed.makeDirectory isNext) isMade
  exact steps _ disk wellFormed isMade

/-! ## Directories -/

/-- Directories stay where they are. -/
def KeepsDirectories (before after : Disk) : Prop :=
  ∀ path, before.entries.get? path = some .directory → after.entries.get? path = some .directory

theorem keepsDirectories_newFile (notDirectory : disk.entries.get? path ≠ some .directory) :
    disk.KeepsDirectories (disk.newFile path bytes) := by
  intro other isDirectory
  have differs : other ≠ path := by
    intro same
    subst same
    exact notDirectory isDirectory
  rw [get?_newFile_of_ne differs]
  exact isDirectory

theorem entryAt_directory {after : Disk} (keeps : disk.KeepsDirectories after) {start : String}
    {reversed : List String} (isDirectory : disk.entryAt start reversed = some .directory) :
    after.entryAt start reversed = some .directory := by
  unfold entryAt at isDirectory ⊢
  split at isDirectory
  · rename_i topmost
    rw [if_pos topmost]
  · rename_i below
    rw [if_neg below]
    exact keeps _ isDirectory

theorem follow_directory {after : Disk} (keeps : disk.KeepsDirectories after) {start : String}
    {names reversed : List String}
    (isDirectory : disk.follow start reversed names = .ok .directory) :
    after.follow start reversed names = .ok .directory := by
  induction names generalizing reversed with
  | nil =>
      unfold follow at isDirectory ⊢
      cases found : disk.entryAt start reversed with
      | none => simp [found] at isDirectory
      | some entry =>
          rw [found] at isDirectory
          cases isDirectory
          rw [entryAt_directory keeps found]
  | cons name rest inductionHypothesis =>
      unfold follow at isDirectory ⊢
      cases found : disk.entryAt start reversed with
      | none => simp [found] at isDirectory
      | some entry =>
          rw [found] at isDirectory
          cases entry with
          | file number => cases isDirectory
          | directory =>
              rw [entryAt_directory keeps found]
              simp only at isDirectory ⊢
              split at isDirectory
              · cases isDirectory
              · rename_i short
                rw [if_neg short]
                exact inductionHypothesis isDirectory

theorem lookUp_directory {after : Disk} (keeps : disk.KeepsDirectories after)
    (isDirectory : disk.lookUp path = .ok .directory) : after.lookUp path = .ok .directory := by
  unfold lookUp at isDirectory ⊢
  split at isDirectory
  · cases isDirectory
  · rename_i notEmpty
    rw [if_neg notEmpty]
    split at isDirectory
    · cases isDirectory
    · rename_i short
      rw [if_neg short]
      exact follow_directory keeps isDirectory

/-- A path and all paths on the way to it lead to directories. -/
def HasDirectory (disk : Disk) (directory : String) : Prop :=
  ∀ above ∈ pathsAlong directory, above ≠ "" → disk.lookUp above = .ok .directory

theorem HasDirectory.mono {after : Disk} {directory : String} (has : disk.HasDirectory directory)
    (keeps : disk.KeepsDirectories after) : after.HasDirectory directory :=
  fun above member notEmpty => lookUp_directory keeps (has above member notEmpty)

/-- Nothing is made where everything is there. -/
theorem makeDirectories_of_hasDirectory {directory : String}
    (has : disk.HasDirectory directory) : disk.makeDirectories directory = .ok disk := by
  have steps : ∀ paths : List String,
      (∀ above ∈ paths, above ≠ "" → disk.lookUp above = .ok .directory) →
        paths.foldlM (fun current above =>
          if above = "" then .ok current else current.makeDirectory above) disk =
            (.ok disk : Except DiskFault Disk) := by
    intro paths
    induction paths with
    | nil =>
        intro _
        rfl
    | cons above rest inductionHypothesis =>
        intro there
        have later := inductionHypothesis fun path member => there path (by simp [member])
        rw [List.foldlM_cons]
        by_cases isEmpty : above = ""
        · rw [if_pos isEmpty]
          exact later
        · rw [if_neg isEmpty, makeDirectory, there above (by simp) isEmpty]
          exact later
  exact steps _ has

/-! ### Directories that are made -/

private theorem not_mem_of_mem_splitOn (letters : List Char) :
    ∀ part ∈ letters.splitOn '/', '/' ∉ part := by
  induction letters with
  | nil => simp
  | cons letter rest inductionHypothesis =>
      intro part member
      rw [List.splitOn_cons_eq_if_modifyHead] at member
      by_cases isSlash : letter = '/'
      · rw [if_pos (by simpa using isSlash)] at member
        rcases List.mem_cons.mp member with rfl | later
        · simp
        · exact inductionHypothesis part later
      · rw [if_neg (by simpa using isSlash)] at member
        cases parts : rest.splitOn '/' with
        | nil => exact absurd parts (List.splitOn_ne_nil _ _)
        | cons first others =>
            rw [parts, List.modifyHead_cons] at member
            rw [parts] at inductionHypothesis
            rcases List.mem_cons.mp member with rfl | later
            · have firstFree := inductionHypothesis first (by simp)
              simpa using ⟨fun same => isSlash same.symm, firstFree⟩
            · exact inductionHypothesis part (by simp [later])

theorem not_mem_of_mem_namesIn {name : String} (member : name ∈ namesIn path) :
    '/' ∉ name.toList := by
  obtain ⟨letters, isPart, rfl⟩ := List.mem_map.mp member
  rw [String.toList_ofList]
  exact not_mem_of_mem_splitOn _ letters isPart

theorem namesIn_intercalate {names : List String} (notEmpty : names ≠ [])
    (plain : ∀ name ∈ names, '/' ∉ name.toList) : namesIn ("/".intercalate names) = names := by
  have letters : ("/".intercalate names).toList = ['/'].intercalate (names.map String.toList) := by
    rw [String.toList_intercalate]
    rfl
  rw [namesIn, letters, List.splitOn_intercalate, List.map_map]
  · exact (List.map_congr_left fun name _ => String.ofList_toList).trans (List.map_id names)
  · intro part member
    obtain ⟨name, isName, rfl⟩ := List.mem_map.mp member
    exact plain name isName
  · simpa using notEmpty

/-- Where all directories on the way are there, a path leads to what stands at its end. -/
theorem follow_of_directories {start : String} {names reversed : List String}
    (there : ∀ count < names.length,
      disk.entryAt start ((names.take count).foldl followName reversed) = some .directory) :
    disk.follow start reversed names =
      if names.any (fun name => longestName < name.utf8ByteSize) then .error .nameTooLong
      else
        match disk.entryAt start (names.foldl followName reversed) with
        | none => .error .missing
        | some entry => .ok entry := by
  induction names generalizing reversed with
  | nil =>
      unfold follow
      rfl
  | cons name rest inductionHypothesis =>
      have first := there 0 (by simp)
      have later := @inductionHypothesis (followName reversed name) fun count below =>
        there (count + 1) (by simpa using below)
      simp only [List.take_zero, List.foldl_nil] at first
      unfold follow
      simp only [first, List.any_cons, List.foldl_cons, Bool.or_eq_true, decide_eq_true_eq]
      by_cases long : longestName < name.utf8ByteSize
      · rw [if_pos long, if_pos (Or.inl long)]
      · rw [if_neg long, later]
        simp only [long, false_or]

theorem keepsDirectories_insert (path : String) :
    disk.KeepsDirectories { disk with entries := disk.entries.insert path .directory } := by
  intro other isDirectory
  change (disk.entries.insert path .directory).get? other = _
  rw [Table.get?_insert]
  split
  · rfl
  · exact isDirectory

/-- In a directory that is there, a directory is made that is there afterwards. -/
theorem makeDirectory_ok {made : Disk} (notPath : path ≠ "")
    (there : ∀ count < (namesIn path).length,
      disk.entryAt (startOf path) (((namesIn path).take count).foldl followName []) =
        some .directory)
    (isMade : disk.makeDirectory path = .ok made) :
    disk.KeepsDirectories made ∧ made.lookUp path = .ok .directory ∧
      made.entryAt (startOf path) ((namesIn path).foldl followName []) = some .directory := by
  have leads : ∀ other : Disk, disk.KeepsDirectories other →
      other.lookUp path =
        if path = "" then .error .missing
        else if longestPath < path.utf8ByteSize then .error .nameTooLong
        else if (namesIn path).any (fun name => longestName < name.utf8ByteSize) then
          .error .nameTooLong
        else
          match other.entryAt (startOf path) ((namesIn path).foldl followName []) with
          | none => .error .missing
          | some entry => .ok entry := by
    intro other keeps
    rw [lookUp, follow_of_directories fun count below => entryAt_directory keeps (there count below)]
  have before := leads disk fun _ isDirectory => isDirectory
  unfold makeDirectory at isMade
  by_cases longPath : longestPath < path.utf8ByteSize
  · rw [if_neg notPath, if_pos longPath] at before
    rw [before] at isMade
    cases isMade
  by_cases longName : (namesIn path).any (fun name => longestName < name.utf8ByteSize) = true
  · rw [if_neg notPath, if_neg longPath, if_pos longName] at before
    rw [before] at isMade
    cases isMade
  rw [if_neg notPath, if_neg longPath, if_neg longName] at before
  cases atEnd : disk.entryAt (startOf path) ((namesIn path).foldl followName []) with
  | none =>
      rw [atEnd] at before
      simp only at before
      rw [before] at isMade
      cases isMade
      have keeps := @keepsDirectories_insert disk (canonicalPath path)
      have isThere : ({ disk with entries := disk.entries.insert (canonicalPath path) .directory } :
          Disk).entryAt (startOf path) ((namesIn path).foldl followName []) = some .directory := by
        unfold entryAt
        split
        · rfl
        · exact Table.get?_insert_self _ _ _
      refine ⟨keeps, ?_, isThere⟩
      rw [leads _ keeps, if_neg notPath, if_neg longPath, if_neg longName, isThere]
  | some entry =>
      rw [atEnd] at before
      simp only at before
      rw [before] at isMade
      cases entry with
      | file number => cases isMade
      | directory =>
          cases isMade
          exact ⟨fun _ isDirectory => isDirectory, before, atEnd⟩

private theorem startOf_of_prefix {part : String} (notEmpty : part ≠ "")
    (isPrefix : part.toList <+: path.toList) : startOf part = startOf path := by
  obtain ⟨rest, isWhole⟩ := isPrefix
  obtain ⟨first, others, isPart⟩ : ∃ first others, part.toList = first :: others := by
    cases letters : part.toList with
    | nil => exact absurd (String.toList_eq_nil_iff.mp letters) notEmpty
    | cons first others => exact ⟨first, others, rfl⟩
  have same : part.startsWith "/" = path.startsWith "/" := by
    rw [Bool.eq_iff_iff, String.startsWith_string_iff, String.startsWith_string_iff, ← isWhole,
      isPart]
    simp
  rw [startOf, startOf, same]

/-- The path of the first names of a path. -/
def pathAlong (directory : String) (count : Nat) : String :=
  "/".intercalate ((namesIn directory).take (count + 1))

theorem pathsAlong_eq (directory : String) :
    pathsAlong directory = (List.range (namesIn directory).length).map (pathAlong directory) := rfl

theorem namesIn_ne_nil (directory : String) : namesIn directory ≠ [] := by
  rw [namesIn, ne_eq, List.map_eq_nil_iff]
  exact List.splitOn_ne_nil _ _

theorem namesIn_pathAlong (directory : String) (count : Nat) :
    namesIn (pathAlong directory count) = (namesIn directory).take (count + 1) := by
  refine namesIn_intercalate ?_ fun name member =>
    not_mem_of_mem_namesIn (List.mem_of_mem_take member)
  rw [ne_eq, List.take_eq_nil_iff]
  have notEmpty := namesIn_ne_nil directory
  simp [notEmpty]

theorem startOf_pathAlong (directory : String) (count : Nat)
    (notEmpty : pathAlong directory count ≠ "") :
    startOf (pathAlong directory count) = startOf directory := by
  refine startOf_of_prefix notEmpty ?_
  have whole : "/".intercalate (namesIn directory) = directory := by
    rw [← String.toList_inj, String.toList_intercalate, namesIn, List.map_map]
    have letters : (String.toList ∘ String.ofList) = id := by
      funext letters
      exact String.toList_ofList
    have slash : ("/" : String).toList = ['/'] := by decide
    rw [letters, List.map_id, slash, List.intercalate_splitOn]
  have split := List.take_append_drop (count + 1) (namesIn directory)
  by_cases isAll : (namesIn directory).drop (count + 1) = []
  · rw [isAll, List.append_nil] at split
    have isDirectory : pathAlong directory count = directory := by rw [pathAlong, split, whole]
    exact isDirectory.symm ▸ List.prefix_refl directory.toList
  · have notNone : (namesIn directory).take (count + 1) ≠ [] := by
      rw [ne_eq, List.take_eq_nil_iff]
      simp [namesIn_ne_nil directory]
    have joined := @String.intercalate_append_of_ne_nil _ _ "/" notNone isAll
    rw [split, whole] at joined
    refine ⟨("/" ++ "/".intercalate ((namesIn directory).drop (count + 1))).toList, ?_⟩
    rw [← String.toList_append, ← String.append_assoc]
    exact congrArg String.toList joined.symm

/-- The first paths on the way lead to directories. -/
private structure MadeUpTo (disk : Disk) (directory : String) (count : Nat) : Prop where
  atEnd : ∀ below ≤ count,
    disk.entryAt (startOf directory) (((namesIn directory).take below).foldl followName []) =
      some .directory
  leads : ∀ below < count, pathAlong directory below ≠ "" →
    disk.lookUp (pathAlong directory below) = .ok .directory

private theorem MadeUpTo.step {directory : String} {count : Nat} {made : Disk}
    (upTo : MadeUpTo disk directory count) (inside : count < (namesIn directory).length)
    (isMade : (if pathAlong directory count = "" then .ok disk
      else disk.makeDirectory (pathAlong directory count)) = .ok made) :
    disk.KeepsDirectories made ∧ MadeUpTo made directory (count + 1) := by
  have names := namesIn_pathAlong directory count
  by_cases isEmpty : pathAlong directory count = ""
  · rw [if_pos isEmpty] at isMade
    cases isMade
    refine ⟨fun _ isDirectory => isDirectory, ⟨fun below bound => ?_, fun below bound notEmpty => ?_⟩⟩
    · rcases Nat.lt_or_eq_of_le bound with earlier | rfl
      · exact upTo.atEnd below (Nat.le_of_lt_succ earlier)
      · rw [← names, isEmpty]
        exact upTo.atEnd 0 (Nat.zero_le _)
    · rcases Nat.lt_or_eq_of_le (Nat.le_of_lt_succ bound) with earlier | rfl
      · exact upTo.leads below earlier notEmpty
      · exact absurd isEmpty notEmpty
  · rw [if_neg isEmpty] at isMade
    have there : ∀ below < (namesIn (pathAlong directory count)).length,
        disk.entryAt (startOf (pathAlong directory count))
          (((namesIn (pathAlong directory count)).take below).foldl followName []) =
            some .directory := by
      intro below bound
      rw [names, List.length_take] at bound
      rw [startOf_pathAlong directory count isEmpty, names, List.take_take,
        Nat.min_eq_left (by omega)]
      exact upTo.atEnd below (by omega)
    obtain ⟨keeps, leads, atEnd⟩ := makeDirectory_ok isEmpty there isMade
    rw [startOf_pathAlong directory count isEmpty, names] at atEnd
    refine ⟨keeps, ⟨fun below bound => ?_, fun below bound notEmpty => ?_⟩⟩
    · rcases Nat.lt_or_eq_of_le bound with earlier | rfl
      · exact entryAt_directory keeps (upTo.atEnd below (Nat.le_of_lt_succ earlier))
      · exact atEnd
    · rcases Nat.lt_or_eq_of_le (Nat.le_of_lt_succ bound) with earlier | rfl
      · exact lookUp_directory keeps (upTo.leads below earlier notEmpty)
      · exact leads

/-- Making the directories on the way to a path and the path itself leaves them all there, and takes
no directory away. -/
theorem makeDirectories_ok {directory : String} {made : Disk}
    (isMade : disk.makeDirectories directory = .ok made) :
    disk.KeepsDirectories made ∧ made.HasDirectory directory := by
  have steps : ∀ (remaining count : Nat) (current : Disk), MadeUpTo current directory count →
      count + remaining ≤ (namesIn directory).length →
      ((List.range' count remaining).map (pathAlong directory)).foldlM
        (fun current above => if above = "" then .ok current else current.makeDirectory above)
          current = .ok made →
      current.KeepsDirectories made ∧ MadeUpTo made directory (count + remaining) := by
    intro remaining
    induction remaining with
    | zero =>
        intro count current upTo _ isMade
        cases isMade
        exact ⟨fun _ isDirectory => isDirectory, upTo⟩
    | succ remaining inductionHypothesis =>
        intro count current upTo bound isMade
        rw [List.range'_succ, List.map_cons, List.foldlM_cons] at isMade
        cases isNext : (if pathAlong directory count = "" then .ok current
          else current.makeDirectory (pathAlong directory count) : Except DiskFault Disk) with
        | error fault =>
            rw [isNext] at isMade
            cases isMade
        | ok next =>
            rw [isNext] at isMade
            obtain ⟨keeps, nextUpTo⟩ := upTo.step (by omega) isNext
            obtain ⟨keepsLater, whole⟩ :=
              inductionHypothesis (count + 1) next nextUpTo (by omega) isMade
            refine ⟨fun path isDirectory => keepsLater path (keeps path isDirectory), ?_⟩
            rw [Nat.add_comm remaining 1, ← Nat.add_assoc]
            exact whole
  have start : MadeUpTo disk directory 0 := by
    refine ⟨fun below bound => ?_, fun below bound => absurd bound (Nat.not_lt_zero _)⟩
    obtain rfl := Nat.le_zero.mp bound
    rfl
  rw [makeDirectories, pathsAlong_eq, List.range_eq_range'] at isMade
  obtain ⟨keeps, upTo⟩ := steps _ 0 disk start (by omega) isMade
  refine ⟨keeps, fun above member notEmpty => ?_⟩
  rw [pathsAlong_eq] at member
  obtain ⟨count, inside, rfl⟩ := List.mem_map.mp member
  exact upTo.leads count (by simpa using inside) notEmpty

end Disk

/-! ## Paths of a store's files -/

namespace FileStore

/-- A name that is kept whole at the end of a path. -/
def IsPlainName (name : String) : Prop :=
  '/' ∉ name.toList ∧ ∀ reversed, Disk.followName reversed name = name :: reversed

theorem isPlainName_journalName : IsPlainName journalName := by
  refine ⟨by decide, fun reversed => ?_⟩
  cases reversed <;> rfl

theorem isPlainName_snapshotName : IsPlainName snapshotName := by
  refine ⟨by decide, fun reversed => ?_⟩
  cases reversed <;> rfl

/-- The path of a file in a directory ends with the file's name. -/
theorem pathIn_eq (directory : String) {name : String} (plain : IsPlainName name) :
    ∃ before, pathIn directory name = before ++ name := by
  have ends : ∀ path : String, (∃ names, Disk.namesIn path = names ++ [name]) →
      ∃ before, Disk.canonicalPath path = before ++ name := by
    rintro path ⟨names, areNames⟩
    rw [Disk.canonicalPath, areNames, List.foldl_append, List.foldl_cons, List.foldl_nil, plain.2,
      Disk.spell, List.reverse_cons]
    cases isReversed : (names.foldl Disk.followName []).reverse with
    | nil => exact ⟨Disk.startOf path, by simp⟩
    | cons first others =>
        rw [String.intercalate_append_of_ne_nil (by simp) (by simp), String.intercalate_singleton]
        exact ⟨Disk.startOf path ++ ("/".intercalate (first :: others) ++ "/"), by
          simp only [String.append_assoc]⟩
  unfold pathIn
  split
  · refine ends name ⟨[], ?_⟩
    rw [Disk.namesIn, List.splitOn_eq_singleton plain.1]
    simp
  · refine ends _ ⟨Disk.namesIn directory, ?_⟩
    have letters : (directory ++ "/" ++ name).toList = directory.toList ++ '/' :: name.toList := by
      simp
    rw [Disk.namesIn, letters, List.splitOn_append_cons_self, List.splitOn_eq_singleton plain.1]
    simp [Disk.namesIn]

theorem getLast?_append_text {before name : String} {last : Char}
    (isLast : name.toList.getLast? = some last) : (before ++ name).toList.getLast? = some last := by
  rw [String.toList_append, List.getLast?_append, isLast]
  rfl

/-- The last letters of the two names differ, so the paths do. -/
theorem journalPath_ne_snapshotPath (directory : String) :
    pathIn directory journalName ≠ pathIn directory snapshotName := by
  obtain ⟨before, journal⟩ := pathIn_eq directory isPlainName_journalName
  obtain ⟨other, snapshot⟩ := pathIn_eq directory isPlainName_snapshotName
  intro same
  have last := congrArg (fun path : String => path.toList.getLast?) same
  simp only [journal, snapshot] at last
  rw [@getLast?_append_text before journalName 'l' (by decide),
    @getLast?_append_text other snapshotName 't' (by decide)] at last
  exact absurd last (by decide)

theorem sidePath_ne_snapshotPath (directory path : String) (nowMs : Int) :
    Journal.sidePath path nowMs ≠ pathIn directory snapshotName := by
  obtain ⟨before, snapshot⟩ := pathIn_eq directory isPlainName_snapshotName
  intro same
  have last := congrArg (fun path : String => path.toList.getLast?) same
  simp only [Journal.sidePath, snapshot] at last
  rw [@getLast?_append_text _ ".tail" 'l' (by decide),
    @getLast?_append_text before snapshotName 't' (by decide)] at last
  exact absurd last (by decide)

theorem sidePath_ne_path (path : String) (nowMs : Int) : Journal.sidePath path nowMs ≠ path := by
  intro same
  have lengths := congrArg String.length same
  simp only [Journal.sidePath, String.length_append] at lengths
  have tail : (".tail" : String).length = 5 := by decide
  omega

end FileStore

end GraphCheckpoint.Store
