import CallRedirect.Proofs.ArchiveOrder
import CallRedirect.Proofs.WalkOrder

/-!
# The order of a scan

A directory is scanned file by file.  Which files these are, and in which order they are
taken, is settled by their places below the directory, whatever order the file system
lists entries in.

* `Scan.Listing` says which places are scanned, that they stand in order, and what the scan
  gives.  `Scan.exists_listing` says that there is such a list for every directory.
* `Scan.EntryListing` says the same of the class entries of an archive.
* `scan_input_canonical` puts both together with the independence from any order of listing.
* `scan_input_passes_over_long_directory` is the exception: a directory whose path got too
  long is passed over with all that is below it.
-/

namespace CallRedirect

namespace Scan

/-! ## Files that are scanned -/

/-- Whether a file is one that a scan reads. -/
def isScanned (path : String) : Bool :=
  Path.extension path = "class" || Path.extension path = "jar"

/-- What scanning a file gives if it is scanned alone. -/
def alone (system : FileSystem) (path : String) : Except ScanError Scan :=
  (file 0 false (system.foundAt path)).outcome

variable {system : FileSystem} {path : String}

/-- A file with another extension is passed over, whatever it contains. -/
theorem outcome_file_of_not_isScanned {first : Nat} {isInput : Bool} {found : FoundFile}
    (h : isScanned found.path = false) : (file first isInput found).outcome = .ok empty := by
  simp only [isScanned, Bool.or_eq_false_iff, decide_eq_false_iff_not] at h
  unfold file
  split
  · next hclass => exact absurd hclass h.1
  · next hjar => exact absurd hjar h.2
  · rfl

/-- Behind nothing, a scan stays what it is. -/
theorem empty_append_moveBy (scan : Scan) :
    empty ++ scan.moveBy empty.artifacts.length = scan := by
  show empty ++ scan.moveBy 0 = scan
  rw [moveBy_zero]
  rfl

section Steps

variable {α : Type} {step : α → Except ScanError Scan}

theorem map_concat_mapM_cons (item : α) (others : List α) :
    ((item :: others).mapM step).map concat =
      step item >>= fun head => ((others.mapM step).map concat).map fun rest =>
        head ++ rest.moveBy head.artifacts.length := by
  rw [List.mapM_cons]
  cases step item with
  | error cause => rfl
  | ok head => cases others.mapM step <;> rfl

/-- Steps that give nothing are left out of a scan. -/
theorem map_concat_mapM_filter {keep : α → Bool}
    (hempty : ∀ item, keep item = false → step item = .ok empty) (items : List α) :
    (items.mapM step).map concat = ((items.filter keep).mapM step).map concat := by
  induction items with
  | nil => rfl
  | cons item items ih =>
      rw [map_concat_mapM_cons, ih]
      cases hkeep : keep item with
      | true => rw [List.filter_cons_of_pos hkeep, map_concat_mapM_cons]
      | false =>
          have hdropped : ¬ keep item = true := Bool.eq_false_iff.1 hkeep
          rw [List.filter_cons_of_neg hdropped, hempty item hkeep, ok_bind]
          cases ((items.filter keep).mapM step).map concat with
          | error cause => rfl
          | ok scan => exact congrArg Except.ok (empty_append_moveBy scan)

end Steps

/-! ## The files of a directory -/

/-- No directory at or below a node that `path` leads to has a path that is too long. -/
def ShortBelow (path : String) (node : FileNode) : Prop :=
  ∀ place listed, node.at? place = some (.directory listed) →
    Path.isTooLong (Path.below path place) = false

/-- The places below a directory that a scan of it reads, and what comes of it. -/
structure Listing (system : FileSystem) (path : String) (node : FileNode)
    (places : List (List String)) : Prop where
  /-- Places are compared name by name, and names byte by byte. -/
  ordered : places.Pairwise fun before after =>
    before.map Utf8.bytes < after.map Utf8.bytes
  /-- Every place that can be scanned is scanned. -/
  complete : ∀ place, place ∈ places ↔
    node.EndsAt path place ∧ isScanned (Path.below path place) = true
  /-- The scans of single files are put one behind the other. -/
  outcome : (input system path).outcome =
    (places.mapM fun place => alone system (Path.below path place)).map concat
  /-- The first file that fails is the one whose error is given. -/
  fails : ∀ cause, (input system path).outcome = .error cause ↔
    ∃ before place after, places = before ++ place :: after ∧
      (∃ scans, before.mapM (fun earlier => alone system (Path.below path earlier)) = .ok scans) ∧
      alone system (Path.below path place) = .error cause

theorem Listing.mem_iff_of_short {node : FileNode} {places : List (List String)}
    (h : Listing system path node places) (hshort : ShortBelow path node) {place : List String} :
    place ∈ places ↔ (∃ content, node.at? place = some (.file content)) ∧
      isScanned (Path.below path place) = true := by
  rw [h.complete, FileNode.endsAt_iff_of_short hshort]

theorem map_bytes_lt {before after : List String} (h : before < after) :
    before.map Utf8.bytes < after.map Utf8.bytes :=
  List.map_lt (fun _ _ hname => Utf8.bytes_lt_bytes_iff.2 hname) h

theorem outcome_input_of_directory {entries : List (String × FileNode)}
    (hproper : (FileNode.directory entries).Proper)
    (hinput : system.lookup path = .ok (.directory entries)) :
    (input system path).outcome =
      (((FileNode.directory entries).stops path).mapM fun place =>
        alone system (Path.below path place)).map concat := by
  have hlookup : system.lookup path =
      if Path.isTooLong path then .error .nameTooLong else .ok (.directory entries) := by
    rw [hinput, FileSystem.isTooLong_of_lookup hinput, if_neg Bool.false_ne_true]
  have hwalk := FileNode.walk_eq_map_stops hproper hlookup
  have hfiles : input system path = files 0 ((FileNode.directory entries).walk path) := by
    unfold input
    rw [hinput]
  simp only [hfiles, outcome_files, hwalk, List.mapM_map, moveBy_zero]
  rfl

/-- Every directory has such a list. -/
theorem exists_listing {entries : List (String × FileNode)}
    (hproper : (FileNode.directory entries).Proper)
    (hinput : system.lookup path = .ok (.directory entries)) :
    ∃ places, Listing system path (.directory entries) places := by
  let kept (place : List String) : Bool := isScanned (Path.below path place)
  let places := ((FileNode.directory entries).stops path).filter kept
  have houtcome : (input system path).outcome =
      (places.mapM fun place => alone system (Path.below path place)).map concat := by
    rw [outcome_input_of_directory hproper hinput]
    exact map_concat_mapM_filter (fun place hkept => outcome_file_of_not_isScanned hkept) _
  refine ⟨places, ?ordered, ?complete, houtcome, ?fails⟩
  case ordered =>
    exact ((FileNode.pairwise_stops hproper path).imp map_bytes_lt).filter _
  case complete =>
    intro place
    rw [List.mem_filter, FileNode.mem_stops_iff hproper]
  case fails =>
    intro cause
    rw [houtcome, ← mapM_eq_error_iff]
    cases places.mapM fun place => alone system (Path.below path place) <;> simp [Except.map]

/-- The order in which a file system lists entries does not show. -/
theorem input_eq_of_sameFiles {other : FileSystem} (hproper : system.root.Proper)
    (hother : other.root.Proper) (h : system.SameFiles other) (path : String) :
    input other path = input system path := by
  unfold input
  rw [h.read_eq]
  rcases h.lookup_cases path with ⟨cause, hsystem, hcause⟩ | ⟨node, twin, hnode, htwin, hsame⟩
  · rw [hsystem, hcause]
  · obtain ⟨_, -, hplace⟩ := FileSystem.lookup_eq_ok_iff.1 hnode
    obtain ⟨_, -, hplace'⟩ := FileSystem.lookup_eq_ok_iff.1 htwin
    rw [hnode, htwin]
    cases node with
    | file content => rw [hsame.eq_file]
    | directory entries =>
        obtain ⟨listed, rfl⟩ := hsame.exists_directory
        have hwalk := FileNode.walk_eq_of_sameTree (hproper.at? hplace) (hother.at? hplace')
          hsame path
        simp only [hwalk]

/-! ## The class entries of an archive -/

/-- The class entries of an archive, and which artifacts they are. -/
structure EntryListing (first : Nat) (isInput : Bool) (path : String) (container : Bytes)
    (entries : List Archive.Entry) (names : List String) : Prop where
  ordered : names.Pairwise fun before after => Utf8.bytes before < Utf8.bytes after
  complete : ∀ name, name ∈ names ↔
    (∃ entry ∈ entries, entry.name = name) ∧ isClassEntry name = true
  artifacts : ∀ scan, (archive first isInput ⟨path, .ok container⟩).outcome = .ok scan →
    scan.behindFirst.artifacts.map (·.uri) =
      names.map fun name => "jar:" ++ path ++ "!/" ++ name

theorem exists_entryListing {first : Nat} {isInput : Bool} {container : Bytes}
    {entries : List Archive.Entry} (hentries : Archive.openEntries container = .ok entries) :
    ∃ names, EntryListing first isInput path container entries names := by
  have hsorted := pairwise_classEntries (Archive.nodup_of_openEntries hentries)
  refine ⟨(classEntries entries).map (·.name), ?ordered, ?complete, ?artifacts⟩
  case ordered =>
    rw [List.pairwise_map]
    exact hsorted.imp Utf8.bytes_lt_bytes_iff.2
  case complete =>
    intro name
    simp only [List.mem_map, mem_classEntries_iff]
    constructor
    · rintro ⟨entry, ⟨hentry, hclass⟩, rfl⟩
      exact ⟨⟨entry, hentry, rfl⟩, hclass⟩
    · rintro ⟨⟨entry, hentry, rfl⟩, hclass⟩
      exact ⟨entry, ⟨hentry, hclass⟩, rfl⟩
  case artifacts =>
    intro scan hscan
    have hbehind : (archive first isInput ⟨path, .ok container⟩).outcome.map behindFirst =
        (archiveEntries (first + 1) first path container (classEntries entries)).outcome :=
      outcome_archive_map_behindFirst hentries
    rw [hscan] at hbehind
    rw [map_uri_archiveEntries hbehind.symm, List.map_map]
    rfl

end Scan

/-- The scan of a directory is settled by the files below it.  In which order a file system lists
them does not show, nor in which order an archive does.

Where paths are short enough, the files that are scanned are all that have the extension of a
class or an archive.

Archives are compared by the entries that can be opened.  If an archive has several entries with
one name, only the last of them is left, so two of them must not be swapped: then another one is
left, and the class may be another one. -/
theorem scan_input_canonical {system : FileSystem} (hproper : system.root.Proper) {path : String}
    {entries : List (String × FileNode)}
    (hinput : system.lookup path = .ok (.directory entries)) :
    (∀ other, other.root.Proper → system.SameFiles other →
      Scan.input other path = Scan.input system path) ∧
    (∃ places, Scan.Listing system path (.directory entries) places ∧
      (Scan.ShortBelow path (.directory entries) → ∀ place, place ∈ places ↔
        (∃ content, (FileNode.directory entries).at? place = some (.file content)) ∧
          Scan.isScanned (Path.below path place) = true)) ∧
    ∀ first isInput jar container listed, Archive.openEntries container = .ok listed →
      (∃ names, Scan.EntryListing first isInput jar container listed names) ∧
      ∀ container' listed', Archive.openEntries container' = .ok listed' →
        (listed'.map (·.shown container')).Perm (listed.map (·.shown container)) →
        (Scan.archive first isInput ⟨jar, .ok container'⟩).outcome.map Scan.behindFirst =
          (Scan.archive first isInput ⟨jar, .ok container⟩).outcome.map Scan.behindFirst := by
  refine ⟨?files, ?places, ?archives⟩
  case files =>
    intro other hother hsame
    exact Scan.input_eq_of_sameFiles hproper hother hsame path
  case places =>
    obtain ⟨_, -, hplace⟩ := FileSystem.lookup_eq_ok_iff.1 hinput
    obtain ⟨places, hplaces⟩ := Scan.exists_listing (hproper.at? hplace) hinput
    exact ⟨places, hplaces, fun hshort place => hplaces.mem_iff_of_short hshort⟩
  case archives =>
    intro first isInput jar container listed hlisted
    refine ⟨Scan.exists_entryListing hlisted, fun container' listed' hlisted' hperm => ?_⟩
    exact Scan.archive_eq_of_perm hlisted hlisted' hperm

/-- Entries that are listed the other way round, with a directory whose name is the beginning
of that of a file. -/
theorem scan_input_canonical_reversed :
    let entries : List (String × FileNode) :=
      [("Foo.class", .file []), ("Foo", .directory [("B.class", .file [])])]
    let system : FileSystem := ⟨.directory entries, []⟩
    Scan.input ⟨.directory entries.reverse, []⟩ "." = Scan.input system "." ∧
      ∃ places, Scan.Listing system "." (.directory entries) places ∧
        ["Foo", "B.class"] ∈ places ∧ ["Foo.class"] ∈ places := by
  intro entries system
  have hfirst : FileNode.ProperName "Foo.class" := by constructor <;> decide
  have hsecond : FileNode.ProperName "Foo" := by constructor <;> decide
  have hbelow : FileNode.ProperName "B.class" := by constructor <;> decide
  have hnodes : ∀ entry ∈ entries, entry.2.Proper := by
    simp [entries, FileNode.Proper.file, FileNode.Proper.singleton hbelow .file]
  have hnames : ∀ entry ∈ entries, FileNode.ProperName entry.1 := by
    simp [entries, hfirst, hsecond]
  have hdistinct : (entries.map (·.1)).Nodup := by decide
  have hproper : system.root.Proper := .directory hnames hdistinct hnodes
  have hother : (FileNode.directory entries.reverse).Proper :=
    .directory (by simpa using hnames) (by decide) (by simpa using hnodes)
  have hsame : system.SameFiles ⟨.directory entries.reverse, []⟩ :=
    ⟨rfl, .of_perm hdistinct (List.reverse_perm entries)⟩
  obtain ⟨hcanonical, ⟨places, hplaces, -⟩, -⟩ :=
    scan_input_canonical hproper (rfl : system.lookup "." = .ok (.directory entries))
  refine ⟨hcanonical _ hother hsame, places, hplaces, ?_, ?_⟩
  · rw [hplaces.complete]
    refine ⟨FileNode.endsAt_directory_cons_iff.2 ⟨by decide, _, rfl, ?_⟩, by decide⟩
    exact FileNode.endsAt_directory_cons_iff.2
      ⟨by decide, _, rfl, FileNode.endsAt_file_iff.2 rfl⟩
  · rw [hplaces.complete]
    exact ⟨FileNode.endsAt_directory_cons_iff.2
      ⟨by decide, _, rfl, FileNode.endsAt_file_iff.2 rfl⟩, by decide⟩

/-! ## Directories that are passed over -/

/-- A scan passes over a file below a directory: the file is one to be scanned and cannot be, and
yet the scan of the directory gives nothing, not even an error. -/
structure Scan.PassesOver (system : FileSystem) (path : String) (node : FileNode)
    (place : List String) : Prop where
  directory : system.lookup path = .ok node
  file : ∃ content, node.at? place = some (.file content)
  scanned : Scan.isScanned (Path.below path place) = true
  fails : ∃ cause, Scan.alone system (Path.below path place) = .error cause
  passes : (Scan.input system path).outcome = .ok .empty

/-- Nothing is scanned where the paths of all entries are too long, unless it looks like a file
to be scanned. -/
theorem Scan.outcome_input_of_long {system : FileSystem} {path : String}
    {entries : List (String × FileNode)} (hproper : (FileNode.directory entries).Proper)
    (hinput : system.lookup path = .ok (.directory entries))
    (hlong : ∀ entry ∈ entries, Path.isTooLong (Path.join path entry.1) = true)
    (hpassed : ∀ entry ∈ entries, Scan.isScanned (Path.join path entry.1) = false) :
    (Scan.input system path).outcome = .ok .empty := by
  obtain ⟨places, hplaces⟩ := exists_listing hproper hinput
  have hnone : places = [] := by
    rw [List.eq_nil_iff_forall_not_mem]
    intro place hplace
    obtain ⟨hends, hscanned⟩ := (hplaces.complete place).1 hplace
    cases place with
    | nil =>
        rw [FileNode.endsAt_directory_nil_iff, FileSystem.isTooLong_of_lookup hinput] at hends
        cases hends
    | cons name rest =>
        obtain ⟨-, child, hchild, hbelow⟩ := FileNode.endsAt_directory_cons_iff.1 hends
        cases hproper with
        | directory hnames hdistinct hentries =>
        have hentry := (FileNode.mem_entries_iff hdistinct).2 hchild
        -- the walk ends at the entry, since its path is too long to go into it
        cases rest with
        | nil =>
            rw [Path.below_cons, Path.below_nil, hpassed _ hentry] at hscanned
            cases hscanned
        | cons next rest =>
            have hshort := hbelow.reached [] List.nil_prefix (List.cons_ne_nil next rest).symm
            rw [Path.below_nil, hlong _ hentry] at hshort
            cases hshort
  rw [hplaces.outcome, hnone]
  rfl

/-- A way to the directory `d` that goes around in it. -/
def detour : Nat → String
  | 0 => "d"
  | steps + 1 => detour steps ++ "/" ++ "."

theorem utf8ByteSize_detour (steps : Nat) : (detour steps).utf8ByteSize = 2 * steps + 1 := by
  induction steps with
  | zero => rfl
  | succ steps ih =>
      have hslash : ("/" : String).utf8ByteSize = 1 := rfl
      have hdot : ("." : String).utf8ByteSize = 1 := rfl
      rw [detour, String.utf8ByteSize_append, String.utf8ByteSize_append, ih, hslash, hdot]
      omega

theorem detour_ne_empty (steps : Nat) : detour steps ≠ "" := by
  intro hempty
  have hsize := utf8ByteSize_detour steps
  rw [hempty] at hsize
  simp at hsize

theorem nul_not_mem_detour (steps : Nat) : Char.ofNat 0 ∉ (detour steps).toList := by
  induction steps with
  | zero => decide
  | succ steps ih =>
      rw [detour, String.toList_append, String.toList_append]
      simp only [List.mem_append, not_or]
      exact ⟨⟨ih, by decide⟩, by decide⟩

theorem isAbsolute_detour (steps : Nat) : Path.isAbsolute (detour steps) = false := by
  induction steps with
  | zero => decide
  | succ steps ih =>
      rw [detour, String.append_assoc, Path.isAbsolute_append (detour_ne_empty steps), ih]

theorem lookup_detour {node : FileNode} {entries : List (String × FileNode)}
    (hnode : node = .directory entries) {steps : Nat} (h : 2 * steps + 1 < 4096) :
    FileSystem.lookup ⟨.directory [("d", node)], []⟩ (detour steps) = .ok node := by
  subst hnode
  have hfollow : FileSystem.follow ⟨.directory [("d", .directory entries)], []⟩ []
      (Path.components (detour steps)) = .ok ["d"] := by
    clear h
    induction steps with
    | zero => rfl
    | succ steps ih =>
        rw [detour, Path.components_append_slash, FileSystem.follow_append, ih]
        rfl
  have hshort : Path.isTooLong (detour steps) = false := by
    simp only [Path.isTooLong, Path.sizeLimit, utf8ByteSize_detour, decide_eq_false_iff_not]
    omega
  rw [FileSystem.lookup_eq_ok_iff]
  refine ⟨["d"], FileSystem.locate_eq_ok_iff.2 ⟨?_, ?_⟩, rfl⟩
  · exact FileSystem.textFault?_eq_none_iff.2
      ⟨nul_not_mem_detour steps, detour_ne_empty steps, hshort⟩
  · rw [FileSystem.origin, isAbsolute_detour]
    exact hfollow

/-- Behind a detour that is long enough, a directory is passed over. -/
theorem passesOver_detour {steps : Nat} (hshort : 2 * steps + 1 < 4096)
    (hlong : 4096 ≤ 2 * steps + 9) :
    let node : FileNode := .directory [("packages", .directory [("A.class", .file [])])]
    Scan.PassesOver ⟨.directory [("d", node)], []⟩ (detour steps) node
      ["packages", "A.class"] := by
  intro node
  have hclass : FileNode.ProperName "A.class" := by constructor <;> decide
  have hpackages : FileNode.ProperName "packages" := by constructor <;> decide
  have hempty := detour_ne_empty steps
  have hlookup : FileSystem.lookup ⟨.directory [("d", node)], []⟩ (detour steps) = .ok node :=
    lookup_detour rfl hshort
  let above := Path.join (detour steps) "packages"
  have habove : above ≠ "" := Path.join_ne_empty hempty hpackages.no_slash
  have hnul : Char.ofNat 0 ∉ above.toList :=
    Path.nul_not_mem_join hempty hpackages.no_slash (nul_not_mem_detour steps) hpackages.no_nul
  -- whether or not a slash is put in between, the name alone makes the path too long
  have hsize : 4096 ≤ above.utf8ByteSize := by
    obtain ⟨back, hjoin, hback⟩ := Path.exists_join_eq_append hempty hpackages.no_slash
    have hbackSize : 8 ≤ back.utf8ByteSize := by rcases hback with rfl | rfl <;> decide
    simp only [above, hjoin, String.utf8ByteSize_append, utf8ByteSize_detour]
    omega
  let found := Path.join above "A.class"
  have hextension : Path.extension found = "class" := by
    rw [Path.extension_join habove hclass]
    decide
  have hread : FileSystem.foundAt ⟨.directory [("d", node)], []⟩ found =
      ⟨found, .error .nameTooLong⟩ := by
    refine FileSystem.foundAt_of_lookup_eq_error (FileSystem.lookup_of_long ?_ ?_ ?_)
    · exact Path.nul_not_mem_join habove hclass.no_slash hnul hclass.no_nul
    · exact Path.join_ne_empty habove hclass.no_slash
    · exact decide_eq_true (Nat.le_trans hsize (Path.size_le_join above hclass.no_slash))
  refine ⟨hlookup, ⟨[], rfl⟩, ?scanned, ⟨.unreadable found .nameTooLong, ?fails⟩, ?passes⟩
  case scanned =>
    show Scan.isScanned found = true
    rw [Scan.isScanned, hextension]
    rfl
  case fails =>
    show Scan.alone _ found = _
    rw [Scan.alone, hread, Scan.file, hextension]
    rfl
  case passes =>
    have hpassed : Scan.isScanned above = false := by
      rw [Scan.isScanned, Path.extension_join hempty hpackages]
      decide
    refine Scan.outcome_input_of_long (.singleton hpackages (.singleton hclass .file)) hlookup ?_ ?_
    · exact List.forall_mem_singleton.2 (decide_eq_true hsize)
    · exact List.forall_mem_singleton.2 hpassed

/-- A class is passed over that cannot be read because its path is too long. -/
theorem scan_input_passes_over_long_directory :
    let node : FileNode := .directory [("packages", .directory [("A.class", .file [])])]
    let system : FileSystem := ⟨.directory [("d", node)], []⟩
    system.root.Proper ∧
      Scan.PassesOver system (detour 2045) node ["packages", "A.class"] := by
  intro node system
  have hclass : FileNode.ProperName "A.class" := by constructor <;> decide
  have hpackages : FileNode.ProperName "packages" := by constructor <;> decide
  have hdirectory : FileNode.ProperName "d" := by constructor <;> decide
  exact ⟨.singleton hdirectory (.singleton hpackages (.singleton hclass .file)),
    passesOver_detour (by decide) (by decide)⟩

end CallRedirect
