import CallRedirect.Proofs.ScanOrder
import CallRedirect.Proofs.StoredArchive

/-!
# A directory and an archive with the same files

Which files of a directory are class files is settled by the extension of their last names, and
which entries of an archive are by how their names end.  The two differ where a name is nothing
but `.class`, which has no extension, and where a name ends like that of a module description,
which an archive leaves out and a directory does not.

* `FileNode.files` lists the files below a node with their places, and `FileNode.archived` with
  the names that they have in an archive.
* `FileNode.OfClasses` is a directory of class files whose paths can be read.
* `FileNode.OfClasses.exists_input` and `FileNode.OfClasses.exists_archive` say that both scans
  succeed and which of the files each of them lifts.
* `scan_directory_and_archive` puts the two beside each other.
-/

namespace CallRedirect

/-! ## Files of a directory -/

namespace FileNode

mutual

/-- The files at and below a node, with their places. -/
def files : FileNode → List (List String × Bytes)
  | file content => [([], content)]
  | directory entries => filesOfEntries entries

/-- The files at and below entries, with their places. -/
def filesOfEntries : List (String × FileNode) → List (List String × Bytes)
  | [] => []
  | (name, node) :: entries =>
      (node.files.map fun (place, content) => (name :: place, content)) ++ filesOfEntries entries

end

theorem filesOfEntries_eq_flatMap (entries : List (String × FileNode)) :
    filesOfEntries entries = entries.flatMap fun entry =>
      entry.2.files.map fun (place, content) => (entry.1 :: place, content) := by
  induction entries with
  | nil => rw [filesOfEntries, List.flatMap_nil]
  | cons entry entries ih =>
      obtain ⟨name, node⟩ := entry
      rw [filesOfEntries, ih, List.flatMap_cons]

theorem mem_files_iff {node : FileNode} (hproper : node.Proper) {place : List String}
    {content : Bytes} : (place, content) ∈ node.files ↔ node.at? place = some (file content) := by
  induction node using induction generalizing place with
  | hfile stored =>
      rw [files, List.mem_singleton]
      cases place with
      | nil => simp [at?, eq_comm]
      | cons name rest => simp [at?, child?]
  | hdirectory entries ih =>
      cases hproper with
      | directory hnames hdistinct hentries =>
      simp only [files, filesOfEntries_eq_flatMap, List.mem_flatMap, List.mem_map, Prod.exists,
        Prod.mk.injEq]
      constructor
      · rintro ⟨name, child, hchild, rest, stored, hrest, rfl, rfl⟩
        rw [at?_cons ((mem_entries_iff hdistinct).1 hchild)]
        exact (ih _ hchild (hentries _ hchild)).1 hrest
      · intro hfound
        cases place with
        | nil => cases hfound
        | cons name rest =>
            obtain ⟨child, hchild, hrest⟩ := Option.bind_eq_some_iff.1 hfound
            have hentry := (mem_entries_iff hdistinct).2 hchild
            exact ⟨name, child, hentry, rest, content,
              (ih _ hentry (hentries _ hentry)).2 hrest, rfl, rfl⟩

/-- No two files are at the same place. -/
theorem nodup_map_files {node : FileNode} (hproper : node.Proper) :
    (node.files.map (·.1)).Nodup := by
  induction node using induction with
  | hfile stored => simp [files]
  | hdirectory entries ih =>
      cases hproper with
      | directory hnames hdistinct hentries =>
      rw [files, filesOfEntries_eq_flatMap, List.map_flatMap, List.nodup_flatMap]
      have hbehind (entry : String × FileNode) :
          (entry.2.files.map fun file => (entry.1 :: file.1, file.2)).map (·.1) =
            (entry.2.files.map (·.1)).map (entry.1 :: ·) := by
        rw [List.map_map, List.map_map]
        rfl
      simp only [hbehind]
      constructor
      -- behind one name the places differ, and otherwise the names
      · intro entry hentry
        exact (ih entry hentry (hentries entry hentry)).map fun _ _ hsame => (List.cons.inj hsame).2
      · refine (List.pairwise_map.1 hdistinct).imp fun hne place hplace hother => ?_
        obtain ⟨rest, -, rfl⟩ := List.mem_map.1 hplace
        obtain ⟨rest', -, hsame⟩ := List.mem_map.1 hother
        exact hne (List.cons.inj hsame).1.symm

/-- The names on the way to something are proper. -/
theorem properName_of_at? {node found : FileNode} (hproper : node.Proper) {place : List String}
    (hfound : node.at? place = some found) : ∀ name ∈ place, ProperName name := by
  induction place generalizing node with
  | nil => exact fun _ hname => absurd hname List.not_mem_nil
  | cons name rest ih =>
      obtain ⟨child, hchild, hrest⟩ := Option.bind_eq_some_iff.1 hfound
      refine List.forall_mem_cons.2 ⟨?_, ih (hproper.child? hchild) hrest⟩
      cases hproper with
      | file => cases hchild
      | directory hnames hdistinct hentries =>
          exact hnames _ ((mem_entries_iff hdistinct).2 hchild)

theorem holds_of_at? {path : String} {node : FileNode} {place : List String} {content : Bytes}
    (hproper : node.Proper) (h : node.at? place = some (file content)) :
    node.Holds path (Path.below path place) content := by
  induction place generalizing node path with
  | nil =>
      cases h
      exact .file
  | cons name rest ih =>
      obtain ⟨child, hchild, hrest⟩ := Option.bind_eq_some_iff.1 h
      obtain ⟨entries, rfl⟩ := exists_entries_of_child? hchild
      have hchildProper := hproper.child? hchild
      cases hproper with
      | directory hnames hdistinct hentries =>
          exact .entry ((mem_entries_iff hdistinct).2 hchild) (ih hchildProper hrest)

/-- No path at or below a node that `path` leads to is too long. -/
inductive Short : String → FileNode → Prop
  | file {path : String} {content : Bytes} (h : Path.isTooLong path = false) :
      Short path (file content)
  | directory {path : String} {entries : List (String × FileNode)}
      (h : Path.isTooLong path = false)
      (hentries : ∀ entry ∈ entries, Short (Path.join path entry.1) entry.2) :
      Short path (directory entries)

theorem Short.at? {path : String} {node found : FileNode} {place : List String}
    (h : Short path node) (hproper : node.Proper) (hfound : node.at? place = some found) :
    Path.isTooLong (Path.below path place) = false := by
  induction place generalizing path node with
  | nil => cases h <;> assumption
  | cons name rest ih =>
      obtain ⟨child, hchild, hrest⟩ := Option.bind_eq_some_iff.1 hfound
      have hbelow := hproper.child? hchild
      cases h with
      | file hshort => cases hchild
      | directory hshort hentries =>
          cases hproper with
          | directory hnames hdistinct hchildren =>
              have hentry := (mem_entries_iff hdistinct).2 hchild
              exact ih (hentries (name, child) hentry) hbelow hrest

end FileNode

/-! ## Relative paths -/

namespace Path

/-- The path of a place from the directory that it is below. -/
def relative (place : List String) : String := "/".intercalate place

/-- A place is read off its relative path. -/
theorem components_relative {place : List String} (hplace : place ≠ [])
    (hnames : ∀ name ∈ place, FileNode.ProperName name) : components (relative place) = place := by
  have hslash : ("/" : String).toList = ['/'] := rfl
  have hsplit : (relative place).toList.splitOn '/' = place.map String.toList := by
    rw [relative, String.toList_intercalate, hslash]
    refine List.splitOn_intercalate '/' ?_ (by simpa using hplace)
    intro letters hletters
    obtain ⟨name, hname, rfl⟩ := List.mem_map.1 hletters
    exact (hnames name hname).no_slash
  rw [components, hsplit, List.map_map]
  simp

theorem endsWith_eq_true_iff {text ending : String} :
    text.endsWith ending = true ↔ ending.toList <:+ text.toList := by
  rw [← String.endsWith_toSlice, String.Slice.endsWith_string_iff, String.copy_toSlice]

/-- A relative path ends like the last name of the place. -/
theorem endsWith_relative_concat {ending : String} (hending : '/' ∉ ending.toList)
    (front : List String) (name : String) :
    (relative (front ++ [name])).endsWith ending = name.endsWith ending := by
  rw [Bool.eq_iff_iff, endsWith_eq_true_iff, endsWith_eq_true_iff]
  by_cases hfront : front = []
  · subst hfront
    rw [List.nil_append, relative, String.intercalate_singleton]
  · have hwhole : (relative (front ++ [name])).toList =
        (relative front).toList ++ '/' :: name.toList := by
      rw [relative, String.intercalate_append_of_ne_nil hfront (List.cons_ne_nil _ _),
        String.intercalate_singleton, String.toList_append, String.toList_append, List.append_assoc]
      rfl
    rw [hwhole]
    constructor
    · intro h
      -- the ending has no slash, so it does not reach up to the last one
      rcases List.suffix_or_suffix_of_suffix h (List.suffix_append _ ('/' :: name.toList)) with
        hshort | hlong
      · rcases List.suffix_cons_iff.1 hshort with heq | hname
        · exact absurd (heq ▸ List.mem_cons_self) hending
        · exact hname
      · exact absurd (hlong.subset List.mem_cons_self) hending
    · exact fun h => (h.trans (List.suffix_cons '/' _)).trans (List.suffix_append _ _)

theorem below_concat (path : String) (front : List String) (name : String) :
    below path (front ++ [name]) = join (below path front) name := by
  rw [below, List.foldl_append]
  rfl

theorem below_ne_empty {path : String} (hpath : path ≠ "") {place : List String}
    (hnames : ∀ name ∈ place, FileNode.ProperName name) : below path place ≠ "" := by
  induction place generalizing path with
  | nil => exact hpath
  | cons name rest ih =>
      obtain ⟨hname, hrest⟩ := List.forall_mem_cons.1 hnames
      exact ih (join_ne_empty hpath hname.no_slash) hrest

/-- A name that ends like a class file has the extension of one, unless there is nothing before
the ending. -/
theorem extension_of_endsWith {name : String} (hname : FileNode.ProperName name)
    (hclass : name.endsWith ".class" = true) :
    extension name = if name = ".class" then "" else "class" := by
  obtain ⟨stem, hstem⟩ := endsWith_eq_true_iff.1 hclass
  have halone : components name = [] ++ [name] := components_of_no_slash hname.no_slash
  have hfile : fileName? name = some name := fileName?_of_components halone hname
  have hreversed : name.toList.reverse = ['s', 's', 'a', 'l', 'c', '.'] ++ stem.reverse := by
    rw [← hstem, List.reverse_append]
    rfl
  have hempty : name = ".class" ↔ stem = [] := by
    rw [← String.toList_inj, ← hstem]
    simp
  have hdropped : ((['s', 's', 'a', 'l', 'c', '.'] ++ stem.reverse).dropWhile (· ≠ '.')).drop 1 =
      stem.reverse := rfl
  have htaken : (['s', 's', 'a', 'l', 'c', '.'] ++ stem.reverse).takeWhile (· ≠ '.') =
      ['s', 's', 'a', 'l', 'c'] := rfl
  simp only [extension, hfile, hreversed, hdropped, htaken, hempty, List.isEmpty_reverse,
    List.isEmpty_iff]
  rfl

end Path

/-! ## Classes without their positions -/

/-- A class as it is wherever it stands. -/
def Class.unplaced (cls : Class) : Class := { cls with artifact := 0 }

/-- The class that bytes are lifted to, wherever it stands. -/
def classOf? (bytes : Bytes) : Option Class := (liftClass bytes 0).toOption

theorem Class.unplaced_moveBy (count : Nat) (cls : Class) :
    (cls.moveBy count).unplaced = cls.unplaced := rfl

theorem exists_liftClass {bytes : Bytes} {cls : Class} (h : classOf? bytes = some cls)
    (first : Nat) : ∃ placed, liftClass bytes first = .ok placed ∧ placed.unplaced = cls := by
  have hlift : liftClass bytes (0 : Nat) = .ok cls := toOption_eq_some_iff.1 h
  have hmoved := Scan.liftClass_add bytes 0 first
  rw [Nat.zero_add, hlift] at hmoved
  refine ⟨cls.moveBy first, hmoved, ?_⟩
  have hartifact : cls.artifact = 0 := artifact_of_liftClass hlift
  rw [Class.unplaced_moveBy, Class.unplaced, ← hartifact]

namespace Scan

/-- The classes of a scan, wherever they stand. -/
def unplaced (scan : Scan) : List Class := scan.classes.map (·.unplaced)

theorem unplaced_append (head rest : Scan) :
    (head ++ rest).unplaced = head.unplaced ++ rest.unplaced := List.map_append

theorem unplaced_moveBy (count : Nat) (scan : Scan) :
    (scan.moveBy count).unplaced = scan.unplaced := by
  rw [unplaced, moveBy, List.map_map]
  rfl

theorem unplaced_concat (scans : List Scan) : (concat scans).unplaced = scans.flatMap unplaced := by
  induction scans with
  | nil => rfl
  | cons scan scans ih =>
      rw [concat, unplaced_append, unplaced_moveBy, ih, List.flatMap_cons]

/-! ## What an archive gives -/

variable {path : String} {container : Bytes} {first parent : Nat} {isInput : Bool}

/-- The class that an entry is lifted to, wherever it stands. -/
def entryClass? (container : Bytes) (entry : Archive.Entry) : Option Class :=
  (Archive.content container entry).toOption.bind classOf?

/-- Entries whose contents are class files are all lifted. -/
theorem exists_archiveEntries {entries : List Archive.Entry}
    (h : ∀ entry ∈ entries, ∃ cls, entryClass? container entry = some cls) :
    ∃ scan, (archiveEntries first parent path container entries).outcome = .ok scan ∧
      scan.unplaced = entries.filterMap (entryClass? container) := by
  induction entries generalizing first with
  | nil => exact ⟨empty, rfl, rfl⟩
  | cons entry entries ih =>
      obtain ⟨⟨cls, hentry⟩, hothers⟩ := List.forall_mem_cons.1 h
      obtain ⟨bytes, hcontent, hclass⟩ := Option.bind_eq_some_iff.1 hentry
      rw [toOption_eq_some_iff] at hcontent
      obtain ⟨placed, hlift, hplaced⟩ := exists_liftClass hclass first
      have hhead : (archiveEntry first parent path container entry).outcome = .ok _ :=
        outcome_archiveEntry_eq_ok_iff.2 ⟨bytes, placed, hcontent, hlift, rfl⟩
      obtain ⟨others, hrest, hclasses⟩ := ih hothers
      refine ⟨_, outcome_archiveEntries_cons_eq_ok_iff.2 ⟨_, others, hhead, hrest, rfl⟩, ?_⟩
      rw [unplaced_append, hclasses, List.filterMap_cons_some hentry]
      exact congrArg (· :: entries.filterMap (entryClass? container)) hplaced

/-- The class of what an archive lists, a name with what the content reads as. -/
def listedClass? (listed : String × Except Archive.ContentError Bytes) : Option Class :=
  if isClassEntry listed.1 then listed.2.toOption.bind classOf? else none

theorem filterMap_listedClass?_entries (entries : List Archive.Entry) :
    (entries.map fun entry => (entry.name, Archive.content container entry)).filterMap
        listedClass? =
      (entries.filter fun entry => isClassEntry entry.name).filterMap (entryClass? container) := by
  rw [List.filterMap_filter, List.filterMap_map]
  rfl

theorem filterMap_listedClass?_files (files : List (String × Bytes)) :
    (files.map fun file => (file.1, Except.ok file.2)).filterMap listedClass? =
      (files.filter fun file => isClassEntry file.1).filterMap fun file => classOf? file.2 := by
  rw [List.filterMap_filter, List.filterMap_map]
  rfl

/-- An archive that holds files gives the classes of those that its names do not rule out. -/
theorem exists_archive_of_holds {files : List (String × Bytes)}
    (hholds : Archive.Holds container files)
    (hlift : ∀ file ∈ files, ∃ cls, classOf? file.2 = some cls) :
    ∃ scan, (archive first isInput ⟨path, .ok container⟩).outcome = .ok scan ∧
      scan.unplaced.Perm
        ((files.filter fun file => isClassEntry file.1).filterMap fun file => classOf? file.2) := by
  obtain ⟨entries, hentries, hperm⟩ := hholds
  have hcontent : ∀ entry ∈ entries, ∃ file ∈ files, entry.name = file.1 ∧
      Archive.content container entry = .ok file.2 := by
    intro entry hentry
    have hmem := hperm.subset (List.mem_map_of_mem hentry)
    obtain ⟨file, hfile, hsame⟩ := List.mem_map.1 hmem
    exact ⟨file, hfile, (Prod.mk.inj hsame).1.symm, (Prod.mk.inj hsame).2.symm⟩
  have hclasses : ∀ entry ∈ classEntries entries,
      ∃ cls, entryClass? container entry = some cls := by
    intro entry hentry
    obtain ⟨file, hfile, -, hfound⟩ := hcontent entry (mem_classEntries_iff.1 hentry).1
    obtain ⟨cls, hcls⟩ := hlift file hfile
    exact ⟨cls, by rw [entryClass?, hfound]; exact hcls⟩
  obtain ⟨others, hothers, hunplaced⟩ := exists_archiveEntries hclasses
  let found : FoundFile := ⟨path, .ok container⟩
  refine ⟨ownPart isInput path container ++ others, ?_, ?_⟩
  · rw [outcome_archive_of_openEntries (rfl : found.content = .ok container) hentries, hothers]
    rfl
  · -- both sides pick from the names and contents that the archive lists
    have hpicked := hperm.filterMap listedClass?
    rw [filterMap_listedClass?_entries, filterMap_listedClass?_files] at hpicked
    rw [unplaced_append, hunplaced, classEntries]
    exact ((List.mergeSort_perm _ _).filterMap _).trans hpicked

/-! ## What a directory gives -/

variable {system : FileSystem}

theorem exists_alone_of_read {content : Bytes} {cls : Class}
    (hread : system.read path = .ok content) (hextension : Path.extension path = "class")
    (hclass : classOf? content = some cls) :
    ∃ scan, alone system path = .ok scan ∧ scan.unplaced = [cls] := by
  obtain ⟨placed, hlift, hplaced⟩ := exists_liftClass hclass 0
  have hfile : file 0 false (system.foundAt path) = classFile 0 false (system.foundAt path) := by
    unfold file
    split
    · rfl
    · next hjar => exact absurd (hextension.symm.trans hjar) (by decide)
    · next hclass _ => exact absurd hextension hclass
  refine ⟨⟨[⟨path, some (content.length : Int), none, false⟩], [placed]⟩, ?_, ?_⟩
  · rw [alone, hfile]
    exact outcome_classFile_eq_ok_iff.2 ⟨content, placed, hread, hlift, rfl⟩
  · exact congrArg (fun cls => [cls]) hplaced

theorem exists_mapM_alone {places : List (List String)} {lifted : List String → List Class}
    (h : ∀ place ∈ places, ∃ scan,
      alone system (Path.below path place) = .ok scan ∧ scan.unplaced = lifted place) :
    ∃ scans, (places.mapM fun place => alone system (Path.below path place)) = .ok scans ∧
      scans.flatMap unplaced = places.flatMap lifted := by
  induction places with
  | nil => exact ⟨[], rfl, rfl⟩
  | cons place places ih =>
      obtain ⟨⟨scan, hscan, hlifted⟩, hothers⟩ := List.forall_mem_cons.1 h
      obtain ⟨scans, hscans, hclasses⟩ := ih hothers
      refine ⟨scan :: scans, ?_, ?_⟩
      · rw [List.mapM_cons, hscan, ok_bind, hscans, ok_bind]
        rfl
      · rw [List.flatMap_cons, List.flatMap_cons, hlifted, hclasses]

end Scan

namespace FileNode

/-- A directory that `path` leads to has class files only: none of its paths is too long, and
every file is named like a class file and is one. -/
structure OfClasses (path : String) (entries : List (String × FileNode)) : Prop where
  proper : (directory entries).Proper
  short : Short path (directory entries)
  named : ∀ file ∈ (directory entries).files, (Path.relative file.1).endsWith ".class" = true
  lifted : ∀ file ∈ (directory entries).files, ∃ cls, classOf? file.2 = some cls

/-- Whether the name of a file has something before the ending of a class file. -/
def hasStem (file : List String × Bytes) : Bool := file.1.getLast? ≠ some ".class"

namespace OfClasses

variable {system : FileSystem} {path : String} {entries : List (String × FileNode)}
  {file : List String × Bytes}

theorem exists_concat (h : OfClasses path entries) (hfile : file ∈ (directory entries).files) :
    ∃ front name, file.1 = front ++ [name] ∧ (∀ above ∈ front, ProperName above) ∧
      ProperName name ∧ name.endsWith ".class" = true := by
  have hfound := (mem_files_iff h.proper).1 hfile
  have hne : file.1 ≠ [] := by
    intro hnil
    rw [hnil] at hfound
    cases hfound
  obtain ⟨front, name, hconcat⟩ : ∃ front name, file.1 = front ++ [name] :=
    ⟨file.1.dropLast, file.1.getLast hne, (List.dropLast_concat_getLast hne).symm⟩
  have hnames := properName_of_at? h.proper hfound
  have hclass := h.named file hfile
  rw [hconcat] at hnames hclass
  obtain ⟨hfront, hlast⟩ := List.forall_mem_append.1 hnames
  rw [Path.endsWith_relative_concat (by decide) front name] at hclass
  exact ⟨front, name, hconcat, hfront, List.forall_mem_singleton.1 hlast, hclass⟩

theorem isScanned_below (h : OfClasses path entries) (hpath : path ≠ "")
    (hfile : file ∈ (directory entries).files) :
    Scan.isScanned (Path.below path file.1) = hasStem file ∧
      (hasStem file = true → Path.extension (Path.below path file.1) = "class") := by
  obtain ⟨front, name, hconcat, hfront, hname, hclass⟩ := h.exists_concat hfile
  have hextension : Path.extension (Path.below path file.1) =
      if name = ".class" then "" else "class" := by
    rw [hconcat, Path.below_concat, Path.extension_join (Path.below_ne_empty hpath hfront) hname,
      Path.extension_of_endsWith hname hclass]
  have hstem : hasStem file = decide (name ≠ ".class") := by
    simp [hasStem, hconcat]
  rw [Scan.isScanned, hextension, hstem]
  by_cases hdot : name = ".class" <;> simp [hdot]

/-- The places that are scanned are those of the files whose name has a stem. -/
theorem perm_places (h : OfClasses path entries) (hpath : path ≠ "")
    {places : List (List String)} (hplaces : Scan.Listing system path (directory entries) places) :
    places.Perm (((directory entries).files.filter hasStem).map (·.1)) := by
  -- neither side repeats a place, so it is enough that they have the same ones
  have hdistinct : places.Nodup := by
    refine hplaces.ordered.imp fun hlt hsame => ?_
    rw [hsame] at hlt
    exact List.lt_irrefl _ hlt
  have hkept : (((directory entries).files.filter hasStem).map (·.1)).Nodup :=
    (nodup_map_files h.proper).sublist (List.filter_sublist.map _)
  rw [List.perm_ext_iff_of_nodup hdistinct hkept]
  intro place
  rw [hplaces.mem_iff_of_short fun place listed hfound => h.short.at? h.proper hfound,
    List.mem_map]
  constructor
  · rintro ⟨⟨content, hfound⟩, hscanned⟩
    have hfile := (mem_files_iff h.proper).2 hfound
    rw [(h.isScanned_below hpath hfile).1] at hscanned
    exact ⟨(place, content), List.mem_filter.2 ⟨hfile, hscanned⟩, rfl⟩
  · rintro ⟨⟨place, content⟩, hmem, rfl⟩
    obtain ⟨hfile, hstem⟩ := List.mem_filter.1 hmem
    refine ⟨⟨content, (mem_files_iff h.proper).1 hfile⟩, ?_⟩
    rw [(h.isScanned_below hpath hfile).1, hstem]

theorem read_below (h : OfClasses path entries) (hroot : system.root.Proper)
    (hinput : system.lookup path = .ok (directory entries))
    (hfile : file ∈ (directory entries).files) :
    system.read (Path.below path file.1) = .ok file.2 := by
  have hfound := (mem_files_iff h.proper).1 hfile
  exact FileSystem.read_of_offers hroot
    ⟨directory entries, hinput, holds_of_at? h.proper hfound, h.short.at? h.proper hfound⟩

/-- A directory gives the classes of the files whose name has a stem. -/
theorem exists_input (h : OfClasses path entries) (hroot : system.root.Proper)
    (hinput : system.lookup path = .ok (directory entries)) :
    ∃ scan, (Scan.input system path).outcome = .ok scan ∧
      scan.unplaced.Perm
        (((directory entries).files.filter hasStem).filterMap fun file => classOf? file.2) := by
  -- a place is enough to say what is lifted there, so the places may stand in any order
  let lifted (place : List String) : List Class :=
    (((directory entries).at? place).bind fun found => found.surface.bind classOf?).toList
  have hpath : path ≠ "" := by
    obtain ⟨place, hplace, -⟩ := FileSystem.lookup_eq_ok_iff.1 hinput
    exact (FileSystem.textFault?_eq_none_iff.1 (FileSystem.locate_eq_ok_iff.1 hplace).1).2.1
  obtain ⟨places, hplaces⟩ := Scan.exists_listing h.proper hinput
  have hperm := h.perm_places hpath hplaces
  have hlifted : ∀ file ∈ (directory entries).files,
      lifted file.1 = (classOf? file.2).toList := by
    intro file hfile
    simp only [lifted, (mem_files_iff h.proper).1 hfile]
    rfl
  have hsteps : ∀ place ∈ places, ∃ scan,
      Scan.alone system (Path.below path place) = .ok scan ∧ scan.unplaced = lifted place := by
    intro place hmem
    obtain ⟨file, hkept, rfl⟩ := List.mem_map.1 (hperm.subset hmem)
    obtain ⟨hfile, hstem⟩ := List.mem_filter.1 hkept
    obtain ⟨cls, hcls⟩ := h.lifted file hfile
    obtain ⟨scan, hscan, hunplaced⟩ := Scan.exists_alone_of_read
      (h.read_below hroot hinput hfile) ((h.isScanned_below hpath hfile).2 hstem) hcls
    refine ⟨scan, hscan, ?_⟩
    rw [hunplaced, hlifted file hfile, hcls]
    rfl
  obtain ⟨scans, hscans, hclasses⟩ := Scan.exists_mapM_alone hsteps
  refine ⟨Scan.concat scans, ?_, ?_⟩
  · rw [hplaces.outcome, hscans]
    rfl
  · have hfiles : (((directory entries).files.filter hasStem).map (·.1)).flatMap lifted =
        ((directory entries).files.filter hasStem).filterMap fun file => classOf? file.2 := by
      rw [List.flatMap_map, List.filterMap_eq_flatMap_toList]
      exact List.flatMap_congr fun file hfile => hlifted file (List.mem_of_mem_filter hfile)
    rw [Scan.unplaced_concat, hclasses, ← hfiles]
    exact hperm.flatMap_right lifted

end OfClasses

/-! ## The same files in an archive -/

/-- The files of a node as an archive names them. -/
def archived (node : FileNode) : List (String × Bytes) :=
  node.files.map fun file => (Path.relative file.1, file.2)

/-- Whether the name of a file ends like that of a module description. -/
def isModule (file : List String × Bytes) : Bool :=
  (Path.relative file.1).endsWith "module-info.class"

namespace OfClasses

variable {system : FileSystem} {path jar : String} {entries : List (String × FileNode)}
  {container : Bytes}

/-- Different files have different names in an archive. -/
theorem nodup_archived (h : OfClasses path entries) :
    ((directory entries).archived.map (·.1)).Nodup := by
  have hnames : (directory entries).archived.map (·.1) =
      ((directory entries).files.map (·.1)).map Path.relative := by
    rw [archived, List.map_map, List.map_map]
    rfl
  rw [hnames]
  -- different places have different names, since a place is read off its name
  refine (nodup_map_files h.proper).map_on ?_
  have hcomponents : ∀ place ∈ (directory entries).files.map (·.1),
      Path.components (Path.relative place) = place := by
    intro place hplace
    obtain ⟨file, hfile, rfl⟩ := List.mem_map.1 hplace
    obtain ⟨front, name, hconcat, hfront, hname, -⟩ := h.exists_concat hfile
    rw [hconcat]
    exact Path.components_relative (by simp)
      (List.forall_mem_append.2 ⟨hfront, List.forall_mem_singleton.2 hname⟩)
  intro place hplace other hother hsame
  rw [← hcomponents place hplace, hsame, hcomponents other hother]

/-- An archive gives the classes of the files that do not end like a module description. -/
theorem exists_archive (h : OfClasses path entries)
    (hholds : Archive.Holds container (directory entries).archived)
    (hread : system.read jar = .ok container) (hextension : Path.extension jar = "jar") :
    ∃ scan, (Scan.input system jar).outcome = .ok scan ∧
      scan.unplaced.Perm (((directory entries).files.filter fun file =>
        ! isModule file).filterMap fun file => classOf? file.2) := by
  have hlift : ∀ file ∈ (directory entries).archived, ∃ cls, classOf? file.2 = some cls := by
    intro file hfile
    obtain ⟨found, hfound, rfl⟩ := List.mem_map.1 hfile
    exact h.lifted found hfound
  have hinput : Scan.input system jar = Scan.archive 0 true ⟨jar, .ok container⟩ := by
    have hfile := FileSystem.read_eq_ok_iff.1 hread
    unfold Scan.input
    rw [hfile, hread, hextension]
    rfl
  have hkept : ((directory entries).archived.filter fun file => Scan.isClassEntry file.1).filterMap
      (fun file => classOf? file.2) =
        ((directory entries).files.filter fun file => ! isModule file).filterMap
          fun file => classOf? file.2 := by
    rw [archived, List.filter_map, List.filterMap_map]
    refine congrArg (List.filterMap _) (List.filter_congr fun file hfile => ?_)
    show ((Path.relative file.1).endsWith ".class" && ! isModule file) = ! isModule file
    rw [h.named file hfile, Bool.true_and]
  rw [hinput, ← hkept]
  exact Scan.exists_archive_of_holds hholds hlift

end OfClasses

end FileNode

/-- A directory of class files and an archive that holds the same files are both scanned.  Of the
directory, the files are left out whose name is nothing but the ending of a class file; of the
archive, those whose name ends like that of a module description.  Where there are no such files,
both give the same classes.  An archive that holds the files can be written if there is room. -/
theorem scan_directory_and_archive {system : FileSystem} (hroot : system.root.Proper)
    {directory jar : String} {entries : List (String × FileNode)} {container : Bytes}
    (hdirectory : system.lookup directory = .ok (.directory entries))
    (hclasses : FileNode.OfClasses directory entries)
    (hjar : system.read jar = .ok container) (hextension : Path.extension jar = "jar")
    (hholds : Archive.Holds container (FileNode.directory entries).archived) :
    let files := (FileNode.directory entries).files
    (∃ listed unpacked : Scan, (Scan.input system directory).outcome = .ok listed ∧
      (Scan.input system jar).outcome = .ok unpacked ∧
      listed.unplaced.Perm ((files.filter FileNode.hasStem).filterMap fun file => classOf? file.2) ∧
      unpacked.unplaced.Perm
        ((files.filter fun file => ! FileNode.isModule file).filterMap fun file =>
          classOf? file.2) ∧
      ((∀ file ∈ files, FileNode.hasStem file = true ∧ FileNode.isModule file = false) →
        listed.unplaced.Perm unpacked.unplaced)) ∧
    (Archive.Fits (FileNode.directory entries).archived →
      Archive.Holds (Archive.pack (FileNode.directory entries).archived)
        (FileNode.directory entries).archived) := by
  intro files
  obtain ⟨listed, hlisted, hstems⟩ := hclasses.exists_input hroot hdirectory
  obtain ⟨unpacked, hunpacked, hothers⟩ := hclasses.exists_archive hholds hjar hextension
  refine ⟨⟨listed, unpacked, hlisted, hunpacked, hstems, hothers, ?same⟩,
    Archive.holds_pack hclasses.nodup_archived⟩
  case same =>
    intro hplain
    have hleft : files.filter FileNode.hasStem =
        files.filter fun file => ! FileNode.isModule file :=
      List.filter_congr fun file hfile => by
        rw [(hplain file hfile).1, (hplain file hfile).2, Bool.not_false]
    have hlisting : listed.unplaced.Perm ((files.filter fun file =>
        ! FileNode.isModule file).filterMap fun file => classOf? file.2) := hleft ▸ hstems
    exact hlisting.trans hothers.symm

/-- A class file of a class with a name of one letter. -/
def plainClass (letter : UInt8) : Bytes :=
  [0xca, 0xfe, 0xba, 0xbe, 0, 0, 0, 0x34, 0, 3, 7, 0, 2, 1, 0, 1, letter, 0, 1, 0, 1, 0, 0, 0, 0,
    0, 0, 0, 0, 0, 0]

theorem classOf?_plainClass :
    classOf? (plainClass 0x41) = some ⟨"A", [], 0⟩ ∧
      classOf? (plainClass 0x42) = some ⟨"B", [], 0⟩ ∧
      classOf? (plainClass 0x43) = some ⟨"C", [], 0⟩ := by
  decide +kernel

/-- A file system with a directory `d` and an archive `d.jar` that holds the same files. -/
def packedBeside (entries : List (String × FileNode)) : FileSystem where
  root := .directory [("d", .directory entries),
    ("d.jar", .file (Archive.pack (FileNode.directory entries).archived))]
  workingDirectory := []

theorem proper_packedBeside {entries : List (String × FileNode)}
    (h : (FileNode.directory entries).Proper) : (packedBeside entries).root.Proper := by
  have hdirectory : FileNode.ProperName "d" := by constructor <;> decide
  have harchive : FileNode.ProperName "d.jar" := by constructor <;> decide
  refine .directory ?_ (by simp) ?_
  · simp [hdirectory, harchive]
  · simp [h, FileNode.Proper.file]

theorem lookup_packedBeside (entries : List (String × FileNode)) :
    (packedBeside entries).lookup "d" = .ok (.directory entries) := rfl

theorem read_packedBeside (entries : List (String × FileNode)) :
    (packedBeside entries).read "d.jar" =
      .ok (Archive.pack (FileNode.directory entries).archived) := rfl

/-- Two class files, one of them further below. -/
theorem scan_directory_and_archive_nested :
    let entries : List (String × FileNode) :=
      [("B.class", .file (plainClass 0x42)),
        ("a", .directory [("A.class", .file (plainClass 0x41))])]
    ∃ listed unpacked : Scan, (Scan.input (packedBeside entries) "d").outcome = .ok listed ∧
      (Scan.input (packedBeside entries) "d.jar").outcome = .ok unpacked ∧
      listed.unplaced.Perm [⟨"B", [], 0⟩, ⟨"A", [], 0⟩] ∧
      listed.unplaced.Perm unpacked.unplaced := by
  intro entries
  obtain ⟨hfirst, hsecond, -⟩ := classOf?_plainClass
  have hfiles : (FileNode.directory entries).files =
      [(["B.class"], plainClass 0x42), (["a", "A.class"], plainClass 0x41)] := by
    simp [entries, FileNode.files, FileNode.filesOfEntries]
  have hnode : (FileNode.directory entries).Proper := by
    have hinner : FileNode.ProperName "A.class" := by constructor <;> decide
    have hleft : FileNode.ProperName "B.class" := by constructor <;> decide
    have hright : FileNode.ProperName "a" := by constructor <;> decide
    refine .directory ?_ (by simp [entries]) ?_
    · simp [entries, hleft, hright]
    · simp [entries, FileNode.Proper.file, FileNode.Proper.singleton hinner .file]
  have hpaths : FileNode.Short "d" (.directory entries) := by
    have hinner : FileNode.Short "d/a" (.directory [("A.class", .file (plainClass 0x41))]) :=
      .directory (by decide) (List.forall_mem_singleton.2 (.file (by decide)))
    refine .directory (by decide) (List.forall_mem_cons.2 ⟨.file (by decide), ?_⟩)
    exact List.forall_mem_singleton.2 hinner
  have hclasses : FileNode.OfClasses "d" entries := by
    refine ⟨hnode, hpaths, ?_, ?_⟩
    · rw [hfiles]
      decide +kernel
    · rw [hfiles]
      simp [hfirst, hsecond]
  have hfits : Archive.Fits (FileNode.directory entries).archived := by
    rw [FileNode.archived, hfiles]
    constructor <;> decide +kernel
  have hholds := Archive.holds_pack hclasses.nodup_archived hfits
  obtain ⟨⟨listed, unpacked, hlisted, hunpacked, hstems, -, hsame⟩, -⟩ :=
    scan_directory_and_archive (proper_packedBeside hnode) (lookup_packedBeside entries) hclasses
      (read_packedBeside entries) (by decide) hholds
  rw [hfiles] at hstems hsame
  exact ⟨listed, unpacked, hlisted, hunpacked, hstems.trans (.of_eq (by decide +kernel)),
    hsame (by decide +kernel)⟩

/-- Of three files, the directory gives the classes of two and the archive that of the third. -/
theorem scan_directory_and_archive_apart :
    let entries : List (String × FileNode) :=
      [(".class", .file (plainClass 0x41)), ("module-info.class", .file (plainClass 0x42)),
        ("xmodule-info.class", .file (plainClass 0x43))]
    Archive.Holds (Archive.pack (FileNode.directory entries).archived)
        (FileNode.directory entries).archived ∧
      ∃ listed unpacked : Scan, (Scan.input (packedBeside entries) "d").outcome = .ok listed ∧
        (Scan.input (packedBeside entries) "d.jar").outcome = .ok unpacked ∧
        listed.unplaced.Perm [⟨"B", [], 0⟩, ⟨"C", [], 0⟩] ∧
        unpacked.unplaced.Perm [⟨"A", [], 0⟩] ∧
        ¬ listed.unplaced.Perm unpacked.unplaced := by
  intro entries
  obtain ⟨hfirst, hsecond, hthird⟩ := classOf?_plainClass
  have hfiles : (FileNode.directory entries).files =
      [([".class"], plainClass 0x41), (["module-info.class"], plainClass 0x42),
        (["xmodule-info.class"], plainClass 0x43)] := by
    simp [entries, FileNode.files, FileNode.filesOfEntries]
  have hnode : (FileNode.directory entries).Proper := by
    have hdot : FileNode.ProperName ".class" := by constructor <;> decide
    have hmodule : FileNode.ProperName "module-info.class" := by constructor <;> decide
    have hother : FileNode.ProperName "xmodule-info.class" := by constructor <;> decide
    refine .directory ?_ (by simp [entries]) ?_
    · simp [entries, hdot, hmodule, hother]
    · simp [entries, FileNode.Proper.file]
  have hclasses : FileNode.OfClasses "d" entries := by
    refine ⟨hnode, .directory (by decide) ?_, ?_, ?_⟩
    · simp only [entries, List.forall_mem_cons]
      exact ⟨.file (by decide), .file (by decide), .file (by decide), by simp⟩
    · rw [hfiles]
      decide +kernel
    · rw [hfiles]
      simp [hfirst, hsecond, hthird]
  have hfits : Archive.Fits (FileNode.directory entries).archived := by
    rw [FileNode.archived, hfiles]
    constructor <;> decide +kernel
  have hholds := Archive.holds_pack hclasses.nodup_archived hfits
  obtain ⟨listed, hlisted, hstems⟩ :=
    hclasses.exists_input (proper_packedBeside hnode) (lookup_packedBeside entries)
  obtain ⟨unpacked, hunpacked, hothers⟩ :=
    hclasses.exists_archive hholds (read_packedBeside entries) (by decide)
  rw [hfiles] at hstems hothers
  have hlistedClasses : listed.unplaced.Perm [⟨"B", [], 0⟩, ⟨"C", [], 0⟩] :=
    hstems.trans (.of_eq (by decide +kernel))
  have hunpackedClasses : unpacked.unplaced.Perm [⟨"A", [], 0⟩] :=
    hothers.trans (.of_eq (by decide +kernel))
  refine ⟨hholds, listed, unpacked, hlisted, hunpacked, hlistedClasses, hunpackedClasses, ?_⟩
  intro hsame
  have hlength := ((hlistedClasses.symm.trans hsame).trans hunpackedClasses).length_eq
  cases hlength

end CallRedirect
