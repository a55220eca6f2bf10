import CallRedirect.Proofs.ArtifactTable
import CallRedirect.Proofs.ResultPlaces

/-!
# The structure of the artifact table

The table that a scan writes is a row of blocks.  A block is a class file alone, or an archive
with its class entries right behind it.

* `Scan.TableRows` is this structure, together with the classes that were lifted on the way.
  `Scan.TableRows.append` puts two pieces together, and `Scan.tableRows_input` says that a
  whole scan has it.
* `Artifact.classPositions` are the positions of all rows that are no archives, and
  `Scan.TableRows.map_artifact` says that the classes stand at these, in order.
-/

namespace CallRedirect

instance (artifact : Artifact) : Decidable artifact.IsArchive :=
  inferInstanceAs (Decidable (artifact.parent = none ∧ Path.extension artifact.uri = "jar"))

/-! ## Positions that are no archives -/

namespace Artifact

/-- The positions of the rows that are no archives, in a piece of a table that starts at
`first`. -/
def classPositions (first : Nat) (rows : List Artifact) : List Nat :=
  ((rows.zipIdx first).filter fun (row, _) => ¬ row.IsArchive).map Prod.snd

theorem classPositions_append (first : Nat) (rows others : List Artifact) :
    classPositions first (rows ++ others) =
      classPositions first rows ++ classPositions (first + rows.length) others := by
  rw [classPositions, List.zipIdx_append, List.filter_append, List.map_append]
  rfl

theorem classPositions_cons_of_not_archive (first : Nat) {row : Artifact} (rows : List Artifact)
    (h : ¬ row.IsArchive) :
    classPositions first (row :: rows) = first :: classPositions (first + 1) rows := by
  simp [classPositions, h]

theorem classPositions_cons_of_archive (first : Nat) {row : Artifact} (rows : List Artifact)
    (h : row.IsArchive) :
    classPositions first (row :: rows) = classPositions (first + 1) rows := by
  simp [classPositions, h]

theorem mem_classPositions_iff {rows : List Artifact} {position : Nat} :
    position ∈ classPositions 0 rows ↔ ∃ row, rows[position]? = some row ∧ ¬ row.IsArchive := by
  simp only [classPositions, List.mem_map, List.mem_filter, decide_eq_true_eq, Prod.exists,
    List.mk_mem_zipIdx_iff_getElem?, exists_eq_right]

theorem pairwise_classPositions (first : Nat) (rows : List Artifact) :
    (classPositions first rows).Pairwise (· < ·) := by
  have hall : ((rows.zipIdx first).map Prod.snd).Pairwise (· < ·) := by
    rw [List.zipIdx_map_snd]
    exact List.pairwise_lt_range'
  exact hall.sublist (List.filter_sublist.map Prod.snd)

theorem length_classPositions_add (first : Nat) (rows : List Artifact) :
    (classPositions first rows).length + rows.countP (fun row => row.IsArchive) = rows.length := by
  have hlength : (classPositions first rows).length =
      rows.countP fun row => ¬ row.IsArchive := by
    have hrows : ((rows.zipIdx first).map Prod.fst).countP (fun row => ¬ row.IsArchive) =
        (rows.zipIdx first).countP fun (row, _) => ¬ row.IsArchive := List.countP_map
    rw [classPositions, List.length_map, ← List.countP_eq_length_filter, ← hrows,
      List.zipIdx_map_fst]
  rw [hlength, Nat.add_comm, List.length_eq_countP_add_countP (fun row => row.IsArchive)]
  simp only [decide_not, Bool.not_eq_true, Bool.decide_eq_false]

end Artifact

namespace Scan

/-! ## Blocks -/

/-- The rows for entries of the archive at position `parent`, from position `first` on: one for
each entry, in order, with the class that was lifted from it. -/
inductive EntryRows (path : String) (container : Bytes) (parent : Nat) :
    Nat → List Archive.Entry → List Artifact → List Class → Prop
  | nil {first : Nat} : EntryRows path container parent first [] [] []
  | cons {first : Nat} {entry : Archive.Entry} {entries : List Archive.Entry} {row : Artifact}
      {rows : List Artifact} {bytes : Bytes} {cls : Class} {classes : List Class}
      (huri : row.uri = "jar:" ++ path ++ "!/" ++ entry.name) (hparent : row.parent = some parent)
      (hcontent : Archive.content container entry = .ok bytes)
      (hlift : liftClass bytes first = .ok cls)
      (hrest : EntryRows path container parent (first + 1) entries rows classes) :
      EntryRows path container parent first (entry :: entries) (row :: rows) (cls :: classes)

/-- The rows of a table from position `first` on, with the classes that were lifted on the way.
A class file stands alone; behind an archive stand its class entries. -/
inductive TableRows (offered : String → Bytes → Prop) :
    Nat → List Artifact → List Class → Prop
  | nil {first : Nat} : TableRows offered first [] []
  | classFile {first : Nat} {row : Artifact} {rows : List Artifact} {bytes : Bytes} {cls : Class}
      {classes : List Class} (hparent : row.parent = none)
      (hextension : Path.extension row.uri = "class") (hfile : offered row.uri bytes)
      (hlift : liftClass bytes first = .ok cls)
      (hrest : TableRows offered (first + 1) rows classes) :
      TableRows offered first (row :: rows) (cls :: classes)
  | archive {first : Nat} {row : Artifact} {block rows : List Artifact} {container : Bytes}
      {entries : List Archive.Entry} {lifted classes : List Class} (harchive : row.IsArchive)
      (hfile : offered row.uri container) (hentries : Archive.openEntries container = .ok entries)
      (hblock : EntryRows row.uri container first (first + 1) (classEntries entries) block lifted)
      (hrest : TableRows offered (first + 1 + block.length) rows classes) :
      TableRows offered first (row :: (block ++ rows)) (lifted ++ classes)

theorem EntryRows.map_artifact {path : String} {container : Bytes} {parent first : Nat}
    {entries : List Archive.Entry} {rows : List Artifact} {classes : List Class}
    (h : EntryRows path container parent first entries rows classes) :
    classes.map (·.artifact) = (Artifact.classPositions first rows).map Int.ofNat := by
  induction h with
  | nil => rfl
  | @cons first entry entries row rows bytes cls classes huri hparent hcontent hlift hrest ih =>
      have hentry : ¬ row.IsArchive := fun harchive => by
        rw [harchive.1] at hparent
        cases hparent
      rw [List.map_cons, ih, artifact_of_liftClass hlift,
        Artifact.classPositions_cons_of_not_archive first rows hentry]
      rfl

variable {offered : String → Bytes → Prop}

namespace TableRows

variable {first : Nat} {rows others : List Artifact} {classes lifted : List Class}

theorem append (h : TableRows offered first rows classes)
    (hothers : TableRows offered (first + rows.length) others lifted) :
    TableRows offered first (rows ++ others) (classes ++ lifted) := by
  induction h with
  | nil => exact hothers
  | @classFile first row rows bytes cls classes hparent hextension hfile hlift hrest ih =>
      refine .classFile hparent hextension hfile hlift (ih ?_)
      rwa [List.length_cons, Nat.add_comm rows.length, ← Nat.add_assoc] at hothers
  | @archive first row block rows container entries inner classes harchive hfile hentries hblock
      hrest ih =>
      rw [List.cons_append, List.append_assoc, List.append_assoc]
      refine .archive harchive hfile hentries hblock (ih ?_)
      have hlength : first + (row :: (block ++ rows)).length =
          first + 1 + block.length + rows.length := by
        rw [List.length_cons, List.length_append]
        omega
      rwa [hlength] at hothers

/-- The classes stand at the rows that are no archives, in order. -/
theorem map_artifact (h : TableRows offered first rows classes) :
    classes.map (·.artifact) = (Artifact.classPositions first rows).map Int.ofNat := by
  induction h with
  | nil => rfl
  | @classFile first row rows bytes cls classes hparent hextension hfile hlift hrest ih =>
      have hclass : ¬ row.IsArchive := fun harchive => by
        rw [harchive.2] at hextension
        exact absurd hextension (by decide)
      rw [List.map_cons, ih, artifact_of_liftClass hlift,
        Artifact.classPositions_cons_of_not_archive first rows hclass]
      rfl
  | @archive first row block rows container entries inner classes harchive hfile hentries hblock
      hrest ih =>
      rw [List.map_append, hblock.map_artifact, ih,
        Artifact.classPositions_cons_of_archive first (block ++ rows) harchive,
        Artifact.classPositions_append, List.map_append]

theorem pairwise_artifact (h : TableRows offered first rows classes) :
    classes.Pairwise fun before after => before.artifact < after.artifact := by
  rw [← List.pairwise_map (f := fun cls : Class => cls.artifact) (R := (· < ·)), h.map_artifact,
    List.pairwise_map]
  exact (Artifact.pairwise_classPositions first rows).imp Int.ofNat_lt.2

/-- A row that is no archive is where exactly one class was read, and an archive is where none
was. -/
theorem countP_artifact (h : TableRows offered 0 rows classes) {position : Nat} {row : Artifact}
    (hrow : rows[position]? = some row) :
    classes.countP (fun cls => cls.artifact = (position : Int)) =
      if row.IsArchive then 0 else 1 := by
  have hcount : classes.countP (fun cls => cls.artifact = (position : Int)) =
      (Artifact.classPositions 0 rows).count position := by
    have hmap : (classes.map (·.artifact)).countP (fun index => index = (position : Int)) =
        classes.countP fun cls => cls.artifact = (position : Int) := List.countP_map
    rw [← hmap, h.map_artifact, List.countP_map, List.count_eq_countP]
    refine List.countP_congr fun index _ => ?_
    simp only [Function.comp_apply, decide_eq_true_eq, beq_iff_eq]
    exact Int.ofNat_inj
  -- no position is repeated, so a count is one or zero
  have hnodup : (Artifact.classPositions 0 rows).Nodup :=
    (Artifact.pairwise_classPositions 0 rows).imp Nat.ne_of_lt
  have hmem : position ∈ Artifact.classPositions 0 rows ↔ ¬ row.IsArchive := by
    rw [Artifact.mem_classPositions_iff, hrow]
    simp
  rw [hcount, hnodup.count]
  by_cases harchive : row.IsArchive
  · rw [if_neg (fun hin => hmem.1 hin harchive), if_pos harchive]
  · rw [if_pos (hmem.2 harchive), if_neg harchive]

theorem length_eq (h : TableRows offered first rows classes) :
    rows.length = classes.length + rows.countP fun row => row.IsArchive := by
  have hlength := congrArg List.length h.map_artifact
  rw [List.length_map, List.length_map] at hlength
  rw [hlength, Artifact.length_classPositions_add]

end TableRows

/-! ## What the steps of a scan write -/

variable {first parent : Nat} {isInput : Bool} {found : FoundFile} {scan : Scan} {path : String}
  {container : Bytes}

theorem entryRows_archiveEntries {entries : List Archive.Entry}
    (h : (archiveEntries first parent path container entries).outcome = .ok scan) :
    EntryRows path container parent first entries scan.artifacts scan.classes := by
  induction entries generalizing first scan with
  | nil =>
      cases h
      exact .nil
  | cons entry entries ih =>
      obtain ⟨head, others, hhead, hothers, rfl⟩ := outcome_archiveEntries_cons_eq_ok_iff.1 h
      obtain ⟨bytes, cls, hcontent, hlift, rfl⟩ := outcome_archiveEntry_eq_ok_iff.1 hhead
      exact .cons rfl rfl hcontent hlift (ih hothers)

theorem tableRows_classFile (h : (classFile first isInput found).outcome = .ok scan)
    (hextension : Path.extension found.path = "class")
    (hfile : ∀ content, found.content = .ok content → offered found.path content) :
    TableRows offered first scan.artifacts scan.classes := by
  obtain ⟨bytes, cls, hbytes, hlift, rfl⟩ := outcome_classFile_eq_ok_iff.1 h
  exact .classFile rfl hextension (hfile bytes hbytes) hlift .nil

theorem tableRows_archive (h : (archive first isInput found).outcome = .ok scan)
    (hextension : Path.extension found.path = "jar")
    (hfile : ∀ content, found.content = .ok content → offered found.path content) :
    TableRows offered first scan.artifacts scan.classes := by
  obtain ⟨container, entries, others, hcontainer, hentries, hothers, rfl⟩ :=
    outcome_archive_eq_ok_iff.1 h
  have hrows : TableRows offered first
      (⟨found.path, some (container.length : Int), none, isInput⟩ :: (others.artifacts ++ []))
      (others.classes ++ []) :=
    .archive ⟨rfl, hextension⟩ (hfile container hcontainer) hentries
      (entryRows_archiveEntries hothers) .nil
  rwa [List.append_nil, List.append_nil] at hrows

theorem tableRows_file (h : (file first isInput found).outcome = .ok scan)
    (hfile : ∀ content, found.content = .ok content → offered found.path content) :
    TableRows offered first scan.artifacts scan.classes := by
  unfold file at h
  split at h
  · next hextension => exact tableRows_classFile h hextension hfile
  · next hextension => exact tableRows_archive h hextension hfile
  · cases h
    exact .nil

/-- A whole scan writes such a table. -/
theorem tableRows_input {system : FileSystem} {input : String}
    (h : (Scan.input system input).outcome = .ok scan) :
    TableRows (system.Offers input) 0 scan.artifacts scan.classes := by
  unfold Scan.input at h
  split at h
  · next entries hlookup =>
    -- positions go on from the length of the table that was written before
    let good (table : List Artifact) (scan : Scan) : Prop :=
      TableRows (system.Offers input) table.length scan.artifacts scan.classes
    have hfiles : (files ([] : List Artifact).length
        ((FileNode.directory entries).walk input)).outcome = .ok scan := h
    refine files_induction good (fun _ => .nil) ?_ ?_ hfiles
    · intro table head rest hhead hrest
      have hbehind : TableRows (system.Offers input) (table.length + head.artifacts.length)
          rest.artifacts rest.classes := by
        rw [← List.length_append]
        exact hrest
      exact hhead.append hbehind
    · intro found hfound table scan hscan
      refine tableRows_file hscan fun content hcontent => ?_
      exact ⟨.directory entries, hlookup, FileNode.holds_of_mem_walk hfound hcontent⟩
  · have hgiven (content : Bytes) (hread : system.read input = .ok content) :
        system.Offers input input content := FileSystem.offers_of_read hread
    split at h
    · next hextension => exact tableRows_classFile h hextension hgiven
    · next hextension => exact tableRows_archive h hextension hgiven
    · cases h

/-! ## The mark of the input -/

theorem isInput_archiveEntries {entries : List Archive.Entry}
    (h : (archiveEntries first parent path container entries).outcome = .ok scan) :
    ∀ row ∈ scan.artifacts, row.isInput = false := by
  induction entries generalizing first scan with
  | nil =>
      cases h
      exact fun _ hrow => absurd hrow List.not_mem_nil
  | cons entry entries ih =>
      obtain ⟨head, others, hhead, hothers, rfl⟩ := outcome_archiveEntries_cons_eq_ok_iff.1 h
      obtain ⟨bytes, cls, -, -, rfl⟩ := outcome_archiveEntry_eq_ok_iff.1 hhead
      rw [artifacts_append, List.forall_mem_append]
      exact ⟨List.forall_mem_singleton.2 rfl, ih hothers⟩

/-- The first row that a file gives has the mark of the file, and no other row has one. -/
theorem isInput_classFile (h : (classFile first isInput found).outcome = .ok scan) :
    ∃ row rows, scan.artifacts = row :: rows ∧ row.isInput = isInput ∧
      ∀ other ∈ rows, other.isInput = false := by
  obtain ⟨bytes, cls, -, -, rfl⟩ := outcome_classFile_eq_ok_iff.1 h
  exact ⟨_, [], rfl, rfl, fun _ hrow => absurd hrow List.not_mem_nil⟩

theorem isInput_archive (h : (archive first isInput found).outcome = .ok scan) :
    ∃ row rows, scan.artifacts = row :: rows ∧ row.isInput = isInput ∧
      ∀ other ∈ rows, other.isInput = false := by
  obtain ⟨container, entries, others, -, -, hothers, rfl⟩ := outcome_archive_eq_ok_iff.1 h
  exact ⟨_, others.artifacts, rfl, rfl, isInput_archiveEntries hothers⟩

theorem isInput_files {founds : List FoundFile} (h : (files first founds).outcome = .ok scan) :
    ∀ row ∈ scan.artifacts, row.isInput = false := by
  -- marks do not depend on the rows written before, so any table of that length will do
  have hlength : (List.replicate first (default : Artifact)).length = first :=
    List.length_replicate
  rw [← hlength] at h
  refine files_induction (fun _ scan => ∀ row ∈ scan.artifacts, row.isInput = false) ?_ ?_ ?_ h
  · exact fun _ _ hrow => absurd hrow List.not_mem_nil
  · intro table head rest hhead hrest
    exact List.forall_mem_append.2 ⟨hhead, hrest⟩
  · intro found _ table scan hscan
    have hunmarked {row : Artifact} {rows : List Artifact} (hrows : scan.artifacts = row :: rows)
        (hrow : row.isInput = false) (hothers : ∀ other ∈ rows, other.isInput = false) :
        ∀ row ∈ scan.artifacts, row.isInput = false := by
      rw [hrows]
      exact List.forall_mem_cons.2 ⟨hrow, hothers⟩
    unfold file at hscan
    split at hscan
    · obtain ⟨row, rows, hrows, hrow, hothers⟩ := isInput_classFile hscan
      exact hunmarked hrows hrow hothers
    · obtain ⟨row, rows, hrows, hrow, hothers⟩ := isInput_archive hscan
      exact hunmarked hrows hrow hothers
    · cases hscan
      exact fun _ hrow => absurd hrow List.not_mem_nil

/-- The first row has a mark exactly if the input is a file, and no other row has one. -/
theorem isInput_input {system : FileSystem} {input : String}
    (h : (Scan.input system input).outcome = .ok scan) {position : Nat} {row : Artifact}
    (hrow : scan.artifacts[position]? = some row) :
    row.isInput = true ↔ position = 0 ∧ ∃ bytes, system.read input = .ok bytes := by
  have hfile (hcontent : ∃ bytes, system.read input = .ok bytes)
      (hmarked : ∃ head rows, scan.artifacts = head :: rows ∧ head.isInput = true ∧
        ∀ other ∈ rows, other.isInput = false) :
      row.isInput = true ↔ position = 0 ∧ ∃ bytes, system.read input = .ok bytes := by
    obtain ⟨head, rows, hrows, hhead, hothers⟩ := hmarked
    rw [hrows] at hrow
    cases position with
    | zero =>
        cases hrow
        simp [hhead, hcontent]
    | succ position =>
        have hunmarked := hothers row (List.mem_of_getElem? hrow)
        simp [hunmarked]
  unfold Scan.input at h
  split at h
  · next entries hlookup =>
    have hunmarked := isInput_files h row (List.mem_of_getElem? hrow)
    have hdirectory : ¬ ∃ bytes, system.read input = .ok bytes := by
      rintro ⟨bytes, hread⟩
      rw [FileSystem.read_eq_ok_iff, hlookup] at hread
      cases hread
    simp [hunmarked, hdirectory]
  · split at h
    · obtain ⟨bytes, cls, hbytes, -, -⟩ := outcome_classFile_eq_ok_iff.1 h
      exact hfile ⟨bytes, hbytes⟩ (isInput_classFile h)
    · obtain ⟨container, entries, others, hcontainer, -⟩ := outcome_archive_eq_ok_iff.1 h
      exact hfile ⟨container, hcontainer⟩ (isInput_archive h)
    · cases h

end Scan

/-- The table of a scan is a row of class files and of archives with their class entries right
behind them.  The classes stand in the order of the table, one at every row that is no archive
and none at an archive.  The first row is marked exactly if the input is a file. -/
theorem scan_table_structure {system : FileSystem} {path : String} {scan : Scan}
    (h : (Scan.input system path).outcome = .ok scan) :
    Scan.TableRows (system.Offers path) 0 scan.artifacts scan.classes ∧
    (scan.classes.Pairwise fun before after => before.artifact < after.artifact) ∧
    (∀ (position : Nat) (row : Artifact), scan.artifacts[position]? = some row →
      scan.classes.countP (fun cls => cls.artifact = (position : Int)) =
        if row.IsArchive then 0 else 1) ∧
    scan.artifacts.length =
      scan.classes.length + scan.artifacts.countP (fun row => row.IsArchive) ∧
    ∀ (position : Nat) (row : Artifact), scan.artifacts[position]? = some row →
      (row.isInput = true ↔ position = 0 ∧ ∃ bytes, system.read path = .ok bytes) := by
  have hrows := Scan.tableRows_input h
  refine ⟨hrows, hrows.pairwise_artifact, ?_, hrows.length_eq, ?_⟩
  · intro position row hrow
    exact hrows.countP_artifact hrow
  · intro position row hrow
    exact Scan.isInput_input h hrow

/-- No class was read at the archive itself, and one was read at its entry. -/
theorem scan_table_structure_archive :
    let system : FileSystem := ⟨.directory [("a.jar", .file spawnerArchive)], []⟩
    ∃ scan, (Scan.input system "a.jar").outcome = .ok scan ∧
      Scan.TableRows (system.Offers "a.jar") 0 scan.artifacts scan.classes ∧
      scan.classes.countP (fun cls => cls.artifact = ((0 : Nat) : Int)) = 0 ∧
      scan.classes.countP (fun cls => cls.artifact = ((1 : Nat) : Int)) = 1 := by
  intro system
  let archive : Artifact := ⟨"a.jar", some 179, none, true⟩
  let entry : Artifact := ⟨"jar:a.jar!/x.class", some 67, some 0, false⟩
  have hscan : (Scan.input system "a.jar").outcome = .ok ⟨[archive, entry], [spawner]⟩ := by
    have hread : system.read "a.jar" = .ok spawnerArchive := rfl
    show (Scan.archive 0 true ⟨"a.jar", system.read "a.jar"⟩).outcome = _
    rw [hread]
    exact outcome_archive_spawnerArchive
  obtain ⟨hrows, -, hcount, -, -⟩ := scan_table_structure hscan
  have harchive : archive.IsArchive := ⟨rfl, by decide +kernel⟩
  have hentry : ¬ entry.IsArchive := fun h => nomatch h.1
  refine ⟨_, hscan, hrows, ?_, ?_⟩
  · exact (hcount 0 archive rfl).trans (if_pos harchive)
  · exact (hcount 1 entry rfl).trans (if_neg hentry)

end CallRedirect
