import CallRedirect.Proofs.FilePaths
import CallRedirect.Scan

/-!
# The artifact table

Scanning writes the artifact table and hands every class the position that it
was read from.  Archives and directories put several artifacts into one table,
so a position is only right if every step knows how many artifacts stand before
it.

* `Artifact.Source` says where the bytes of an artifact come from.
* `Class.LiftedAt` says that a class was lifted from the bytes of the artifact at
  a position of the table.
* `Scan.input_induction` says what a scan keeps if its files keep it, and
  `Scan.archive_induction` what an archive keeps if its entries do.
* `Scan.Placed` is the invariant: a scan that goes behind a table finds its classes
  in it one behind the other.  `Scan.Placed.append` puts two scans together, and
  `Scan.placed_input` says it of a whole scan.
-/

namespace CallRedirect

/-! ## Where artifacts come from -/

theorem getElem?_append_of_eq_some {α : Type} {items : List α} {position : Nat} {item : α}
    (h : items[position]? = some item) (others : List α) :
    (items ++ others)[position]? = some item := by
  have hlt : position < items.length := (List.getElem?_eq_some_iff.1 h).1
  rw [List.getElem?_append_left hlt, h]

namespace Artifact

/-- Whether an artifact is an archive. -/
def IsArchive (artifact : Artifact) : Prop :=
  artifact.parent = none ∧ Path.extension artifact.uri = "jar"

/-- The bytes of an artifact of a table: those of a class file that there is, or those of an
entry of an archive that there is.  The archive stands in the table, too. -/
inductive Source (offered : String → Bytes → Prop) (table : List Artifact) (artifact : Artifact)
    (bytes : Bytes) : Prop
  | classFile (hparent : artifact.parent = none)
      (hextension : Path.extension artifact.uri = "class") (hfile : offered artifact.uri bytes)
  | archiveEntry {position : Nat} {archive : Artifact} {container : Bytes}
      {entries : List Archive.Entry} {entry : Archive.Entry}
      (hparent : artifact.parent = some position) (hposition : table[position]? = some archive)
      (harchive : archive.IsArchive) (hfile : offered archive.uri container)
      (hentries : Archive.openEntries container = .ok entries) (hentry : entry ∈ entries)
      (hname : Scan.isClassEntry entry.name = true)
      (huri : artifact.uri = "jar:" ++ archive.uri ++ "!/" ++ entry.name)
      (hcontent : Archive.content container entry = .ok bytes)

variable {offered : String → Bytes → Prop} {table : List Artifact} {artifact : Artifact}
  {bytes : Bytes}

theorem Source.not_isArchive (h : artifact.Source offered table bytes) :
    ¬ artifact.IsArchive := by
  rintro ⟨hnone, hjar⟩
  cases h with
  | classFile hparent hextension hfile =>
      rw [hextension] at hjar
      exact absurd hjar (by decide)
  | archiveEntry hparent =>
      rw [hparent] at hnone
      cases hnone

theorem Source.imp {offered' : String → Bytes → Prop}
    (himp : ∀ path content, offered path content → offered' path content)
    (h : artifact.Source offered table bytes) : artifact.Source offered' table bytes := by
  cases h with
  | classFile hparent hextension hfile => exact .classFile hparent hextension (himp _ _ hfile)
  | archiveEntry hparent hposition harchive hfile hentries hentry hname huri hcontent =>
      exact .archiveEntry hparent hposition harchive (himp _ _ hfile) hentries hentry hname huri
        hcontent

/-- The source of an artifact stays what it is when its table grows. -/
theorem Source.append (h : artifact.Source offered table bytes) (others : List Artifact) :
    artifact.Source offered (table ++ others) bytes := by
  cases h with
  | classFile hparent hextension hfile => exact .classFile hparent hextension hfile
  | archiveEntry hparent hposition harchive hfile hentries hentry hname huri hcontent =>
      have hfound := getElem?_append_of_eq_some hposition others
      exact .archiveEntry hparent hfound harchive hfile hentries hentry hname huri hcontent

end Artifact

/-- A class was lifted from the bytes of the artifact at a position of a table. -/
def Class.LiftedAt (offered : String → Bytes → Prop) (table : List Artifact) (position : Nat)
    (cls : Class) : Prop :=
  ∃ artifact bytes, table[position]? = some artifact ∧ artifact.Source offered table bytes ∧
    liftClass bytes position = .ok cls

theorem artifact_of_liftClass {bytes : Bytes} {artifact : Int} {cls : Class}
    (h : liftClass bytes artifact = .ok cls) : cls.artifact = artifact := by
  simp only [liftClass, bind_eq_ok_iff, pure_eq_ok_iff] at h
  obtain ⟨file, -, name, -, methods, -, rfl⟩ := h
  rfl

namespace Class.LiftedAt

variable {offered : String → Bytes → Prop} {table : List Artifact} {position : Nat} {cls : Class}

theorem artifact_eq (h : cls.LiftedAt offered table position) : cls.artifact = position := by
  obtain ⟨_, _, _, _, hlift⟩ := h
  exact artifact_of_liftClass hlift

theorem lt_length (h : cls.LiftedAt offered table position) : position < table.length := by
  obtain ⟨_, _, hposition, _, _⟩ := h
  exact (List.getElem?_eq_some_iff.1 hposition).1

theorem append (h : cls.LiftedAt offered table position) (others : List Artifact) :
    cls.LiftedAt offered (table ++ others) position := by
  obtain ⟨artifact, bytes, hposition, hsource, hlift⟩ := h
  exact ⟨artifact, bytes, getElem?_append_of_eq_some hposition others, hsource.append others, hlift⟩

end Class.LiftedAt

/-! ## What the steps of a scan give -/

theorem Archive.content_eq_ok_iff {bytes unpacked : Bytes} {entry : Archive.Entry} :
    content bytes entry = .ok unpacked ↔
      ∃ data, packedData bytes entry = .ok data ∧ unpack data = .ok unpacked ∧
        (checksum unpacked).toNat = entry.checksum := by
  simp only [content, bind_eq_ok_iff, mapError_eq_ok_iff]
  constructor
  · rintro ⟨data, hdata, found, hfound, h⟩
    split at h
    · next hchecksum =>
      rw [pure_eq_ok_iff] at h
      subst h
      exact ⟨data, hdata, hfound, hchecksum⟩
    · cases h
  · rintro ⟨data, hdata, hunpack, hchecksum⟩
    refine ⟨data, hdata, unpacked, hunpack, ?_⟩
    rw [if_pos hchecksum]
    rfl

namespace Scan

variable {first parent : Nat} {isInput : Bool} {found : FoundFile} {scan : Scan} {path : String}
  {container : Bytes} {entry : Archive.Entry}

theorem outcome_lift (bytes : Bytes) (artifact : Nat) :
    (lift bytes artifact).outcome = liftClass bytes artifact := by
  unfold lift
  simp only [Logged.outcome_bind, Logged.outcome_ofExcept, Logged.outcome_log,
    Logged.outcome_pure]
  cases liftClass bytes artifact <;> rfl

theorem outcome_classFile_eq_ok_iff :
    (classFile first isInput found).outcome = .ok scan ↔
      ∃ bytes cls, found.content = .ok bytes ∧ liftClass bytes first = .ok cls ∧
        scan = ⟨[⟨found.path, some (bytes.length : Int), none, isInput⟩], [cls]⟩ := by
  simp only [classFile, Logged.outcome_bind, Logged.outcome_ofExcept, Logged.outcome_mapError,
    Logged.outcome_pure, outcome_lift, bind_eq_ok_iff, mapError_eq_ok_iff, Except.ok.injEq]
  constructor
  · rintro ⟨bytes, hbytes, cls, hlift, rfl⟩
    exact ⟨bytes, cls, hbytes, hlift, rfl⟩
  · rintro ⟨bytes, cls, hbytes, hlift, rfl⟩
    exact ⟨bytes, hbytes, cls, hlift, rfl⟩

theorem outcome_archiveEntry_eq_ok_iff :
    (archiveEntry first parent path container entry).outcome = .ok scan ↔
      ∃ bytes cls, Archive.content container entry = .ok bytes ∧ liftClass bytes first = .ok cls ∧
        scan = ⟨[⟨"jar:" ++ path ++ "!/" ++ entry.name, some (signed64 entry.size), some parent,
          false⟩], [cls]⟩ := by
  simp only [archiveEntry, Logged.outcome_bind, Logged.outcome_ofExcept, Logged.outcome_mapError,
    Logged.outcome_pure, outcome_lift, bind_eq_ok_iff, mapError_eq_ok_iff, Except.ok.injEq]
  constructor
  · rintro ⟨bytes, hbytes, cls, hlift, rfl⟩
    exact ⟨bytes, cls, hbytes, hlift, rfl⟩
  · rintro ⟨bytes, cls, hbytes, hlift, rfl⟩
    exact ⟨bytes, hbytes, cls, hlift, rfl⟩

theorem outcome_archiveEntries_cons_eq_ok_iff {entries : List Archive.Entry} :
    (archiveEntries first parent path container (entry :: entries)).outcome = .ok scan ↔
      ∃ head others, (archiveEntry first parent path container entry).outcome = .ok head ∧
        (archiveEntries (first + head.artifacts.length) parent path container entries).outcome =
          .ok others ∧ scan = head ++ others := by
  simp only [archiveEntries, Logged.outcome_bind, Logged.outcome_pure, bind_eq_ok_iff,
    Except.ok.injEq]
  constructor
  · rintro ⟨head, hhead, others, hothers, rfl⟩
    exact ⟨head, others, hhead, hothers, rfl⟩
  · rintro ⟨head, others, hhead, hothers, rfl⟩
    exact ⟨head, hhead, others, hothers, rfl⟩

/-- The entries of an archive that are classes, in the order in which they are lifted. -/
def classEntries (entries : List Archive.Entry) : List Archive.Entry :=
  (entries.filter (fun entry => isClassEntry entry.name)).mergeSort (fun a b => a.name ≤ b.name)

theorem mem_classEntries_iff {entries : List Archive.Entry} :
    entry ∈ classEntries entries ↔ entry ∈ entries ∧ isClassEntry entry.name = true := by
  rw [classEntries, List.mem_mergeSort, List.mem_filter]

theorem outcome_archive_eq_ok_iff :
    (archive first isInput found).outcome = .ok scan ↔
      ∃ container entries others, found.content = .ok container ∧
        Archive.openEntries container = .ok entries ∧
        (archiveEntries (first + 1) first found.path container (classEntries entries)).outcome =
          .ok others ∧
        scan = ⟨[⟨found.path, some (container.length : Int), none, isInput⟩], []⟩ ++ others := by
  simp only [archive, Logged.outcome_bind, Logged.outcome_ofExcept, Logged.outcome_pure,
    bind_eq_ok_iff, mapError_eq_ok_iff, Except.ok.injEq]
  constructor
  · rintro ⟨container, hcontainer, entries, hentries, others, hothers, rfl⟩
    exact ⟨container, entries, others, hcontainer, hentries, hothers, rfl⟩
  · rintro ⟨container, entries, others, hcontainer, hentries, hothers, rfl⟩
    exact ⟨container, hcontainer, entries, hentries, others, hothers, rfl⟩

theorem outcome_files_cons_eq_ok_iff {others : List FoundFile} :
    (files first (found :: others)).outcome = .ok scan ↔
      ∃ head rest, (file first false found).outcome = .ok head ∧
        (files (first + head.artifacts.length) others).outcome = .ok rest ∧
        scan = head ++ rest := by
  simp only [files, Logged.outcome_bind, Logged.outcome_pure, bind_eq_ok_iff, Except.ok.injEq]
  constructor
  · rintro ⟨head, hhead, rest, hrest, rfl⟩
    exact ⟨head, rest, hhead, hrest, rfl⟩
  · rintro ⟨head, rest, hhead, hrest, rfl⟩
    exact ⟨head, hhead, rest, hrest, rfl⟩

@[simp] theorem artifacts_append (first second : Scan) :
    (first ++ second).artifacts = first.artifacts ++ second.artifacts := rfl

@[simp] theorem classes_append (first second : Scan) :
    (first ++ second).classes = first.classes ++ second.classes := rfl

/-! ## What a scan keeps -/

/-- The row of a file with these bytes. -/
def fileRow (isInput : Bool) (found : FoundFile) (bytes : Bytes) : Artifact :=
  ⟨found.path, some (bytes.length : Int), none, isInput⟩

section Induction

/- `good table scan` is said of a scan that goes behind a table. -/
variable (good : List Artifact → Scan → Prop) (hempty : ∀ table, good table empty)
  (happend : ∀ table head rest, good table head → good (table ++ head.artifacts) rest →
    good table (head ++ rest))

include hempty happend

/-- What each entry of an archive keeps, all of them keep. -/
theorem archiveEntries_induction {entries : List Archive.Entry} {table : List Artifact}
    (hentry : ∀ entry ∈ entries, ∀ table scan,
      (archiveEntry table.length parent path container entry).outcome = .ok scan → good table scan)
    (h : (archiveEntries table.length parent path container entries).outcome = .ok scan) :
    good table scan := by
  induction entries generalizing table scan with
  | nil =>
      cases h
      exact hempty table
  | cons entry entries ih =>
      obtain ⟨head, others, hhead, hothers, rfl⟩ := outcome_archiveEntries_cons_eq_ok_iff.1 h
      rw [← List.length_append] at hothers
      refine happend table head others (hentry entry List.mem_cons_self table head hhead) ?_
      exact ih (fun entry hmem => hentry entry (List.mem_cons_of_mem _ hmem)) hothers

/-- What each file keeps, all of them keep. -/
theorem files_induction {founds : List FoundFile} {table : List Artifact}
    (hfile : ∀ found ∈ founds, ∀ table scan,
      (file table.length false found).outcome = .ok scan → good table scan)
    (h : (files table.length founds).outcome = .ok scan) : good table scan := by
  induction founds generalizing table scan with
  | nil =>
      cases h
      exact hempty table
  | cons found founds ih =>
      obtain ⟨head, rest, hhead, hrest, rfl⟩ := outcome_files_cons_eq_ok_iff.1 h
      rw [← List.length_append] at hrest
      refine happend table head rest (hfile found List.mem_cons_self table head hhead) ?_
      exact ih (fun found hmem => hfile found (List.mem_cons_of_mem _ hmem)) hrest

/-- What the row of an archive keeps and each of its entries, the archive keeps.  While the
entries are read, the archive stays where it is. -/
theorem archive_induction {table : List Artifact}
    (hown : ∀ container, found.content = .ok container →
      good table ⟨[fileRow isInput found container], []⟩)
    (hentry : ∀ container entries, found.content = .ok container →
      Archive.openEntries container = .ok entries → ∀ entry ∈ classEntries entries,
        ∀ table' scan, table'[table.length]? = some (fileRow isInput found container) →
          (archiveEntry table'.length table.length found.path container entry).outcome = .ok scan →
            good table' scan)
    (h : (archive table.length isInput found).outcome = .ok scan) : good table scan := by
  obtain ⟨container, entries, others, hcontainer, hentries, hothers, rfl⟩ :=
    outcome_archive_eq_ok_iff.1 h
  let row : Artifact := fileRow isInput found container
  refine happend table _ others (hown container hcontainer) ?_
  have hlength : table.length + 1 = (table ++ [row]).length := by
    rw [List.length_append, List.length_singleton]
  rw [hlength] at hothers
  let behind (table' : List Artifact) (scan : Scan) : Prop :=
    table'[table.length]? = some row → good table' scan
  have hbehind : behind (table ++ [row]) others := by
    refine archiveEntries_induction behind ?_ ?_ ?_ hothers
    · exact fun table' _ => hempty table'
    · intro table' head rest hhead hrest hposition
      have hposition' := getElem?_append_of_eq_some hposition head.artifacts
      exact happend table' head rest (hhead hposition) (hrest hposition')
    · intro entry hmem table' scan hscan hposition
      exact hentry container entries hcontainer hentries entry hmem table' scan hposition hscan
  exact hbehind List.getElem?_concat_length

/-- What each file at or below an input keeps, the scan of the input keeps. -/
theorem input_induction {system : FileSystem} {input : String}
    (hfile : ∀ isInput found,
      (∀ content, found.content = .ok content → system.Offers input found.path content) →
        ∀ table scan, (file table.length isInput found).outcome = .ok scan → good table scan)
    (h : (Scan.input system input).outcome = .ok scan) : good [] scan := by
  unfold Scan.input at h
  split at h
  · next entries hlookup =>
    have hfiles : (files ([] : List Artifact).length
        ((FileNode.directory entries).walk input)).outcome = .ok scan := h
    refine files_induction good hempty happend (fun found hfound => ?_) hfiles
    refine hfile false found fun content hcontent => ?_
    exact ⟨.directory entries, hlookup, FileNode.holds_of_mem_walk hfound hcontent⟩
  · let given : FoundFile := ⟨input, system.read input⟩
    have hgiven (content : Bytes) (hread : given.content = .ok content) :
        system.Offers input given.path content :=
      FileSystem.offers_of_read hread
    refine hfile true given hgiven [] scan ?_
    unfold file
    split at h
    · next hextension =>
      rw [show Path.extension given.path = "class" from hextension]
      exact h
    · next hextension =>
      rw [show Path.extension given.path = "jar" from hextension]
      exact h
    · cases h

end Induction

/-- A scan goes behind a table: each of its classes was lifted from the artifact at its
position, which stands behind the table, and the positions grow from class to class. -/
structure Placed (offered : String → Bytes → Prop) (table : List Artifact) (scan : Scan) :
    Prop where
  located : ∀ cls ∈ scan.classes, ∃ position, table.length ≤ position ∧
    cls.LiftedAt offered (table ++ scan.artifacts) position
  ordered : scan.classes.Pairwise fun first second => first.artifact < second.artifact

variable {offered : String → Bytes → Prop} {table : List Artifact}

namespace Placed

theorem of_classes_eq_nil (h : scan.classes = []) : scan.Placed offered table where
  located := by simp [h]
  ordered := by simp [h]

/-- One class, lifted from the only artifact. -/
theorem of_single {artifact : Artifact} {bytes : Bytes} {cls : Class}
    (hsource : artifact.Source offered (table ++ [artifact]) bytes)
    (hlift : liftClass bytes table.length = .ok cls) :
    Placed offered table ⟨[artifact], [cls]⟩ where
  located := by
    intro other hother
    rw [List.mem_singleton.1 hother]
    refine ⟨table.length, Nat.le_refl _, artifact, bytes, ?_, hsource, hlift⟩
    exact List.getElem?_concat_length
  ordered := List.pairwise_singleton _ cls

theorem append {head rest : Scan} (hhead : head.Placed offered table)
    (hrest : rest.Placed offered (table ++ head.artifacts)) :
    (head ++ rest).Placed offered table where
  located := by
    intro cls hcls
    rw [artifacts_append, ← List.append_assoc]
    rcases List.mem_append.1 hcls with hfirst | hsecond
    · obtain ⟨position, hbehind, hlifted⟩ := hhead.located cls hfirst
      exact ⟨position, hbehind, hlifted.append rest.artifacts⟩
    · obtain ⟨position, hbehind, hlifted⟩ := hrest.located cls hsecond
      rw [List.length_append] at hbehind
      exact ⟨position, by omega, hlifted⟩
  ordered := by
    rw [classes_append, List.pairwise_append]
    refine ⟨hhead.ordered, hrest.ordered, ?_⟩
    -- the first scan ends where the second one begins
    intro first hfirst second hsecond
    obtain ⟨before, -, hbefore⟩ := hhead.located first hfirst
    obtain ⟨behind, hbehind, hlifted⟩ := hrest.located second hsecond
    have hlt : before < behind := Nat.lt_of_lt_of_le hbefore.lt_length hbehind
    rw [hbefore.artifact_eq, hlifted.artifact_eq]
    exact_mod_cast hlt

end Placed

theorem placed_classFile (h : (classFile table.length isInput found).outcome = .ok scan)
    (hextension : Path.extension found.path = "class")
    (hfile : ∀ content, found.content = .ok content → offered found.path content) :
    scan.Placed offered table := by
  obtain ⟨bytes, cls, hbytes, hlift, rfl⟩ := outcome_classFile_eq_ok_iff.1 h
  exact .of_single (.classFile rfl hextension (hfile bytes hbytes)) hlift

theorem placed_archive (h : (archive table.length isInput found).outcome = .ok scan)
    (hextension : Path.extension found.path = "jar")
    (hfile : ∀ content, found.content = .ok content → offered found.path content) :
    scan.Placed offered table := by
  refine archive_induction (Placed offered) ?_ ?_ ?_ ?_ h
  · exact fun _ => .of_classes_eq_nil rfl
  · exact fun _ _ _ => .append
  · exact fun _ _ => .of_classes_eq_nil rfl
  · intro container entries hcontainer hentries entry hentry table' scan hposition hscan
    obtain ⟨hmem, hname⟩ := mem_classEntries_iff.1 hentry
    obtain ⟨bytes, cls, hbytes, hlift, rfl⟩ := outcome_archiveEntry_eq_ok_iff.1 hscan
    have hposition' := getElem?_append_of_eq_some hposition
    refine .of_single (.archiveEntry rfl (hposition' _) ⟨rfl, hextension⟩
      (hfile container hcontainer) hentries hmem hname rfl hbytes) hlift

theorem placed_file (h : (file table.length isInput found).outcome = .ok scan)
    (hfile : ∀ content, found.content = .ok content → offered found.path content) :
    scan.Placed offered table := by
  unfold file at h
  split at h
  · next hextension => exact placed_classFile h hextension hfile
  · next hextension => exact placed_archive h hextension hfile
  · cases h
    exact .of_classes_eq_nil rfl

/-- A scan of an input finds its classes in its artifact table. -/
theorem placed_input {system : FileSystem} {input : String}
    (h : (Scan.input system input).outcome = .ok scan) :
    scan.Placed (system.Offers input) [] := by
  refine input_induction (Placed (system.Offers input)) ?_ ?_ ?_ h
  · exact fun _ => .of_classes_eq_nil rfl
  · exact fun _ _ _ => .append
  · exact fun isInput found hfound table scan hscan => placed_file hscan hfound

end Scan

end CallRedirect
