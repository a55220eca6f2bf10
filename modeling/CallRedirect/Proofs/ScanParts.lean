import CallRedirect.Proofs.ArtifactTable

/-!
# A scan and its parts

What a file gives to a scan does not depend on what was scanned before it, but for the
positions in the artifact table: a file that is scanned behind `count` artifacts gives
the same with all positions moved by `count` (`Scan.outcome_file_add`).

So files are scanned as if each were the only one, and the scans are put one behind the
other (`Scan.outcome_files`).  The first file that fails is the one whose error ends the
whole scan.
-/

namespace CallRedirect

/-- A class with its position in the artifact table moved. -/
def Class.moveBy (count : Nat) (cls : Class) : Class :=
  { cls with artifact := cls.artifact + count }

/-- An artifact in a table that was moved as a whole. -/
def Artifact.moveBy (count : Nat) (artifact : Artifact) : Artifact :=
  { artifact with parent := artifact.parent.map (· + count) }

namespace Scan

/-- A scan with all positions moved. -/
def moveBy (count : Nat) (scan : Scan) : Scan :=
  ⟨scan.artifacts.map (·.moveBy count), scan.classes.map (·.moveBy count)⟩

/-- Scans put one behind the other, each with its positions moved behind the artifacts of
those before it. -/
def concat : List Scan → Scan
  | [] => empty
  | scan :: scans => scan ++ (concat scans).moveBy scan.artifacts.length

@[simp] theorem length_artifacts_moveBy (count : Nat) (scan : Scan) :
    (scan.moveBy count).artifacts.length = scan.artifacts.length :=
  List.length_map _

theorem moveBy_append (count : Nat) (head rest : Scan) :
    (head ++ rest).moveBy count = head.moveBy count ++ rest.moveBy count := by
  show moveBy count ⟨head.artifacts ++ rest.artifacts, head.classes ++ rest.classes⟩ = _
  rw [moveBy, List.map_append, List.map_append]
  rfl

theorem moveBy_moveBy (first second : Nat) (scan : Scan) :
    (scan.moveBy first).moveBy second = scan.moveBy (first + second) := by
  have hartifact (artifact : Artifact) :
      (artifact.moveBy first).moveBy second = artifact.moveBy (first + second) := by
    cases artifact with
    | mk uri length parent isInput => cases parent <;> simp [Artifact.moveBy, Nat.add_assoc]
  have hclass (cls : Class) :
      (cls.moveBy first).moveBy second = cls.moveBy (first + second) := by
    simp [Class.moveBy, Int.add_assoc]
  simp only [moveBy, List.map_map, Function.comp_def, hartifact, hclass]

theorem moveBy_zero (scan : Scan) : scan.moveBy 0 = scan := by
  have hartifact (artifact : Artifact) : artifact.moveBy 0 = artifact := by
    cases artifact with
    | mk uri length parent isInput => cases parent <;> rfl
  have hclass (cls : Class) : cls.moveBy 0 = cls := by
    simp [Class.moveBy]
  simp only [moveBy, hartifact, hclass, List.map_id']

/-! ## Scanning behind other artifacts -/

theorem liftClass_add (bytes : Bytes) (first count : Nat) :
    liftClass bytes ((first + count : Nat) : Int) =
      (liftClass bytes first).map (·.moveBy count) := by
  unfold liftClass
  cases (ClassFile.parse bytes).mapError LiftError.format with
  | error cause => rfl
  | ok file =>
      simp only [ok_bind]
      cases (file.pool.className file.thisClass).mapError LiftError.resolve with
      | error cause => rfl
      | ok name =>
          simp only [ok_bind]
          cases file.methods.mapM (liftMethod file.pool name) with
          | error cause => rfl
          | ok methods => simp [Except.map, Class.moveBy, pure, Except.pure]

variable {first parent count : Nat} {isInput : Bool} {found : FoundFile} {path : String}
  {container : Bytes}

theorem outcome_classFile_add :
    (classFile (first + count) isInput found).outcome =
      (classFile first isInput found).outcome.map (moveBy count) := by
  simp only [classFile, Logged.outcome_bind, Logged.outcome_ofExcept, Logged.outcome_mapError,
    Logged.outcome_pure, outcome_lift]
  cases found.content with
  | error cause => rfl
  | ok bytes =>
      simp only [mapError_ok, ok_bind, liftClass_add]
      cases liftClass bytes first <;> rfl

theorem outcome_archiveEntry_add {entry : Archive.Entry} :
    (archiveEntry (first + count) (parent + count) path container entry).outcome =
      (archiveEntry first parent path container entry).outcome.map (moveBy count) := by
  simp only [archiveEntry, Logged.outcome_bind, Logged.outcome_ofExcept, Logged.outcome_mapError,
    Logged.outcome_pure, outcome_lift]
  cases Archive.content container entry with
  | error cause => rfl
  | ok bytes =>
      simp only [mapError_ok, ok_bind, liftClass_add]
      cases liftClass bytes first <;> rfl

theorem outcome_archiveEntries_add {entries : List Archive.Entry} :
    (archiveEntries (first + count) (parent + count) path container entries).outcome =
      (archiveEntries first parent path container entries).outcome.map (moveBy count) := by
  induction entries generalizing first with
  | nil => rfl
  | cons entry entries ih =>
      simp only [archiveEntries, Logged.outcome_bind, Logged.outcome_pure,
        outcome_archiveEntry_add]
      cases (archiveEntry first parent path container entry).outcome with
      | error cause => rfl
      | ok head =>
          simp only [Except.map, ok_bind, length_artifacts_moveBy]
          rw [Nat.add_right_comm, ih]
          cases (archiveEntries (first + head.artifacts.length) parent path container
              entries).outcome with
          | error cause => rfl
          | ok others => simp [Except.map, moveBy_append]

/-- The part of a scan that an archive gives itself. -/
def ownPart (isInput : Bool) (path : String) (container : Bytes) : Scan :=
  ⟨[⟨path, some (container.length : Int), none, isInput⟩], []⟩

/-- An archive that is read is scanned entry by entry. -/
theorem outcome_archive_of_openEntries (hcontent : found.content = .ok container)
    {entries : List Archive.Entry} (hentries : Archive.openEntries container = .ok entries) :
    (archive first isInput found).outcome =
      (archiveEntries (first + 1) first found.path container (classEntries entries)).outcome.map
        (ownPart isInput found.path container ++ ·) := by
  simp only [archive, hcontent, hentries, Logged.outcome_bind, Logged.outcome_ofExcept,
    Logged.outcome_pure, mapError_ok, ok_bind]
  show (archiveEntries (first + 1) first found.path container
    (classEntries entries)).outcome >>= _ = _
  cases (archiveEntries (first + 1) first found.path container (classEntries entries)).outcome <;>
    rfl

theorem outcome_archive_add :
    (archive (first + count) isInput found).outcome =
      (archive first isInput found).outcome.map (moveBy count) := by
  cases hcontent : found.content with
  | error cause => simp [archive, hcontent, Except.map]
  | ok container =>
      cases hentries : Archive.openEntries container with
      | error cause => simp [archive, hcontent, hentries, Except.map]
      | ok entries =>
          rw [outcome_archive_of_openEntries hcontent hentries,
            outcome_archive_of_openEntries hcontent hentries, Nat.add_right_comm,
            outcome_archiveEntries_add]
          cases (archiveEntries (first + 1) first found.path container
              (classEntries entries)).outcome with
          | error cause => rfl
          | ok others =>
              simp only [Except.map, moveBy_append]
              rfl

/-- A file that is scanned behind more artifacts gives the same at other positions. -/
theorem outcome_file_add :
    (file (first + count) isInput found).outcome =
      (file first isInput found).outcome.map (moveBy count) := by
  unfold file
  split
  · exact outcome_classFile_add
  · exact outcome_archive_add
  · rfl

/-- Files are scanned one by one, and their scans are put one behind the other. -/
theorem outcome_files (first : Nat) (founds : List FoundFile) :
    (files first founds).outcome =
      (founds.mapM fun found => (file 0 false found).outcome).map
        fun scans => (concat scans).moveBy first := by
  induction founds generalizing first with
  | nil => rfl
  | cons found founds ih =>
      have hfile : (file first false found).outcome =
          (file 0 false found).outcome.map (moveBy first) := by
        rw [← outcome_file_add, Nat.zero_add]
      simp only [files, Logged.outcome_bind, Logged.outcome_pure, hfile, List.mapM_cons, ih]
      cases (file 0 false found).outcome with
      | error cause => rfl
      | ok head =>
          simp only [Except.map, ok_bind, length_artifacts_moveBy]
          cases founds.mapM fun found => (file 0 false found).outcome with
          | error cause => rfl
          | ok scans =>
              -- the rest is moved behind `head` and with it behind `first`
              simp [concat, moveBy_append, moveBy_moveBy, pure, Except.pure, Nat.add_comm]

end Scan

end CallRedirect
