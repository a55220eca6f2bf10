import CallRedirect.Proofs.ResultPlaces
import CallRedirect.Proofs.StoredArchive

/-!
# The lengths in the artifact table

The artifact table tells a length for every artifact.  That of a file is the number of bytes
that were read.  That of an entry of an archive is the size that the directory declares for the
entry.  Reading the entry goes by its size as stored and by its check sum, and looks at no other
size, so an entry need NOT have as many bytes as are told.

* `Archive.sizeFits_of_openEntries`: declared sizes are words of 64 bits, because the numbers of
  a directory have at most eight bytes (`Archive.Record.Yields`).
* `Artifact.Measured` ties the length of an artifact to its bytes.
* `Scan.Measures` is the invariant: every artifact of a scan that goes behind a table is
  measured, and unless it is an archive, a class of the scan was lifted from its bytes.
  `Scan.Measures.append` puts two scans together, and `Scan.measures_input` says it of a whole
  scan.
* `scan_lengths_told`: the length of an entry is the number of its bytes if and only if the
  directory declares just that number.
-/

namespace CallRedirect

namespace Archive

/-! ## Sizes that directories declare -/

namespace Record

variable {α β : Type} {step : Record α} {next : α → Record β} {good : α → Prop}
  {fine : β → Prop} {value : α}

/-- Every value that a step gives is good. -/
def Yields (step : Record α) (good : α → Prop) : Prop :=
  ∀ bytes value rest, step bytes = some (value, rest) → good value

theorem yields_pure (h : good value) : Yields (pure value) good := by
  intro bytes found rest hread
  cases hread
  exact h

theorem yields_lift {found : Option α} (h : ∀ value, found = some value → good value) :
    Yields (liftM found : Record α) good := by
  intro bytes value rest hread
  cases found with
  | none => cases hread
  | some held =>
      cases hread
      exact h value rfl

theorem Yields.bind (h : Yields step good)
    (hnext : ∀ value, good value → Yields (next value) fine) : Yields (step >>= next) fine := by
  intro bytes result rest hread
  obtain ⟨⟨value, left⟩, hstep, hleft⟩ := Option.bind_eq_some_iff.1 hread
  exact hnext value (h bytes value left hstep) left result rest hleft

/-- Nothing has to be known about the value of the first step. -/
theorem Yields.behind (step : Record α) (hnext : ∀ value, Yields (next value) fine) :
    Yields (step >>= next) fine :=
  have hany : Yields step fun _ => True := fun _ _ _ _ => trivial
  hany.bind fun value _ => hnext value

theorem yields_number (width : Nat) : Yields (number width) (· < 256 ^ width) := by
  have hchunk : Yields (chunk width) (·.length = width) := by
    intro bytes part rest hread
    obtain ⟨found, hslice, heq⟩ := Option.map_eq_some_iff.1 hread
    cases heq
    exact length_of_slice? hslice
  refine hchunk.bind fun part hlength => yields_pure ?_
  rw [← hlength]
  exact littleEndian_lt part

theorem Yields.of_at? {bytes : Bytes} {place : Nat} (h : Yields step good)
    (hread : step.at? bytes place = some value) : good value := by
  obtain ⟨⟨found, rest⟩, hfound, rfl⟩ := Option.map_eq_some_iff.1 hread
  exact h _ _ _ hfound

end Record

/-- The size that an entry declares is a word of 64 bits. -/
def Entry.SizeFits (entry : Entry) : Prop := entry.size < 0x10000000000000000

open Record

namespace ExtraField

variable {content : Bytes} {entry entry' : Entry}

theorem sizeFits_widen (hfits : entry.SizeFits) (h : widen content entry = some entry') :
    entry'.SizeFits := by
  have hsize : Yields (wideNumber content.length entry.size) (· < 0x10000000000000000) := by
    unfold wideNumber
    split
    · exact yields_number 8
    · exact yields_pure hfits
  refine Yields.of_at? ?_ h
  refine hsize.bind fun size hword => .behind _ fun storedSize => .behind _ fun header => ?_
  exact yields_pure hword

theorem sizeFits_applySealing (hfits : entry.SizeFits)
    (h : applySealing content entry = some entry') : entry'.SizeFits := by
  unfold applySealing at h
  split at h
  · refine Yields.of_at? ?_ h
    refine .behind _ fun version => .behind _ fun vendor => .behind _ fun strength => ?_
    refine .behind _ fun method => ?_
    have hsealed : Yields (pure { entry with method, isSealed := true }) Entry.SizeFits :=
      yields_pure hfits
    dsimp only
    split
    · exact .behind _ fun _ => hsealed
    · exact hsealed
  · cases h

theorem sizeFits_applyComment (hfits : entry.SizeFits)
    (h : applyComment content entry = some entry') : entry'.SizeFits := by
  obtain ⟨bytes, -, hbytes⟩ := Option.bind_eq_some_iff.1 h
  obtain ⟨comment, -, hcomment⟩ := Option.bind_eq_some_iff.1 hbytes
  cases hcomment
  exact hfits

theorem sizeFits_applyName (hfits : entry.SizeFits)
    (h : applyName content entry = some entry') : entry'.SizeFits := by
  obtain ⟨storedName, -, hstored⟩ := Option.bind_eq_some_iff.1 h
  obtain ⟨name, -, hname⟩ := Option.bind_eq_some_iff.1 hstored
  cases hname
  exact hfits

/-- Only wide numbers change a size, and they have eight bytes. -/
theorem sizeFits_apply {field : ExtraField} (hfits : entry.SizeFits)
    (h : field.apply entry = some entry') : entry'.SizeFits := by
  unfold apply at h
  split at h
  · exact sizeFits_widen hfits h
  · split at h <;> cases h
    exact hfits
  · split at h <;> cases h
    exact hfits
  · exact sizeFits_applyComment hfits h
  · exact sizeFits_applyName hfits h
  · exact sizeFits_applySealing hfits h
  · cases h
    exact hfits

theorem sizeFits_applyAll (hfits : entry.SizeFits) (h : applyAll content entry = some entry') :
    entry'.SizeFits := by
  obtain ⟨fields, -, hfold⟩ := Option.bind_eq_some_iff.1 h
  clear h
  induction fields generalizing entry with
  | nil =>
      cases hfold
      exact hfits
  | cons field fields ih =>
      obtain ⟨changed, hchanged, hrest⟩ := Option.bind_eq_some_iff.1 hfold
      exact ih (sizeFits_apply hfits hchanged) hrest

end ExtraField

theorem yields_header (shift : Nat) : Yields (Entry.read shift) Entry.SizeFits := by
  unfold Entry.read
  refine .behind _ fun _ => .behind _ fun _ => .behind _ fun flags => .behind _ fun method => ?_
  refine .behind _ fun _ => .behind _ fun checksum => .behind _ fun storedSize => ?_
  refine (yields_number 4).bind fun size hsize => ?_
  refine .behind _ fun nameLength => .behind _ fun extraLength => .behind _ fun _ => ?_
  refine .behind _ fun _ => .behind _ fun header => .behind _ fun storedName => ?_
  refine .behind _ fun extra => .behind _ fun comment => ?_
  have hword : size < 0x10000000000000000 := Nat.lt_trans hsize (by decide)
  refine Yields.bind (yields_lift fun entry h => ExtraField.sizeFits_applyAll ?_ h)
    fun entry hentry => ?_
  · exact hword
  have hmoved : Yields (liftM (Entry.move? shift entry) : Record Entry) Entry.SizeFits := by
    refine yields_lift fun moved h => ?_
    unfold Entry.move? at h
    split at h <;> cases h
    exact hentry
  dsimp only
  split
  · exact .behind _ fun _ => hmoved
  · exact hmoved

theorem yields_headers (shift count : Nat) :
    Yields (readHeaders shift count) (∀ entry ∈ ·, entry.SizeFits) := by
  induction count with
  | zero => exact yields_pure (by simp)
  | succ count ih =>
      refine (yields_header shift).bind fun entry hentry => ih.bind fun others hothers => ?_
      exact yields_pure (List.forall_mem_cons.2 ⟨hentry, hothers⟩)

/-- What is said of all known entries and of one more is said after it was put in. -/
theorem forall_mem_replaceEntry {good : Entry → Prop} {entry : Entry} {known : List Entry}
    (hentry : good entry) (hknown : ∀ other ∈ known, good other) :
    ∀ other ∈ replaceEntry entry known, good other := by
  induction known with
  | nil => exact List.forall_mem_singleton.2 hentry
  | cons head known ih =>
      obtain ⟨hhead, htail⟩ := List.forall_mem_cons.1 hknown
      rw [replaceEntry]
      split
      · exact List.forall_mem_cons.2 ⟨hentry, htail⟩
      · exact List.forall_mem_cons.2 ⟨hhead, ih htail⟩

theorem forall_mem_foldl_replaceEntry {good : Entry → Prop} {listed known : List Entry}
    (hlisted : ∀ entry ∈ listed, good entry) (hknown : ∀ entry ∈ known, good entry) :
    ∀ entry ∈ listed.foldl (fun known entry => replaceEntry entry known) known, good entry := by
  induction listed generalizing known with
  | nil => exact hknown
  | cons entry listed ih =>
      obtain ⟨hentry, hothers⟩ := List.forall_mem_cons.1 hlisted
      exact ih hothers (forall_mem_replaceEntry hentry hknown)

/-- The sizes that an archive declares for its entries are words of 64 bits. -/
theorem sizeFits_of_openEntries {container : Bytes} {entries : List Entry} {entry : Entry}
    (h : openEntries container = .ok entries) (hentry : entry ∈ entries) : entry.SizeFits := by
  obtain ⟨found, hfound, hopened⟩ := bind_eq_ok_iff.1 h
  obtain ⟨-, -, hsame⟩ := bind_eq_ok_iff.1 hopened
  cases hsame
  unfold readEntries at hfound
  split at hfound
  · next listed hlisted =>
    cases hfound
    obtain ⟨place, -, hplace⟩ := List.exists_of_findSome?_eq_some hlisted
    obtain ⟨directory, -, hheaders⟩ := Option.bind_eq_some_iff.1 hplace
    have hlistedFit := (yields_headers directory.shift directory.count).of_at? hheaders
    exact forall_mem_foldl_replaceEntry hlistedFit (by simp) entry hentry
  · cases hfound

end Archive

/-- A word of 64 bits is shown with a sign.  It shows as a number of bytes that there can be if
and only if it is that number. -/
theorem signed64_eq_natCast_iff {word length : Nat} (hword : word < 0x10000000000000000)
    (hlength : length < 0x8000000000000000) : signed64 word = (length : Int) ↔ word = length := by
  unfold signed64
  split <;> omega

/-! ## The length of an artifact -/

namespace Artifact

variable {offered : String → Bytes → Prop} {table : List Artifact} {artifact : Artifact}
  {entry : Archive.Entry} {bytes : Bytes}

/-- An artifact is an entry of an archive that there is, and these are the bytes that the entry
unpacks to.  The archive stands in the table, too. -/
inductive Unpacked (offered : String → Bytes → Prop) (table : List Artifact) (artifact : Artifact)
    (entry : Archive.Entry) (bytes : Bytes) : Prop
  | intro {position : Nat} {archive : Artifact} {container : Bytes} {entries : List Archive.Entry}
      (hparent : artifact.parent = some position) (hposition : table[position]? = some archive)
      (harchive : archive.IsArchive) (hfile : offered archive.uri container)
      (hentries : Archive.openEntries container = .ok entries) (hentry : entry ∈ entries)
      (hname : Scan.isClassEntry entry.name = true)
      (huri : artifact.uri = "jar:" ++ archive.uri ++ "!/" ++ entry.name)
      (hcontent : Archive.content container entry = .ok bytes)

theorem Unpacked.source (h : artifact.Unpacked offered table entry bytes) :
    artifact.Source offered table bytes := by
  obtain ⟨hparent, hposition, harchive, hfile, hentries, hentry, hname, huri, hcontent⟩ := h
  exact .archiveEntry hparent hposition harchive hfile hentries hentry hname huri hcontent

theorem Unpacked.sizeFits (h : artifact.Unpacked offered table entry bytes) : entry.SizeFits := by
  obtain ⟨-, -, -, -, hentries, hentry, -, -, -⟩ := h
  exact Archive.sizeFits_of_openEntries hentries hentry

theorem Unpacked.append (h : artifact.Unpacked offered table entry bytes)
    (others : List Artifact) : artifact.Unpacked offered (table ++ others) entry bytes := by
  obtain ⟨hparent, hposition, harchive, hfile, hentries, hentry, hname, huri, hcontent⟩ := h
  have hfound := getElem?_append_of_eq_some hposition others
  exact ⟨hparent, hfound, harchive, hfile, hentries, hentry, hname, huri, hcontent⟩

/-- The bytes of an artifact and its length.  A file has as many bytes as are told; for an entry
of an archive the size is told that the directory declares. -/
inductive Measured (offered : String → Bytes → Prop) (table : List Artifact) (artifact : Artifact)
    (bytes : Bytes) : Prop
  | file (hparent : artifact.parent = none) (hfile : offered artifact.uri bytes)
      (hlength : artifact.length = some (bytes.length : Int))
  | entry {entry : Archive.Entry} (hunpacked : artifact.Unpacked offered table entry bytes)
      (hlength : artifact.length = some (signed64 entry.size))

theorem Measured.append (h : artifact.Measured offered table bytes) (others : List Artifact) :
    artifact.Measured offered (table ++ others) bytes := by
  cases h with
  | file hparent hfile hlength => exact .file hparent hfile hlength
  | entry hunpacked hlength => exact .entry (hunpacked.append others) hlength

end Artifact

namespace Scan

variable {offered : String → Bytes → Prop} {table : List Artifact} {isInput : Bool}
  {found : FoundFile} {scan : Scan}

/-- A scan goes behind a table: each of its artifacts is measured, and if it is no archive, a
class of the scan was lifted from its bytes. -/
def Measures (offered : String → Bytes → Prop) (table : List Artifact) (scan : Scan) : Prop :=
  ∀ place artifact, scan.artifacts[place]? = some artifact →
    ∃ bytes, artifact.Measured offered (table ++ scan.artifacts) bytes ∧
      (artifact.IsArchive ∨
        ∃ cls ∈ scan.classes, liftClass bytes (table.length + place : Nat) = .ok cls)

namespace Measures

theorem empty : Scan.empty.Measures offered table := by
  intro place artifact hartifact
  cases hartifact

/-- One artifact that stands behind the table. -/
theorem of_single {artifact : Artifact} {classes : List Class} {bytes : Bytes}
    (hmeasured : artifact.Measured offered (table ++ [artifact]) bytes)
    (hclass : artifact.IsArchive ∨ ∃ cls ∈ classes, liftClass bytes table.length = .ok cls) :
    Measures offered table ⟨[artifact], classes⟩ := by
  intro place other hother
  rw [List.getElem?_singleton] at hother
  split at hother
  · next hplace =>
    cases hplace
    cases hother
    exact ⟨bytes, hmeasured, hclass⟩
  · cases hother

theorem append {head rest : Scan} (hhead : head.Measures offered table)
    (hrest : rest.Measures offered (table ++ head.artifacts)) :
    (head ++ rest).Measures offered table := by
  intro place artifact hartifact
  rw [artifacts_append] at hartifact
  rw [artifacts_append, classes_append]
  by_cases hplace : place < head.artifacts.length
  · rw [List.getElem?_append_left hplace] at hartifact
    obtain ⟨bytes, hmeasured, hclass⟩ := hhead place artifact hartifact
    refine ⟨bytes, ?_, hclass.imp_right fun ⟨cls, hcls, hlift⟩ => ?_⟩
    · rw [← List.append_assoc]
      exact hmeasured.append rest.artifacts
    · exact ⟨cls, List.mem_append_left _ hcls, hlift⟩
  · rw [List.getElem?_append_right (Nat.le_of_not_lt hplace)] at hartifact
    obtain ⟨bytes, hmeasured, hclass⟩ := hrest _ artifact hartifact
    have hsame : (table ++ head.artifacts).length + (place - head.artifacts.length) =
        table.length + place := by
      rw [List.length_append]
      omega
    rw [hsame] at hclass
    refine ⟨bytes, ?_, hclass.imp_right fun ⟨cls, hcls, hlift⟩ => ?_⟩
    · rw [← List.append_assoc]
      exact hmeasured
    · exact ⟨cls, List.mem_append_right _ hcls, hlift⟩

end Measures

theorem measures_classFile (h : (classFile table.length isInput found).outcome = .ok scan)
    (hfile : ∀ content, found.content = .ok content → offered found.path content) :
    scan.Measures offered table := by
  obtain ⟨bytes, cls, hbytes, hlift, rfl⟩ := outcome_classFile_eq_ok_iff.1 h
  refine .of_single (.file rfl (hfile bytes hbytes) rfl) (.inr ⟨cls, ?_, hlift⟩)
  exact List.mem_singleton_self cls

theorem measures_archive (h : (archive table.length isInput found).outcome = .ok scan)
    (hextension : Path.extension found.path = "jar")
    (hfile : ∀ content, found.content = .ok content → offered found.path content) :
    scan.Measures offered table := by
  have harchive (container : Bytes) : (fileRow isInput found container).IsArchive :=
    ⟨rfl, hextension⟩
  refine archive_induction (Measures offered) (fun _ => .empty) (fun _ _ _ => .append) ?_ ?_ h
  · intro container hcontainer
    exact .of_single (.file rfl (hfile container hcontainer) rfl) (.inl (harchive container))
  · intro container entries hcontainer hentries entry hentry table' scan hposition hscan
    obtain ⟨hmem, hname⟩ := mem_classEntries_iff.1 hentry
    obtain ⟨bytes, cls, hbytes, hlift, rfl⟩ := outcome_archiveEntry_eq_ok_iff.1 hscan
    have hposition' := getElem?_append_of_eq_some hposition
    refine .of_single (.entry ⟨rfl, hposition' _, harchive container, hfile container hcontainer,
      hentries, hmem, hname, rfl, hbytes⟩ rfl) (.inr ⟨cls, List.mem_singleton_self _, hlift⟩)

theorem measures_file (h : (file table.length isInput found).outcome = .ok scan)
    (hfile : ∀ content, found.content = .ok content → offered found.path content) :
    scan.Measures offered table := by
  unfold file at h
  split at h
  · exact measures_classFile h hfile
  · next hextension => exact measures_archive h hextension hfile
  · cases h
    exact .empty

/-- A scan of an input measures its artifacts. -/
theorem measures_input {system : FileSystem} {input : String}
    (h : (Scan.input system input).outcome = .ok scan) :
    scan.Measures (system.Offers input) [] := by
  refine input_induction (Measures (system.Offers input)) ?_ ?_ ?_ h
  · exact fun _ => .empty
  · exact fun _ _ _ => .append
  · exact fun isInput found hfound table scan hscan => measures_file hscan hfound

end Scan

/-- Every artifact of a scan that succeeds has the bytes of a file or those that an entry of an
archive unpacks to, and unless it is an archive, a class of the scan was lifted from them.  The
length of a file is the number of its bytes.  The length of an entry is the size that was declared
for it, which is the number of its bytes if and only if that number was declared. -/
theorem scan_lengths_told {system : FileSystem} {input : String} {scan : Scan}
    {position : Nat} {artifact : Artifact} (h : (Scan.input system input).outcome = .ok scan)
    (hartifact : scan.artifacts[position]? = some artifact) :
    ∃ bytes,
      (artifact.IsArchive ∨ ∃ cls ∈ scan.classes, liftClass bytes position = .ok cls) ∧
      ((artifact.parent = none ∧ system.Offers input artifact.uri bytes ∧
          artifact.length = some (bytes.length : Int)) ∨
        ∃ entry, artifact.Unpacked (system.Offers input) scan.artifacts entry bytes ∧
          artifact.length = some (signed64 entry.size) ∧
          (bytes.length < 0x8000000000000000 →
            (artifact.length = some (bytes.length : Int) ↔ entry.size = bytes.length))) := by
  obtain ⟨bytes, hmeasured, hclass⟩ := Scan.measures_input h position artifact hartifact
  rw [List.length_nil, Nat.zero_add] at hclass
  rw [List.nil_append] at hmeasured
  refine ⟨bytes, hclass, ?_⟩
  cases hmeasured with
  | file hparent hfile hlength => exact .inl ⟨hparent, hfile, hlength⟩
  | entry hunpacked hlength =>
      refine .inr ⟨_, hunpacked, hlength, fun hroom => ?_⟩
      rw [hlength, Option.some.injEq]
      exact signed64_eq_natCast_iff hunpacked.sizeFits hroom

/-! ## Archives with one entry -/

/-- Where an archive has one entry, the bytes of an artifact from it are those that this entry
unpacks to. -/
theorem Artifact.Source.content_eq {system : FileSystem} {input : String} {table : List Artifact}
    {artifact archive : Artifact} {position : Nat} {container bytes : Bytes}
    {entry : Archive.Entry} (hproper : system.root.Proper)
    (h : artifact.Source (system.Offers input) table bytes)
    (hparent : artifact.parent = some position) (hposition : table[position]? = some archive)
    (hread : system.read archive.uri = .ok container)
    (hentries : Archive.openEntries container = .ok [entry]) :
    Archive.content container entry = .ok bytes := by
  cases h with
  | classFile hnone =>
      rw [hparent] at hnone
      cases hnone
  | archiveEntry hparent' hposition' harchive hfile hentries' hentry hname huri hcontent =>
      rw [hparent] at hparent'
      cases hparent'
      rw [hposition] at hposition'
      cases hposition'
      have hread' := FileSystem.read_of_offers hproper hfile
      rw [hread] at hread'
      cases hread'
      rw [hentries] at hentries'
      cases hentries'
      rwa [List.mem_singleton.1 hentry] at hcontent

/-- A file system with nothing but an archive. -/
def archiveAlone (container : Bytes) : FileSystem :=
  ⟨.directory [("a.jar", .file container)], []⟩

theorem proper_archiveAlone (container : Bytes) : (archiveAlone container).root.Proper := by
  have hname : FileNode.ProperName "a.jar" := by constructor <;> decide
  exact .directory (List.forall_mem_singleton.2 hname) (List.nodup_singleton _)
    (List.forall_mem_singleton.2 .file)

theorem read_archiveAlone (container : Bytes) :
    (archiveAlone container).read "a.jar" = .ok container := rfl

/-- The row that an entry of this archive gets. -/
def rowOfEntry (entry : Archive.Entry) : Artifact :=
  ⟨"jar:a.jar!/" ++ entry.name, some (signed64 entry.size), some 0, false⟩

theorem outcome_input_archiveAlone {container bytes : Bytes} {entry : Archive.Entry} {cls : Class}
    (hentries : Archive.openEntries container = .ok [entry])
    (hname : Scan.isClassEntry entry.name = true)
    (hcontent : Archive.content container entry = .ok bytes)
    (hlift : liftClass bytes 1 = .ok cls) :
    (Scan.input (archiveAlone container) "a.jar").outcome = .ok
      ⟨[⟨"a.jar", some (container.length : Int), none, true⟩, rowOfEntry entry], [cls]⟩ := by
  let inner : Scan := ⟨[rowOfEntry entry], [cls]⟩
  have hclasses : Scan.classEntries [entry] = [entry] := by
    rw [Scan.classEntries, List.filter_singleton, hname]
    exact List.mergeSort_singleton entry
  have hinner : (Scan.archiveEntries 1 0 "a.jar" container [entry]).outcome = .ok inner := by
    refine Scan.outcome_archiveEntries_cons_eq_ok_iff.2 ⟨inner, .empty, ?_, rfl, rfl⟩
    exact Scan.outcome_archiveEntry_eq_ok_iff.2 ⟨bytes, cls, hcontent, hlift, rfl⟩
  show (Scan.archive 0 true ⟨"a.jar", .ok container⟩).outcome = _
  refine Scan.outcome_archive_eq_ok_iff.2 ⟨container, [entry], inner, rfl, hentries, ?_, rfl⟩
  rw [hclasses]
  exact hinner

/-- The directory of this archive declares as many bytes as its entry unpacks to. -/
theorem scan_lengths_told_archive :
    ∃ scan artifact, (Scan.input (archiveAlone spawnerArchive) "a.jar").outcome = .ok scan ∧
      scan.artifacts[1]? = some artifact ∧
      (∃ cls ∈ scan.classes, liftClass spawnerClass (1 : Nat) = .ok cls) ∧
      artifact.length = some (spawnerClass.length : Int) ∧
      ∃ entry, artifact.Unpacked ((archiveAlone spawnerArchive).Offers "a.jar") scan.artifacts
        entry spawnerClass ∧ entry.size = spawnerClass.length := by
  have hentries : Archive.openEntries spawnerArchive = .ok [spawnerEntry] := by decide +kernel
  have hname : Scan.isClassEntry spawnerEntry.name = true := by decide +kernel
  have hlift : liftClass spawnerClass 1 = .ok spawner := by decide +kernel
  let scan : Scan := ⟨[⟨"a.jar", some (spawnerArchive.length : Int), none, true⟩,
    rowOfEntry spawnerEntry], [spawner]⟩
  have hscan : (Scan.input (archiveAlone spawnerArchive) "a.jar").outcome = .ok scan :=
    outcome_input_archiveAlone hentries hname content_spawnerArchive hlift
  have hrow : scan.artifacts[1]? = some (rowOfEntry spawnerEntry) := rfl
  have htold : (rowOfEntry spawnerEntry).length = some (spawnerClass.length : Int) := rfl
  refine ⟨scan, rowOfEntry spawnerEntry, hscan, hrow, ?_⟩
  obtain ⟨bytes, hclass, hlength⟩ := scan_lengths_told hscan hrow
  rcases hlength with ⟨hnone, -⟩ | ⟨entry, hunpacked, -, hiff⟩
  · cases hnone
  have hcontent : Archive.content spawnerArchive spawnerEntry = .ok bytes :=
    hunpacked.source.content_eq (proper_archiveAlone spawnerArchive) rfl rfl
      (read_archiveAlone spawnerArchive) hentries
  rw [content_spawnerArchive] at hcontent
  cases hcontent
  refine ⟨hclass.resolve_left fun harchive => ?_, htold, entry, hunpacked, ?_⟩
  · cases harchive.1
  · exact (hiff (by decide)).1 htold

/-- The same archive, but the size in the header of its entry is 99. -/
def forgedArchive : Bytes := spawnerArchive.set 128 99

/-- The only entry of this archive. -/
def forgedEntry : Archive.Entry := { spawnerEntry with size := 99 }

theorem content_forgedArchive :
    Archive.content forgedArchive forgedEntry = .ok spawnerClass := by
  have hpacked : Archive.packedData forgedArchive forgedEntry = .ok (.stored, spawnerClass) := by
    decide +kernel
  obtain ⟨data, -, -, hchecksum⟩ := Archive.content_eq_ok_iff.1 content_spawnerArchive
  exact Archive.content_eq_ok_iff.2 ⟨(.stored, spawnerClass), hpacked, rfl, hchecksum⟩

/-- It is scanned all the same, and the length that is told is none that its entry has. -/
theorem scan_lengths_told_forged :
    ∃ scan artifact, (Scan.input (archiveAlone forgedArchive) "a.jar").outcome = .ok scan ∧
      scan.artifacts[1]? = some artifact ∧
      (∃ bytes, artifact.Source ((archiveAlone forgedArchive).Offers "a.jar") scan.artifacts bytes ∧
        ∃ cls ∈ scan.classes, liftClass bytes (1 : Nat) = .ok cls) ∧
      ∀ bytes, artifact.Source ((archiveAlone forgedArchive).Offers "a.jar") scan.artifacts bytes →
        artifact.length ≠ some (bytes.length : Int) := by
  have hentries : Archive.openEntries forgedArchive = .ok [forgedEntry] := by decide +kernel
  have hname : Scan.isClassEntry forgedEntry.name = true := by decide +kernel
  have hlift : liftClass spawnerClass 1 = .ok spawner := by decide +kernel
  let archive : Artifact := ⟨"a.jar", some (forgedArchive.length : Int), none, true⟩
  let scan : Scan := ⟨[archive, rowOfEntry forgedEntry], [spawner]⟩
  have hscan : (Scan.input (archiveAlone forgedArchive) "a.jar").outcome = .ok scan :=
    outcome_input_archiveAlone hentries hname content_forgedArchive hlift
  have harchive : archive.IsArchive := ⟨rfl, by decide +kernel⟩
  refine ⟨scan, rowOfEntry forgedEntry, hscan, rfl, ⟨spawnerClass, ?_, spawner, ?_, hlift⟩, ?_⟩
  · exact .archiveEntry rfl rfl harchive
      (FileSystem.offers_of_read (read_archiveAlone forgedArchive)) hentries
      (List.mem_singleton_self _) hname rfl content_forgedArchive
  · exact List.mem_singleton_self _
  · intro bytes hsource
    have hcontent : Archive.content forgedArchive forgedEntry = .ok bytes :=
      hsource.content_eq (proper_archiveAlone forgedArchive) rfl rfl
        (read_archiveAlone forgedArchive) hentries
    rw [content_forgedArchive] at hcontent
    cases hcontent
    decide

end CallRedirect
