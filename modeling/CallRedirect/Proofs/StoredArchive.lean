import CallRedirect.Archive.Content
import CallRedirect.Proofs.ArchiveOrder
import CallRedirect.Proofs.Utf8Reading
import CallRedirect.Proofs.Words

/-!
# Archives of stored files

`Archive.pack` writes files into an archive as they are: their local records one behind the
other, a directory with a header for each, and an end record.  What it writes is opened again
and holds these files (`Archive.holds_pack`), as long as the numbers of the records have room.

A record is written field by field as it is read, so each reading step takes off the front what
was written for it, whatever stands behind (`Record.Reads`).  The end record is looked for from
the back; where its mark is found behind its first byte, too little is left to be one
(`Record.Takes`).
-/

namespace CallRedirect

/-! ## Numbers with the lowest byte first -/

theorem littleEndian_reverse (bytes : Bytes) : littleEndian bytes.reverse = bigEndian bytes := by
  have hreverse (bytes : Bytes) : bigEndian bytes.reverse = littleEndian bytes := by
    induction bytes with
    | nil => rfl
    | cons byte rest ih =>
        rw [List.reverse_cons, bigEndian_append_singleton, ih, littleEndian, Nat.add_comm]
  rw [← hreverse, List.reverse_reverse]

theorem littleEndian_lt (bytes : Bytes) : littleEndian bytes < 256 ^ bytes.length := by
  rw [← List.reverse_reverse bytes, littleEndian_reverse, List.length_reverse]
  exact bigEndian_lt bytes.reverse

/-- The lowest `width` digits of a number in base 256, least significant first. -/
def littleBytes (width value : Nat) : Bytes := (bytesOf width value).reverse

@[simp] theorem length_littleBytes (width value : Nat) :
    (littleBytes width value).length = width := by
  rw [littleBytes, List.length_reverse, length_bytesOf]

theorem littleEndian_littleBytes {width value : Nat} (h : value < 256 ^ width) :
    littleEndian (littleBytes width value) = value := by
  rw [littleBytes, littleEndian_reverse, bigEndian_bytesOf h]

namespace Archive

/-! ## Reading what was written -/

namespace Record

variable {α β : Type} {step : Record α} {next : α → Record β} {part back : Bytes} {value : α}
  {result : β}

/-- A step takes a part off the front, whatever stands behind it, and gives a value. -/
def Reads (step : Record α) (part : Bytes) (value : α) : Prop :=
  ∀ rest, step (part ++ rest) = some (value, rest)

theorem Reads.pure (value : α) : Reads (pure value) [] value := fun _ => rfl

theorem Reads.bind (h : Reads step part value) (hnext : Reads (next value) back result) :
    Reads (step >>= next) (part ++ back) result := by
  intro rest
  show (step (part ++ back ++ rest)).bind (fun read => next read.1 read.2) = _
  rw [List.append_assoc, h]
  exact hnext rest

theorem Reads.cons {parts : List Bytes} (h : Reads step part value)
    (hnext : Reads (next value) parts.flatten result) :
    Reads (step >>= next) (part :: parts).flatten result := h.bind hnext

theorem Reads.map (h : Reads step part value) (make : α → β) :
    Reads (do return make (← step)) part (make value) := by
  intro rest
  show (step (part ++ rest)).bind (fun read => some (make read.1, read.2)) = _
  rw [h]
  rfl

/-- A value that is there already takes nothing. -/
theorem reads_lift {found : Option α} (h : found = some value) :
    Reads (liftM found : Record α) [] value := by
  subst h
  exact fun _ => rfl

theorem reads_chunk {length : Nat} (h : part.length = length) :
    Reads (chunk length) part part := by
  intro rest
  have hslice : slice? ([] ++ (part ++ rest)) 0 length = some part :=
    slice?_append 0 length rest rfl h
  rw [chunk, ← List.nil_append (part ++ rest), hslice, Option.map_some, List.nil_append,
    List.drop_left' h]

theorem reads_number {width number : Nat} (h : number < 256 ^ width) :
    Reads (Record.number width) (littleBytes width number) number := by
  have hread := (reads_chunk (length_littleBytes width number)).map littleEndian
  rwa [littleEndian_littleBytes h] at hread

theorem reads_skip {length : Nat} (h : part.length = length) : Reads (skip length) part () :=
  (reads_chunk h).map fun _ => ()

theorem reads_mark (expected : Bytes) : Reads (mark expected) expected () := by
  intro rest
  show (chunk expected.length (expected ++ rest)).bind _ = _
  rw [reads_chunk rfl rest]
  simp
  rfl

theorem Reads.at?_append (h : Reads step part value) (front after : Bytes) :
    step.at? (front ++ (part ++ after)) front.length = some value := by
  rw [at?, List.drop_left, h, Option.map_some]

/-- A step that gives a value takes at least so many bytes. -/
def Takes (step : Record α) (count : Nat) : Prop :=
  ∀ bytes value rest, step bytes = some (value, rest) → rest.length + count ≤ bytes.length

theorem Takes.least {count more : Nat} (h : Takes step more) (hle : count ≤ more) :
    Takes step count := fun bytes value rest hread =>
  Nat.le_trans (Nat.add_le_add_left hle _) (h bytes value rest hread)

theorem takes_pure (value : α) : Takes (Pure.pure value) 0 := by
  intro bytes found rest h
  cases h
  exact Nat.le_refl _

theorem Takes.bind {count more : Nat} (h : Takes step count)
    (hnext : ∀ value, Takes (next value) more) : Takes (step >>= next) (count + more) := by
  intro bytes result rest hread
  obtain ⟨⟨value, left⟩, hstep, hleft⟩ := Option.bind_eq_some_iff.1 hread
  have hfirst := h bytes value left hstep
  have hsecond := hnext value left result rest hleft
  omega

theorem takes_chunk (length : Nat) : Takes (chunk length) length := by
  intro bytes part rest h
  obtain ⟨found, hslice, heq⟩ := Option.map_eq_some_iff.1 h
  cases heq
  obtain ⟨hlength, after, hafter⟩ := slice?_eq_some_iff.1 hslice
  rw [List.drop_zero] at hafter
  rw [hafter, List.drop_left' hlength, List.length_append]
  omega

theorem takes_number (width : Nat) : Takes (Record.number width) width :=
  (takes_chunk width).bind fun _ => takes_pure _

theorem takes_skip (length : Nat) : Takes (skip length) length :=
  (takes_chunk length).bind fun _ => takes_pure _

theorem takes_mark (expected : Bytes) : Takes (mark expected) expected.length := by
  show Takes (mark expected) (expected.length + 0)
  refine (takes_chunk expected.length).bind fun part => ?_
  split
  · intro bytes value rest h
    cases h
  · exact takes_pure _

/-- No record is read where too few bytes are left. -/
theorem Takes.at?_eq_none {count place : Nat} {bytes : Bytes} (h : Takes step count)
    (hfew : bytes.length < place + count) (hcount : 0 < count) : step.at? bytes place = none := by
  rw [at?, Option.map_eq_none_iff, Option.eq_none_iff_forall_not_mem]
  rintro ⟨value, rest⟩ hread
  have htaken := h _ value rest hread
  rw [List.length_drop] at htaken
  omega

end Record

/-! ## Writing an archive -/

/-- The flag of a header for a name in UTF-8. -/
def textFlag : Nat := 0x800

/-- The first day that a header can tell. -/
def firstDay : Bytes := [0, 0, 0x21, 0]

/-- The version of the format that stored files need. -/
def version : Bytes := littleBytes 2 20

/-- What the local record and the header of a stored file tell alike: its flags, its method, its
time, its check sum and its size as it is stored and as it is. -/
def description (content : Bytes) : List Bytes :=
  [littleBytes 2 textFlag, littleBytes 2 0, firstDay, littleBytes 4 (checksum content).toNat,
    littleBytes 4 content.length, littleBytes 4 content.length]

/-- The local header of a file. -/
def localHeaderOf (file : String × Bytes) : Bytes :=
  [localMark, version ++ (description file.2).flatten, littleBytes 2 (Utf8.bytes file.1).length,
    littleBytes 2 0].flatten

/-- The local record of a file: the header, the name and the content. -/
def localRecord (file : String × Bytes) : Bytes :=
  localHeaderOf file ++ (Utf8.bytes file.1 ++ file.2)

/-- The header of a file whose local record is at a place. -/
def directoryHeader (file : String × Bytes) (place : Nat) : Bytes :=
  let name := Utf8.bytes file.1
  ([headerMark, version ++ version] ++ description file.2 ++
    [littleBytes 2 name.length, littleBytes 2 0, littleBytes 2 0,
      littleBytes 4 0 ++ littleBytes 4 0, littleBytes 4 place, name, [], []]).flatten

/-- The headers of files whose local records begin at a place. -/
def directory (place : Nat) : List (String × Bytes) → Bytes
  | [] => []
  | file :: files =>
      directoryHeader file place ++ directory (place + (localRecord file).length) files

/-- The end record of a directory. -/
def endRecord (count size start : Nat) : Bytes :=
  [endMark, littleBytes 2 0, littleBytes 2 0, littleBytes 2 count, littleBytes 2 count,
    littleBytes 4 size, littleBytes 4 start, littleBytes 2 0].flatten

/-- An archive of files that are stored as they are. -/
def pack (files : List (String × Bytes)) : Bytes :=
  let front := files.flatMap localRecord
  let headers := directory 0 files
  front ++ (headers ++ endRecord files.length headers.length front.length)

/-- The entry of a stored file whose local record is at a place. -/
def storedEntry (file : String × Bytes) (place : Nat) : Entry where
  name := file.1
  storedName := Utf8.bytes file.1
  comment := ""
  method := 0
  encrypted := false
  isSealed := false
  checksum := (checksum file.2).toNat
  storedSize := file.2.length
  size := file.2.length
  header := place

/-- The entries of files whose local records begin at a place. -/
def storedEntries (place : Nat) : List (String × Bytes) → List Entry
  | [] => []
  | file :: files =>
      storedEntry file place :: storedEntries (place + (localRecord file).length) files

/-- The numbers of the records have room. -/
structure Fits (files : List (String × Bytes)) : Prop where
  names : ∀ file ∈ files, (Utf8.bytes file.1).length < 256 ^ 2
  count : files.length < 0xffff
  size : (files.flatMap localRecord).length < 0xffffffff

/-! ## Reading it back -/

open Record

theorem length_version : version.length = 2 := length_littleBytes 2 20

theorem length_description (content : Bytes) : (description content).flatten.length = 20 := by
  simp [description, firstDay]

theorem length_localHeaderOf (file : String × Bytes) : (localHeaderOf file).length = 30 := by
  simp [localHeaderOf, localMark, length_version, description, firstDay]

theorem length_localRecord (file : String × Bytes) : (localRecord file).length =
    30 + ((Utf8.bytes file.1).length + file.2.length) := by
  rw [localRecord, List.length_append, List.length_append, length_localHeaderOf]

theorem reads_localHeader (file : String × Bytes) (hname : (Utf8.bytes file.1).length < 256 ^ 2) :
    Reads localHeader (localHeaderOf file) (30 + (Utf8.bytes file.1).length) := by
  have hdescribed : (version ++ (description file.2).flatten).length = 22 := by
    rw [List.length_append, length_version, length_description]
  refine (reads_mark localMark).cons ((reads_skip hdescribed).cons ?_)
  exact (reads_number hname).cons ((reads_number (by decide)).cons (.pure _))

theorem reads_header {file : String × Bytes} {place : Nat}
    (hname : (Utf8.bytes file.1).length < 256 ^ 2) (hcontent : file.2.length < 256 ^ 4)
    (hplace : place < 256 ^ 4) :
    Reads (Entry.read 0) (directoryHeader file place) (storedEntry file place) := by
  have hchecksum : (checksum file.2).toNat < 256 ^ 4 := (checksum file.2).toNat_lt
  have hversions : (version ++ version).length = 4 := by
    rw [List.length_append, length_version]
  have hattributes : (littleBytes 4 0 ++ littleBytes 4 0).length = 8 := by
    rw [List.length_append, length_littleBytes]
  have hday : firstDay.length = 4 := rfl
  have htext : textFlag < 256 ^ 2 := by decide
  have hzero : 0 < 256 ^ 2 := by decide
  have hstored : (Utf8.bytes file.1).length = (Utf8.bytes file.1).length := rfl
  unfold Entry.read directoryHeader description
  simp only [List.cons_append, List.nil_append]
  refine (reads_mark headerMark).cons ((reads_skip hversions).cons ?_)
  refine (reads_number htext).cons ((reads_number hzero).cons ((reads_skip hday).cons ?_))
  refine (reads_number hchecksum).cons ((reads_number hcontent).cons ?_)
  refine (reads_number hcontent).cons ((reads_number hname).cons ?_)
  refine (reads_number hzero).cons ((reads_number hzero).cons ?_)
  refine (reads_skip hattributes).cons ((reads_number hplace).cons ((reads_chunk hstored).cons ?_))
  -- there are no extra fields and no comment
  refine (reads_chunk List.length_nil).cons ((reads_chunk List.length_nil).cons ?_)
  have hentry : (⟨headerText (textFlag.testBit 11) (Utf8.bytes file.1), Utf8.bytes file.1,
      headerText (textFlag.testBit 11) [], 0, textFlag.testBit 0, false,
      (checksum file.2).toNat, file.2.length, file.2.length, place⟩ : Entry) =
        storedEntry file place := by
    have hnone : Utf8.decodeLossy [] = "" := Utf8.decodeLossy_bytes ""
    have hisText : textFlag.testBit 11 = true := by decide
    have hplain : textFlag.testBit 0 = false := by decide
    simp only [hisText, hplain, headerText, if_true, Utf8.decodeLossy_bytes, hnone, storedEntry]
  have hfields : ExtraField.applyAll [] (storedEntry file place) =
      some (storedEntry file place) := by
    rw [ExtraField.applyAll, ExtraField.split?]
    rfl
  have hmoved : Entry.move? 0 (storedEntry file place) = some (storedEntry file place) := by
    have hroom : place + 0 < placeLimit := by
      rw [placeLimit]
      omega
    exact if_pos hroom
  have hmethod : ¬ ((storedEntry file place).method = sealedMethod ∧
      ¬ (storedEntry file place).isSealed = true) := by
    rintro ⟨hsealed, -⟩
    cases hsealed
  rw [hentry]
  show Reads _ ([] ++ []) _
  refine (reads_lift hfields).bind ?_
  rw [if_neg hmethod]
  exact reads_lift hmoved

/-- The headers of files are read one by one. -/
theorem reads_headers {files : List (String × Bytes)} {place : Nat}
    (hnames : ∀ file ∈ files, (Utf8.bytes file.1).length < 256 ^ 2)
    (hroom : place + (files.flatMap localRecord).length < 256 ^ 4) :
    Reads (readHeaders 0 files.length) (directory place files) (storedEntries place files) := by
  induction files generalizing place with
  | nil => exact .pure _
  | cons file files ih =>
      obtain ⟨hname, hothers⟩ := List.forall_mem_cons.1 hnames
      have hrecord := length_localRecord file
      rw [List.flatMap_cons, List.length_append] at hroom
      -- what one file takes is within what all of them take
      refine (reads_header hname (by omega) (by omega)).bind ?_
      have hrest : place + (localRecord file).length + (files.flatMap localRecord).length <
          256 ^ 4 := by omega
      exact (ih hothers hrest).map (storedEntry file place :: ·)

theorem reads_endRecord {count size start : Nat} (hcount : count < 256 ^ 2)
    (hstart : start < 256 ^ 4) :
    Reads EndRecord.read (endRecord count size start) ⟨0, 0, count, count, start⟩ := by
  have hzero : 0 < 256 ^ 2 := by decide
  have hsize : (littleBytes 4 size).length = 4 := length_littleBytes 4 size
  refine (reads_mark endMark).cons ((reads_number hzero).cons ((reads_number hzero).cons ?_))
  refine (reads_number hcount).cons ((reads_number hcount).cons ((reads_skip hsize).cons ?_))
  refine (reads_number hstart).cons ((reads_number hzero).cons ?_)
  show Reads _ ([] ++ []) _
  exact (reads_skip List.length_nil).bind (.pure _)

theorem length_endRecord (count size start : Nat) : (endRecord count size start).length = 22 := by
  simp [endRecord, endMark]

/-- An end record has no fewer bytes than one without a comment. -/
theorem takes_endRecord : Takes EndRecord.read 22 := by
  -- the widths of the fields in the order of reading
  show Takes EndRecord.read (4 + (2 + (2 + (2 + (2 + (4 + (4 + (2 + 0))))))))
  refine (takes_mark endMark).bind fun _ => ?_
  refine (takes_number 2).bind fun _ => (takes_number 2).bind fun _ => ?_
  refine (takes_number 2).bind fun _ => (takes_number 2).bind fun _ => ?_
  refine (takes_skip 4).bind fun _ => (takes_number 4).bind fun _ => ?_
  refine (takes_number 2).bind fun length => ?_
  exact ((takes_skip length).bind fun _ => takes_pure _).least (Nat.zero_le _)

/-! ## Finding the directory -/

theorem le_of_mem_occurrences {mark bytes : Bytes} {place found : Nat}
    (h : found ∈ occurrences mark place bytes) : place ≤ found := by
  induction bytes generalizing place with
  | nil => cases h
  | cons byte bytes ih =>
      rw [occurrences] at h
      split at h
      · rcases List.mem_cons.1 h with rfl | hlater
        · exact Nat.le_refl _
        · exact Nat.le_of_succ_le (ih hlater)
      · exact Nat.le_of_succ_le (ih h)

/-- Behind a front, a mark is found where it is found without it. -/
theorem exists_occurrences_append (mark front back : Bytes) (place : Nat) :
    ∃ early, occurrences mark place (front ++ back) =
      early ++ occurrences mark (place + front.length) back := by
  induction front generalizing place with
  | nil => exact ⟨[], rfl⟩
  | cons byte front ih =>
      obtain ⟨early, hearly⟩ := ih (place + 1)
      have hplace : place + (byte :: front).length = place + 1 + front.length := by
        rw [List.length_cons]
        omega
      rw [List.cons_append, occurrences, hearly, hplace]
      split
      · exact ⟨place :: early, rfl⟩
      · exact ⟨early, rfl⟩

/-- A mark is found where it was put. -/
theorem exists_occurrences_of_mark {mark : Bytes} (hmark : mark ≠ []) (place : Nat)
    (after : Bytes) : ∃ later, occurrences mark place (mark ++ after) = place :: later ∧
      ∀ found ∈ later, place < found := by
  obtain ⟨byte, rest, rfl⟩ := List.exists_cons_of_ne_nil hmark
  refine ⟨occurrences (byte :: rest) (place + 1) (rest ++ after), ?_, fun found hfound => ?_⟩
  · rw [List.cons_append, occurrences, if_pos]
    rw [List.isPrefixOf_iff_prefix]
    exact List.prefix_append _ _
  · exact Nat.lt_of_succ_le (le_of_mem_occurrences hfound)

theorem le_length_directory (place : Nat) (files : List (String × Bytes)) :
    files.length ≤ (directory place files).length := by
  induction files generalizing place with
  | nil => exact Nat.le_refl _
  | cons file files ih =>
      have hheader : 0 < (directoryHeader file place).length := Nat.succ_pos _
      have hothers := ih (place + (localRecord file).length)
      rw [directory, List.length_append, List.length_cons]
      omega

/-- The directory begins with the mark of a header, if there is one. -/
theorem exists_directory_eq_mark_append {files : List (String × Bytes)} (h : files ≠ [])
    (place : Nat) : ∃ after, directory place files = headerMark ++ after := by
  obtain ⟨file, files, rfl⟩ := List.exists_cons_of_ne_nil h
  exact ⟨_, List.append_assoc headerMark _ _⟩

/-- The first header stands where the end record says, so no place is moved. -/
theorem directory?_pack {files : List (String × Bytes)} :
    EndRecord.directory?
        ⟨0, 0, files.length, files.length, (files.flatMap localRecord).length⟩ (pack files)
        ((files.flatMap localRecord).length + (directory 0 files).length) =
      some ⟨(files.flatMap localRecord).length, 0, files.length⟩ := by
  unfold EndRecord.directory?
  dsimp only
  rw [if_neg (not_not.2 rfl)]
  by_cases hnone : files = []
  · subst hnone
    rfl
  · have hcount : 0 < files.length := List.length_pos_iff.2 hnone
    have hheaders := le_length_directory 0 files
    have hbetween : occurrencesBetween headerMark (files.flatMap localRecord).length
        ((files.flatMap localRecord).length + (directory 0 files).length) (pack files) =
          occurrences headerMark (files.flatMap localRecord).length (directory 0 files) := by
      rw [occurrencesBetween, pack, List.take_length_add_append, List.drop_left, List.take_left]
    have hmark : headerMark ≠ [] := List.cons_ne_nil _ _
    obtain ⟨after, hafter⟩ := exists_directory_eq_mark_append hnone 0
    obtain ⟨later, hfirst, -⟩ :=
      exists_occurrences_of_mark hmark (files.flatMap localRecord).length after
    rw [if_neg (by omega), if_neg (by omega), hbetween, hafter, hfirst, List.head?_cons,
      Option.map_some, Nat.sub_self]

theorem directoryPlace?_pack {files : List (String × Bytes)} (h : Fits files) :
    directoryPlace? (pack files)
        ((files.flatMap localRecord).length + (directory 0 files).length) =
      some ⟨(files.flatMap localRecord).length, 0, files.length⟩ := by
  let record : EndRecord :=
    ⟨0, 0, files.length, files.length, (files.flatMap localRecord).length⟩
  have hcount := h.count
  have hsize := h.size
  have hread : EndRecord.read.at? (pack files)
      ((files.flatMap localRecord).length + (directory 0 files).length) = some record := by
    have hrecord : Reads EndRecord.read (endRecord files.length (directory 0 files).length
        (files.flatMap localRecord).length) record := reads_endRecord (by omega) (by omega)
    have hfound := hrecord.at?_append (files.flatMap localRecord ++ directory 0 files) []
    rwa [List.append_nil, List.append_assoc, List.length_append] at hfound
  have hnarrow : record.mayBeWide = false := by
    simp only [EndRecord.mayBeWide, Bool.or_eq_false_iff, decide_eq_false_iff_not]
    exact ⟨Nat.ne_of_lt hcount, Nat.ne_of_lt hsize⟩
  simp only [directoryPlace?, hread, hnarrow, Option.bind_eq_bind, Option.bind_some,
    Bool.false_eq_true, if_false]
  exact directory?_pack

theorem readDirectory?_pack {files : List (String × Bytes)} (h : Fits files) :
    readDirectory? (pack files)
        ((files.flatMap localRecord).length + (directory 0 files).length) =
      some (storedEntries 0 files) := by
  have hsize := h.size
  have hheaders : Reads (readHeaders 0 files.length) (directory 0 files)
      (storedEntries 0 files) := reads_headers h.names (by omega)
  rw [readDirectory?, directoryPlace?_pack h]
  exact hheaders.at?_append _ _

theorem replaceEntry_of_new {entry : Entry} {known : List Entry}
    (h : entry.name ∉ known.map (·.name)) : replaceEntry entry known = known ++ [entry] := by
  induction known with
  | nil => rfl
  | cons other known ih =>
      rw [List.map_cons, List.mem_cons, not_or] at h
      rw [replaceEntry, if_neg (Ne.symm h.1), ih h.2, List.cons_append]

/-- Entries with different names are all kept. -/
theorem foldl_replaceEntry_of_nodup {known listed : List Entry}
    (h : ((known ++ listed).map (·.name)).Nodup) :
    listed.foldl (fun known entry => replaceEntry entry known) known = known ++ listed := by
  induction listed generalizing known with
  | nil => rw [List.append_nil, List.foldl_nil]
  | cons entry listed ih =>
      have hnew : entry.name ∉ known.map (·.name) := by
        rw [List.map_append, List.nodup_append] at h
        intro hknown
        exact h.2.2 _ hknown _ (List.mem_map_of_mem List.mem_cons_self) rfl
      rw [List.foldl_cons, replaceEntry_of_new hnew, ih, List.append_assoc, List.singleton_append]
      rwa [List.append_assoc, List.singleton_append]

theorem map_name_storedEntries (place : Nat) (files : List (String × Bytes)) :
    (storedEntries place files).map (·.name) = files.map (·.1) := by
  induction files generalizing place with
  | nil => rfl
  | cons file files ih => exact congrArg (file.1 :: ·) (ih _)

/-- The end record is found, and the entries are those of the files. -/
theorem readEntries_pack {files : List (String × Bytes)} (hdistinct : (files.map (·.1)).Nodup)
    (h : Fits files) :
    readEntries (pack files) = .ok (storedEntries 0 files) := by
  let place := (files.flatMap localRecord).length + (directory 0 files).length
  have hlength : (pack files).length = place + 22 := by
    simp [place, pack, length_endRecord, Nat.add_assoc]
  have hmark : endMark ≠ [] := List.cons_ne_nil _ _
  obtain ⟨after, hafter⟩ : ∃ after, endRecord files.length (directory 0 files).length
      (files.flatMap localRecord).length = endMark ++ after := ⟨_, rfl⟩
  obtain ⟨early, hearly⟩ := exists_occurrences_append endMark
    (files.flatMap localRecord ++ directory 0 files) (endMark ++ after) 0
  obtain ⟨later, hfirst, hlater⟩ := exists_occurrences_of_mark hmark place after
  have hall : occurrences endMark 0 (pack files) = early ++ place :: later := by
    rw [pack, hafter, ← List.append_assoc, hearly, Nat.zero_add, List.length_append, hfirst]
  -- an end record that began later would not end in the archive
  have hnone : later.reverse.findSome? (readDirectory? (pack files)) = none := by
    rw [List.findSome?_eq_none_iff]
    intro found hfound
    have hbehind := hlater found (List.mem_reverse.1 hfound)
    have hunread : EndRecord.read.at? (pack files) found = none :=
      takes_endRecord.at?_eq_none (by omega) (by decide)
    rw [readDirectory?, directoryPlace?, hunread]
    rfl
  have hdirectory : readDirectory? (pack files) place = some (storedEntries 0 files) :=
    readDirectory?_pack h
  have hfound : (occurrences endMark 0 (pack files)).reverse.findSome?
      (readDirectory? (pack files)) = some (storedEntries 0 files) := by
    rw [hall, List.reverse_append, List.reverse_cons, List.append_assoc, List.findSome?_append,
      hnone, Option.none_or, List.singleton_append, List.findSome?_cons, hdirectory]
  have hnodup : ((([] : List Entry) ++ storedEntries 0 files).map (·.name)).Nodup := by
    rw [List.nil_append, map_name_storedEntries]
    exact hdistinct
  rw [readEntries, hfound]
  exact congrArg Except.ok (foldl_replaceEntry_of_nodup hnodup)

/-! ## What the archive holds -/

/-- An archive can be opened and holds files: its entries have their names and give their
contents, in any order. -/
def Holds (container : Bytes) (files : List (String × Bytes)) : Prop :=
  ∃ entries, openEntries container = .ok entries ∧
    (entries.map fun entry => (entry.name, content container entry)).Perm
      (files.map fun file => (file.1, .ok file.2))

/-- The data of a file is found behind its local header. -/
theorem content_pack {before after : List (String × Bytes)} {file : String × Bytes}
    (hname : (Utf8.bytes file.1).length < 256 ^ 2) :
    content (pack (before ++ file :: after))
        (storedEntry file (before.flatMap localRecord).length) = .ok file.2 := by
  let front := before.flatMap localRecord
  obtain ⟨rest, hpack⟩ : ∃ rest, pack (before ++ file :: after) =
      front ++ (localHeaderOf file ++ (Utf8.bytes file.1 ++ (file.2 ++ rest))) := by
    rw [pack, List.flatMap_append, List.flatMap_cons, localRecord]
    simp only [List.append_assoc]
    exact ⟨_, rfl⟩
  have hheader : localHeader.at? (pack (before ++ file :: after)) front.length =
      some (30 + (Utf8.bytes file.1).length) := by
    rw [hpack]
    exact (reads_localHeader file hname).at?_append front _
  have hdata : ((pack (before ++ file :: after)).drop
      (front.length + (30 + (Utf8.bytes file.1).length))).take file.2.length = file.2 := by
    have hlength : (front ++ (localHeaderOf file ++ Utf8.bytes file.1)).length =
        front.length + (30 + (Utf8.bytes file.1).length) := by
      rw [List.length_append, List.length_append, length_localHeaderOf]
    rw [hpack, ← List.append_assoc (localHeaderOf file), ← List.append_assoc front,
      List.drop_left' hlength, List.take_left]
  have hpacked : packedData (pack (before ++ file :: after)) (storedEntry file front.length) =
      .ok (.stored, file.2) := by
    simp only [packedData, storedEntry, Bool.or_self, Bool.false_eq_true, if_false, hheader,
      Packing.ofMethod?, hdata]
    rfl
  exact content_eq_ok_iff.2 ⟨(.stored, file.2), hpacked, rfl, rfl⟩

/-- What the entries give is what the files contain. -/
theorem map_content_pack (before files : List (String × Bytes))
    (hnames : ∀ file ∈ files, (Utf8.bytes file.1).length < 256 ^ 2) :
    ((storedEntries (before.flatMap localRecord).length files).map fun entry =>
        (entry.name, content (pack (before ++ files)) entry)) =
      files.map fun file => (file.1, .ok file.2) := by
  induction files generalizing before with
  | nil => rfl
  | cons file files ih =>
      obtain ⟨hname, hothers⟩ := List.forall_mem_cons.1 hnames
      have hrest := ih (before ++ [file]) hothers
      rw [List.flatMap_append, List.length_append, List.flatMap_singleton, List.append_assoc,
        List.singleton_append] at hrest
      rw [storedEntries, List.map_cons, List.map_cons, hrest, content_pack hname]
      rfl

/-- An archive of which every entry has a content can be opened. -/
theorem openEntries_eq_ok {container : Bytes} {entries : List Entry}
    (hread : readEntries container = .ok entries)
    (hcontents : ∀ entry ∈ entries, ∃ bytes, content container entry = .ok bytes) :
    openEntries container = .ok entries := by
  have hall : (entries.forM fun entry => do
      let _ ← packedData container entry) = .ok () := by
    clear hread
    induction entries with
    | nil => rfl
    | cons entry entries ih =>
        obtain ⟨⟨bytes, hcontent⟩, hothers⟩ := List.forall_mem_cons.1 hcontents
        obtain ⟨data, hdata, -⟩ := content_eq_ok_iff.1 hcontent
        exact bind_eq_ok_iff.2 ⟨(), bind_eq_ok_iff.2 ⟨data, hdata, rfl⟩, ih hothers⟩
  rw [openEntries, hread, ok_bind, hall, ok_bind]
  rfl

/-- An archive that was written holds what was put into it. -/
theorem holds_pack {files : List (String × Bytes)} (hdistinct : (files.map (·.1)).Nodup)
    (h : Fits files) : Holds (pack files) files := by
  have hcontents := map_content_pack [] files h.names
  refine ⟨storedEntries 0 files, openEntries_eq_ok (readEntries_pack hdistinct h) ?_,
    .of_eq hcontents⟩
  intro entry hentry
  have hmem : (entry.name, content (pack files) entry) ∈
      files.map fun file => (file.1, .ok file.2) := hcontents ▸ List.mem_map_of_mem hentry
  obtain ⟨file, -, hfile⟩ := List.mem_map.1 hmem
  exact ⟨file.2, (Prod.mk.inj hfile).2.symm⟩

end Archive

end CallRedirect
