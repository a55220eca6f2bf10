import CallRedirect.Proofs.FilePaths
import CallRedirect.Proofs.NameOrder
import Mathlib.Data.List.Nodup

/-!
# The order of a walk

A walk through a directory does not show in which order the file system lists entries:
two trees with the same at every place are walked in the same way
(`FileNode.walk_eq_of_sameTree`).

The places at which a walk ends are listed by `FileNode.stops`.  They are ordered name
by name (`pairwise_stops`), and they are the places where a file is, and those of
directories that are not gone into because their paths are too long (`mem_stops_iff`).
-/

namespace CallRedirect

/-- The path of a place below a directory. -/
def Path.below (path : String) (place : List String) : String := place.foldl Path.join path

@[simp] theorem Path.below_nil (path : String) : below path [] = path := rfl

@[simp] theorem Path.below_cons (path name : String) (rest : List String) :
    below path (name :: rest) = below (join path name) rest := rfl

namespace FileNode

/-! ## Trees that list their entries in another order -/

/-- Two trees with the same files and directories at the same places. -/
def SameTree (node other : FileNode) : Prop :=
  ∀ place, (other.at? place).map surface = (node.at? place).map surface

theorem mem_entries_iff {entries : List (String × FileNode)}
    (hdistinct : (entries.map (·.1)).Nodup) {name : String} {node : FileNode} :
    (name, node) ∈ entries ↔ (directory entries).child? name = some node := by
  constructor
  · exact child?_of_mem hdistinct
  · intro h
    obtain ⟨⟨found, child⟩, hfind, rfl⟩ := Option.map_eq_some_iff.1 h
    have hname := List.find?_some hfind
    simp only [decide_eq_true_eq] at hname
    exact hname ▸ List.mem_of_find?_eq_some hfind

/-- What is made of each entry of a directory, found by the name of the entry. -/
theorem mem_map_entries_iff {β : Type} {entries : List (String × FileNode)}
    (hdistinct : (entries.map (·.1)).Nodup) {made : String × FileNode → β} {name : String}
    {value : β} :
    (name, value) ∈ entries.map (fun entry => (entry.1, made entry)) ↔
      ∃ child, (directory entries).child? name = some child ∧ value = made (name, child) := by
  rw [List.mem_map]
  constructor
  · rintro ⟨⟨listed, child⟩, hchild, heq⟩
    cases heq
    exact ⟨child, (mem_entries_iff hdistinct).1 hchild, rfl⟩
  · rintro ⟨child, hchild, rfl⟩
    exact ⟨(name, child), (mem_entries_iff hdistinct).2 hchild, rfl⟩

namespace SameTree

variable {node other : FileNode}

/-- Directories with the same entries in another order are the same tree. -/
theorem of_perm {entries listed : List (String × FileNode)}
    (hdistinct : (entries.map (·.1)).Nodup) (hperm : listed.Perm entries) :
    (directory entries).SameTree (directory listed) := by
  have hlisted : (listed.map (·.1)).Nodup := (hperm.map _).nodup_iff.2 hdistinct
  have hchild (name : String) :
      (directory listed).child? name = (directory entries).child? name :=
    Option.ext fun child => by
      rw [← mem_entries_iff hlisted, ← mem_entries_iff hdistinct, hperm.mem_iff]
  intro place
  cases place with
  | nil => rfl
  | cons name names => rw [at?, at?, hchild]

theorem symm (h : node.SameTree other) : other.SameTree node := fun place => (h place).symm

theorem eq_file {content : Bytes} (h : (file content).SameTree other) : other = file content := by
  have hsurface : other.surface = some content := Option.some.inj (h [])
  cases other with
  | file stored => exact congrArg file (Option.some.inj hsurface)
  | directory listed => cases hsurface

theorem exists_directory {entries : List (String × FileNode)}
    (h : (directory entries).SameTree other) : ∃ listed, other = directory listed := by
  have hsurface : other.surface = none := Option.some.inj (h [])
  cases other with
  | file stored => cases hsurface
  | directory listed => exact ⟨listed, rfl⟩

theorem exists_child? {entries listed : List (String × FileNode)}
    (h : (directory entries).SameTree (directory listed)) {name : String} {child : FileNode}
    (hchild : (directory entries).child? name = some child) :
    ∃ twin, (directory listed).child? name = some twin ∧ child.SameTree twin := by
  have hplace := h [name]
  rw [at?_cons hchild] at hplace
  obtain ⟨twin, htwin, -⟩ := Option.map_eq_some_iff.1 hplace
  obtain ⟨found, hfound, hrest⟩ := Option.bind_eq_some_iff.1 htwin
  refine ⟨found, hfound, fun place => ?_⟩
  have hbelow := h (name :: place)
  rwa [at?_cons hchild, at?_cons hfound] at hbelow

theorem isSome_child? {entries listed : List (String × FileNode)}
    (h : (directory entries).SameTree (directory listed)) (name : String) :
    ((directory listed).child? name).isSome = ((directory entries).child? name).isSome := by
  rw [Bool.eq_iff_iff, Option.isSome_iff_exists, Option.isSome_iff_exists]
  constructor
  · rintro ⟨twin, htwin⟩
    obtain ⟨child, hchild, -⟩ := h.symm.exists_child? htwin
    exact ⟨child, hchild⟩
  · rintro ⟨child, hchild⟩
    obtain ⟨twin, htwin, -⟩ := h.exists_child? hchild
    exact ⟨twin, htwin⟩

theorem at?_eq_none (h : node.SameTree other) {place : List String}
    (hnone : node.at? place = none) : other.at? place = none := by
  have hplace := h place
  rwa [hnone, Option.map_none, Option.map_eq_none_iff] at hplace

theorem exists_at? (h : node.SameTree other) {place : List String} {found : FileNode}
    (hfound : node.at? place = some found) :
    ∃ twin, other.at? place = some twin ∧ found.SameTree twin := by
  have hplace := h place
  rw [hfound] at hplace
  obtain ⟨twin, htwin, -⟩ := Option.map_eq_some_iff.1 hplace
  refine ⟨twin, htwin, fun rest => ?_⟩
  have hbelow := h (place ++ rest)
  rwa [at?_append, at?_append, hfound, htwin] at hbelow

end SameTree

theorem map_fst_walkEntries (path : String) (entries : List (String × FileNode)) :
    (walkEntries path entries).map (·.1) = entries.map (·.1) := by
  rw [walkEntries_eq_map, List.map_map]
  rfl

theorem mem_walkEntries_iff {path : String} {entries : List (String × FileNode)}
    (hdistinct : (entries.map (·.1)).Nodup) {name : String} {found : List FoundFile} :
    (name, found) ∈ walkEntries path entries ↔
      ∃ child, (directory entries).child? name = some child ∧
        found = child.walk (Path.join path name) := by
  rw [walkEntries_eq_map, mem_map_entries_iff hdistinct]

/-- Trees with the same at every place are walked in the same way. -/
theorem walk_eq_of_sameTree {node other : FileNode} (hproper : node.Proper)
    (hother : other.Proper) (h : node.SameTree other) (path : String) :
    other.walk path = node.walk path := by
  induction node using induction generalizing other path with
  | hfile content => rw [h.eq_file]
  | hdirectory entries ih =>
      obtain ⟨listed, rfl⟩ := h.exists_directory
      cases hproper with
      | directory hnames hdistinct hentries =>
      cases hother with
      | directory hnames' hdistinct' hentries' =>
      have hwalk {name : String} {child twin : FileNode}
          (hchild : (directory entries).child? name = some child)
          (htwin : (directory listed).child? name = some twin) (hsame : child.SameTree twin) :
          twin.walk (Path.join path name) = child.walk (Path.join path name) := by
        have hmem := (mem_entries_iff hdistinct).2 hchild
        have hmem' := (mem_entries_iff hdistinct').2 htwin
        exact ih _ hmem (hentries _ hmem) (hentries' _ hmem') hsame _
      have hsame (entry : String × List FoundFile) :
          entry ∈ walkEntries path listed ↔ entry ∈ walkEntries path entries := by
        rw [mem_walkEntries_iff hdistinct', mem_walkEntries_iff hdistinct]
        constructor
        · rintro ⟨twin, htwin, hfound⟩
          obtain ⟨child, hchild, hback⟩ := h.symm.exists_child? htwin
          exact ⟨child, hchild, hfound.trans (hwalk hchild htwin hback.symm)⟩
        · rintro ⟨child, hchild, hfound⟩
          obtain ⟨twin, htwin, hforth⟩ := h.exists_child? hchild
          exact ⟨twin, htwin, hfound.trans (hwalk hchild htwin hforth).symm⟩
      have hkeys : ((walkEntries path entries).map (·.1)).Nodup := by
        rwa [map_fst_walkEntries]
      have hkeys' : ((walkEntries path listed).map (·.1)).Nodup := by
        rwa [map_fst_walkEntries]
      -- only the order is left to differ, and sorting by distinct names removes it
      have hperm : (walkEntries path listed).Perm (walkEntries path entries) :=
        (List.perm_ext_iff_of_nodup (List.Nodup.of_map _ hkeys')
          (List.Nodup.of_map _ hkeys)).2 hsame
      rw [walk, walk, mergeSort_name_eq_of_perm hperm hkeys']

/-! ## The places at which a walk ends -/

mutual

/-- The places at which a walk from `path` ends, in order. -/
def stops (path : String) : FileNode → List (List String)
  | file _ => [[]]
  | directory entries =>
      if Path.isTooLong path then [[]]
      else ((stopsEntries path entries).mergeSort (fun a b => a.1 ≤ b.1)).flatMap
        fun (name, places) => places.map (name :: ·)

/-- The names of entries, each with the places below it at which a walk ends. -/
def stopsEntries (path : String) :
    List (String × FileNode) → List (String × List (List String))
  | [] => []
  | (name, node) :: entries =>
      (name, node.stops (Path.join path name)) :: stopsEntries path entries

end

theorem stopsEntries_eq_map (path : String) (entries : List (String × FileNode)) :
    stopsEntries path entries =
      entries.map fun entry => (entry.1, entry.2.stops (Path.join path entry.1)) := by
  induction entries with
  | nil => rw [stopsEntries, List.map_nil]
  | cons entry entries ih =>
      obtain ⟨name, node⟩ := entry
      rw [stopsEntries, ih, List.map_cons]

theorem map_fst_stopsEntries (path : String) (entries : List (String × FileNode)) :
    (stopsEntries path entries).map (·.1) = entries.map (·.1) := by
  rw [stopsEntries_eq_map, List.map_map]
  rfl

/-- The places are ordered name by name. -/
theorem pairwise_stops {node : FileNode} (hproper : node.Proper) (path : String) :
    (node.stops path).Pairwise (· < ·) := by
  induction node using induction generalizing path with
  | hfile content => rw [stops]; exact List.pairwise_singleton _ _
  | hdirectory entries ih =>
      cases hproper with
      | directory hnames hdistinct hentries =>
      rw [stops]
      split
      · exact List.pairwise_singleton _ _
      · have hkeys : ((stopsEntries path entries).map (·.1)).Nodup := by
          rwa [map_fst_stopsEntries]
        rw [List.pairwise_flatMap]
        constructor
        -- behind one name the rests are ordered, and otherwise the names decide
        · intro entry hentry
          rw [List.mem_mergeSort, stopsEntries_eq_map] at hentry
          obtain ⟨⟨name, child⟩, hchild, rfl⟩ := List.mem_map.1 hentry
          rw [List.pairwise_map]
          refine (ih (name, child) hchild (hentries _ hchild) (Path.join path name)).imp ?_
          exact fun hlt => List.cons_lt_cons_iff.2 (.inr ⟨rfl, hlt⟩)
        · refine (pairwise_mergeSort_name_lt hkeys).imp ?_
          intro first second hlt place hplace later hlater
          obtain ⟨rest, -, rfl⟩ := List.mem_map.1 hplace
          obtain ⟨rest', -, rfl⟩ := List.mem_map.1 hlater
          exact List.cons_lt_cons_iff.2 (.inl hlt)

/-! ## Which places these are -/

/-- A place at which a walk from `path` ends.  A file is there, or a directory that is not gone
into because its path is too long, and all directories above it are gone into. -/
structure EndsAt (path : String) (node : FileNode) (place : List String) : Prop where
  reached : ∀ above, above <+: place → above ≠ place →
    Path.isTooLong (Path.below path above) = false
  ends : (∃ content, node.at? place = some (file content)) ∨
    (∃ entries, node.at? place = some (directory entries)) ∧
      Path.isTooLong (Path.below path place) = true

variable {path : String} {entries : List (String × FileNode)}

theorem endsAt_file_iff {content : Bytes} {place : List String} :
    (file content).EndsAt path place ↔ place = [] := by
  constructor
  · intro h
    cases place with
    | nil => rfl
    | cons name rest =>
        rcases h.ends with ⟨stored, hstored⟩ | ⟨⟨listed, hlisted⟩, -⟩
        · cases hstored
        · cases hlisted
  · rintro rfl
    refine ⟨fun above habove hne => ?_, .inl ⟨content, rfl⟩⟩
    exact absurd (List.prefix_nil.1 habove) hne

theorem endsAt_directory_nil_iff :
    (directory entries).EndsAt path [] ↔ Path.isTooLong path = true := by
  constructor
  · intro h
    rcases h.ends with ⟨content, hcontent⟩ | ⟨-, hlong⟩
    · cases hcontent
    · exact hlong
  · intro hlong
    refine ⟨fun above habove hne => ?_, .inr ⟨⟨entries, rfl⟩, hlong⟩⟩
    exact absurd (List.prefix_nil.1 habove) hne

theorem endsAt_directory_cons_iff {name : String} {rest : List String} :
    (directory entries).EndsAt path (name :: rest) ↔
      Path.isTooLong path = false ∧ ∃ child, (directory entries).child? name = some child ∧
        child.EndsAt (Path.join path name) rest := by
  constructor
  · intro h
    have hshort : Path.isTooLong path = false :=
      h.reached [] List.nil_prefix (List.cons_ne_nil name rest).symm
    obtain ⟨found, hfound⟩ : ∃ found, (directory entries).at? (name :: rest) = some found := by
      rcases h.ends with ⟨content, hcontent⟩ | ⟨⟨listed, hlisted⟩, -⟩
      · exact ⟨_, hcontent⟩
      · exact ⟨_, hlisted⟩
    obtain ⟨child, hchild, -⟩ := Option.bind_eq_some_iff.1 hfound
    refine ⟨hshort, child, hchild, fun above habove hne => ?_, ?_⟩
    · exact h.reached (name :: above) (List.cons_prefix_cons.2 ⟨rfl, habove⟩)
        fun hsame => hne (List.cons.inj hsame).2
    · rw [← at?_cons hchild rest]
      exact h.ends
  · rintro ⟨hshort, child, hchild, h⟩
    refine ⟨fun above habove hne => ?_, ?_⟩
    · cases above with
      | nil => exact hshort
      | cons first above =>
          obtain ⟨rfl, hrest⟩ := List.cons_prefix_cons.1 habove
          exact h.reached above hrest fun hsame => hne (by rw [hsame])
    · rw [at?_cons hchild rest]
      exact h.ends

theorem mem_stopsEntries_iff (hdistinct : (entries.map (·.1)).Nodup) {name : String}
    {places : List (List String)} :
    (name, places) ∈ stopsEntries path entries ↔
      ∃ child, (directory entries).child? name = some child ∧
        places = child.stops (Path.join path name) := by
  rw [stopsEntries_eq_map, mem_map_entries_iff hdistinct]

/-- The stops are the places at which the walk ends. -/
theorem mem_stops_iff {node : FileNode} (hproper : node.Proper) {place : List String} :
    place ∈ node.stops path ↔ node.EndsAt path place := by
  induction node using induction generalizing path place with
  | hfile content => rw [stops, List.mem_singleton, endsAt_file_iff]
  | hdirectory entries ih =>
      cases hproper with
      | directory hnames hdistinct hentries =>
      -- a walk ends at the directory itself or below one of its entries
      have hmem : place ∈ (directory entries).stops path ↔
          (place = [] ∧ Path.isTooLong path = true) ∨
            ∃ name rest, place = name :: rest ∧ Path.isTooLong path = false ∧
              ∃ child, (directory entries).child? name = some child ∧
                rest ∈ child.stops (Path.join path name) := by
        rw [stops]
        split
        · next hlong => simp [hlong]
        · next hshort =>
          rw [Bool.not_eq_true] at hshort
          simp only [hshort, List.mem_flatMap, List.mem_mergeSort, List.mem_map, Prod.exists,
            mem_stopsEntries_iff hdistinct, Bool.false_eq_true, and_false, false_or, true_and]
          constructor
          · rintro ⟨name, places, ⟨child, hchild, rfl⟩, rest, hrest, rfl⟩
            exact ⟨name, rest, rfl, child, hchild, hrest⟩
          · rintro ⟨name, rest, rfl, child, hchild, hrest⟩
            exact ⟨name, _, ⟨child, hchild, rfl⟩, rest, hrest, rfl⟩
      rw [hmem]
      cases place with
      | nil => simp [endsAt_directory_nil_iff]
      | cons name rest =>
          rw [endsAt_directory_cons_iff]
          constructor
          · rintro (⟨hnil, -⟩ | ⟨_, _, heq, hshort, child, hchild, hrest⟩)
            · cases hnil
            · cases heq
              have hentry := (mem_entries_iff hdistinct).2 hchild
              exact ⟨hshort, child, hchild, (ih _ hentry (hentries _ hentry)).1 hrest⟩
          · rintro ⟨hshort, child, hchild, hends⟩
            have hentry := (mem_entries_iff hdistinct).2 hchild
            exact .inr ⟨name, rest, rfl, hshort, child, hchild,
              (ih _ hentry (hentries _ hentry)).2 hends⟩

/-- Where no path of a directory is too long, a walk ends at the files. -/
theorem endsAt_iff_of_short {node : FileNode}
    (hshort : ∀ place listed, node.at? place = some (directory listed) →
      Path.isTooLong (Path.below path place) = false) {place : List String} :
    node.EndsAt path place ↔ ∃ content, node.at? place = some (file content) := by
  constructor
  · intro h
    rcases h.ends with hfile | ⟨⟨listed, hlisted⟩, hlong⟩
    · exact hfile
    · rw [hshort place listed hlisted] at hlong
      cases hlong
  · rintro ⟨content, hcontent⟩
    refine ⟨fun above habove hne => ?_, .inl ⟨content, hcontent⟩⟩
    obtain ⟨rest, rfl⟩ := habove
    have hrest : rest ≠ [] := fun hnil => hne (by rw [hnil, List.append_nil])
    obtain ⟨name, names, rfl⟩ := List.exists_cons_of_ne_nil hrest
    rw [at?_append] at hcontent
    obtain ⟨found, hfound, hbelow⟩ := Option.bind_eq_some_iff.1 hcontent
    obtain ⟨child, hchild, -⟩ := Option.bind_eq_some_iff.1 hbelow
    obtain ⟨listed, rfl⟩ := exists_entries_of_child? hchild
    exact hshort above listed hfound

end FileNode

/-! ## File systems that list entries in another order -/

namespace FileSystem

/-- Two file systems with the same files and directories at the same places. -/
structure SameFiles (system other : FileSystem) : Prop where
  workingDirectory : other.workingDirectory = system.workingDirectory
  root : system.root.SameTree other.root

namespace SameFiles

variable {system other : FileSystem}

theorem follow_eq (h : system.SameFiles other) (start names : List String) :
    other.follow start names = system.follow start names := by
  induction names generalizing start with
  | nil => rfl
  | cons name names ih =>
      rw [follow, follow]
      cases hstart : system.root.at? start with
      | none => rw [h.root.at?_eq_none hstart]
      | some node =>
          obtain ⟨twin, htwin, hsame⟩ := h.root.exists_at? hstart
          rw [htwin]
          cases node with
          | file content => rw [hsame.eq_file]
          | directory entries =>
              obtain ⟨listed, rfl⟩ := hsame.exists_directory
              simp only [hsame.isSome_child? name, ih]

theorem locate_eq (h : system.SameFiles other) (path : String) :
    other.locate path = system.locate path := by
  rw [locate, locate, origin, origin, h.workingDirectory]
  simp only [h.follow_eq]

/-- A path leads to the same error, or to the same up to the order of entries. -/
theorem lookup_cases (h : system.SameFiles other) (path : String) :
    (∃ cause, system.lookup path = .error cause ∧ other.lookup path = .error cause) ∨
      ∃ node twin, system.lookup path = .ok node ∧ other.lookup path = .ok twin ∧
        node.SameTree twin := by
  rw [lookup, lookup, h.locate_eq]
  cases system.locate path with
  | error cause => exact .inl ⟨cause, rfl, rfl⟩
  | ok place =>
      simp only [ok_bind]
      cases hplace : system.root.at? place with
      | none => exact .inl ⟨.notFound, rfl, by rw [h.root.at?_eq_none hplace]; rfl⟩
      | some node =>
          obtain ⟨twin, htwin, hsame⟩ := h.root.exists_at? hplace
          exact .inr ⟨node, twin, rfl, by rw [htwin]; rfl, hsame⟩

theorem read_eq (h : system.SameFiles other) (path : String) :
    other.read path = system.read path := by
  rw [read, read]
  rcases h.lookup_cases path with ⟨cause, hsystem, hother⟩ | ⟨node, twin, hsystem, hother, hsame⟩
  · rw [hsystem, hother]
  · rw [hsystem, hother]
    cases node with
    | file content => rw [hsame.eq_file]
    | directory entries =>
        obtain ⟨listed, rfl⟩ := hsame.exists_directory
        rfl

end SameFiles

end FileSystem

/-! ## What is read at these places -/

/-- What is found at a path. -/
def FileSystem.foundAt (system : FileSystem) (path : String) : FoundFile :=
  ⟨path, system.read path⟩

theorem FileSystem.foundAt_of_lookup_eq_error {system : FileSystem} {path : String}
    {cause : FileError} (h : system.lookup path = .error cause) :
    system.foundAt path = ⟨path, .error cause⟩ := by
  rw [foundAt, read, h]
  rfl

namespace FileNode

/-- A walk finds what reading gives at the places where it ends. -/
theorem walk_eq_map_stops {system : FileSystem} {path : String} {node : FileNode}
    (hproper : node.Proper)
    (hnode : system.lookup path =
      if Path.isTooLong path then .error .nameTooLong else .ok node) :
    node.walk path = (node.stops path).map fun place => system.foundAt (Path.below path place) := by
  induction node using induction generalizing path with
  | hfile content =>
      rw [walk, stops, List.map_singleton]
      show _ = [system.foundAt path]
      cases hlong : Path.isTooLong path with
      | true =>
          rw [FileSystem.foundAt_of_lookup_eq_error (hnode.trans (if_pos hlong)), if_pos rfl]
      | false =>
          rw [hlong, if_neg Bool.false_ne_true] at hnode
          rw [FileSystem.foundAt, FileSystem.read_eq_ok_iff.2 hnode, if_neg Bool.false_ne_true]
  | hdirectory entries ih =>
      cases hproper with
      | directory hnames hdistinct hentries =>
      rw [walk, stops]
      split
      · next hlong =>
        rw [List.map_singleton]
        have hfound := FileSystem.foundAt_of_lookup_eq_error (hnode.trans (if_pos hlong))
        exact congrArg (fun found => [found]) hfound.symm
      · next hshort =>
        rw [if_neg hshort] at hnode
        let walked (entry : String × List (List String)) : String × List FoundFile :=
          (entry.1, entry.2.map fun rest => system.foundAt (Path.below path (entry.1 :: rest)))
        have hwalked : walkEntries path entries = (stopsEntries path entries).map walked := by
          rw [walkEntries_eq_map, stopsEntries_eq_map, List.map_map]
          refine List.map_congr_left fun entry hentry => ?_
          -- the invariant of the walk: the path at hand leads to the node at hand
          have hlookup := FileSystem.lookup_join hnode (hnames entry hentry)
            (child?_of_mem hdistinct hentry)
          exact congrArg (Prod.mk entry.1) (ih entry hentry (hentries entry hentry) hlookup)
        have hsorted : (walkEntries path entries).mergeSort (fun a b => a.1 ≤ b.1) =
            ((stopsEntries path entries).mergeSort (fun a b => a.1 ≤ b.1)).map walked := by
          rw [hwalked, List.map_mergeSort]
          exact fun _ _ _ _ => rfl
        rw [hsorted, List.flatMap_map, List.map_flatMap]
        refine List.flatMap_congr fun entry _ => ?_
        rw [List.map_map]
        rfl

end FileNode

end CallRedirect
