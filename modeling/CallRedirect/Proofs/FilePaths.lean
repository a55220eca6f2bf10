import CallRedirect.Files.System
import CallRedirect.Files.Walk
import CallRedirect.Proofs.Outcome

/-!
# Files and the paths that lead to them

A walk makes the path of a file from the path of its directory and its name.
Where names are such as a file system can have them, following that path leads
back to the file.

* `FileNode.Holds` says which files there are at and below a place, and
  `FileNode.holds_of_mem_walk` that a walk finds no others.
* `FileNode.Proper` is what the names of a directory have to be like.
* `FileSystem.read_of_offers`: a file of an input is read at its path.
-/

namespace CallRedirect

/-! ## Nodes -/

namespace FileNode

/-- What holds of files, and of directories if it holds of all their entries, holds of
all nodes. -/
theorem induction {good : FileNode → Prop} (hfile : ∀ content, good (file content))
    (hdirectory : ∀ entries : List (String × FileNode),
      (∀ entry ∈ entries, good entry.2) → good (directory entries)) : ∀ node, good node
  | file content => hfile content
  | directory entries => hdirectory entries fun entry hentry =>
      have : sizeOf entry < sizeOf entries := List.sizeOf_lt_of_mem hentry
      induction hfile hdirectory entry.2
termination_by node => sizeOf node
decreasing_by
  obtain ⟨name, node⟩ := entry
  simp only [Prod.mk.sizeOf_spec, directory.sizeOf_spec] at *
  omega

/-- What there is to see of a node at its own place: the bytes of a file, or that it is a
directory. -/
def surface : FileNode → Option Bytes
  | file content => some content
  | directory _ => none

theorem exists_entries_of_child? {node child : FileNode} {name : String}
    (h : node.child? name = some child) : ∃ entries, node = directory entries := by
  cases node with
  | file content => cases h
  | directory entries => exact ⟨entries, rfl⟩

theorem at?_cons {entries : List (String × FileNode)} {name : String} {child : FileNode}
    (hchild : (directory entries).child? name = some child) (names : List String) :
    (directory entries).at? (name :: names) = child.at? names := by
  rw [at?, hchild]
  rfl

theorem at?_append (node : FileNode) (first second : List String) :
    node.at? (first ++ second) = (node.at? first).bind (·.at? second) := by
  induction first generalizing node with
  | nil => rfl
  | cons name names ih =>
      show (node.child? name).bind (·.at? (names ++ second)) =
        ((node.child? name).bind (·.at? names)).bind (·.at? second)
      cases node.child? name with
      | none => rfl
      | some child => exact ih child

theorem at?_append_singleton {node : FileNode} {place : List String}
    {entries : List (String × FileNode)} (hplace : node.at? place = some (directory entries))
    (name : String) : node.at? (place ++ [name]) = (directory entries).child? name := by
  rw [at?_append, hplace]
  show ((directory entries).child? name).bind (·.at? []) = _
  cases (directory entries).child? name <;> rfl

/-- A name that an entry of a directory can have. -/
structure ProperName (name : String) : Prop where
  ne_empty : name ≠ ""
  ne_here : name ≠ "."
  ne_above : name ≠ ".."
  no_slash : '/' ∉ name.toList
  no_nul : Char.ofNat 0 ∉ name.toList
  short : name.utf8ByteSize ≤ FileSystem.nameLimit

/-- The entries of every directory have proper names, and no two of them the same. -/
inductive Proper : FileNode → Prop
  | file {content : Bytes} : Proper (file content)
  | directory {entries : List (String × FileNode)}
      (hnames : ∀ entry ∈ entries, ProperName entry.1) (hdistinct : (entries.map (·.1)).Nodup)
      (hentries : ∀ entry ∈ entries, Proper entry.2) : Proper (directory entries)

theorem Proper.singleton {name : String} {node : FileNode} (hname : ProperName name)
    (hnode : node.Proper) : (FileNode.directory [(name, node)]).Proper :=
  .directory (List.forall_mem_singleton.2 hname) (by simp) (List.forall_mem_singleton.2 hnode)

theorem child?_of_mem {entries : List (String × FileNode)} (hdistinct : (entries.map (·.1)).Nodup)
    {name : String} {node : FileNode} (hentry : (name, node) ∈ entries) :
    (directory entries).child? name = some node := by
  show (entries.find? fun entry => entry.1 = name).map (·.2) = some node
  have hfind : entries.find? (fun entry => entry.1 = name) = some (name, node) := by
    induction entries with
    | nil => cases hentry
    | cons entry entries ih =>
        rw [List.map_cons, List.nodup_cons] at hdistinct
        rcases List.mem_cons.1 hentry with rfl | hrest
        · rw [List.find?_cons_of_pos (by simp)]
        · have hne : entry.1 ≠ name := by
            intro hsame
            exact hdistinct.1 (hsame ▸ List.mem_map_of_mem hrest)
          rw [List.find?_cons_of_neg (by simpa using hne)]
          exact ih hdistinct.2 hrest
  rw [hfind]
  rfl

theorem Proper.child? {node child : FileNode} {name : String} (h : node.Proper)
    (hchild : node.child? name = some child) : child.Proper := by
  cases h with
  | file => cases hchild
  | directory hnames hdistinct hentries =>
      obtain ⟨entry, hfind, rfl⟩ := Option.map_eq_some_iff.1 hchild
      exact hentries entry (List.mem_of_find?_eq_some hfind)

theorem Proper.at? {node found : FileNode} {place : List String} (h : node.Proper)
    (hfound : node.at? place = some found) : found.Proper := by
  induction place generalizing node with
  | nil =>
      cases hfound
      exact h
  | cons name names ih =>
      obtain ⟨child, hchild, hrest⟩ := Option.bind_eq_some_iff.1 hfound
      exact ih (h.child? hchild) hrest

end FileNode

/-! ## Path texts -/

namespace Path

theorem components_append_slash (front back : String) :
    components (front ++ "/" ++ back) = components front ++ components back := by
  have hslash : ("/" : String).toList = ['/'] := rfl
  simp only [components, String.toList_append, hslash, List.append_assoc, List.singleton_append]
  rw [List.splitOn, List.splitOnP_append_cons _ _ (by simp), List.map_append]
  rfl

theorem components_of_no_slash {name : String} (h : '/' ∉ name.toList) :
    components name = [name] := by
  rw [components, List.splitOn, List.splitOnP_eq_singleton, List.map_singleton,
    String.ofList_toList]
  intro letter hletter
  exact beq_eq_false_iff_ne.2 fun hsame => h (hsame ▸ hletter)

theorem isAbsolute_of_no_slash {name : String} (h : '/' ∉ name.toList) :
    isAbsolute name = false := by
  unfold isAbsolute
  cases hname : name.toList with
  | nil => rfl
  | cons first rest =>
      have hne : first ≠ '/' := fun hsame => h (by rw [hname, hsame]; exact List.mem_cons_self)
      simpa using hne

/-- Joining puts exactly one slash between a directory and a name. -/
theorem exists_join_eq {directory name : String} (hdirectory : directory ≠ "")
    (hname : '/' ∉ name.toList) :
    ∃ front, join directory name = front ++ "/" ++ name ∧
      (directory = front ∨ directory = front ++ "/") := by
  have hempty : directory.isEmpty = false := by
    rw [← Bool.not_eq_true, String.isEmpty_iff]
    exact hdirectory
  unfold join
  rw [isAbsolute_of_no_slash hname, hempty, Bool.or_self, if_neg Bool.false_ne_true]
  split
  · next hlast =>
    obtain ⟨front, hfront⟩ := List.getLast?_eq_some_iff.1 hlast
    have hsplit : directory = String.ofList front ++ "/" := by
      rw [← String.toList_inj, hfront, String.toList_append, String.toList_ofList]
      rfl
    exact ⟨String.ofList front, by rw [← hsplit], .inr hsplit⟩
  · exact ⟨directory, rfl, .inl rfl⟩

theorem exists_join_eq_append {directory name : String} (hdirectory : directory ≠ "")
    (hname : '/' ∉ name.toList) :
    ∃ back, join directory name = directory ++ back ∧ (back = "/" ++ name ∨ back = name) := by
  obtain ⟨front, hjoin, rfl | rfl⟩ := exists_join_eq hdirectory hname
  · exact ⟨"/" ++ name, by rw [hjoin, String.append_assoc], .inl rfl⟩
  · exact ⟨name, hjoin, .inr rfl⟩

theorem join_ne_empty {directory name : String} (hdirectory : directory ≠ "")
    (hname : '/' ∉ name.toList) : join directory name ≠ "" := by
  obtain ⟨back, hlonger, -⟩ := exists_join_eq_append hdirectory hname
  rw [hlonger, ne_eq, String.append_eq_empty_iff]
  exact fun hboth => hdirectory hboth.1

theorem nul_not_mem_join {directory name : String} (hdirectory : directory ≠ "")
    (hslash : '/' ∉ name.toList) (hnul : Char.ofNat 0 ∉ directory.toList)
    (hname : Char.ofNat 0 ∉ name.toList) : Char.ofNat 0 ∉ (join directory name).toList := by
  obtain ⟨back, hlonger, hback⟩ := exists_join_eq_append hdirectory hslash
  have hbackNul : Char.ofNat 0 ∉ back.toList := by
    rcases hback with rfl | rfl
    · simpa [String.toList_append] using hname
    · exact hname
  rw [hlonger, String.toList_append, List.mem_append]
  exact not_or.2 ⟨hnul, hbackNul⟩

theorem size_le_join (directory : String) {name : String} (hname : '/' ∉ name.toList) :
    directory.utf8ByteSize ≤ (join directory name).utf8ByteSize := by
  by_cases hdirectory : directory = ""
  · rw [hdirectory]
    exact Nat.zero_le _
  · obtain ⟨back, hlonger, -⟩ := exists_join_eq_append hdirectory hname
    rw [hlonger, String.utf8ByteSize_append]
    omega

theorem components_join {directory name : String} (hdirectory : directory ≠ "")
    (hname : '/' ∉ name.toList) : ∃ front, components (join directory name) = front ++ [name] := by
  obtain ⟨front, hjoin, -⟩ := exists_join_eq hdirectory hname
  exact ⟨components front, by rw [hjoin, components_append_slash, components_of_no_slash hname]⟩

/-- The last name of a path is its file name. -/
theorem fileName?_of_components {path name : String} {front : List String}
    (hcomponents : components path = front ++ [name]) (hname : FileNode.ProperName name) :
    fileName? path = some name := by
  have hlast : (significant path).getLast? = some name := by
    have hkept : [name].filter (fun part => part ≠ "" && part ≠ ".") = [name] := by
      simp [hname.ne_empty, hname.ne_here]
    rw [significant, hcomponents, List.filter_append, hkept, ← List.append_assoc,
      List.getLast?_concat]
  unfold fileName?
  rw [hlast]
  split
  · next hsame => exact absurd (Option.some.inj hsame) hname.ne_here
  · next hsame => exact absurd (Option.some.inj hsame) hname.ne_above
  · rfl

/-- The extension of a file is that of its name, wherever it is. -/
theorem extension_join {directory name : String} (hdirectory : directory ≠ "")
    (hname : FileNode.ProperName name) : extension (join directory name) = extension name := by
  obtain ⟨front, hfront⟩ := components_join hdirectory hname.no_slash
  have halone : components name = [] ++ [name] := components_of_no_slash hname.no_slash
  rw [extension, extension, fileName?_of_components hfront hname,
    fileName?_of_components halone hname]

theorem isTooLong_of_size_le {short long : String} (hlong : isTooLong long = false)
    (hle : short.utf8ByteSize ≤ long.utf8ByteSize) : isTooLong short = false := by
  simp only [isTooLong, decide_eq_false_iff_not] at hlong ⊢
  omega

theorem isAbsolute_append {front : String} (h : front ≠ "") (back : String) :
    isAbsolute (front ++ back) = isAbsolute front := by
  rw [isAbsolute, isAbsolute, String.toList_append]
  cases hfront : front.toList with
  | nil => exact absurd (String.toList_eq_nil_iff.1 hfront) h
  | cons first rest => rfl

end Path

/-! ## Following paths -/

namespace FileSystem

variable {system : FileSystem} {place : List String} {path name : String}
  {entries : List (String × FileNode)} {node : FileNode}

theorem follow_append (first second : List String) :
    system.follow place (first ++ second) =
      (system.follow place first >>= (system.follow · second)) := by
  induction first generalizing place with
  | nil => rfl
  | cons name names ih =>
      rw [List.cons_append, follow, follow]
      -- both sides take the same branch for the first name
      split
      · split
        · exact ih
        · split
          · exact ih
          · split
            · rfl
            · split
              · exact ih
              · rfl
      · rfl
      · rfl

/-- A slash at the end leads nowhere else. -/
theorem follow_append_empty {start : List String} {names : List String}
    (h : system.follow start (names ++ [""]) = .ok place) :
    system.follow start names = .ok place := by
  rw [follow_append, bind_eq_ok_iff] at h
  obtain ⟨reached, hreached, hend⟩ := h
  rw [follow] at hend
  split at hend
  · cases hend
    exact hreached
  · cases hend
  · cases hend

theorem follow_name (hplace : system.root.at? place = some (.directory entries))
    (hname : FileNode.ProperName name)
    (hnode : (FileNode.directory entries).child? name = some node) :
    system.follow place [name] = .ok (place ++ [name]) := by
  have hchild : ((FileNode.directory entries).child? name).isSome = true := by rw [hnode]; rfl
  rw [follow, hplace]
  simp only [hname.ne_empty, hname.ne_here, hname.ne_above, Nat.not_lt.2 hname.short, hchild,
    decide_false, Bool.or_self, Bool.false_eq_true, if_false, if_true]
  rfl

theorem textFault?_eq_none_iff :
    textFault? path = none ↔
      Char.ofNat 0 ∉ path.toList ∧ path ≠ "" ∧ Path.isTooLong path = false := by
  unfold textFault?
  rw [← List.contains_iff_mem, ne_eq, ← String.isEmpty_iff]
  cases path.toList.contains (Char.ofNat 0) <;> cases path.isEmpty <;>
    cases Path.isTooLong path <;> simp

theorem textFault?_of_plain (hnul : Char.ofNat 0 ∉ path.toList) (hempty : path ≠ "") :
    textFault? path = if Path.isTooLong path then some .nameTooLong else none := by
  have hcontains : path.toList.contains (Char.ofNat 0) = false := by
    rw [← Bool.not_eq_true, List.contains_iff_mem]
    exact hnul
  have hisEmpty : path.isEmpty = false := by
    rw [← Bool.not_eq_true, String.isEmpty_iff]
    exact hempty
  rw [textFault?, hcontains, hisEmpty]
  rfl

/-- A path that is too long leads nowhere. -/
theorem lookup_of_long (hnul : Char.ofNat 0 ∉ path.toList) (hempty : path ≠ "")
    (hlong : Path.isTooLong path = true) : system.lookup path = .error .nameTooLong := by
  rw [lookup, locate, textFault?_of_plain hnul hempty, if_pos hlong]
  rfl

/-- A path is followed if its text is one and its names lead somewhere. -/
theorem locate_eq_ok_iff :
    system.locate path = .ok place ↔
      textFault? path = none ∧
        system.follow (system.origin path) (Path.components path) = .ok place := by
  unfold locate
  cases textFault? path <;> simp

theorem lookup_eq_ok_iff :
    system.lookup path = .ok node ↔
      ∃ place, system.locate path = .ok place ∧ system.root.at? place = some node := by
  rw [lookup, bind_eq_ok_iff]
  refine exists_congr fun place => and_congr_right fun _ => ?_
  cases system.root.at? place with
  | none => simp
  | some found => simp [pure_eq_ok_iff]

section Join

variable (hpath : textFault? path = none) (hname : FileNode.ProperName name)

include hpath hname

theorem textFault?_join :
    textFault? (Path.join path name) =
      if Path.isTooLong (Path.join path name) then some .nameTooLong else none := by
  obtain ⟨hnul, hempty, -⟩ := textFault?_eq_none_iff.1 hpath
  exact textFault?_of_plain
    (Path.nul_not_mem_join hempty hname.no_slash hnul hname.no_nul)
    (Path.join_ne_empty hempty hname.no_slash)

theorem origin_join : system.origin (Path.join path name) = system.origin path := by
  obtain ⟨-, hempty, -⟩ := textFault?_eq_none_iff.1 hpath
  obtain ⟨back, hlonger, -⟩ := Path.exists_join_eq_append hempty hname.no_slash
  rw [origin, origin, hlonger, Path.isAbsolute_append hempty]

theorem follow_join {start : List String}
    (hfollow : system.follow start (Path.components path) = .ok place)
    (hplace : system.root.at? place = some (.directory entries))
    (hnode : (FileNode.directory entries).child? name = some node) :
    system.follow start (Path.components (Path.join path name)) = .ok (place ++ [name]) := by
  obtain ⟨-, hempty, -⟩ := textFault?_eq_none_iff.1 hpath
  obtain ⟨front, hjoin, hfront⟩ := Path.exists_join_eq hempty hname.no_slash
  -- with or without a slash at its end, the path leads to the same place
  have hreach : system.follow start (Path.components front) = .ok place := by
    rcases hfront with rfl | rfl
    · exact hfollow
    · have hcomponents : Path.components (front ++ "/") = Path.components front ++ [""] := by
        rw [← Path.components_of_no_slash (by decide : '/' ∉ "".toList),
          ← Path.components_append_slash, String.append_empty]
      exact follow_append_empty (hcomponents ▸ hfollow)
  rw [hjoin, Path.components_append_slash, Path.components_of_no_slash hname.no_slash,
    follow_append, hreach]
  exact follow_name hplace hname hnode

end Join

theorem isTooLong_of_lookup (h : system.lookup path = .ok node) :
    Path.isTooLong path = false := by
  obtain ⟨place, hlocate, -⟩ := lookup_eq_ok_iff.1 h
  exact (textFault?_eq_none_iff.1 (locate_eq_ok_iff.1 hlocate).1).2.2

/-- The path of a directory joined with the name of one of its entries leads to the entry,
unless it gets too long. -/
theorem lookup_join (hdirectory : system.lookup path = .ok (.directory entries))
    (hname : FileNode.ProperName name)
    (hnode : (FileNode.directory entries).child? name = some node) :
    system.lookup (Path.join path name) =
      if Path.isTooLong (Path.join path name) then .error .nameTooLong else .ok node := by
  obtain ⟨place, hlocate, hplace⟩ := lookup_eq_ok_iff.1 hdirectory
  obtain ⟨hpath, hfollow⟩ := locate_eq_ok_iff.1 hlocate
  have htext := textFault?_join hpath hname
  split
  · next hlong =>
    rw [if_pos hlong] at htext
    rw [lookup, locate, htext]
    rfl
  · next hshort =>
    rw [if_neg hshort] at htext
    have hlocated : system.locate (Path.join path name) = .ok (place ++ [name]) := by
      rw [locate_eq_ok_iff, origin_join hpath hname]
      exact ⟨htext, follow_join hpath hname hfollow hplace hnode⟩
    refine lookup_eq_ok_iff.2 ⟨place ++ [name], hlocated, ?_⟩
    rw [FileNode.at?_append_singleton hplace, hnode]

end FileSystem

/-! ## The files of an input -/

namespace FileNode

/-- A node that `path` leads to holds a file, which stands at `found`. -/
inductive Holds : String → FileNode → String → Bytes → Prop
  | file {path : String} {content : Bytes} : Holds path (file content) path content
  | entry {path name found : String} {entries : List (String × FileNode)} {node : FileNode}
      {content : Bytes} (hentry : (name, node) ∈ entries)
      (hnode : Holds (Path.join path name) node found content) :
      Holds path (directory entries) found content

theorem walkEntries_eq_map (path : String) (entries : List (String × FileNode)) :
    walkEntries path entries =
      entries.map fun entry => (entry.1, entry.2.walk (Path.join path entry.1)) := by
  induction entries with
  | nil => rw [walkEntries, List.map_nil]
  | cons entry entries ih =>
      obtain ⟨name, node⟩ := entry
      rw [walkEntries, ih, List.map_cons]

/-- What a walk finds and can read is there, at a path that is not too long. -/
theorem holds_of_mem_walk {path : String} {node : FileNode} {found : FoundFile} {content : Bytes}
    (hfound : found ∈ node.walk path) (hcontent : found.content = .ok content) :
    node.Holds path found.path content ∧ Path.isTooLong found.path = false := by
  induction node using induction generalizing path with
  | hfile stored =>
      rw [walk, List.mem_singleton] at hfound
      subst hfound
      cases hlong : Path.isTooLong path with
      | true => simp [hlong] at hcontent
      | false =>
          simp only [hlong, Bool.false_eq_true, if_false, Except.ok.injEq] at hcontent
          exact ⟨hcontent ▸ .file, rfl⟩
  | hdirectory entries ih =>
      rw [walk] at hfound
      split at hfound
      · rw [List.mem_singleton.1 hfound] at hcontent
        simp at hcontent
      · obtain ⟨listed, hlisted, hwalk⟩ := List.mem_flatMap.1 hfound
        rw [List.mem_mergeSort, walkEntries_eq_map] at hlisted
        obtain ⟨entry, hentry, rfl⟩ := List.mem_map.1 hlisted
        obtain ⟨hholds, hshort⟩ := ih entry hentry hwalk
        exact ⟨.entry hentry hholds, hshort⟩

/-- The path of a file is at least as long as that of a directory above it. -/
theorem Holds.size_le {path found : String} {node : FileNode} {content : Bytes}
    (h : node.Holds path found content) (hproper : node.Proper) :
    path.utf8ByteSize ≤ found.utf8ByteSize := by
  induction h with
  | file => exact Nat.le_refl _
  | entry hentry hnode ih =>
      cases hproper with
      | directory hnames hdistinct hentries =>
          refine Nat.le_trans (Path.size_le_join _ (hnames _ hentry).no_slash) ?_
          exact ih (hentries _ hentry)

end FileNode

namespace FileSystem

variable {system : FileSystem} {input path : String} {content : Bytes}

/-- The files at and below an input that can be read, with their bytes. -/
def Offers (system : FileSystem) (input path : String) (content : Bytes) : Prop :=
  ∃ node, system.lookup input = .ok node ∧ node.Holds input path content ∧
    Path.isTooLong path = false

theorem read_eq_ok_iff :
    system.read path = .ok content ↔ system.lookup path = .ok (.file content) := by
  rw [read, bind_eq_ok_iff]
  constructor
  · rintro ⟨node, hnode, hread⟩
    cases node with
    | file stored => rw [hnode, pure_eq_ok_iff.1 hread]
    | directory entries => cases hread
  · intro hnode
    exact ⟨.file content, hnode, rfl⟩

theorem offers_of_read (h : system.read path = .ok content) : system.Offers path path content := by
  rw [read_eq_ok_iff] at h
  exact ⟨.file content, h, .file, isTooLong_of_lookup h⟩

/-- In a file system with proper names, a file of an input is read at its path. -/
theorem read_of_offers (hproper : system.root.Proper) (h : system.Offers input path content) :
    system.read path = .ok content := by
  obtain ⟨node, hnode, hholds, hshort⟩ := h
  rw [read_eq_ok_iff]
  induction hholds with
  | file => exact hnode
  | @entry above name path entries child content hentry hchild ih =>
      obtain ⟨place, -, hplace⟩ := lookup_eq_ok_iff.1 hnode
      cases hproper.at? hplace with
      | directory hnames hdistinct hentries =>
          have hname : FileNode.ProperName name := hnames _ hentry
          have hjoined : Path.isTooLong (Path.join above name) = false :=
            Path.isTooLong_of_size_le hshort (hchild.size_le (hentries _ hentry))
          have hfound := FileNode.child?_of_mem hdistinct hentry
          refine ih ?_ hshort
          rw [lookup_join hnode hname hfound, hjoined, if_neg Bool.false_ne_true]

end FileSystem

end CallRedirect
