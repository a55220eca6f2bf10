import CallRedirect.Proofs.FilePaths

/-!
# Writing a file

Writing puts a file at one place of the tree.  At every other place there is what was
there before (`FileSystem.sameBeside_write`), if the directory of the file is there and
the place is not a directory itself.  The place that is found for an output is such a
place, and the path of the output leads to it afterwards
(`FileSystem.OutputAt.locate_write`).
-/

namespace CallRedirect

/-! ## Nodes -/

namespace FileNode

theorem child?_replaceEntry_self (name : String) (node : FileNode)
    (entries : List (String × FileNode)) :
    (directory (replaceEntry name node entries)).child? name = some node := by
  show ((replaceEntry name node entries).find? fun entry => entry.1 = name).map (·.2) = some node
  induction entries with
  | nil => simp [replaceEntry]
  | cons entry entries ih =>
      obtain ⟨other, current⟩ := entry
      by_cases hsame : other = name
      · simp [replaceEntry, hsame]
      · rw [replaceEntry, if_neg hsame, List.find?_cons_of_neg (by simpa using hsame)]
        exact ih

theorem child?_replaceEntry_of_ne {name other : String} (h : other ≠ name) (node : FileNode)
    (entries : List (String × FileNode)) :
    (directory (replaceEntry name node entries)).child? other =
      (directory entries).child? other := by
  show ((replaceEntry name node entries).find? fun entry => entry.1 = other).map (·.2) =
    (entries.find? fun entry => entry.1 = other).map (·.2)
  induction entries with
  | nil =>
      rw [replaceEntry, List.find?_cons_of_neg (by simpa using h.symm)]
  | cons entry entries ih =>
      obtain ⟨listed, current⟩ := entry
      by_cases hsame : listed = name
      · have hother : ¬ name = other := fun hname => h hname.symm
        rw [replaceEntry, if_pos hsame, List.find?_cons_of_neg (by simpa using hother),
          List.find?_cons_of_neg (by simpa [hsame] using hother)]
      · rw [replaceEntry, if_neg hsame]
        by_cases hfound : listed = other
        · rw [List.find?_cons_of_pos (by simpa using hfound),
            List.find?_cons_of_pos (by simpa using hfound)]
        · rw [List.find?_cons_of_neg (by simpa using hfound),
            List.find?_cons_of_neg (by simpa using hfound)]
          exact ih

theorem put_directory_cons (entries : List (String × FileNode)) (target : FileNode)
    (name : String) (names : List String) :
    (directory entries).put target (name :: names) =
      directory (replaceEntry name
        ((((directory entries).child? name).getD (directory [])).put target names) entries) := rfl

theorem at?_put (node target : FileNode) (place : List String) :
    (node.put target place).at? place = some target := by
  induction place generalizing node with
  | nil => rfl
  | cons name names ih =>
      unfold put at?
      rw [child?_replaceEntry_self]
      exact ih _

/-- A file that is put into a directory leaves everything beside it as it was. -/
theorem surface_at?_put_of_ne {node : FileNode} {above : List String} {name : String}
    (content : Bytes) {entries : List (String × FileNode)}
    (habove : node.at? above = some (directory entries))
    (hfree : ∀ inner, node.at? (above ++ [name]) ≠ some (directory inner))
    {other : List String} (hother : other ≠ above ++ [name]) :
    ((node.put (file content) (above ++ [name])).at? other).map surface =
      (node.at? other).map surface := by
  induction above generalizing node other with
  | nil =>
      cases habove
      cases other with
      | nil => rfl
      | cons first rest =>
          rw [List.nil_append, put_directory_cons, at?, at?]
          by_cases hfirst : first = name
          · subst hfirst
            -- below the place there is nothing, before and after
            have hrest : rest ≠ [] := fun hnil => hother (by rw [hnil]; rfl)
            obtain ⟨second, others, rfl⟩ := List.exists_cons_of_ne_nil hrest
            rw [child?_replaceEntry_self]
            cases hchild : (directory entries).child? first with
            | none => rfl
            | some child =>
                cases child with
                | file stored => rfl
                | directory inner =>
                    have hplace : (directory entries).at? ([] ++ [first]) =
                        some (directory inner) := by
                      rw [List.nil_append, at?, hchild]
                      rfl
                    exact absurd hplace (hfree inner)
          · rw [child?_replaceEntry_of_ne hfirst]
  | cons step above ih =>
      -- the way to the place leads through directories only, and other names keep their nodes
      obtain ⟨child, hchild, hrest⟩ := Option.bind_eq_some_iff.1 habove
      obtain ⟨listed, rfl⟩ := exists_entries_of_child? hchild
      have hinside := at?_cons hchild
      cases other with
      | nil => rfl
      | cons first rest =>
          rw [List.cons_append, put_directory_cons, hchild, Option.getD_some]
          by_cases hfirst : first = step
          · subst hfirst
            rw [hinside, at?, child?_replaceEntry_self]
            refine ih hrest (fun inner hinner => ?_) fun hsame => hother (by rw [hsame]; rfl)
            exact hfree inner ((hinside _).trans hinner)
          · rw [at?, at?, child?_replaceEntry_of_ne hfirst]

end FileNode

/-! ## Following a path name by name -/

/-- A name that is looked up in a directory when a path is followed. -/
structure FileSystem.LookedUp (name : String) : Prop where
  ne_empty : name ≠ ""
  ne_here : name ≠ "."
  ne_above : name ≠ ".."
  short : name.utf8ByteSize ≤ nameLimit

/-- Where one name of a path leads from a directory. -/
inductive FileSystem.Leads (system : FileSystem) (start : List String) :
    String → List String → Prop
  | here {name : String} {entries : List (String × FileNode)}
      (hstart : system.root.at? start = some (.directory entries))
      (hname : name = "" ∨ name = ".") : Leads system start name start
  | above {entries : List (String × FileNode)}
      (hstart : system.root.at? start = some (.directory entries)) :
      Leads system start ".." start.dropLast
  | entry {name : String} {entries : List (String × FileNode)}
      (hstart : system.root.at? start = some (.directory entries)) (hname : LookedUp name)
      (hchild : (system.root.at? (start ++ [name])).isSome = true) :
      Leads system start name (start ++ [name])

namespace FileSystem

theorem Leads.exists_directory {system : FileSystem} {start next : List String} {name : String}
    (h : system.Leads start name next) :
    ∃ entries, system.root.at? start = some (.directory entries) := by
  cases h with
  | here hstart => exact ⟨_, hstart⟩
  | above hstart => exact ⟨_, hstart⟩
  | entry hstart => exact ⟨_, hstart⟩

theorem follow_cons_eq_ok_iff {system : FileSystem} {start reached names : List String}
    {name : String} :
    system.follow start (name :: names) = .ok reached ↔
      ∃ next, system.Leads start name next ∧ system.follow next names = .ok reached := by
  constructor
  · intro h
    rw [follow] at h
    split at h
    · next entries hstart =>
      split at h
      · next hhere => exact ⟨start, .here hstart (by simpa using hhere), h⟩
      · next hhere =>
        split at h
        · next habove => exact ⟨_, habove ▸ .above hstart, h⟩
        · next habove =>
          split at h
          · cases h
          · next hshort =>
            split at h
            · next hchild =>
              simp only [Bool.or_eq_true, decide_eq_true_eq, not_or] at hhere
              rw [← FileNode.at?_append_singleton hstart] at hchild
              exact ⟨_, .entry hstart ⟨hhere.1, hhere.2, habove, Nat.not_lt.1 hshort⟩ hchild, h⟩
            · cases h
    · cases h
    · cases h
  · rintro ⟨next, hleads, h⟩
    rw [follow]
    cases hleads with
    | here hstart hname => simpa [hstart, hname] using h
    | above hstart => simpa [hstart] using h
    | entry hstart hname hchild =>
        rw [FileNode.at?_append_singleton hstart] at hchild
        simp only [hstart, hname.ne_empty, hname.ne_here, hname.ne_above,
          Nat.not_lt.2 hname.short, hchild]
        exact h

end FileSystem

/-! ## File systems -/

/-- Two file systems in which there is the same at every place but one. -/
structure FileSystem.SameBeside (place : List String) (before after : FileSystem) : Prop where
  workingDirectory : after.workingDirectory = before.workingDirectory
  surface : ∀ other, other ≠ place →
    (after.root.at? other).map FileNode.surface = (before.root.at? other).map FileNode.surface

namespace FileSystem

/-- A place in a directory, which a file can be written to. -/
inductive Fillable (system : FileSystem) : List String → Prop
  | entry {above : List String} {name : String} {entries : List (String × FileNode)}
      (habove : system.root.at? above = some (.directory entries))
      (hfree : ∀ inner, system.root.at? (above ++ [name]) ≠ some (.directory inner)) :
      Fillable system (above ++ [name])

variable {system after : FileSystem} {place : List String} {path : String}

theorem at?_write (system : FileSystem) (place : List String) (content : Bytes) :
    (system.write place content).root.at? place = some (.file content) :=
  system.root.at?_put (.file content) place

theorem sameBeside_write (h : system.Fillable place) (content : Bytes) :
    SameBeside place system (system.write place content) := by
  cases h with
  | entry habove hfree =>
      exact ⟨rfl, fun other hother => FileNode.surface_at?_put_of_ne content habove hfree hother⟩

namespace SameBeside

theorem isSome_at? (h : SameBeside place system after) {other : List String}
    (hother : other ≠ place) :
    (after.root.at? other).isSome = (system.root.at? other).isSome := by
  rw [← Option.isSome_map (f := FileNode.surface), h.surface other hother, Option.isSome_map]

theorem exists_directory (h : SameBeside place system after) {other : List String}
    (hother : other ≠ place) {entries : List (String × FileNode)}
    (hdirectory : system.root.at? other = some (.directory entries)) :
    ∃ listed, after.root.at? other = some (.directory listed) := by
  have hsurface := h.surface other hother
  rw [hdirectory] at hsurface
  obtain ⟨node, hnode, hnone⟩ := Option.map_eq_some_iff.1 hsurface
  cases node with
  | file content => cases hnone
  | directory listed => exact ⟨listed, hnode⟩

theorem origin_eq (h : SameBeside place system after) (path : String) :
    after.origin path = system.origin path := by
  rw [origin, origin, h.workingDirectory]

/-- A name leads on to the same place: no name leads on from a file, and what there was is
still there. -/
theorem leads (h : SameBeside place system after)
    (hfree : ∀ inner, system.root.at? place ≠ some (.directory inner))
    (hplace : (after.root.at? place).isSome = true) {start next : List String} {name : String}
    (hleads : system.Leads start name next) : after.Leads start name next := by
  -- the place that differs is no directory, so it is not where a name leads on from
  have hbeside {entries : List (String × FileNode)}
      (hstart : system.root.at? start = some (.directory entries)) :
      ∃ listed, after.root.at? start = some (.directory listed) :=
    h.exists_directory (fun hsame => hfree entries (hsame ▸ hstart)) hstart
  cases hleads with
  | here hstart hname =>
      obtain ⟨listed, hlisted⟩ := hbeside hstart
      exact .here hlisted hname
  | above hstart =>
      obtain ⟨listed, hlisted⟩ := hbeside hstart
      exact .above hlisted
  | entry hstart hname hchild =>
      obtain ⟨listed, hlisted⟩ := hbeside hstart
      refine .entry hlisted hname ?_
      by_cases hsame : start ++ [name] = place
      · rw [hsame]
        exact hplace
      · rw [h.isSome_at? hsame]
        exact hchild

/-- A path that could be followed is followed the same way. -/
theorem follow_eq_ok (h : SameBeside place system after)
    (hfree : ∀ inner, system.root.at? place ≠ some (.directory inner))
    (hplace : (after.root.at? place).isSome = true) {start reached names : List String}
    (hfollow : system.follow start names = .ok reached) :
    after.follow start names = .ok reached := by
  induction names generalizing start with
  | nil => exact hfollow
  | cons name names ih =>
      obtain ⟨next, hleads, hrest⟩ := follow_cons_eq_ok_iff.1 hfollow
      exact follow_cons_eq_ok_iff.2 ⟨next, h.leads hfree hplace hleads, ih hrest⟩

end SameBeside

/-! ## The place of an output -/

/-- Where the file goes that is written to a path: into a directory that is there, at the
last name of the path, where there is no directory. -/
inductive OutputAt (system : FileSystem) (path : String) : List String → Prop
  | place {before above : List String} {name : String} {entries : List (String × FileNode)}
      (htext : textFault? path = none) (hcomponents : Path.components path = before ++ [name])
      (hname : LookedUp name) (hfollow : system.follow (system.origin path) before = .ok above)
      (habove : system.root.at? above = some (.directory entries))
      (hfree : ∀ inner, system.root.at? (above ++ [name]) ≠ some (.directory inner)) :
      OutputAt system path (above ++ [name])

/-- Where a slash at the end leads, there is a directory. -/
theorem exists_directory_of_follow_append_empty {start reached names : List String}
    (h : system.follow start (names ++ [""]) = .ok reached) :
    ∃ entries, system.root.at? reached = some (.directory entries) := by
  have hreached := follow_append_empty h
  rw [follow_append, hreached, ok_bind] at h
  obtain ⟨next, hleads, -⟩ := follow_cons_eq_ok_iff.1 h
  exact hleads.exists_directory

/-- A list that does not end in a dropped item ends in the first item left of its reverse. -/
theorem eq_append_of_reverse {α : Type} {dropped : α → Bool} {items before : List α} {last : α}
    (htake : items.reverse.takeWhile dropped = [])
    (hdrop : items.reverse.dropWhile dropped = last :: before) :
    items = before.reverse ++ [last] := by
  have hall : items.reverse = last :: before := by
    rw [← List.takeWhile_append_dropWhile (p := dropped) (l := items.reverse), htake, hdrop,
      List.nil_append]
  rw [← List.reverse_reverse items, hall, List.reverse_cons]

theorem outputAt_of_locateOutput (h : system.locateOutput path = .ok place) :
    system.OutputAt path place := by
  -- every check that fails ends in an error, so each split leaves one branch
  unfold locateOutput at h
  cases htext : textFault? path with
  | some fault => rw [htext] at h; cases h
  | none =>
      rw [htext] at h
      dsimp only at h
      cases hparts : (Path.components path).reverse.dropWhile (fun part => decide (part = "")) with
      | nil =>
          rw [hparts] at h
          obtain ⟨above, -, hrest⟩ := bind_eq_ok_iff.1 h
          dsimp only at hrest
          split at hrest
          · cases hrest
          · next hplain => exact absurd (.inr (.inl rfl)) hplain
      | cons name before =>
          rw [hparts] at h
          obtain ⟨above, hfollow, hrest⟩ := bind_eq_ok_iff.1 h
          obtain ⟨entries, hdirectory⟩ := exists_directory_of_follow_append_empty hfollow
          dsimp only at hrest
          split at hrest
          · cases hrest
          · next hplain =>
            simp only [not_or, Decidable.not_not, List.isEmpty_iff] at hplain
            obtain ⟨hslashes, hempty, hhere, habove⟩ := hplain
            split at hrest
            · cases hrest
            · next hshort =>
              have hcomponents := eq_append_of_reverse hslashes hparts
              split at hrest
              · cases hrest
              · next hfree =>
                cases hrest
                exact .place htext hcomponents ⟨hempty, hhere, habove, Nat.not_lt.1 hshort⟩
                  (follow_append_empty hfollow) hdirectory hfree

theorem OutputAt.fillable (h : system.OutputAt path place) : system.Fillable place := by
  cases h with
  | place _ _ _ _ habove hfree => exact .entry habove hfree

theorem OutputAt.locate_write (h : system.OutputAt path place) (content : Bytes) :
    (system.write place content).locate path = .ok place := by
  have hsame := sameBeside_write h.fillable content
  have hthere := system.at?_write place content
  cases h with
  | @place before above name entries htext hcomponents hname hfollow habove hfree =>
      have hplace : ((system.write (above ++ [name]) content).root.at? (above ++ [name])).isSome =
          true := by rw [hthere]; rfl
      have hbeside : above ≠ above ++ [name] := by simp
      obtain ⟨listed, hlisted⟩ := hsame.exists_directory hbeside habove
      have hlast : (system.write (above ++ [name]) content).follow above [name] =
          .ok (above ++ [name]) :=
        follow_cons_eq_ok_iff.2 ⟨_, .entry hlisted hname hplace, rfl⟩
      refine locate_eq_ok_iff.2 ⟨htext, ?_⟩
      rw [hsame.origin_eq, hcomponents, follow_append, hsame.follow_eq_ok hfree hplace hfollow]
      exact hlast

/-- What was written to a path is read at it. -/
theorem OutputAt.read_write (h : system.OutputAt path place) (content : Bytes) :
    (system.write place content).read path = .ok content := by
  have hlookup : (system.write place content).lookup path = .ok (.file content) :=
    lookup_eq_ok_iff.2 ⟨place, h.locate_write content, system.at?_write place content⟩
  rw [read, hlookup]
  rfl

end FileSystem

end CallRedirect
