import CallRedirect.Proofs.NameOrder
import CallRedirect.Proofs.ScanParts
import Mathlib.Data.List.Nodup

/-!
# The order of archive entries

The entries of an archive have different names, because of entries with one name only
the last one counts.  They are lifted in the order of their names, and nothing but the
name, the size and the content of an entry shows.  So archives with the same entries in
another order give the same (`Scan.archive_eq_of_perm`).
-/

namespace CallRedirect

/-! ## Names of entries -/

namespace Archive

theorem map_name_replaceEntry (entry : Entry) (entries : List Entry) :
    (replaceEntry entry entries).map (·.name) =
      if entry.name ∈ entries.map (·.name) then entries.map (·.name)
      else entries.map (·.name) ++ [entry.name] := by
  induction entries with
  | nil => rfl
  | cons other entries ih =>
      rw [replaceEntry]
      by_cases hsame : other.name = entry.name
      · simp [hsame]
      · rw [if_neg hsame, List.map_cons, ih]
        have hmem : (entry.name ∈ (other :: entries).map (·.name)) =
            (entry.name ∈ entries.map (·.name)) := by
          simp [Ne.symm hsame]
        simp only [hmem]
        split <;> rfl

theorem nodup_replaceEntry (entry : Entry) {entries : List Entry}
    (h : (entries.map (·.name)).Nodup) : ((replaceEntry entry entries).map (·.name)).Nodup := by
  rw [map_name_replaceEntry]
  split
  · exact h
  · next hnew => exact List.Nodup.append h (List.nodup_singleton _) (by simpa using hnew)

theorem nodup_foldl_replaceEntry (listed : List Entry) {known : List Entry}
    (h : (known.map (·.name)).Nodup) :
    ((listed.foldl (fun known entry => replaceEntry entry known) known).map (·.name)).Nodup := by
  induction listed generalizing known with
  | nil => exact h
  | cons entry listed ih => exact ih (nodup_replaceEntry entry h)

/-- Archives are opened with entries that have different names. -/
theorem nodup_of_openEntries {container : Bytes} {entries : List Entry}
    (h : openEntries container = .ok entries) : (entries.map (·.name)).Nodup := by
  obtain ⟨found, hfound, hopened⟩ := bind_eq_ok_iff.1 h
  obtain ⟨-, -, hsame⟩ := bind_eq_ok_iff.1 hopened
  cases hsame
  unfold readEntries at hfound
  split at hfound
  · next listed _ =>
    cases hfound
    exact nodup_foldl_replaceEntry listed List.nodup_nil
  · cases hfound

/-- What shows of an entry: its name, its size and what reading it gives. -/
def Entry.shown (container : Bytes) (entry : Entry) :
    String × Nat × Except ContentError Bytes :=
  (entry.name, entry.size, content container entry)

end Archive

/-! ## Scanning entries -/

namespace Scan

variable {first parent : Nat} {isInput : Bool} {path : String} {container container' : Bytes}
  {entries entries' : List Archive.Entry}

theorem archiveEntry_congr {entry entry' : Archive.Entry}
    (h : entry'.shown container' = entry.shown container) :
    archiveEntry first parent path container' entry' =
      archiveEntry first parent path container entry := by
  simp only [Archive.Entry.shown, Prod.mk.injEq] at h
  obtain ⟨hname, hsize, hcontent⟩ := h
  simp only [archiveEntry, hname, hsize, hcontent]

theorem archiveEntries_congr
    (h : entries'.map (·.shown container') = entries.map (·.shown container)) :
    archiveEntries first parent path container' entries' =
      archiveEntries first parent path container entries := by
  induction entries generalizing entries' first with
  | nil =>
      rw [List.map_nil, List.map_eq_nil_iff] at h
      rw [h]
      rfl
  | cons entry entries ih =>
      obtain ⟨entry', others', rfl, hentry, hothers⟩ := List.map_eq_cons_iff.1 h
      simp only [archiveEntries, archiveEntry_congr hentry, ih hothers]

/-- What shows of the class entries is sorted by name. -/
theorem map_shown_classEntries (container : Bytes) (entries : List Archive.Entry) :
    (classEntries entries).map (·.shown container) =
      ((entries.map (·.shown container)).filter fun shown => isClassEntry shown.1).mergeSort
        fun a b => a.1 ≤ b.1 := by
  rw [classEntries, List.map_mergeSort (s := fun a b => a.1 ≤ b.1), List.filter_map]
  · rfl
  · exact fun _ _ _ _ => rfl

theorem map_shown_classEntries_eq_of_perm (hdistinct : (entries.map (·.name)).Nodup)
    (hperm : (entries'.map (·.shown container')).Perm (entries.map (·.shown container))) :
    (classEntries entries').map (·.shown container') =
      (classEntries entries).map (·.shown container) := by
  rw [map_shown_classEntries, map_shown_classEntries]
  refine (mergeSort_name_eq_of_perm (hperm.filter _).symm ?_).symm
  have hnames : ((entries.map (·.shown container)).map (·.1)).Nodup := by
    rw [List.map_map]
    exact hdistinct
  exact hnames.sublist (List.filter_sublist.map _)

/-- A scan without its first artifact. -/
def behindFirst (scan : Scan) : Scan := ⟨scan.artifacts.tail, scan.classes⟩

theorem outcome_archive_map_behindFirst
    (hentries : Archive.openEntries container = .ok entries) :
    (archive first isInput ⟨path, .ok container⟩).outcome.map behindFirst =
      (archiveEntries (first + 1) first path container (classEntries entries)).outcome := by
  rw [outcome_archive_of_openEntries rfl hentries]
  cases (archiveEntries (first + 1) first path container (classEntries entries)).outcome <;> rfl

/-- Archives with the same entries in another order give the same artifacts for their entries
and the same classes, or fail in the same way. -/
theorem archive_eq_of_perm (hentries : Archive.openEntries container = .ok entries)
    (hentries' : Archive.openEntries container' = .ok entries')
    (hperm : (entries'.map (·.shown container')).Perm (entries.map (·.shown container))) :
    (archive first isInput ⟨path, .ok container'⟩).outcome.map behindFirst =
      (archive first isInput ⟨path, .ok container⟩).outcome.map behindFirst := by
  have hdistinct := Archive.nodup_of_openEntries hentries
  rw [outcome_archive_map_behindFirst hentries, outcome_archive_map_behindFirst hentries',
    archiveEntries_congr (map_shown_classEntries_eq_of_perm hdistinct hperm)]

/-! ## The order in which entries stand -/

/-- Class entries stand in the order of their names. -/
theorem pairwise_classEntries (hdistinct : (entries.map (·.name)).Nodup) :
    (classEntries entries).Pairwise fun before after => before.name < after.name :=
  pairwise_mergeSort_name_lt (hdistinct.sublist (List.filter_sublist.map _))

theorem map_uri_archiveEntries {scan : Scan}
    (h : (archiveEntries first parent path container entries).outcome = .ok scan) :
    scan.artifacts.map (·.uri) = entries.map fun entry => "jar:" ++ path ++ "!/" ++ entry.name := by
  induction entries generalizing first scan with
  | nil => cases h; rfl
  | cons entry entries ih =>
      obtain ⟨head, others, hhead, hothers, rfl⟩ := outcome_archiveEntries_cons_eq_ok_iff.1 h
      obtain ⟨bytes, cls, -, -, rfl⟩ := outcome_archiveEntry_eq_ok_iff.1 hhead
      rw [artifacts_append, List.map_append, ih hothers]
      rfl

end Scan

end CallRedirect
