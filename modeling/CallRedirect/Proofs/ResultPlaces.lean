import CallRedirect.Proofs.ArtifactTable
import CallRedirect.Proofs.Batching
import CallRedirect.Proofs.ReportDocument
import CallRedirect.Run

/-!
# Results point at the artifacts they came from

A result of the report names an artifact by its position in the artifact table.
The position is given to a class when it is lifted, stays with the class while its
calls are redirected, and is written out with each of its results.

* `Settings.outcome_run_eq_ok_iff` takes a run apart into its stages.
* `Sarif.PointsTo` says of a result in the report which artifact it came from, and
  `RuleSet.pointsTo_of_mem_resultsFor` that the results of a class point at the
  artifact that the class was lifted from.
* `run_results_at_artifacts` is the statement about whole runs.
-/

namespace CallRedirect

/-! ## The stages of a run -/

/-- A run succeeds exactly if its input is there and its rules, its scan and its output do,
and this is what it then leads to. -/
theorem Settings.outcome_run_eq_ok_iff {settings : Settings} {system : FileSystem}
    {arguments : Option (List String)} {done : RunResult} :
    (settings.run system arguments).outcome = .ok done ↔
      system.contains settings.input = true ∧ ∃ rules scan destination,
        (settings.loadRules system).outcome = .ok rules ∧
        (Scan.input system settings.input).outcome = .ok scan ∧
        settings.destination system = .ok destination ∧
        let batch := rules.redirectClasses scan.classes
        done = {
          report := Sarif.document scan.artifacts batch.results ⟨batch.missing = 0, arguments⟩
          destination := destination
          tally :=
            ⟨scan.classes.length, batch.candidates, batch.redirections, batch.missing⟩ } := by
  unfold run
  split
  · next habsent =>
    constructor
    · intro h
      cases h
    · rintro ⟨hcontains, -⟩
      exact absurd hcontains habsent
  · next hcontains =>
    simp only [Logged.outcome_bind, Logged.outcome_ofExcept, Logged.outcome_log,
      Logged.outcome_mapError, Logged.outcome_pure, bind_eq_ok_iff, mapError_eq_ok_iff,
      Except.ok.injEq]
    constructor
    · rintro ⟨rules, hrules, -, -, scan, hscan, -, -, destination, hdestination, rfl⟩
      exact ⟨not_not.1 hcontains, rules, scan, destination, hrules, hscan, hdestination, rfl⟩
    · rintro ⟨-, rules, scan, destination, hrules, hscan, hdestination, rfl⟩
      exact ⟨rules, hrules, (), trivial, scan, hscan, (), trivial, destination, hdestination, rfl⟩

/-! ## The results of one class -/

namespace Sarif

/-- A result of the report is about a class or about a method of it. -/
def Names (result : Json.Value) (cls : Class) : Prop :=
  (result.at? (Result.logicalSteps "kind") = some (.string "type") ∧
    result.at? (Result.logicalSteps "name") = some (.string cls.name)) ∨
  (result.at? (Result.logicalSteps "kind") = some (.string "function") ∧
    ∃ method ∈ cls.methods, result.at? (Result.logicalSteps "name") =
      some (.string (cls.name ++ "." ++ method.name ++ method.descriptor)))

/-- A result of the report points at a position of the artifact table.  A class file or an
entry of an archive stands there, and the class that the result is about is what its bytes
are lifted to. -/
structure PointsTo (offered : String → Bytes → Prop) (table : List Artifact)
    (result : Json.Value) (position : Nat) : Prop where
  index : result.at? Result.indexSteps = some (.ofNat position)
  origin : ∃ artifact bytes cls, table[position]? = some artifact ∧ ¬ artifact.IsArchive ∧
    artifact.Source offered table bytes ∧ liftClass bytes position = .ok cls ∧ Names result cls

theorem PointsTo.imp {offered offered' : String → Bytes → Prop} {table : List Artifact}
    {result : Json.Value} {position : Nat}
    (himp : ∀ path content, offered path content → offered' path content)
    (h : PointsTo offered table result position) : PointsTo offered' table result position := by
  obtain ⟨artifact, bytes, cls, hposition, harchive, hsource, hlift, hnames⟩ := h.origin
  exact ⟨h.index, artifact, bytes, cls, hposition, harchive, hsource.imp himp, hlift, hnames⟩

theorem PointsTo.artifact_eq {offered : String → Bytes → Prop} {table : List Artifact}
    {result : Result} {position : Nat} (h : PointsTo offered table result.json position) :
    result.artifact = position := by
  have hindex := h.index
  rw [Result.at?_json_index] at hindex
  injection hindex with hvalue
  injection hvalue with hnumber
  injection hnumber

end Sarif

namespace RuleSet

variable {rules : RuleSet} {cls : Class} {result : Sarif.Result}

theorem names_of_mem_resultsFor (h : result ∈ rules.resultsFor cls) :
    Sarif.Names result.json cls := by
  rcases List.mem_append.1 h with hredirection | hmissing
  · obtain ⟨entry, hentry, rfl⟩ := List.mem_map.1 hredirection
    obtain ⟨method, hmethod, hid⟩ := List.mem_map.1 (id_mem_of_mem_redirections hentry)
    right
    refine ⟨Sarif.Result.at?_json_kind _, method, hmethod, ?_⟩
    have hname : method.name = entry.method := congrArg MethodId.name hid
    have hdescriptor : method.descriptor = entry.descriptor := congrArg MethodId.descriptor hid
    rw [Sarif.Result.at?_json_name, hname, hdescriptor]
    rfl
  · obtain ⟨missing, -, rfl⟩ := List.mem_map.1 hmissing
    left
    exact ⟨Sarif.Result.at?_json_kind _, Sarif.Result.at?_json_name _⟩

theorem pointsTo_of_mem_resultsFor {offered : String → Bytes → Prop} {table : List Artifact}
    {position : Nat} (h : result ∈ rules.resultsFor cls)
    (hlifted : cls.LiftedAt offered table position) :
    Sarif.PointsTo offered table result.json position := by
  obtain ⟨artifact, bytes, hposition, hsource, hlift⟩ := hlifted
  constructor
  · rw [Sarif.Result.at?_json_index, (artifact_and_className_of_mem_resultsFor h).1,
      artifact_of_liftClass hlift]
    rfl
  · exact ⟨artifact, bytes, cls, hposition, hsource.not_isArchive, hsource, hlift,
      names_of_mem_resultsFor h⟩

/-- Results at a class rather than at a method are those for missing methods. -/
theorem missing_eq_nil_iff :
    (rules.redirectClass cls).report.missing = [] ↔
      ∀ result ∈ rules.resultsFor cls, result.place.kind ≠ "type" := by
  constructor
  · intro hnone result hresult
    rcases List.mem_append.1 hresult with hredirection | hmissing
    · obtain ⟨entry, -, rfl⟩ := List.mem_map.1 hredirection
      exact (by decide : ("function" : String) ≠ "type")
    · rw [hnone] at hmissing
      cases hmissing
  · intro hkinds
    rw [List.eq_nil_iff_forall_not_mem]
    intro missing hmissing
    refine hkinds (.ofMissing cls.name cls.artifact missing) ?_ rfl
    exact List.mem_append_right _ (List.mem_map_of_mem hmissing)

theorem missing_redirectClasses_eq_zero_iff {classes : List Class} :
    (rules.redirectClasses classes).missing = 0 ↔
      ∀ result ∈ (rules.redirectClasses classes).results, result.place.kind ≠ "type" := by
  rw [missing_redirectClasses, results_redirectClasses, List.sum_eq_zero_iff_forall_eq_nat]
  simp only [List.mem_map, List.mem_flatMap, forall_exists_index, and_imp,
    forall_apply_eq_imp_iff₂, List.length_eq_zero_iff, missing_eq_nil_iff]
  constructor
  · intro hall result cls hcls hresult
    exact hall cls hcls result hresult
  · intro hall cls hcls result hresult
    exact hall result cls hcls hresult

end RuleSet

/-! ## The results of a run -/

/-- The results of classes that were lifted one behind the other from a table are ordered
by position. -/
theorem Scan.Placed.pairwise_results {offered : String → Bytes → Prop} {table : List Artifact}
    {scan : Scan} (h : scan.Placed offered table) (rules : RuleSet) :
    (scan.classes.flatMap rules.resultsFor).Pairwise
      fun first second => first.artifact ≤ second.artifact := by
  have hartifact {cls : Class} {result : Sarif.Result} (hresult : result ∈ rules.resultsFor cls) :
      result.artifact = cls.artifact :=
    (RuleSet.artifact_and_className_of_mem_resultsFor hresult).1
  rw [List.pairwise_flatMap]
  constructor
  · intro cls _
    refine List.pairwise_of_forall_mem_list fun first hfirst second hsecond => ?_
    exact Int.le_of_eq ((hartifact hfirst).trans (hartifact hsecond).symm)
  · refine h.ordered.imp fun hlt first hfirst second hsecond => ?_
    rw [hartifact hfirst, hartifact hsecond]
    exact Int.le_of_lt hlt

/-- Every result of a run that succeeds points at the artifact that it came from, in the
order of the artifact table, and the run is called successful exactly if no result is about
a class that lacks a method.  The artifacts are files at or below the input; where names are
proper, they are read at the paths that the table gives.  Each row of the table in the report
shows its artifact. -/
theorem run_results_at_artifacts {settings : Settings} {system : FileSystem}
    {arguments : Option (List String)} {done : RunResult}
    (h : (settings.run system arguments).outcome = .ok done) :
    ∃ (table : List Artifact) (results : List Json.Value) (positions : List Nat)
      (successful : Bool),
      (∀ position : Nat, done.report.at? ["runs", 0, "artifacts", .item position] =
        (table[position]?).map (·.json)) ∧
      (∀ position artifact, table[position]? = some artifact →
        Sarif.ShowsArtifact done.report position artifact) ∧
      done.report.at? ["runs", 0, "results"] = some (.array results) ∧
      List.Forall₂ (Sarif.PointsTo (system.Offers settings.input) table) results positions ∧
      (system.root.Proper → List.Forall₂
        (Sarif.PointsTo (fun path content => system.read path = .ok content) table)
        results positions) ∧
      positions.Pairwise (· ≤ ·) ∧
      done.report.at? ["runs", 0, "invocations", 0, "executionSuccessful"] =
        some (.bool successful) ∧
      (successful = true ↔ ∀ result ∈ results,
        result.at? (Sarif.Result.logicalSteps "kind") ≠ some (.string "type")) := by
  obtain ⟨-, rules, scan, destination, -, hscan, -, rfl⟩ := Settings.outcome_run_eq_ok_iff.1 h
  have hplaced : scan.Placed (system.Offers settings.input) [] := Scan.placed_input hscan
  let results := scan.classes.flatMap rules.resultsFor
  have hresults : (rules.redirectClasses scan.classes).results = results :=
    rules.results_redirectClasses scan.classes
  have hpoints : List.Forall₂ (Sarif.PointsTo (system.Offers settings.input) scan.artifacts)
      (results.map (·.json)) (results.map (·.artifact.toNat)) := by
    rw [List.forall₂_map_left_iff, List.forall₂_map_right_iff, List.forall₂_same]
    intro result hresult
    obtain ⟨cls, hcls, hof⟩ := List.mem_flatMap.1 hresult
    obtain ⟨position, -, hlifted⟩ := hplaced.located cls hcls
    have hposition : result.artifact.toNat = position := by
      rw [(RuleSet.artifact_and_className_of_mem_resultsFor hof).1, hlifted.artifact_eq,
        Int.toNat_natCast]
    rw [hposition]
    exact RuleSet.pointsTo_of_mem_resultsFor hof hlifted
  refine ⟨scan.artifacts, results.map (·.json), results.map (·.artifact.toNat),
    (rules.redirectClasses scan.classes).missing = 0, ?_, ?_, ?_, hpoints, ?_, ?_, ?_, ?_⟩
  · intro position
    refine (Sarif.at?_document_artifacts scan.artifacts _ _ position []).trans ?_
    cases scan.artifacts[position]? <;> rfl
  · intro position artifact hartifact
    exact Sarif.showsArtifact_document _ _ _ hartifact
  · rw [Sarif.at?_document_results, hresults]
  · intro hproper
    exact hpoints.imp fun _ _ hpoint => hpoint.imp fun _ _ => FileSystem.read_of_offers hproper
  · rw [List.pairwise_map]
    exact (hplaced.pairwise_results rules).imp Int.toNat_le_toNat
  · rw [Sarif.at?_document_successful]
  · rw [decide_eq_true_iff, RuleSet.missing_redirectClasses_eq_zero_iff, hresults,
      List.forall_mem_map]
    simp only [Sarif.Result.at?_json_kind, ne_eq, Option.some.injEq, Json.Value.string.injEq]

/-- A class file of a class that the built-in rule names and that has no methods. -/
def spawnerClass : Bytes :=
  [0xca, 0xfe, 0xba, 0xbe, 0, 0, 0, 0x34, 0, 3, 7, 0, 2, 1, 0, 37, 0x6e, 0x65, 0x74, 0x2f, 0x6d,
    0x69, 0x6e, 0x65, 0x63, 0x72, 0x61, 0x66, 0x74, 0x2f, 0x77, 0x6f, 0x72, 0x6c, 0x64, 0x2f, 0x6c,
    0x65, 0x76, 0x65, 0x6c, 0x2f, 0x42, 0x61, 0x73, 0x65, 0x53, 0x70, 0x61, 0x77, 0x6e, 0x65, 0x72,
    0, 0, 0, 1, 0, 0, 0, 0, 0, 0, 0, 0, 0, 0]

/-- An archive that stores this class file under the name `x.class`. -/
def spawnerArchive : Bytes :=
  [0x50, 0x4b, 3, 4, 20, 0, 0, 0, 0, 0, 0, 0, 0x21, 0, 0x10, 0x2b, 0x51, 0x68, 67, 0, 0, 0, 67, 0,
    0, 0, 7, 0, 0, 0, 0x78, 0x2e, 0x63, 0x6c, 0x61, 0x73, 0x73] ++ spawnerClass ++
  [0x50, 0x4b, 1, 2, 20, 0, 20, 0, 0, 0, 0, 0, 0, 0, 0x21, 0, 0x10, 0x2b, 0x51, 0x68, 67, 0, 0, 0,
    67, 0, 0, 0, 7, 0, 0, 0, 0, 0, 0, 0, 0, 0, 0, 0, 0x80, 1, 0, 0, 0, 0, 0x78, 0x2e, 0x63, 0x6c,
    0x61, 0x73, 0x73, 0x50, 0x4b, 5, 6, 0, 0, 0, 0, 1, 0, 1, 0, 53, 0, 0, 0, 104, 0, 0, 0, 0, 0]

/-- The only entry of this archive. -/
def spawnerEntry : Archive.Entry where
  name := "x.class"
  storedName := [0x78, 0x2e, 0x63, 0x6c, 0x61, 0x73, 0x73]
  comment := ""
  method := 0
  encrypted := false
  isSealed := false
  checksum := 0x68512b10
  storedSize := 67
  size := 67
  header := 0

/-- The class of this class file, at position 1. -/
def spawner : Class := ⟨"net/minecraft/world/level/BaseSpawner", [], 1⟩

theorem content_spawnerArchive :
    Archive.content spawnerArchive spawnerEntry = .ok spawnerClass := by
  have hpacked : Archive.packedData spawnerArchive spawnerEntry = .ok (.stored, spawnerClass) := by
    decide +kernel
  -- the check sum is taken in two steps, so that neither of them gets too deep
  have hfirst : (spawnerClass.take 34).foldl Archive.checksumStep (~~~ 0) = 0xe73cec68 := by
    decide +kernel
  have hsecond : (spawnerClass.drop 34).foldl Archive.checksumStep 0xe73cec68 = 0x97aed4ef := by
    decide +kernel
  have hchecksum : Archive.checksum spawnerClass = 0x68512b10 := by
    rw [Archive.checksum, ← List.take_append_drop 34 spawnerClass, List.foldl_append, hfirst,
      hsecond]
    rfl
  have hsame : (Archive.checksum spawnerClass).toNat = spawnerEntry.checksum := by
    rw [hchecksum]
    rfl
  exact Archive.content_eq_ok_iff.2 ⟨(.stored, spawnerClass), hpacked, rfl, hsame⟩

theorem outcome_archive_spawnerArchive :
    (Scan.archive 0 true ⟨"a.jar", .ok spawnerArchive⟩).outcome = .ok
      ⟨[⟨"a.jar", some 179, none, true⟩, ⟨"jar:a.jar!/x.class", some 67, some 0, false⟩],
        [spawner]⟩ := by
  let inner : Scan := ⟨[⟨"jar:a.jar!/x.class", some 67, some 0, false⟩], [spawner]⟩
  have hentries : Archive.openEntries spawnerArchive = .ok [spawnerEntry] := by decide +kernel
  have hlift : liftClass spawnerClass 1 = .ok spawner := by decide +kernel
  have hinner : (Scan.archiveEntries 1 0 "a.jar" spawnerArchive [spawnerEntry]).outcome =
      .ok inner := by
    refine Scan.outcome_archiveEntries_cons_eq_ok_iff.2 ⟨inner, .empty, ?_, rfl, rfl⟩
    exact Scan.outcome_archiveEntry_eq_ok_iff.2
      ⟨spawnerClass, spawner, content_spawnerArchive, hlift, rfl⟩
  have hclasses : Scan.classEntries [spawnerEntry] = [spawnerEntry] := by
    have hfilter : [spawnerEntry].filter (fun entry => Scan.isClassEntry entry.name) =
        [spawnerEntry] := by decide +kernel
    rw [Scan.classEntries, hfilter, List.mergeSort_singleton]
  refine Scan.outcome_archive_eq_ok_iff.2
    ⟨spawnerArchive, [spawnerEntry], inner, rfl, hentries, ?_, rfl⟩
  rw [hclasses]
  exact hinner

/-- The archive stands first in the table, so the result for its entry points behind it. -/
theorem run_results_at_artifacts_archive :
    let system : FileSystem := ⟨.directory [("a.jar", .file spawnerArchive)], []⟩
    let settings : Settings := ⟨"a.jar", none, none, false, false, false⟩
    ∃ done table result, (settings.run system none).outcome = .ok done ∧
      done.report.at? ["runs", 0, "results"] = some (.array [result]) ∧
      Sarif.PointsTo (fun path content => system.read path = .ok content) table result 1 := by
  intro system settings
  let scan : Scan :=
    ⟨[⟨"a.jar", some 179, none, true⟩, ⟨"jar:a.jar!/x.class", some 67, some 0, false⟩], [spawner]⟩
  have hscan : (Scan.input system "a.jar").outcome = .ok scan := by
    have hread : system.read "a.jar" = .ok spawnerArchive := rfl
    show (Scan.archive 0 true ⟨"a.jar", system.read "a.jar"⟩).outcome = .ok scan
    rw [hread]
    exact outcome_archive_spawnerArchive
  let batch := RuleSet.builtin.redirectClasses [spawner]
  let done : RunResult := {
    report := Sarif.document scan.artifacts batch.results ⟨batch.missing = 0, none⟩
    destination := .standardOutput
    tally := ⟨1, batch.candidates, batch.redirections, batch.missing⟩ }
  have hrun : (settings.run system none).outcome = .ok done :=
    Settings.outcome_run_eq_ok_iff.2
      ⟨by decide, RuleSet.builtin, scan, .standardOutput, rfl, hscan, rfl, rfl⟩
  let result : Sarif.Result := .ofMissing spawner.name 1 ⟨Rule.finalizeSpawnMethod,
    ⟨"serverTick", "(Lnet/minecraft/server/level/ServerLevel;Lnet/minecraft/core/BlockPos;)V"⟩⟩
  have hshown : done.report.at? ["runs", 0, "results"] = some (.array [result.json]) := by
    have hresult : batch.results = [result] := by
      rw [RuleSet.results_redirectClasses]
      decide +kernel
    rw [Sarif.at?_document_results, hresult, List.map_singleton]
  have hproper : system.root.Proper := by
    have hname : FileNode.ProperName "a.jar" := by constructor <;> decide
    exact .directory (List.forall_mem_singleton.2 hname) (by decide)
      (List.forall_mem_singleton.2 .file)
  obtain ⟨table, results, positions, -, -, -, hresults, -, hpoints, -⟩ :=
    run_results_at_artifacts hrun
  rw [hshown] at hresults
  cases hresults
  obtain ⟨position, others, hpoint, -, rfl⟩ := List.forall₂_cons_left_iff.1 (hpoints hproper)
  have hposition : position = 1 := by
    have hsame : (1 : Int) = position := hpoint.artifact_eq
    omega
  exact ⟨done, table, result.json, hrun, hshown, hposition ▸ hpoint⟩

end CallRedirect
