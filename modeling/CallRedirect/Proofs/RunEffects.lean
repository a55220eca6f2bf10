import CallRedirect.Program
import CallRedirect.Proofs.Delivery
import CallRedirect.Proofs.FailureReport
import CallRedirect.Proofs.FileWriting
import CallRedirect.Proofs.ResultPlaces
import CallRedirect.Proofs.Utf8Reading

/-!
# What a run leaves behind

A run reads its rules and its input, and only then opens its output.  So a run that fails
before leaves all files as they were, and every other run reports on the files as they were
before, whatever place the report goes to.  That place is the only one that changes.  It
does not follow that the report is there as a whole: when the output stops taking bytes, the
run fails as well, and what was there before the run is lost.

* `Settings.stageFaults` looks at every stage of a run on its own, and
  `Settings.outcome_run_eq_error_iff` says that the first fault among them is the one that
  a run fails with.
* `conclude_run_effects` says what there is afterwards: on the standard output, at the path
  of the output and at all other places.
-/

namespace CallRedirect

/-! ## The first fault of a run -/

/-- The error that a step gives, if it gives one. -/
def fault? {ε α : Type} : Except ε α → Option ε
  | .ok _ => none
  | .error cause => some cause

namespace Settings

/-- The faults of the stages of a run, in order: the input is not there, the rules are not
loaded, the scan fails, there is no place for the output. -/
def stageFaults (settings : Settings) (system : FileSystem) : List (Option RunError) := [
  if system.contains settings.input then none else some (.inputMissing settings.input),
  fault? (settings.loadRules system).outcome,
  fault? ((Scan.input system settings.input).outcome.mapError .scan),
  fault? (settings.destination system)]

/-- A run fails with the fault of the first stage that has one. -/
theorem outcome_run_eq_error_iff {settings : Settings} {system : FileSystem}
    {arguments : Option (List String)} {cause : RunError} :
    (settings.run system arguments).outcome = .error cause ↔
      (settings.stageFaults system).findSome? id = some cause := by
  unfold run stageFaults
  by_cases hcontains : system.contains settings.input = true
  · rw [if_neg (not_not.2 hcontains), if_pos hcontains]
    simp only [Logged.outcome_bind, Logged.outcome_ofExcept, Logged.outcome_log,
      Logged.outcome_mapError, Logged.outcome_pure]
    cases (settings.loadRules system).outcome with
    | error fault => simp [fault?]
    | ok rules =>
        cases (Scan.input system settings.input).outcome with
        | error fault => simp [fault?]
        | ok scan => cases settings.destination system <;> simp [fault?]
  · rw [if_pos hcontains, if_neg hcontains]
    simp [Logged.outcome_bind]

theorem findSome?_stageFaults_eq_none_iff {settings : Settings} {system : FileSystem}
    {arguments : Option (List String)} :
    (settings.stageFaults system).findSome? id = none ↔
      ∃ done, (settings.run system arguments).outcome = .ok done := by
  cases hrun : (settings.run system arguments).outcome with
  | error cause => simp [outcome_run_eq_error_iff.1 hrun]
  | ok done =>
      refine ⟨fun _ => ⟨done, rfl⟩, fun _ => ?_⟩
      -- a fault would be that of the run, and the run has none
      rw [Option.eq_none_iff_forall_ne_some]
      intro cause hcause
      have hfails : (settings.run system arguments).outcome = .error cause :=
        outcome_run_eq_error_iff.2 hcause
      rw [hrun] at hfails
      cases hfails

/-- A report on the files as they are: the results of the rules and the input that are
there. -/
def ReportsOn (settings : Settings) (system : FileSystem) (arguments : Option (List String))
    (report : Json.Value) : Prop :=
  ∃ rules scan, (settings.loadRules system).outcome = .ok rules ∧
    (Scan.input system settings.input).outcome = .ok scan ∧
    let batch := rules.redirectClasses scan.classes
    report = Sarif.document scan.artifacts batch.results ⟨batch.missing = 0, arguments⟩

variable {settings : Settings} {system : FileSystem} {arguments : Option (List String)}

theorem reportsOn_of_run {done : RunResult}
    (h : (settings.run system arguments).outcome = .ok done) :
    settings.ReportsOn system arguments done.report ∧
      settings.destination system = .ok done.destination := by
  obtain ⟨-, rules, scan, destination, hrules, hscan, hdestination, rfl⟩ :=
    outcome_run_eq_ok_iff.1 h
  exact ⟨⟨rules, scan, hrules, hscan, rfl⟩, hdestination⟩

/-! ## Where the report goes -/

/-- Whether a report goes to the standard output: no output is given, or a dash. -/
def toStandardOutput (settings : Settings) : Bool := settings.output.all Path.isDash

theorem destination_of_toStandardOutput {destination : Destination}
    (h : settings.toStandardOutput = true)
    (hdestination : settings.destination system = .ok destination) :
    destination = .standardOutput := by
  unfold toStandardOutput at h
  unfold Settings.destination at hdestination
  cases houtput : settings.output with
  | none =>
      rw [houtput] at hdestination
      exact (Except.ok.inj hdestination).symm
  | some path =>
      rw [houtput, Option.all_some] at h
      rw [houtput] at hdestination
      dsimp only at hdestination
      rw [if_pos h] at hdestination
      exact (Except.ok.inj hdestination).symm

theorem exists_place_of_destination {destination : Destination} {path : String}
    (houtput : settings.output = some path) (h : settings.toStandardOutput = false)
    (hdestination : settings.destination system = .ok destination) :
    ∃ place, system.OutputAt path place ∧ destination = .file place := by
  have hdash : Path.isDash path = false := by
    rw [toStandardOutput, houtput] at h
    exact h
  rw [Settings.destination, houtput] at hdestination
  dsimp only at hdestination
  rw [hdash, if_neg Bool.false_ne_true, mapError_eq_ok_iff, map_eq_ok_iff] at hdestination
  obtain ⟨place, hplace, rfl⟩ := hdestination
  exact ⟨place, FileSystem.outputAt_of_locateOutput hplace, rfl⟩

end Settings

/-! ## What there is after a run -/

/-- The outcome of a run that fails: the log is followed by the failure and nothing else. -/
structure Outcome.Fails (outcome : Outcome) (log : List String) (cause : RunError) : Prop where
  exitCode : outcome.exitCode = 1
  tally : outcome.tally = none
  errors : ∃ shown, outcome.errors = log ++ shown ∧ cause.failure.ShownBy shown

/-- How the report of a run is delivered where there may be a limit: as a whole, or as far as
there is room for it, and then the run fails. -/
inductive Outcome.Delivers (outcome : Outcome) (log : List String) (done : RunResult)
    (limit : Option Limit) : Bytes → Prop
  | whole (hroom : HasRoom limit done.bytes) (hexit : outcome.exitCode = 0)
      (hlog : outcome.errors = log) : Delivers outcome log done limit done.bytes
  | front {stop : Limit} (hlimit : limit = some stop) (hroom : stop.room < done.bytes.length)
      (hfails : outcome.Fails log (done.stopError stop)) :
      Delivers outcome log done limit (done.bytes.take stop.room)

theorem Outcome.Fails.withReport {outcome : Outcome} {log : List String} {cause : RunError}
    (h : outcome.Fails log cause) (taken : Bytes) (destination : Destination) :
    (outcome.withReport taken destination).Fails log cause := by
  cases destination <;> exact ⟨h.exitCode, h.tally, h.errors⟩

/-- Where the report is put has no influence on how the run ends. -/
theorem Outcome.Delivers.withReport {outcome : Outcome} {log : List String} {done : RunResult}
    {limit : Option Limit} {bytes : Bytes} (h : outcome.Delivers log done limit bytes)
    (taken : Bytes) (destination : Destination) :
    (outcome.withReport taken destination).Delivers log done limit bytes := by
  cases h with
  | whole hroom hexit hlog => cases destination <;> exact .whole hroom hexit hlog
  | front hlimit hroom hfails => exact .front hlimit hroom (hfails.withReport _ _)

theorem Outcome.Delivers.whole_of_none {outcome : Outcome} {log : List String}
    {done : RunResult} {bytes : Bytes} (h : outcome.Delivers log done none bytes) :
    outcome.exitCode = 0 ∧ bytes = done.bytes := by
  cases h with
  | whole _ hexit _ => exact ⟨hexit, rfl⟩
  | front hlimit => cases hlimit

namespace Program

variable {settings : Settings} {filter : EventFilter} {media : Media} {system : FileSystem}
  {work : Logged RunError RunResult}

theorem fails_failed (system : FileSystem) (log : List String) (cause : RunError) :
    (failed system log cause).Fails log cause :=
  ⟨rfl, rfl, _, rfl, Failure.shownBy_report cause.texts_failure_ne_nil⟩

theorem conclude_of_error {cause : RunError} (h : work.outcome = .error cause) :
    conclude settings filter media system work =
      failed system (logLines filter work.events) cause := by
  simp only [conclude, h]

theorem conclude_of_hasRoom {done : RunResult} (h : work.outcome = .ok done)
    (hroom : HasRoom (media done.destination) done.bytes) :
    conclude settings filter media system work =
      (succeeded settings system (logLines filter work.events) done.tally).withReport done.bytes
        done.destination := by
  obtain ⟨htaken, hending⟩ := RunResult.write_of_hasRoom hroom
  simp only [conclude, h, hending, htaken]

theorem conclude_of_lt {done : RunResult} {stop : Limit} (h : work.outcome = .ok done)
    (hlimit : media done.destination = some stop) (hstop : stop.room < done.bytes.length) :
    conclude settings filter media system work =
      (failed system (logLines filter work.events) (done.stopError stop)).withReport
        (done.bytes.take stop.room) done.destination := by
  obtain ⟨htaken, hending⟩ := RunResult.write_of_lt hlimit hstop
  simp only [conclude, h, hending, htaken]

/-- A run that gets to its report delivers it, and nothing else changes. -/
theorem exists_conclude_eq_withReport {done : RunResult} (h : work.outcome = .ok done) :
    ∃ (before : Outcome) (taken : Bytes), conclude settings filter media system work =
        before.withReport taken done.destination ∧
      before.system = system ∧ before.printed = [] ∧
      before.Delivers (logLines filter work.events) done (media done.destination) taken := by
  by_cases hroom : HasRoom (media done.destination) done.bytes
  · exact ⟨_, _, conclude_of_hasRoom h hroom, rfl, rfl, .whole hroom rfl rfl⟩
  · obtain ⟨stop, hlimit, hstop⟩ : ∃ stop, media done.destination = some stop ∧
        stop.room < done.bytes.length := by
      simpa [HasRoom] using hroom
    exact ⟨_, _, conclude_of_lt h hlimit hstop, rfl, rfl,
      .front hlimit hstop (fails_failed _ _ _)⟩

end Program

/-- A run with a fault in one of its stages changes no file, writes nothing to the standard
output and fails with the first fault.  Every other run reports on the files as they were
before, and delivers its report, or the front of it if there is not more room.  That goes to
the standard output and no file changes, or it can be read at the path of the output and
there is the same as before at every other place. -/
theorem conclude_run_effects (settings : Settings) (filter : EventFilter) (media : Media)
    (system : FileSystem) (arguments : Option (List String)) :
    let work := settings.run system arguments
    let log := Program.logLines filter work.events
    let outcome := Program.conclude settings filter media system work
    (∀ cause, (settings.stageFaults system).findSome? id = some cause →
      work.outcome = .error cause ∧ outcome.system = system ∧ outcome.printed = [] ∧
        outcome.Fails log cause) ∧
    ((settings.stageFaults system).findSome? id = none →
      ∃ done taken, work.outcome = .ok done ∧ settings.ReportsOn system arguments done.report ∧
        settings.destination system = .ok done.destination ∧
        outcome.Delivers log done (media done.destination) taken ∧
        (settings.toStandardOutput = true → done.destination = .standardOutput ∧
          outcome.system = system ∧ outcome.printed = taken ∧
          (taken = done.bytes → outcome.output = done.text)) ∧
        ∀ path, settings.output = some path → settings.toStandardOutput = false →
          outcome.printed = [] ∧ outcome.system.read path = .ok taken ∧
            ∃ place, done.destination = .file place ∧ outcome.system.locate path = .ok place ∧
              FileSystem.SameBeside place system outcome.system) := by
  intro work log outcome
  constructor
  · intro cause hcause
    have hwork : work.outcome = .error cause := Settings.outcome_run_eq_error_iff.2 hcause
    have houtcome : outcome = Program.failed system log cause := Program.conclude_of_error hwork
    rw [houtcome]
    exact ⟨hwork, rfl, rfl, Program.fails_failed system log cause⟩
  · intro hnone
    obtain ⟨done, hdone⟩ := Settings.findSome?_stageFaults_eq_none_iff.1 hnone
    obtain ⟨hreport, hdestination⟩ := Settings.reportsOn_of_run hdone
    obtain ⟨before, taken, hconclude, hsystem, hprinted, hdelivers⟩ :=
      Program.exists_conclude_eq_withReport hdone
    have houtcome : outcome = before.withReport taken done.destination := hconclude
    rw [houtcome]
    refine ⟨done, taken, hdone, hreport, hdestination, hdelivers.withReport _ _,
      fun hstandard => ?_, fun path hpath hfile => ?_⟩
    · rw [Settings.destination_of_toStandardOutput hstandard hdestination]
      refine ⟨rfl, hsystem, rfl, fun hwhole => ?_⟩
      rw [hwhole]
      exact Utf8.decodeLossy_bytes done.text
    · obtain ⟨place, hplace, hto⟩ :=
        Settings.exists_place_of_destination hpath hfile hdestination
      have hafter : (before.withReport taken (.file place)).system = system.write place taken := by
        rw [← hsystem]
        rfl
      rw [hto, hafter]
      exact ⟨hprinted, hplace.read_write _, place, rfl, hplace.locate_write _,
        FileSystem.sameBeside_write hplace.fillable _⟩

/-- The report on an archive takes the place of the archive. -/
theorem conclude_run_effects_over_input :
    let system : FileSystem := ⟨.directory [("a.jar", .file spawnerArchive)], []⟩
    let settings : Settings := ⟨"a.jar", none, some "a.jar", false, false, false⟩
    let work := settings.run system none
    (settings.stageFaults system).findSome? id = none ∧
      ∃ done : RunResult, settings.ReportsOn system none done.report ∧
        (Program.conclude settings (.upTo .warn) .roomy system work).exitCode = 0 ∧
        (Program.conclude settings (.upTo .warn) .roomy system work).system.read "a.jar" =
          .ok done.bytes := by
  intro system settings work
  have hscan : ∃ scan, (Scan.input system "a.jar").outcome = .ok scan := by
    have hread : system.read "a.jar" = .ok spawnerArchive := rfl
    show ∃ scan, (Scan.archive 0 true ⟨"a.jar", system.read "a.jar"⟩).outcome = .ok scan
    rw [hread]
    exact ⟨_, outcome_archive_spawnerArchive⟩
  have hdestination : settings.destination system = .ok (.file ["a.jar"]) := by rfl
  obtain ⟨scan, hscan⟩ := hscan
  have hdone : ∃ done, (settings.run system none).outcome = .ok done :=
    ⟨_, Settings.outcome_run_eq_ok_iff.2
      ⟨by decide, RuleSet.builtin, scan, .file ["a.jar"], rfl, hscan, hdestination, rfl⟩⟩
  have hnone := Settings.findSome?_stageFaults_eq_none_iff.2 hdone
  have hfile : settings.toStandardOutput = false := by decide
  obtain ⟨-, hsuccess⟩ := conclude_run_effects settings (.upTo .warn) .roomy system none
  obtain ⟨done, taken, -, hreport, hplace, hdelivers, -, hwritten⟩ := hsuccess hnone
  obtain ⟨-, hread, -⟩ := hwritten "a.jar" rfl hfile
  have hroomy : Media.roomy done.destination = none := by
    rw [← Except.ok.inj (hdestination.symm.trans hplace)]
    simp [Media.roomy, fullDevice]
  rw [hroomy] at hdelivers
  obtain ⟨hexit, rfl⟩ := hdelivers.whole_of_none
  exact ⟨hnone, done, hreport, hexit, hread⟩

/-- A run without a fault fails all the same if its output has no room at all, and then the
output is left empty. -/
theorem Program.conclude_of_no_room {settings : Settings} {filter : EventFilter}
    {media : Media} {system : FileSystem} {arguments : Option (List String)} {cause : WriteError}
    {place : List String} (hnone : (settings.stageFaults system).findSome? id = none)
    (hplace : settings.destination system = .ok (.file place))
    (hmedia : media (.file place) = some ⟨0, cause⟩) :
    let work := settings.run system arguments
    conclude settings filter media system work =
      (failed system (logLines filter work.events) (.unserialized cause)).withReport []
        (.file place) := by
  intro work
  obtain ⟨done, hdone⟩ := Settings.findSome?_stageFaults_eq_none_iff.1 hnone
  obtain ⟨⟨rules, scan, -, -, hreport⟩, hdestination⟩ := Settings.reportsOn_of_run hdone
  have hto : done.destination = .file place := Except.ok.inj (hdestination.symm.trans hplace)
  have hbytes : 0 < done.bytes.length := List.length_pos_iff.2 done.bytes_ne_nil
  have hearly : 0 < done.earlyLength := by
    rw [RunResult.earlyLength_of_file hto, hreport]
    exact List.length_pos_iff.2 (Json.Value.bytes_pretty_object_ne_nil _)
  rw [conclude_of_lt hdone (hto ▸ hmedia) hbytes, hto, RunResult.stopError_eq_ite, if_pos hearly,
    List.take_zero]

/-- No stage of either run has a fault.  To the device that is always full nothing can be
written, and on a full disk the earlier report is lost as well. -/
theorem conclude_run_effects_no_room :
    let file : Bytes := [0xca, 0xfe, 0xba, 0xbe, 0, 0, 0, 0x34, 0, 3, 7, 0, 2, 1, 0, 1, 0x41, 0, 1,
      0, 1, 0, 0, 0, 0, 0, 0, 0, 0, 0, 0]
    let earlier : Bytes := [0x7b, 0x7d]
    let system := FileSystem.withFullDevice
      ⟨.directory [("A.class", .file file), ("old", .file earlier)], []⟩
    let settings (output : String) : Settings := ⟨"A.class", none, some output, false, false, false⟩
    let outcome (output : String) (media : Media) : Outcome := Program.conclude (settings output)
      (.upTo .warn) media system ((settings output).run system none)
    let fullDisk : Media := fun _ => some ⟨0, .noSpace⟩
    (((settings "dev/full").stageFaults system).findSome? id = none ∧
      ∃ log, (outcome "dev/full" .roomy).Fails log (.unserialized .noSpace)) ∧
    ((settings "old").stageFaults system).findSome? id = none ∧
      (∃ log, (outcome "old" fullDisk).Fails log (.unserialized .noSpace)) ∧
      system.read "old" = .ok earlier ∧ (outcome "old" fullDisk).system.read "old" = .ok [] := by
  intro file earlier system settings outcome fullDisk
  have hscan : ∃ scan, (Scan.input system "A.class").outcome = .ok scan := by
    have hlift : liftClass file 0 = .ok ⟨"A", [], 0⟩ := by decide +kernel
    have hread : system.read "A.class" = .ok file := by rfl
    show ∃ scan, (Scan.classFile 0 true ⟨"A.class", system.read "A.class"⟩).outcome = .ok scan
    rw [hread]
    exact ⟨_, Scan.outcome_classFile_eq_ok_iff.2 ⟨file, _, rfl, hlift, rfl⟩⟩
  obtain ⟨scan, hscan⟩ := hscan
  have hcontains : system.contains "A.class" = true := by decide
  have hnone {output : String} {place : List String}
      (hplace : (settings output).destination system = .ok (.file place)) :
      ((settings output).stageFaults system).findSome? id = none := by
    have hdone : ∃ done, ((settings output).run system none).outcome = .ok done :=
      ⟨_, Settings.outcome_run_eq_ok_iff.2
        ⟨hcontains, RuleSet.builtin, scan, .file place, rfl, hscan, hplace, rfl⟩⟩
    exact Settings.findSome?_stageFaults_eq_none_iff.2 hdone
  have hdevice : (settings "dev/full").destination system = .ok (.file fullDevice) := by rfl
  have hold : (settings "old").destination system = .ok (.file ["old"]) := by rfl
  have hroomy : Media.roomy (.file fullDevice) = some ⟨0, .noSpace⟩ := by simp [Media.roomy]
  have hdisk : fullDisk (.file ["old"]) = some ⟨0, .noSpace⟩ := rfl
  have hfirst : outcome "dev/full" .roomy = _ :=
    Program.conclude_of_no_room (hnone hdevice) hdevice hroomy
  have hsecond : outcome "old" fullDisk = _ :=
    Program.conclude_of_no_room (hnone hold) hold hdisk
  rw [hfirst, hsecond]
  exact ⟨⟨hnone hdevice, _, (Program.fails_failed _ _ _).withReport _ _⟩, hnone hold,
    ⟨_, (Program.fails_failed _ _ _).withReport _ _⟩, rfl, rfl⟩

end CallRedirect
