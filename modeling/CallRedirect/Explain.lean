import CallRedirect.Failure
import CallRedirect.Rule.Loading
import CallRedirect.Scan

/-!
# Explaining errors

Every error is explained as a failure: what was being done on the outside, and
the fault that ended it on the inside.
-/

namespace CallRedirect

/-- The failure of reading a file. -/
def FileError.failure (e : FileError) : Failure := .ofText e.message .file

/-- The failure of reading a JSON text. -/
def Json.ReadError.failure (e : Json.ReadError) : Failure := .ofText e.message .json

/-- The failure of a text that is no method descriptor. -/
def MalformedDescriptor.failure (e : MalformedDescriptor) : Failure := .ofText e.message .other

/-- The failure of loading target data. -/
def TargetError.failure : TargetError → Failure
  | unreadable path cause => cause.failure.within ("failed to read " ++ path)
  | malformed source cause => cause.failure.within ("failed to parse " ++ source)
  | invalid source faults =>
      (Failure.ofText ("; ".intercalate (faults.map (·.message))) .other).within
        ("invalid target data in " ++ source)
  | unexpected source cause => cause.failure.within ("failed to read targets from " ++ source)

/-- The failure of making a rule. -/
def EntryError.failure : EntryError → Failure
  | descriptor rule cause =>
      cause.failure.within ("rule " ++ rule ++ " has an invalid descriptor")
  | targets cause => cause.failure
  | replacement rule cause =>
      cause.failure.within ("rule " ++ rule ++ " has an invalid replacement descriptor")

/-- The failure of loading a rule file. -/
def RuleError.failure : RuleError → Failure
  | unreadable path cause => cause.failure.within ("failed to read " ++ path)
  | malformed path cause =>
      (cause.failure.within "malformed rule config").within (loading path)
  | entry path cause => cause.failure.within (loading path)
where
  loading (path : String) : String := "failed to load rules from " ++ path

/-- The failure of lifting a class file. -/
def LiftError.failure (e : LiftError) : Failure := ⟨e.texts, .other⟩

/-- The failure of opening an archive. -/
def Archive.ArchiveError.failure (e : Archive.ArchiveError) : Failure := .ofText e.message .archive

/-- The failure of reading an entry of an archive. -/
def Archive.ContentError.failure : Archive.ContentError → Failure
  | .archive cause => cause.failure
  | e => .ofText e.message .file

/-- The failure of scanning an input. -/
def ScanError.failure : ScanError → Failure
  | unsupported path => .ofText ("unsupported input file: " ++ path) .other
  | unreadable path cause => cause.failure.within ("failed to read " ++ path)
  | unopened path cause => cause.failure.within ("failed to open " ++ path)
  | malformed path cause => cause.failure.within ("failed to parse " ++ path)
  | archive path cause => cause.failure.within ("failed to read " ++ path)
  | entry path name cause => cause.failure.within ("failed to read " ++ path ++ ":" ++ name)
  | malformedEntry path name cause =>
      cause.failure.within ("failed to parse " ++ path ++ ":" ++ name)

end CallRedirect
