import CallRedirect.Json.Value

/-!
# Artifacts

An artifact is a file or an archive entry that was read.  Archive entries know
the position of their archive in the artifact table, and a file that was given
as the input itself is marked.  The length that an archive declares for an entry
is a word of 64 bits and is shown with a sign.
-/

namespace CallRedirect

/-- One row of the artifact table. -/
structure Artifact where
  uri : String
  length : Option Int
  parent : Option Nat
  isInput : Bool
  deriving DecidableEq, Repr, Inhabited

/-- An artifact as the report shows it. -/
def Artifact.json (artifact : Artifact) : Json.Value :=
  .ofMembers <|
    (artifact.length.map (fun n => ("length", .number (.integer n)))).toList ++
    [("location", .ofMembers [("uri", .string artifact.uri)])] ++
    (artifact.parent.map (fun n => ("parentIndex", .ofNat n))).toList ++
    (if artifact.isInput then [("roles", .ofStrings ["analysisTarget"])] else [])

end CallRedirect
