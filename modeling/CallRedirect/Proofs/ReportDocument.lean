import CallRedirect.Sarif.Document

/-!
# Reading the report document

A place in a JSON value is named by the keys and positions that lead to it.  The
members of an object stand sorted by key, so what a place holds is settled by a
lemma on `insertMember`, whatever order they were given in.

* `Json.Value.at?` follows keys and positions.
* `Sarif.at?_document_results`, `Sarif.at?_document_artifacts` and
  `Sarif.at?_document_successful` are what the document shows of a run,
  `Sarif.showsArtifact_document` what it shows of an artifact, and
  `Sarif.Result.at?_json_index` and its siblings what it shows of a result.
-/

namespace CallRedirect

/-! ## Places in a JSON value -/

namespace Json

/-- A step into a JSON value: to a member of an object or to an item of an array. -/
inductive Step
  | member (key : String)
  | item (index : Nat)
  deriving DecidableEq, Repr

instance : Coe String Step := ⟨.member⟩

instance (index : Nat) : OfNat Step index := ⟨.item index⟩

namespace Value

/-- What one step leads to. -/
def step? : Value → Step → Option Value
  | object members, .member key => members.lookup key
  | array items, .item index => items[index]?
  | _, _ => none

/-- What stands at a place, if there is such a place. -/
def at? (value : Value) : List Step → Option Value
  | [] => some value
  | step :: steps => (value.step? step).bind (·.at? steps)

theorem at?_cons (value : Value) (step : Step) (steps : List Step) :
    value.at? (step :: steps) = (value.step? step).bind (·.at? steps) := rfl

theorem step?_array_item (items : List Value) (index : Nat) :
    (array items).step? (.item index) = items[index]? := rfl

end Value

theorem lookup_cons_eq_ite {α : Type} (key first : String) (value : α)
    (members : List (String × α)) :
    ((first, value) :: members).lookup key =
      if key = first then some value else members.lookup key := by
  rw [List.lookup_cons]
  by_cases hkey : key = first
  · rw [if_pos hkey, beq_iff_eq.2 hkey]
  · rw [if_neg hkey, beq_eq_false_iff_ne.2 hkey]

/-- Putting a member among others changes what stands under its key and nothing else. -/
theorem lookup_insertMember {α : Type} (key other : String) (value : α)
    (members : List (String × α)) :
    (insertMember key value members).lookup other =
      if other = key then some value else members.lookup other := by
  induction members with
  | nil => exact lookup_cons_eq_ite other key value []
  | cons member rest ih =>
      obtain ⟨first, current⟩ := member
      unfold insertMember
      split
      · rw [lookup_cons_eq_ite]
      · split
        · next hsame =>
          subst hsame
          rw [lookup_cons_eq_ite, lookup_cons_eq_ite]
          by_cases hother : other = key <;> simp [hother]
        · next hne =>
          rw [lookup_cons_eq_ite, lookup_cons_eq_ite, ih]
          by_cases hfirst : other = first
          · simp [hfirst, Ne.symm hne]
          · simp [hfirst]

/-- What an object made of members has under a key is the last of the members given for
that key. -/
theorem Value.step?_ofMembers (members : List (String × Value)) (key : String) :
    (Value.ofMembers members).step? (.member key) = members.reverse.lookup key := by
  have hfold (sorted : List (String × Value)) :
      (members.foldl (fun kept member => insertMember member.1 member.2 kept) sorted).lookup key =
        (members.reverse.lookup key).or (sorted.lookup key) := by
    induction members generalizing sorted with
    | nil => rfl
    | cons member rest ih =>
        obtain ⟨first, current⟩ := member
        rw [List.foldl_cons, ih, lookup_insertMember, List.reverse_cons, List.lookup_append,
          lookup_cons_eq_ite, Option.or_assoc]
        by_cases hkey : key = first <;> simp [hkey]
  exact (hfold []).trans Option.or_none

end Json

/-! ## What the report shows of a run -/

namespace Sarif

variable (artifacts : List Artifact) (results : List Result) (invocation : Invocation)

/-- The members of the only run of a report. -/
def runMembers : List (String × Json.Value) :=
  [("tool", .ofMembers [("driver", .ofMembers [
      ("name", .string toolName),
      ("version", .string toolVersion)])]),
    ("invocations", .array [invocation.json]),
    ("results", .array (results.map (·.json)))] ++
  if artifacts.isEmpty then [] else [("artifacts", .array (artifacts.map (·.json)))]

theorem at?_document_run (steps : List Json.Step) :
    (document artifacts results invocation).at? ("runs" :: 0 :: steps) =
      (Json.Value.ofMembers (runMembers artifacts results invocation)).at? steps := by
  have hruns : (document artifacts results invocation).step? "runs" =
      some (.array [.ofMembers (runMembers artifacts results invocation)]) := by
    rw [document, Json.Value.step?_ofMembers]
    rfl
  rw [Json.Value.at?_cons, hruns]
  rfl

/-- The results stand in the report in order. -/
theorem at?_document_results :
    (document artifacts results invocation).at? ["runs", 0, "results"] =
      some (.array (results.map (·.json))) := by
  rw [at?_document_run, Json.Value.at?_cons, Json.Value.step?_ofMembers, runMembers]
  split <;> rfl

/-- The place of something in a row of the artifact table. -/
def rowSteps (position : Nat) (steps : List Json.Step) : List Json.Step :=
  "runs" :: 0 :: "artifacts" :: .item position :: steps

/-- Every position of the artifact table is a position in the report, and no other is. -/
theorem at?_document_artifacts (position : Nat) (steps : List Json.Step) :
    (document artifacts results invocation).at? (rowSteps position steps) =
      (artifacts[position]?).bind fun artifact => artifact.json.at? steps := by
  rw [rowSteps, at?_document_run, Json.Value.at?_cons, Json.Value.step?_ofMembers, runMembers]
  split
  · next hempty =>
    rw [List.isEmpty_iff.1 hempty]
    rfl
  · rw [List.reverse_append]
    show (Json.Value.array (artifacts.map (·.json))).at? (.item position :: steps) = _
    rw [Json.Value.at?_cons, Json.Value.step?_array_item, List.getElem?_map]
    cases artifacts[position]? <;> rfl

theorem at?_document_successful :
    (document artifacts results invocation).at?
        ["runs", 0, "invocations", 0, "executionSuccessful"] =
      some (.bool invocation.successful) := by
  have hinvocation : invocation.json.step? "executionSuccessful" =
      some (.bool invocation.successful) := by
    rw [Invocation.json, Json.Value.step?_ofMembers]
    cases invocation.arguments <;> rfl
  have hhead : (document artifacts results invocation).at?
      ["runs", 0, "invocations", 0, "executionSuccessful"] =
        invocation.json.at? ["executionSuccessful"] := by
    rw [at?_document_run, Json.Value.at?_cons, Json.Value.step?_ofMembers, runMembers]
    split <;> rfl
  rw [hhead, Json.Value.at?_cons, hinvocation]
  rfl

/-! ## What the report shows of an artifact -/

/-- What a report shows of an artifact in the row at a position. -/
structure ShowsArtifact (report : Json.Value) (position : Nat) (artifact : Artifact) : Prop where
  uri : report.at? (rowSteps position ["location", "uri"]) = some (.string artifact.uri)
  length : report.at? (rowSteps position ["length"]) =
    artifact.length.map fun length => .number (.integer length)
  parent : report.at? (rowSteps position ["parentIndex"]) = artifact.parent.map .ofNat
  role : report.at? (rowSteps position ["roles", 0]) =
    if artifact.isInput then some (.string "analysisTarget") else none

theorem showsArtifact_document {position : Nat} {artifact : Artifact}
    (h : artifacts[position]? = some artifact) :
    ShowsArtifact (document artifacts results invocation) position artifact := by
  obtain ⟨uri, length, parent, isInput⟩ := artifact
  constructor
  all_goals
    rw [at?_document_artifacts, h, Option.bind_some, Json.Value.at?_cons, Artifact.json,
      Json.Value.step?_ofMembers]
    -- which members a row has is settled by what is known of the artifact
    cases length <;> cases parent <;> cases isInput <;> rfl

/-! ## What the report shows of a result -/

namespace Result

variable (result : Result)

/-- The place of the artifact's position in a result. -/
def indexSteps : List Json.Step :=
  ["locations", 0, "physicalLocation", "artifactLocation", "index"]

/-- The place of what a result says about the declaration that it is about. -/
def logicalSteps (key : String) : List Json.Step :=
  ["locations", 0, "logicalLocations", 0, key]

theorem at?_json_index :
    result.json.at? indexSteps = some (.number (.integer result.artifact)) := rfl

theorem at?_json_name : result.json.at? (logicalSteps "name") = some (.string result.place.name) :=
  rfl

theorem at?_json_kind : result.json.at? (logicalSteps "kind") = some (.string result.place.kind) :=
  rfl

end Result

end Sarif

end CallRedirect
