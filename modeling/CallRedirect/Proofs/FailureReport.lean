import CallRedirect.Run
import Mathlib.Data.List.Forall2

/-!
# What is seen of a failure

A failure is printed with its outermost text in front and the others as its causes.  All its
texts can be read there in order (`Failure.shownBy_report`), each line of them behind the
number or the blanks that the layout puts in front of it.

Every failure of a run has a text (`RunError.texts_failure_ne_nil`), so none is silent.
-/

namespace CallRedirect

theorem sublistForall₂_append {α β : Type} {related : α → β → Prop} {front back : List α}
    {front' back' : List β} (hfront : List.SublistForall₂ related front front')
    (hback : List.SublistForall₂ related back back') :
    List.SublistForall₂ related (front ++ back) (front' ++ back') := by
  obtain ⟨first, hfirst, hsub⟩ := List.sublistForall₂_iff.1 hfront
  obtain ⟨second, hsecond, hsub'⟩ := List.sublistForall₂_iff.1 hback
  exact List.sublistForall₂_iff.2
    ⟨first ++ second, List.rel_append hfirst hsecond, hsub.append hsub'⟩

namespace Failure

/-- A line is shown by another one, which may have something in front of it. -/
def Behind (line shown : String) : Prop := ∃ lead, shown = lead ++ line

/-- The lines of the texts of a failure. -/
def lines (failure : Failure) : List String := failure.texts.flatMap (·.splitOn "\n")

/-- Lines that show a failure: the first text is called an error and the others causes, and all
lines of all texts are there, from the outermost text to the innermost. -/
structure ShownBy (failure : Failure) (shown : List String) : Prop where
  error : ∃ text ∈ failure.texts.head?,
    shown.head? = some ("Error: " ++ (text.splitOn "\n").headD "")
  causes : failure.texts.tail ≠ [] → "Caused by:" ∈ shown
  inOrder : List.SublistForall₂ Behind failure.lines shown

theorem shown_indented (lead indent text : String) :
    List.SublistForall₂ Behind (text.splitOn "\n") (indented lead indent text) := by
  unfold indented
  split
  · next hnone => rw [hnone]; exact .nil
  · next first others hlines =>
    rw [hlines]
    refine .cons ⟨lead, rfl⟩ (List.sublistForall₂_iff.2 ⟨_, ?_, List.Sublist.refl _⟩)
    exact List.forall₂_map_right_iff.2 (List.forall₂_same.2 fun line _ => ⟨indent, rfl⟩)

theorem head?_indented (lead indent text : String) :
    (indented lead indent text).head? = some (lead ++ (text.splitOn "\n").headD "") := by
  unfold indented
  split
  · next hnone => simp [hnone]
  · next first others hlines => simp [hlines]

theorem shown_causeLines (causes : List String) :
    List.SublistForall₂ Behind (causes.flatMap (·.splitOn "\n")) (causeLines causes) := by
  -- the numbers go on from cause to cause, so the first of them is left open
  have hnumbered (start : Nat) (causes : List String) :
      List.SublistForall₂ Behind (causes.flatMap (·.splitOn "\n"))
        ((causes.zipIdx start).flatMap fun item =>
          indented ("    " ++ toString item.2 ++ ": ") "       " item.1) := by
    induction causes generalizing start with
    | nil => exact .nil
    | cons cause causes ih =>
        rw [List.flatMap_cons, List.zipIdx_cons, List.flatMap_cons]
        exact sublistForall₂_append (shown_indented _ _ cause) (ih _)
  unfold causeLines
  split
  · next cause => simpa using shown_indented "    " "    " cause
  · exact hnumbered 0 causes

/-- A failure is shown by its report. -/
theorem shownBy_report {failure : Failure} (h : failure.texts ≠ []) :
    failure.ShownBy failure.report := by
  obtain ⟨texts, kind⟩ := failure
  match texts with
  | [] => exact absurd rfl h
  | [text] =>
      refine ⟨⟨text, rfl, head?_indented _ _ _⟩, fun hcauses => absurd rfl hcauses, ?_⟩
      simpa [lines, report] using shown_indented "Error: " "" text
  | text :: cause :: causes =>
      have hreport : report ⟨text :: cause :: causes, kind⟩ = indented "Error: " "" text ++
          (["", "Caused by:"] ++ causeLines (cause :: causes)) := List.append_assoc _ _ _
      refine ⟨⟨text, rfl, ?_⟩, fun _ => ?_, ?_⟩
      · rw [hreport, List.head?_append, head?_indented, Option.some_or]
      · rw [hreport]
        simp
      · have hheading : List.SublistForall₂ Behind [] ["", "Caused by:"] := .nil
        have hcauses := sublistForall₂_append hheading (shown_causeLines (cause :: causes))
        rw [List.nil_append] at hcauses
        rw [hreport, lines, List.flatMap_cons]
        exact sublistForall₂_append (shown_indented _ _ text) hcauses

end Failure

/-! ## The failures of a run -/

@[simp] theorem Failure.texts_within (failure : Failure) (context : String) :
    (failure.within context).texts = context :: failure.texts := rfl

@[simp] theorem Failure.texts_ofText (text : String) (kind : FaultKind) :
    (Failure.ofText text kind).texts = [text] := rfl

theorem RuleError.texts_failure_ne_nil (cause : RuleError) : cause.failure.texts ≠ [] := by
  cases cause <;> simp [failure]

theorem ScanError.texts_failure_ne_nil (cause : ScanError) : cause.failure.texts ≠ [] := by
  cases cause <;> simp [failure]

/-- Every failure of a run says something. -/
theorem RunError.texts_failure_ne_nil (cause : RunError) : cause.failure.texts ≠ [] := by
  cases cause with
  | rules fault => exact fault.texts_failure_ne_nil
  | scan fault => exact fault.texts_failure_ne_nil
  | _ => simp [failure]

end CallRedirect
