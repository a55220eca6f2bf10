import CallRedirect.Json.Shape
import CallRedirect.Rule

/-!
# Rule files

A rule file holds a list of entries.  An entry gives a rule's name, the call
that it matches, where it applies and what it does.  The targets are given in
place or as the path of a file, which a text always is.

A rule file is read in one go, so a fault of the text and a fault of shape are
met in the order in which they stand there.
-/

namespace CallRedirect

/-- Where the targets of a rule come from. -/
inductive TargetSource
  | path (path : String)
  | inline (value : Json.Value)
  deriving DecidableEq, Repr, Inhabited

/-- One entry of a rule file. -/
structure RuleEntry where
  name : String
  kind : CallKind
  method : String
  descriptor : String
  targets : TargetSource
  redirect : Redirect
  deriving DecidableEq, Repr, Inhabited

namespace RuleConfig

open Json (Read)
open Json.Read (RecordField RecordShape Variant)

/-- A field that has to be there. -/
def required {δ α : Type} (name : String) (get : δ → Option α) (set : α → δ → δ)
    (shape : Read α) : RecordField δ where
  name := name
  isFilled draft := (get draft).isSome
  mayBeAbsent := false
  fill draft := do return set (← shape) draft

/-- A field that may be absent or null. -/
def optional {δ α : Type} (name : String) (get : δ → Option (Option α))
    (set : Option α → δ → δ) (shape : Read α) : RecordField δ where
  name := name
  isFilled draft := (get draft).isSome
  mayBeAbsent := true
  fill draft := do return set (← Json.Read.optional shape) draft

/-- What has been read of a replacement. -/
structure RedirectDraft where
  owner : Option String
  name : Option String
  descriptor : Option (Option String)

/-- The field for the owner of a replacement. -/
def ownerField : RecordField RedirectDraft :=
  required "owner" (·.owner) (fun owner draft => { draft with owner := some owner }) Json.Read.text

/-- The field for the name of a replacement. -/
def nameField : RecordField RedirectDraft :=
  required "name" (·.name) (fun name draft => { draft with name := some name }) Json.Read.text

/-- The field for the descriptor of a replacement. -/
def descriptorField : RecordField RedirectDraft :=
  optional "descriptor" (·.descriptor)
    (fun descriptor draft => { draft with descriptor := some descriptor }) Json.Read.text

/-- The shape of the replacement by a static method. -/
def invokeStaticShape : RecordShape RedirectDraft Redirect where
  title := "struct variant RedirectEntry::InvokeStatic"
  fields := [ownerField, nameField, descriptorField]
  blank := ⟨none, none, none⟩
  finish draft := do
    return .invokeStatic (← draft.owner) (← draft.name) (draft.descriptor.getD none)

/-- The shape of the replacement by another method of the owner. -/
def renameShape : RecordShape RedirectDraft Redirect where
  title := "struct variant RedirectEntry::Rename"
  fields := [nameField, descriptorField]
  blank := ⟨none, none, none⟩
  finish draft := do
    return .rename (← draft.name) (draft.descriptor.getD none)

/-- Read what a rule does. -/
def redirect : Read Redirect :=
  Json.Read.oneOf [
    ⟨"invoke_static", none, invokeStaticShape.read⟩,
    ⟨"rename", none, renameShape.read⟩]

/-- A call kind as a variant without content. -/
def kindVariant (kind : CallKind) : Variant CallKind where
  name := kind.name
  alone := some kind
  content := do
    Json.Read.unit
    return kind

/-- Read the kind of the matched calls. -/
def kind : Read CallKind :=
  Json.Read.oneOf ([.static, .virtual, .interface, .special].map kindVariant)

/-- How deep arrays and objects may nest in the targets of an entry: a document,
its list and its entry are open around them. -/
def targetNesting : Nat := Json.maxNesting - 3

/-- Read the targets of an entry. -/
def targets : Read TargetSource := do
  match ← Json.Read.value targetNesting with
  | .string path => return .path path
  | value => return .inline value

/-- What has been read of an entry. -/
structure EntryDraft where
  name : Option String
  kind : Option CallKind
  method : Option String
  descriptor : Option String
  targets : Option TargetSource
  redirect : Option Redirect

/-- The shape of an entry. -/
def entryShape : RecordShape EntryDraft RuleEntry where
  title := "struct RuleEntry"
  fields := [
    required "name" (·.name) (fun x draft => { draft with name := some x }) Json.Read.text,
    required "kind" (·.kind) (fun x draft => { draft with kind := some x }) kind,
    required "method" (·.method) (fun x draft => { draft with method := some x }) Json.Read.text,
    required "descriptor" (·.descriptor) (fun x draft => { draft with descriptor := some x })
      Json.Read.text,
    required "targets" (·.targets) (fun x draft => { draft with targets := some x }) targets,
    required "redirect" (·.redirect) (fun x draft => { draft with redirect := some x }) redirect]
  blank := ⟨none, none, none, none, none, none⟩
  finish draft := do
    return ⟨← draft.name, ← draft.kind, ← draft.method, ← draft.descriptor, ← draft.targets,
      ← draft.redirect⟩

/-- The shape of a rule file. -/
def fileShape : RecordShape (Option (List RuleEntry)) (List RuleEntry) where
  title := "struct RuleConfig"
  fields := [required "rules" id (fun entries _ => some entries)
    (Json.Read.listOf entryShape.read)]
  blank := none
  finish := id

/-- The entries of the text of a rule file, in order. -/
def parse (text : String) : Except Json.ReadError (List RuleEntry) :=
  Json.readAll fileShape.read text

end RuleConfig

end CallRedirect
