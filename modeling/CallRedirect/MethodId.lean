/-!
# Method identifiers

A method is identified by its name followed by its descriptor.  The text is cut
before its first opening parenthesis; a text without one is a name alone.
-/

namespace CallRedirect

/-- A method's name and descriptor. -/
structure MethodId where
  name : String
  descriptor : String
  deriving DecidableEq, Repr, Inhabited

namespace MethodId

/-- Cut an identifier before its first opening parenthesis. -/
def parse (text : String) : MethodId where
  name := String.ofList (text.toList.takeWhile (· ≠ '('))
  descriptor := String.ofList (text.toList.dropWhile (· ≠ '('))

/-- The identifier as written. -/
def text (id : MethodId) : String :=
  id.name ++ id.descriptor

@[simp] theorem text_parse (text : String) : (parse text).text = text := by
  simp [parse, MethodId.text, ← String.ofList_append, List.takeWhile_append_dropWhile]

end MethodId

end CallRedirect
