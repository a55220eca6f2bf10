import CallRedirect.Json.Reader

/-!
# Passing over JSON values

The value of a member that nobody asked for is passed over.  Its grammar is
looser than that of values that are kept: it may nest to any depth, numbers may
be of any size, and an escape may name half of a surrogate pair.  Its faults
have names of their own, too: behind a comma a value or a key has to follow, so
a comma too many is a missing value or a missing key.
-/

namespace CallRedirect.Json.Read

/-- Pass over what follows the backslash of an escape. -/
def skipEscape : List Char → Except ReadError (Char × List Char)
  | [] => .error .endInString
  | 'u' :: text => do
      let (_, rest) ← readHex text
      return ('u', rest)
  | c :: text =>
      match shortEscape? c with
      | some decoded => .ok (decoded, text)
      | none => .error .invalidEscape

/-- Pass over a string behind its opening quote. -/
def skipString : Read Unit := fun text => do
  let (_, rest) ← readCharacters skipEscape (text.length + 1) text
  return ((), rest)

/-- Pass over digits, of which there has to be one. -/
def skipDigits : Read Unit := fun text =>
  match text with
  | c :: rest => if isDigit c then .ok ((), rest.dropWhile isDigit) else .error .invalidNumber
  | [] => .error .invalidNumber

/-- Pass over what follows the `e` of a number. -/
def skipExponent : Read Unit := do
  let text ← get
  if text.head? = some '+' ∨ text.head? = some '-' then advance
  skipDigits

/-- Pass over an exponent, if there is one. -/
def skipScale : Read Unit := do
  let text ← get
  if text.head? = some 'e' ∨ text.head? = some 'E' then do
    advance
    skipExponent

/-- Pass over the digits before the point; a zero stands alone. -/
def skipInteger : Read Unit := do
  match ← get with
  | '0' :: c :: _ => if isDigit c then fail .invalidNumber else advance
  | _ => skipDigits

/-- Pass over a number. -/
def skipNumber : Read Unit := do
  if (← get).head? = some '-' then advance
  skipInteger
  if (← get).head? = some '.' then do
    advance
    skipDigits
  skipScale

/-- Pass over a key and its colon. -/
def skipKey : Read Unit := do
  match ← peek? with
  | none => fail .endInObject
  | some '"' => do
      advance
      skipString
      colon
  | some _ => fail .keyNotString

mutual

/-- Pass over a value; every nested value takes two of `fuel`. -/
def skipWithin : Nat → Read Unit
  | 0 => fail .endInValue
  | fuel + 1 => do
      match ← peek? with
      | none => fail .endInValue
      | some 'n' => word ['n', 'u', 'l', 'l']
      | some 't' => word ['t', 'r', 'u', 'e']
      | some 'f' => word ['f', 'a', 'l', 's', 'e']
      | some '"' => do
          advance
          skipString
      | some '[' => do
          advance
          match ← peek? with
          | none => fail .endInList
          | some ']' => advance
          | some _ => skipItems fuel
      | some '\x7b' => do
          advance
          match ← peek? with
          | none => fail .endInObject
          | some '\x7d' => advance
          | some _ => skipMembers fuel
      | some c => if c = '-' ∨ isDigit c then skipNumber else fail .expectedValue

/-- Pass over the items of a list and its closing bracket. -/
def skipItems : Nat → Read Unit
  | 0 => fail .endInList
  | fuel + 1 => do
      skipWithin fuel
      match ← peek? with
      | none => fail .endInList
      | some ',' => do
          advance
          skipItems fuel
      | some ']' => advance
      | some _ => fail .expectedListEnd

/-- Pass over the members of an object and its closing brace. -/
def skipMembers : Nat → Read Unit
  | 0 => fail .endInObject
  | fuel + 1 => do
      skipKey
      skipWithin fuel
      match ← peek? with
      | none => fail .endInObject
      | some ',' => do
          advance
          skipMembers fuel
      | some '\x7d' => advance
      | some _ => fail .expectedObjectEnd

end

/-- Pass over a value.  A nested value stands behind a bracket, so it cannot nest
deeper than the text is long. -/
def skip : Read Unit := do
  let text ← get
  skipWithin (2 * text.length + 1)

end CallRedirect.Json.Read
