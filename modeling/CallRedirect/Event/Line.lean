import CallRedirect.Event

/-!
# Log lines

An event is written as its level, its origin, its message and its values.  In
the message the characters that could steer a terminal are written as escapes.
-/

namespace CallRedirect.Event

/-- A number in lower-case hexadecimal digits. -/
def hexText (n : Nat) : String := String.ofList (Nat.toDigits 16 n)

/-- A character of a message. -/
def shownCharacter (c : Char) : String :=
  if c.toNat = 0x1b then "\\x1b"
  else if c.toNat = 0x07 then "\\x07"
  else if c.toNat = 0x08 then "\\x08"
  else if c.toNat = 0x0c then "\\x0c"
  else if c.toNat = 0x7f then "\\x7f"
  else if 0x80 ≤ c.toNat ∧ c.toNat ≤ 0x9f then "\\u\x7b" ++ hexText c.toNat ++ "\x7d"
  else c.toString

/-- A message as a log line shows it. -/
def shownMessage (message : String) : String :=
  String.join (message.toList.map shownCharacter)

/-- The line of an event in the log. -/
def line (event : Event) : String :=
  event.level.name ++ " " ++ event.origin ++ ": " ++ shownMessage event.message ++
    String.join (event.fields.map (fun (name, value) => " " ++ name ++ "=" ++ value.shown))

end CallRedirect.Event
