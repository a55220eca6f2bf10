import CallRedirect.Bytes

/-!
# Text in class files

Names in class files are written in a variant of UTF-8 that has no byte zero
and no sequence of four bytes: the character zero takes two bytes, and a
character beyond the basic plane is written as two surrogates of three bytes
each.  Bytes that are plain UTF-8 as they stand are read as plain UTF-8, so a
four-byte sequence or a byte zero passes where nothing else needs the variant.
-/

namespace CallRedirect.ModifiedUtf8

/-- Whether a byte continues a character. -/
def isContinuation (byte : UInt8) : Bool :=
  0x80 ≤ byte && byte ≤ 0xbf

/-- The code that a lead byte and two continuation bytes spell. -/
def threeByteCode (b₀ b₁ b₂ : UInt8) : Nat :=
  (b₀.toNat % 16) * 4096 + (b₁.toNat % 64) * 64 + b₂.toNat % 64

/-- Whether a code is the first half of a surrogate pair. -/
def isHighSurrogate (code : Nat) : Bool := 0xd800 ≤ code && code < 0xdc00

/-- Whether a code is the second half of a surrogate pair. -/
def isLowSurrogate (code : Nat) : Bool := 0xdc00 ≤ code && code < 0xe000

/-- The character that a surrogate pair stands for. -/
def pairChar (high low : Nat) : Char :=
  Char.ofNat (0x10000 + (high - 0xd800) * 0x400 + (low - 0xdc00))

/-- Read the variant itself, without the leave given to plain UTF-8. -/
def decodeStrict : Bytes → Option (List Char)
  | [] => some []
  | b₀ :: rest₀ =>
    if b₀ = 0 then none
    else if b₀ < 0x80 then (decodeStrict rest₀).map (Char.ofNat b₀.toNat :: ·)
    else match rest₀ with
      | [] => none
      | b₁ :: rest₁ =>
        if isContinuation b₁ = false then none
        else if b₀ = 0xc0 then
          if b₁ = 0x80 then (decodeStrict rest₁).map (Char.ofNat 0 :: ·) else none
        else if 0xc2 ≤ b₀ && b₀ ≤ 0xdf then
          (decodeStrict rest₁).map
            (Char.ofNat ((b₀.toNat % 32) * 64 + b₁.toNat % 64) :: ·)
        else if 0xe0 ≤ b₀ && b₀ ≤ 0xef then
          match rest₁ with
          | [] => none
          | b₂ :: rest₂ =>
            let code := threeByteCode b₀ b₁ b₂
            if isContinuation b₂ = false || code < 0x800 || isLowSurrogate code then none
            else if isHighSurrogate code then
              match rest₂ with
              | b₃ :: b₄ :: b₅ :: rest₅ =>
                let low := threeByteCode b₃ b₄ b₅
                if b₃ = 0xed && isContinuation b₄ && isContinuation b₅ && isLowSurrogate low then
                  (decodeStrict rest₅).map (pairChar code low :: ·)
                else none
              | _ => none
            else (decodeStrict rest₂).map (Char.ofNat code :: ·)
        else none

/-- The text that the bytes of a name spell: plain UTF-8 if they are plain
UTF-8, else the variant. -/
def decode? (bytes : Bytes) : Option String :=
  match String.fromUTF8? ⟨bytes.toArray⟩ with
  | some text => some text
  | none => (decodeStrict bytes).map String.ofList

end CallRedirect.ModifiedUtf8
