import CallRedirect.Bytes

/-!
# Code page 437

In names of archive entries that are not marked as UTF-8 every byte is one
character of code page 437: the lower half is ASCII, the upper half is a table.
-/

namespace CallRedirect.CodePage

/-- The characters of the bytes from 128 on. -/
def upperHalf : List Char :=
  ("ÇüéâäàåçêëèïîìÄÅ" ++
    "ÉæÆôöòûùÿÖÜ¢£¥₧ƒ" ++
    "áíóúñÑªº¿⌐¬½¼¡«»" ++
    "░▒▓│┤╡╢╖╕╣║╗╝╜╛┐" ++
    "└┴┬├─┼╞╟╚╔╩╦╠═╬╧" ++
    "╨╤╥╙╘╒╓╫╪┘┌█▄▌▐▀" ++
    "αßΓπΣσµτΦΘΩδ∞φε∩" ++
    "≡±≥≤⌠⌡÷≈°∙·√ⁿ²■\u00a0").toList

/-- The character of a byte. -/
def character (byte : UInt8) : Char :=
  if byte < 0x80 then Char.ofNat byte.toNat
  else upperHalf.getD (byte.toNat - 0x80) (Char.ofNat 0xfffd)

/-- The text of bytes. -/
def decode (bytes : Bytes) : String := String.ofList (bytes.map character)

end CallRedirect.CodePage
