import SharedArchive.Text.Graphic
import SharedArchive.Text.Hex

/-!
Quoted text. Quotes, backslashes, line ends, tabs and NULs have short escapes, and every other
character that is not graphic is written by its number, so that a quoted text stays on one line.
-/

namespace SharedArchive.Text

def escape (c : Char) : List Char :=
  if c = '\x22' then ['\x5c', '\x22']
  else if c = '\x5c' then ['\x5c', '\x5c']
  else if c = '\n' then ['\x5c', 'n']
  else if c = '\r' then ['\x5c', 'r']
  else if c = '\t' then ['\x5c', 't']
  else if c = '\x00' then ['\x5c', '0']
  else if isGraphic c then [c]
  else '\x5c' :: 'u' :: '\x7b' :: (Hex.digits c.toNat ++ ['\x7d'])

def quoteChars (cs : List Char) : List Char :=
  '\x22' :: (cs.flatMap escape ++ ['\x22'])

def quote (text : String) : String := String.ofList (quoteChars text.toList)

end SharedArchive.Text
