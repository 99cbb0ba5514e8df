-- A text in quotation marks, for listings. What a reader could not see, or could
-- not tell from its neighbours, is written as an escape.
import Simt.Text.Numeral
import Simt.Text.Visible

namespace Simt.Text

/-- The text of one character between quotation marks. -/
def quotedChar (c : Char) : List Char :=
  if c = '\x00' then ['\\', '0']
  else if c = '\t' then ['\\', 't']
  else if c = '\n' then ['\\', 'n']
  else if c = '\r' then ['\\', 'r']
  else if c = '"' then ['\\', '"']
  else if c = '\\' then ['\\', '\\']
  else if isVisible c then [c]
  else ['\\', 'u', '{'] ++ Numeral.chars 16 c.toNat ++ ['}']

def quoted (s : String) : String :=
  String.ofList ('"' :: s.toList.flatMap quotedChar ++ ['"'])

end Simt.Text
