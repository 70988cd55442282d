import Formulary.Quoted.Hidden
/-!
# Quoted text

Text shown to a developer stands between double quotes, with the characters
that would not show as themselves written as escapes.
-/

namespace Formulary

namespace Quoted

/-- The digits of a code point, in base sixteen. -/
def codePoint (c : Char) : String := String.ofList (Nat.toDigits 16 c.toNat)

/-- A character as it stands between double quotes. -/
def escape (c : Char) : String :=
  if c = '"' then "\\\""
  else if c = '\\' then "\\\\"
  else if c = '\n' then "\\n"
  else if c = '\t' then "\\t"
  else if c = '\r' then "\\r"
  else if c = '\x00' then "\\0"
  else if hidden c then "\\u\x7b" ++ codePoint c ++ "\x7d"
  else c.toString

end Quoted

/-- The text between double quotes. -/
def quoted (s : String) : String := "\"" ++ String.join (s.toList.map Quoted.escape) ++ "\""

end Formulary
