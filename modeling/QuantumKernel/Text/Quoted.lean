import QuantumKernel.Text.Basic
/-! # Quoted — texts in double quotes

Inside the quotes a double quote and a backslash are written with a backslash before them, and control characters of
ASCII by an escape; a single quote stands as it is.
-/
namespace QuantumKernel
namespace Text

/-- How a character is written inside double quotes: four control characters by a letter or digit of their own, the
other control characters of ASCII by their code point in hexadecimal. -/
def escapeChar (c : Char) : Text :=
  if c = '"' then ['\\', '"']
  else if c = '\\' then ['\\', '\\']
  else if c = '\n' then ['\\', 'n']
  else if c = '\t' then ['\\', 't']
  else if c = '\r' then ['\\', 'r']
  else if c = '\x00' then ['\\', '0']
  else if c.toNat < 0x20 ∨ c.toNat = 0x7F then "\\u\x7b".toList ++ Nat.toDigits 16 c.toNat ++ "\x7d".toList
  else [c]

def quoted (t : Text) : Text := ['"'] ++ t.flatMap escapeChar ++ ['"']

end Text
end QuantumKernel
