import Mathlib.Data.List.Basic

/-! How `json.dumps` writes texts. -/
namespace JsonText

def hexDigits (n : Nat) : List Char := [n / 4096, n / 256, n / 16, n].map fun d => Nat.digitChar (d % 16)

/-- `\uXXXX` -/
def unit (n : Nat) : List Char := '\\' :: 'u' :: hexDigits n

/-- Everything beyond the printable characters of ASCII is escaped, in two units where one does not do. -/
def escaped (c : Char) : List Char :=
  if c = '"' then ['\\', '"']
  else if c = '\\' then ['\\', '\\']
  else if c = '\n' then ['\\', 'n']
  else if c = '\r' then ['\\', 'r']
  else if c = '\t' then ['\\', 't']
  else if c.toNat = 12 then ['\\', 'f']
  else if c.toNat = 8 then ['\\', 'b']
  else if 32 ≤ c.toNat ∧ c.toNat ≤ 126 then [c]
  else if c.toNat < 65536 then unit c.toNat
  else unit (55296 + (c.toNat - 65536) / 1024) ++ unit (56320 + (c.toNat - 65536) % 1024)

def quoted (text : List Char) : List Char := '"' :: (text.flatMap escaped ++ ['"'])

end JsonText
