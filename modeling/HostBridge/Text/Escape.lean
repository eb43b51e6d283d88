import HostBridge.Text.Combining
import HostBridge.Text.Graphic

/-!
# Quoted text

How text and byte strings are written between single quotes.  Text escapes only
the quote itself; bytes are written in ASCII, with a hexadecimal escape for
every byte that has neither a graphic form nor a short escape.  Inside messages
text may also stand between double quotes; then every character is escaped that
could not be made out in print.
-/

namespace HostBridge

/-- Put a backslash before every single quote. -/
def escapeQuotes : List Char → List Char
  | [] => []
  | char :: rest =>
    if char = '\'' then '\\' :: '\'' :: escapeQuotes rest else char :: escapeQuotes rest

/-- One lower case hexadecimal digit. -/
def hexDigit (value : Nat) : Char :=
  if value % 16 < 10 then Char.ofNat (48 + value % 16) else Char.ofNat (87 + value % 16)

/-- The ASCII form of one byte inside quotes. -/
def escapeByte (byte : UInt8) : List Char :=
  if byte = 9 then ['\\', 't']
  else if byte = 10 then ['\\', 'n']
  else if byte = 13 then ['\\', 'r']
  else if byte = 34 then ['\\', '"']
  else if byte = 39 then ['\\', '\'']
  else if byte = 92 then ['\\', '\\']
  else if 32 ≤ byte ∧ byte < 127 then [Char.ofNat byte.toNat]
  else ['\\', 'x', hexDigit (byte.toNat / 16), hexDigit byte.toNat]

/-- Text between single quotes. -/
def quoted (text : String) : String :=
  "'" ++ String.ofList (escapeQuotes text.toList) ++ "'"

/-- The halfwidth sound marks, which extend the character in front of them but
take a place of their own. -/
def isHalfwidthMark (char : Char) : Bool := char == '\uff9e' || char == '\uff9f'

/-- Whether a character can be made out in print wherever it stands. -/
def isLegible (char : Char) : Bool :=
  isGraphic char && (!isExtending char || isHalfwidthMark char) && !isIgnorable char

/-- The form of one character between double quotes. -/
def escapeChar (char : Char) : List Char :=
  if char = '\x00' then ['\\', '0']
  else if char = '\t' then ['\\', 't']
  else if char = '\n' then ['\\', 'n']
  else if char = '\r' then ['\\', 'r']
  else if char = '"' then ['\\', '"']
  else if char = '\\' then ['\\', '\\']
  else if isLegible char then [char]
  else ['\\', 'u', '\x7b'] ++ Nat.toDigits 16 char.toNat ++ ['\x7d']

/-- From the space to the tilde all of ASCII is legible. -/
theorem isLegible_of_ascii {char : Char} (low : 32 ≤ char.toNat) (high : char.toNat ≤ 126) :
    isLegible char = true := by
  simp [isLegible, isGraphic_of_ascii low high, isExtending_of_ascii high,
    isIgnorable_of_ascii high]

/-- Text between double quotes. -/
def doubleQuoted (text : String) : String :=
  "\"" ++ String.ofList (text.toList.flatMap escapeChar) ++ "\""

/-- Text between backquotes, which set off a name. -/
def backquoted (text : String) : String := "\x60" ++ text ++ "\x60"

/-- A byte string between single quotes, marked with a `b`. -/
def quotedBytes (bytes : List UInt8) : String :=
  "b'" ++ String.ofList (bytes.flatMap escapeByte) ++ "'"

end HostBridge
