import LinkWatch.Path.Basic
import LinkWatch.Text.Numbered
import LinkWatch.Text.Utf8

/-!
Quoted texts, in which every character can be told apart: quotes, backslashes and the usual controls
are written with a backslash, characters that do not show by their number, and bytes that are no text
by their value.
-/

namespace LinkWatch.Text

/-- The digits of a number in base 16, lower case. -/
def hexDigits (n : Nat) : List Char := Nat.toDigits 16 n

/-- A character inside quotes. -/
def quotedChar (c : Char) : List Char :=
  if c = '\x00' then ['\\', '0']
  else if c = '\t' then ['\\', 't']
  else if c = '\r' then ['\\', 'r']
  else if c = '\n' then ['\\', 'n']
  else if c = '"' then ['\\', '"']
  else if c = '\\' then ['\\', '\\']
  else if isNumbered c then ['\\', 'u', '\x7b'] ++ hexDigits c.toNat ++ ['\x7d']
  else [c]

/-- A byte inside quotes that belongs to no character. -/
def quotedByte (b : UInt8) : List Char :=
  '\\' :: 'x' :: (((hexDigits b.toNat).map Char.toUpper).leftpad 2 '0')

def quotedChunk : Utf8.Chunk → List Char
  | .char c => quotedChar c
  | .broken bs => bs.flatMap quotedByte

/-- A byte string in quotes. -/
def quotedBytes (bs : List UInt8) : String :=
  String.ofList ('"' :: (Utf8.chunks bs).flatMap quotedChunk ++ ['"'])

/-- A text in quotes. -/
def quoted (s : String) : String := String.ofList ('"' :: s.toList.flatMap quotedChar ++ ['"'])

end LinkWatch.Text

namespace LinkWatch.Path

/-- The path in quotes. -/
def quoted (p : Path) : String := Text.quotedBytes p.bytes

/-- The path as text, for reading only. -/
def display (p : Path) : String := Utf8.lossy p.bytes

end LinkWatch.Path
