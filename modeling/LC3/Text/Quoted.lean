import LC3.Text.Hidden

/-!
# Quoted text

A text that comes from outside is quoted in messages, so that its end can be seen and nothing in it
can disturb the line: quotes and backslashes get a backslash, the usual control characters have a
letter, and any other hidden character is given by its code point.
-/

namespace LC3.Text

/-- The code point of a character in lower case hexadecimal digits, in the form of an escape. -/
def codePointEscape (c : Char) : List Char :=
  ['\\', 'u', '\x7b'] ++ Nat.toDigits 16 c.toNat ++ ['\x7d']

/-- A character as it stands in quoted text. -/
def escape (c : Char) : List Char :=
  match c with
  | '"' => ['\\', '"']
  | '\\' => ['\\', '\\']
  | '\n' => ['\\', 'n']
  | '\t' => ['\\', 't']
  | '\r' => ['\\', 'r']
  | '\x00' => ['\\', '0']
  | _ => if isHidden c then codePointEscape c else [c]

/-- A text in quotes. -/
def quoted (text : String) : String :=
  String.ofList ('"' :: text.toList.flatMap escape ++ ['"'])

end LC3.Text
