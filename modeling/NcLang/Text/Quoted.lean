import NcLang.Text.CharClass

/-! # Quoted text

A character or a text between quotes, on one line. A backslash announces an escape: `\0`, `\t`,
`\r` and `\n` for those four characters, a second backslash or the mark for itself, and `u` with a
code in braces for a character that is to be shown by its code. Which characters are shown that
way is a parameter; `Quoted.text` and `Quoted.char` take the obscure ones.
-/

namespace NcLang.Text.Quoted

/-- The escape that shows a character by its code, in lower-case hexadecimal digits. -/
def codeEscape (c : Char) : List Char :=
  '\\' :: 'u' :: '\x7b' :: Nat.toDigits 16 c.toNat ++ ['\x7d']

/-- The characters that stand for `c` between two marks. -/
def escape (byCode : Char → Bool) (mark c : Char) : List Char :=
  if c = '\x00' then ['\\', '0']
  else if c = '\t' then ['\\', 't']
  else if c = '\r' then ['\\', 'r']
  else if c = '\n' then ['\\', 'n']
  else if c = mark || c = '\\' then ['\\', c]
  else if byCode c then codeEscape c
  else [c]

/-- The characters, escaped, between two marks. -/
def enclose (byCode : Char → Bool) (mark : Char) (chars : List Char) : List Char :=
  mark :: chars.flatMap (escape byCode mark) ++ [mark]

/-- The text between double quotes, with a choice of the characters shown by their code. -/
def textWith (byCode : Char → Bool) (text : String) : String :=
  String.ofList (enclose byCode '"' text.toList)

/-- The text between double quotes. -/
def text (text : String) : String :=
  textWith isObscure text

/-- The character between single quotes. -/
def char (c : Char) : String :=
  String.ofList (enclose isObscure '\x27' [c])

end NcLang.Text.Quoted
