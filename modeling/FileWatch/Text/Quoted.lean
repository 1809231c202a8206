import FileWatch.Text.Hexadecimal
import FileWatch.Text.Numbered
import FileWatch.Text.Utf8

/-! # Quoted — byte strings in quotation marks

A diagnostic shows a byte string between double quotes, on one line and without invisible
characters: the usual short escapes, `\u{…}` for what has no visible form, and `\xNN` for each
byte that encodes no character.
-/

namespace FileWatch.Text

/-- A byte as two upper-case hexadecimal digits. -/
def hexByte (b : UInt8) : List Char :=
  let digits := (hexDigits b.toNat).map Char.toUpper
  if b < 16 then '0' :: digits else digits

/-- A character as it stands between quotation marks. -/
def quoteChar (c : Char) : List Char :=
  match c with
  | '\x00' => ['\\', '0']
  | '\t' => ['\\', 't']
  | '\n' => ['\\', 'n']
  | '\r' => ['\\', 'r']
  | '"' => ['\\', '"']
  | '\\' => ['\\', '\\']
  | c => if isNumbered c then ['\\', 'u', '{'] ++ hexDigits c.toNat ++ ['}'] else [c]

/-- A byte string in quotation marks. -/
def quote (bytes : List UInt8) : List Char :=
  let inner := (segments bytes).flatMap fun
    | .char c => quoteChar c
    | .broken bytes => bytes.flatMap fun b => ['\\', 'x'] ++ hexByte b
  ['"'] ++ inner ++ ['"']

end FileWatch.Text
