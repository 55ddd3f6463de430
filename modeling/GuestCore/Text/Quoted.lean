import GuestCore.Text.Printable

/-!
# Quoted Text

Diagnostic text shows a string between double quotes.  The quote and the backslash stand behind a
backslash, four control characters have a letter of their own, and every other character that is
not printable is written as its code point in braces.
-/

namespace GuestCore.Text

/-- The letter that stands for a character behind a backslash, if it has one. -/
def escapeLetter? : Char → Option Char
  | '"' => some '"'
  | '\\' => some '\\'
  | '\n' => some 'n'
  | '\r' => some 'r'
  | '\t' => some 't'
  | '\x00' => some '0'
  | _ => none

/-- The code point of a character in lower-case hexadecimal, in braces behind `\u`. -/
def codePointEscape (char : Char) : List Char :=
  ['\\', 'u', '\x7b'] ++ Nat.toDigits 16 char.toNat ++ ['\x7d']

def escapeChar (char : Char) : List Char :=
  match escapeLetter? char with
  | some letter => ['\\', letter]
  | none => if isPrintable char then [char] else codePointEscape char

/-- A string as diagnostic text shows it, between double quotes. -/
def quoted (text : String) : String :=
  String.ofList ('"' :: text.toList.flatMap escapeChar ++ ['"'])

end GuestCore.Text
