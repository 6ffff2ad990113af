import Tether.Text.Printable

/-! # Printed text

Text between double quotes, with a backslash before the characters that would be misread, and with
the code point in place of a character that cannot be seen. Messages and paths are printed alike. -/

namespace Tether.Text

/-- The printed form of one character. A single quote stands as it is. -/
def printChar : Char → List Char
  | '"' => ['\\', '"']
  | '\\' => ['\\', '\\']
  | '\n' => ['\\', 'n']
  | '\t' => ['\\', 't']
  | '\r' => ['\\', 'r']
  | '\x00' => ['\\', '0']
  | c =>
    if isPrintable c then [c]
    else ['\\', 'u', '\x7b'] ++ Nat.toDigits 16 c.toNat ++ ['\x7d']

/-- The printed form of a text, between double quotes. -/
def print (s : String) : String :=
  String.ofList ('"' :: s.toList.flatMap printChar ++ ['"'])

def printOption (shown : Option String) : String :=
  match shown with
  | some s => "Some(" ++ s ++ ")"
  | none => "None"

def printBool (b : Bool) : String :=
  if b then "true" else "false"

end Tether.Text
