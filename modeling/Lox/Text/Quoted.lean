import Lox.Text.Extending
import Lox.Text.Unprintable

set_option autoImplicit false

/-!
# Quoted text

Text between double quotes, with some characters written as escape sequences.
-/

namespace Lox.Text

/-- A text between quotes. A character is written as `escape` says, or as itself. -/
def quoteWith (escape : Char → Option (List Char)) (text : String) : String :=
  let inside := text.toList.flatMap fun c => (escape c).getD [c]
  String.ofList ('"' :: inside ++ ['"'])

def hexDigits (width n : Nat) : List Char :=
  let digits := Nat.toDigits 16 n
  List.replicate (width - digits.length) '0' ++ digits

/-- Quotes, backslashes and the controls below the space are escaped; a control without a letter of
its own is written with four hexadecimal digits. -/
def escapeControl (c : Char) : Option (List Char) :=
  match c with
  | '"' => some ['\\', '"']
  | '\\' => some ['\\', '\\']
  | '\n' => some ['\\', 'n']
  | '\r' => some ['\\', 'r']
  | '\t' => some ['\\', 't']
  | '\x08' => some ['\\', 'b']
  | '\x0c' => some ['\\', 'f']
  | _ => if c.toNat < 0x20 then some ('\\' :: 'u' :: hexDigits 4 c.toNat) else none

/-- Quotes, backslashes, and every character that would not show on its own are escaped; one without
a letter of its own is written with its hexadecimal digits between braces. -/
def escapeInvisible (c : Char) : Option (List Char) :=
  match c with
  | '"' => some ['\\', '"']
  | '\\' => some ['\\', '\\']
  | '\n' => some ['\\', 'n']
  | '\r' => some ['\\', 'r']
  | '\t' => some ['\\', 't']
  | '\x00' => some ['\\', '0']
  | _ =>
    if isExtending c || isUnprintable c then
      some ('\\' :: 'u' :: '\x7b' :: hexDigits 1 c.toNat ++ ['\x7d'])
    else none

end Lox.Text
