import Coordination.Text.Graphic

/-! # Quoted text

A text between double quotes, with everything escaped that would not show as itself.
-/
namespace Coordination.Text.Quoted

/-- The hexadecimal digits of a number, without leading zeros and in lower case. -/
def hex (n : Nat) : List Char := Nat.toDigits 16 n

def escape (c : Char) : List Char :=
  match c with
  | '\x00' => ['\\', '0']
  | '\t' => ['\\', 't']
  | '\n' => ['\\', 'n']
  | '\r' => ['\\', 'r']
  | '"' => ['\\', '"']
  | '\\' => ['\\', '\\']
  | _ => if isGraphic c then [c] else ['\\', 'u', '\x7b'] ++ hex c.toNat ++ ['\x7d']

def quote (text : String) : String :=
  String.ofList ('"' :: (text.toList.flatMap escape ++ ['"']))

end Coordination.Text.Quoted
