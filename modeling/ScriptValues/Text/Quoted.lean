import ScriptValues.Text.Unprintable

/-! Quoted text: between double quotes, with every character that could be misread escaped. -/

namespace ScriptValues.Text

/-- The written form of one character. A code point is written in lower case hexadecimal without
padding, between braces. -/
def escape (c : Char) : List Char :=
  match c with
  | '"' => ['\\', '"']
  | '\\' => ['\\', '\\']
  | '\x00' => ['\\', '0']
  | '\t' => ['\\', 't']
  | '\n' => ['\\', 'n']
  | '\r' => ['\\', 'r']
  | c => if isUnprintable c then '\\' :: 'u' :: '\x7b' :: Nat.toDigits 16 c.toNat ++ ['\x7d'] else [c]

def quote (text : String) : List Char :=
  '"' :: text.toList.flatMap escape ++ ['"']

end ScriptValues.Text
