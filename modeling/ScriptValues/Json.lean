/-! JSON objects whose members are texts and natural numbers, written without blanks. -/

namespace ScriptValues.Json

inductive Scalar where
  | text (s : String)
  | natural (n : Nat)
deriving DecidableEq

abbrev Object := List (String × Scalar)

/-- The last two hexadecimal digits of a number. -/
def hexPair (n : Nat) : List Char :=
  [Nat.digitChar (n / 16 % 16), Nat.digitChar (n % 16)]

/-- Quote, backslash and the characters below the space are escaped, all others are raw. -/
def escape (c : Char) : List Char :=
  match c with
  | '"' => ['\\', '"']
  | '\\' => ['\\', '\\']
  | '\x08' => ['\\', 'b']
  | '\t' => ['\\', 't']
  | '\n' => ['\\', 'n']
  | '\x0c' => ['\\', 'f']
  | '\r' => ['\\', 'r']
  | c => if c.toNat < 0x20 then '\\' :: 'u' :: '0' :: '0' :: hexPair c.toNat else [c]

def quote (s : String) : List Char :=
  '"' :: s.toList.flatMap escape ++ ['"']

def Scalar.write : Scalar → List Char
  | .text s => quote s
  | .natural n => Nat.toDigits 10 n

def writeMember (m : String × Scalar) : List Char :=
  quote m.1 ++ ':' :: m.2.write

def Object.write (o : Object) : List Char :=
  '\x7b' :: [','].intercalate (o.map writeMember) ++ ['\x7d']

end ScriptValues.Json
