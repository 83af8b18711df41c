/-! A diagnostic text before its layout is chosen: on one line, or one item a line. Both layouts
are written in front of what follows, and what follows comes out as it went in. -/

namespace ScriptValues.Text

inductive Bracket where
  | round
  | curly
  | square
deriving DecidableEq

namespace Bracket

/-- What stands around the items when they share the line. Only the curly pair keeps blanks. -/
def flat : Bracket → String × String
  | .round => ("(", ")")
  | .curly => (" \x7b ", " \x7d")
  | .square => ("[", "]")

/-- What stands around the items when each has its own line. -/
def tall : Bracket → String × String
  | .round => ("(", ")")
  | .curly => (" \x7b", "\x7d")
  | .square => ("[", "]")

end Bracket

inductive Outline where
  | text (chars : List Char)
  | field (label : String) (body : Outline)
  | group (name : String) (bracket : Bracket) (items : List Outline)

namespace Outline

def word (s : String) : Outline :=
  .text s.toList

def tuple (name : String) (item : Outline) : Outline :=
  .group name .round [item]

def record (name : String) (fields : List (String × Outline)) : Outline :=
  .group name .curly (fields.map fun f => .field f.1 f.2)

def list (items : List Outline) : Outline :=
  .group "" .square items

mutual
/-- The outline on one line, in front of what follows it. -/
def flatOnto : Outline → List Char → List Char
  | .text chars, rest => chars ++ rest
  | .field label body, rest => label.toList ++ ':' :: ' ' :: flatOnto body rest
  | .group name b items, rest =>
    name.toList ++ (b.flat.1.toList ++ flatItemsOnto items (b.flat.2.toList ++ rest))

def flatItemsOnto : List Outline → List Char → List Char
  | [], rest => rest
  | [o], rest => flatOnto o rest
  | o :: p :: os, rest => flatOnto o (',' :: ' ' :: flatItemsOnto (p :: os) rest)
end

/-- A new line at a depth, four blanks for each level. -/
def newline (depth : Nat) : List Char :=
  '\n' :: List.replicate (4 * depth) ' '

/-- The lines of a text after its first are indented too. -/
def indent (depth : Nat) (chars : List Char) : List Char :=
  chars.flatMap fun c => if c = '\n' then newline depth else [c]

mutual
/-- The outline with one item a line, each closed by a comma, in front of what follows it. -/
def tallOnto (depth : Nat) : Outline → List Char → List Char
  | .text chars, rest => indent depth chars ++ rest
  | .field label body, rest => label.toList ++ ':' :: ' ' :: tallOnto depth body rest
  | .group name b [], rest => name.toList ++ (b.tall.1.toList ++ (b.tall.2.toList ++ rest))
  | .group name b (o :: os), rest =>
    name.toList ++ (b.tall.1.toList ++
      tallItemsOnto (depth + 1) (o :: os) (newline depth ++ (b.tall.2.toList ++ rest)))

def tallItemsOnto (depth : Nat) : List Outline → List Char → List Char
  | [], rest => rest
  | o :: os, rest => newline depth ++ tallOnto depth o (',' :: tallItemsOnto depth os rest)
end

def flat (o : Outline) : String :=
  String.ofList (o.flatOnto [])

def tall (o : Outline) : String :=
  String.ofList (o.tallOnto 0 [])

end Outline
end ScriptValues.Text
