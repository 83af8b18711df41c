import ScriptValues.Function
import ScriptValues.Text.Quoted

/-! Script values. Equality goes through lists element by element and ends in the equality of the
functions; values of different kinds are never equal, and equal values have equal hash codes. -/

namespace ScriptValues

inductive Value where
  | null
  | boolean (b : Bool)
  | string (text : String)
  | list (items : List Value)
  | function (f : Function)

namespace Value

mutual
def beq : Value → Value → Bool
  | null, null => true
  | boolean a, boolean b => a == b
  | string s, string t => s == t
  | list vs, list ws => beqItems vs ws
  | function f, function g => f == g
  | _, _ => false

def beqItems : List Value → List Value → Bool
  | [], [] => true
  | v :: vs, w :: ws => beq v w && beqItems vs ws
  | _, _ => false
end

instance : BEq Value where
  beq := beq

def typeName : Value → String
  | null => "Null"
  | boolean _ => "Bool"
  | string _ => "String"
  | list _ => "List"
  | function _ => "Function"

def function? : Value → Option Function
  | function f => some f
  | _ => none

def nullBytes : ByteArray :=
  ⟨#[0]⟩

def booleanBytes (b : Bool) : ByteArray :=
  ⟨#[1, if b then 1 else 0]⟩

mutual
/-- The seed of a list is its length, so that a list and its beginnings differ. -/
def hashCode : Value → HashCode
  | null => .ofBytes nullBytes
  | boolean b => .ofBytes (booleanBytes b)
  | string s => .ofText s
  | list vs => hashItems (.ofWord vs.length.toUInt64) vs
  | function f => f.hashCode

def hashItems : HashCode → List Value → HashCode
  | seed, [] => seed
  | seed, v :: vs => hashItems (.combine seed (hashCode v)) vs
end

/-- What a value feeds to a hasher. -/
def feed (v : Value) : List HashCode :=
  [v.hashCode]

mutual
def shown : Value → Text.Outline
  | null => .word "null"
  | boolean b => .word (if b then "true" else "false")
  | string s => .text ('"' :: s.toList ++ ['"'])
  | list vs => .list (shownItems vs)
  | function f => .word f.display

def shownItems : List Value → List Text.Outline
  | [] => []
  | v :: vs => shown v :: shownItems vs
end

/-- The value for its readers: texts between quotes but not escaped. -/
def display (v : Value) : String :=
  v.shown.flat

mutual
/-- The value for its debuggers: every kind named, texts escaped. -/
def outline : Value → Text.Outline
  | null => .word "Null"
  | boolean b => .tuple "Boolean" (.word (if b then "true" else "false"))
  | string s => .tuple "String" (.text (Text.quote s))
  | list vs => .tuple "List" (.list (outlineItems vs))
  | function f => .tuple "Function" f.outline

def outlineItems : List Value → List Text.Outline
  | [] => []
  | v :: vs => outline v :: outlineItems vs
end

mutual
/-- The functions inside a value, from left to right. -/
def functions : Value → List Function
  | null | boolean _ | string _ => []
  | list vs => functionsOfItems vs
  | function f => [f]

def functionsOfItems : List Value → List Function
  | [] => []
  | v :: vs => functions v ++ functionsOfItems vs
end

/-- A value inside so many lists of one element. -/
def nest : Nat → Value → Value
  | 0, v => v
  | n + 1, v => nest n (list [v])

theorem shownItems_eq_map (vs : List Value) : shownItems vs = vs.map shown := by
  induction vs with
  | nil => rfl
  | cons v vs ih => simp [shownItems, ih]

theorem outlineItems_eq_map (vs : List Value) : outlineItems vs = vs.map outline := by
  induction vs with
  | nil => rfl
  | cons v vs ih => simp [outlineItems, ih]

theorem functionsOfItems_eq_flatMap (vs : List Value) : functionsOfItems vs = vs.flatMap functions := by
  induction vs with
  | nil => rfl
  | cons v vs ih => simp [functionsOfItems, ih]

end Value
end ScriptValues
