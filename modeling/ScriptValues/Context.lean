import ScriptValues.Text.Outline

/-! Compile contexts and the tokens that refer to them. A context is owned by its compilation; a token
owns nothing and outlives it. Serials are for diagnostics: they may repeat, identities never do. -/

namespace ScriptValues

/-- The identity of a minted context. -/
structure ContextId where
  ordinal : Nat
deriving DecidableEq

structure Context where
  id : ContextId
  serial : UInt64

structure Token where
  context : ContextId
  serial : UInt64

namespace Token

/-- Tokens are equal when they refer to the same minted context, whatever serial they show. -/
instance : BEq Token where
  beq t u := t.context == u.context

/-- What a token feeds to a hasher. -/
def feed (t : Token) : List ContextId :=
  [t.context]

def debug (t : Token) : String :=
  "ContextToken(#" ++ toString t.serial.toNat ++ ")"

def outline (t : Token) : Text.Outline :=
  .word t.debug

def belongsTo (t : Token) (c : Context) : Bool :=
  t.context == c.id

/-- One flag a token, in order: whether no earlier token is equal to it. -/
def firsts : List Token → List Token → List Bool
  | _, [] => []
  | seen, t :: ts => if seen.contains t then false :: firsts seen ts else true :: firsts (t :: seen) ts

end Token

namespace Context

def token (c : Context) : Token :=
  ⟨c.id, c.serial⟩

def outline (c : Context) : Text.Outline :=
  .record "CompileContext"
    [("slot", .record "ContextSlot" [("serial", .word (toString c.serial.toNat))])]

end Context
end ScriptValues
