import ScriptValues.Callback
import ScriptValues.Context
import ScriptValues.HashCode

/-! Functions as values. A compiler function is an id within one context, a host function is one
registration of a signature and a callback. Equality is narrower than the hash code on both sides:
the hash code sees the id alone and the signature alone. -/

namespace ScriptValues

/-- The identity of one registration with the host. -/
structure RegistrationId where
  ordinal : Nat
deriving DecidableEq

structure Registration where
  id : RegistrationId
  signature : String
  callback : Callback

instance : BEq Registration where
  beq r s := r.id == s.id

inductive Function where
  | compiler (id : UInt32) (context : Token)
  | host (registration : Registration)

namespace Function

def beq : Function → Function → Bool
  | compiler i t, compiler j u => i == j && t == u
  | host r, host s => r == s
  | _, _ => false

instance : BEq Function where
  beq := beq

def isCompiler : Function → Bool
  | compiler .. => true
  | host _ => false

def isHost : Function → Bool
  | compiler .. => false
  | host _ => true

def compilerId? : Function → Option UInt32
  | compiler id _ => some id
  | host _ => none

def context? : Function → Option Token
  | compiler _ t => some t
  | host _ => none

def signature? : Function → Option String
  | compiler .. => none
  | host r => some r.signature

def callback? : Function → Option Callback
  | compiler .. => none
  | host r => some r.callback

def hashCode : Function → HashCode
  | compiler id _ => .ofWord id.toUInt64
  | host r => .ofText r.signature

/-- What a function feeds to a hasher. -/
def feed (f : Function) : List HashCode :=
  [f.hashCode]

def display : Function → String
  | compiler id _ => "<compiler function " ++ toString id.toNat ++ ">"
  | host r => r.signature

/-- The signature of a host function is shown as it is. -/
def outline : Function → Text.Outline
  | compiler id t =>
    .record "CompilerFunction" [("id", .word (toString id.toNat)), ("context", t.outline)]
  | host r => .word ("HostFunction(" ++ r.signature ++ ")")

/-- Whether two host functions hold one callback object. -/
def sameCallback? (f g : Function) : Option Bool :=
  match f.callback?, g.callback? with
  | some c, some d => some (c.object == d.object)
  | _, _ => none

end Function
end ScriptValues
