import ScriptValues.Failure
import ScriptValues.Function

/-! The payload of a function before it is one: four fields, each present or not. Exactly one complete
pair of fields makes a function. -/

namespace ScriptValues

structure Parts where
  id : Option UInt32 := none
  context : Option Token := none
  signature : Option String := none
  callback : Option Callback := none

/-- What complete parts make: a compiler function as it is, or a host function by registering it. -/
inductive Origin where
  | compiler (id : UInt32) (context : Token)
  | host (signature : String) (callback : Callback)

namespace Parts

def ofFunction (f : Function) : Parts :=
  ⟨f.compilerId?, f.context?, f.signature?, f.callback?⟩

/-- Fields of both kinds are refused first, then parts without fields, then a pair with one absent. -/
def origin (p : Parts) : Except Failure Origin :=
  match p.id.isSome || p.context.isSome, p.signature.isSome || p.callback.isSome with
  | true, true => .error .bothPayloads
  | false, false => .error .missingPayload
  | true, false =>
    match p.id, p.context with
    | some id, some t => .ok (.compiler id t)
    | some _, none => .error (.incompleteCompilerPayload "compile context")
    | none, _ => .error (.incompleteCompilerPayload "id")
  | false, true =>
    match p.signature, p.callback with
    | some s, some c => .ok (.host s c)
    | some _, none => .error (.incompleteHostPayload "callback")
    | none, _ => .error (.incompleteHostPayload "signature")

end Parts
end ScriptValues
