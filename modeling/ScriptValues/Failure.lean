import ScriptValues.Text.Outline
import ScriptValues.Text.Quoted

/-! The ways in which making or calling a function fails. -/

namespace ScriptValues

inductive Failure where
  | bothPayloads
  | missingPayload
  | incompleteCompilerPayload (missing : String)
  | incompleteHostPayload (missing : String)
  | notCallable (id : UInt32)
  | callback (text : String)
deriving DecidableEq

namespace Failure

def message : Failure → String
  | bothPayloads => "a function cannot carry both a compiler id and a host signature"
  | missingPayload =>
    "a function needs either a compiler id and context or a signature and callback"
  | incompleteCompilerPayload missing => "compiler function is missing its " ++ missing
  | incompleteHostPayload missing => "host function is missing its " ++ missing
  | notCallable id =>
    "<compiler function " ++ toString id.toNat ++ "> can only be invoked by the compiler"
  | callback text => "host callback failed: " ++ text

def outline : Failure → Text.Outline
  | bothPayloads => .word "BothPayloads"
  | missingPayload => .word "MissingPayload"
  | incompleteCompilerPayload missing =>
    .record "IncompleteCompilerPayload" [("missing", .text (Text.quote missing))]
  | incompleteHostPayload missing =>
    .record "IncompleteHostPayload" [("missing", .text (Text.quote missing))]
  | notCallable id => .record "NotCallable" [("id", .word (toString id.toNat))]
  | callback text => .tuple "Callback" (.text (Text.quote text))

end Failure
end ScriptValues
