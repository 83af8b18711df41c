import ScriptValues.Function
import ScriptValues.Json
import ScriptValues.Text.Quoted

/-! What a function tells others about itself. A descriptor carries the serial of the context and never
the token or the callback, so no function can be made from it. -/

namespace ScriptValues

inductive Descriptor where
  | compiler (id : UInt32) (context : UInt64)
  | host (signature : String)
deriving DecidableEq

namespace Descriptor

def toJson : Descriptor → Json.Object
  | compiler id context =>
    [("kind", .text "compiler"), ("id", .natural id.toNat), ("context", .natural context.toNat)]
  | host signature => [("kind", .text "host"), ("signature", .text signature)]

def json (d : Descriptor) : String :=
  String.ofList d.toJson.write

def outline : Descriptor → Text.Outline
  | compiler id context =>
    .record "Compiler"
      [("id", .word (toString id.toNat)), ("context", .word (toString context.toNat))]
  | host signature => .record "Host" [("signature", .text (Text.quote signature))]

end Descriptor

def Function.descriptor : Function → Descriptor
  | .compiler id t => .compiler id t.serial
  | .host r => .host r.signature

end ScriptValues
