import ScriptValues.Function.Descriptor
import ScriptValues.Value.Listing
import ScriptValues.World

/-! What a session tells about the things it holds. Reports carry texts, flags, hash codes and serials,
and no identities: of those only the outcomes of comparisons are seen. -/

namespace ScriptValues

structure DebugText where
  debug : String
  pretty : String
deriving DecidableEq

def Text.Outline.texts (o : Text.Outline) : DebugText :=
  ⟨o.flat, o.tall⟩

structure ValueReport where
  typeName : String
  display : String
  hash : HashCode
deriving DecidableEq

structure TokenReport where
  serial : UInt64
  live : Bool
  debug : String
deriving DecidableEq

/-- A second look at a function, through what it is made of. -/
inductive PayloadReport where
  | compiler (id : UInt32) (serial : UInt64) (debug : String) (equalsItself : Bool)
  | host (signature : String) (sameCallback : Bool) (debug : String) (equalsItself : Bool)
deriving DecidableEq

structure FunctionReport where
  isCompiler : Bool
  isHost : Bool
  compilerId : Option UInt32
  context : Option TokenReport
  signature : Option String
  hasCallback : Bool
  hash : HashCode
  display : String
  debug : String
  descriptor : String
  payload : PayloadReport
deriving DecidableEq

structure FunctionComparison where
  eq : Bool
  ne : Bool
  reverse : Bool
  hashEq : Bool
  feedEq : Bool
  descriptorEq : Bool
  sameCallback : Option Bool
deriving DecidableEq

structure SetOperations where
  union : List Line
  inter : List Line
  diff : List Line
  eq : Bool
  subset : Bool
deriving DecidableEq

/-- Which of the four fields of some parts are present. -/
structure PartsReport where
  id : Bool
  context : Bool
  signature : Bool
  callback : Bool
deriving DecidableEq

namespace Value

def report (v : Value) : ValueReport :=
  ⟨v.typeName, v.display, v.hashCode⟩

end Value

namespace Function

def payload (f : Function) : PayloadReport :=
  match f with
  | compiler id t => .compiler id t.serial f.outline.flat (f == f)
  | host r =>
    .host r.signature (f.callback?.any (·.object == r.callback.object)) f.outline.flat (r == r)

def compare (f g : Function) : FunctionComparison where
  eq := f == g
  ne := f != g
  reverse := g == f
  hashEq := f.hashCode == g.hashCode
  feedEq := f.feed == g.feed
  descriptorEq := f.descriptor == g.descriptor
  sameCallback := f.sameCallback? g

end Function

namespace World

def reportToken (w : World) (t : Token) : TokenReport :=
  ⟨t.serial, w.isLive t, t.debug⟩

def reportFunction (w : World) (f : Function) : FunctionReport where
  isCompiler := f.isCompiler
  isHost := f.isHost
  compilerId := f.compilerId?
  context := f.context?.map w.reportToken
  signature := f.signature?
  hasCallback := f.callback?.isSome
  hash := f.hashCode
  display := f.display
  debug := f.outline.flat
  descriptor := f.descriptor.json
  payload := f.payload

end World

def Parts.report (p : Parts) : PartsReport :=
  ⟨p.id.isSome, p.context.isSome, p.signature.isSome, p.callback.isSome⟩

end ScriptValues
