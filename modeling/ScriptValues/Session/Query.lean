import ScriptValues.Session.Answer
import ScriptValues.Session.Expression

/-! Questions to a session. They store nothing, call nothing and leave the world as it is. -/

namespace ScriptValues

inductive Query where
  /-- The hash code of some bytes, so many times over. -/
  | hashBytes (bytes : ByteArray) (copies : Nat)
  | hashText (text : String)
  | hashWord (word : UInt64)
  | combine (seed : HashCode) (values : List HashCode)
  | failure (f : Failure)
  | compareFailures (a b : Failure)
  | context (name : String)
  | token (name : String)
  | compareTokens (a b : String)
  | insertTokens (names : List String)
  | belongs (token context : String)
  | function (name : String)
  | functionTexts (name : String)
  | compareFunctions (a b : String)
  | hashValue (e : Expr)
  | valueTexts (e : Expr)
  | feed (e : Expr)
  | compareValues (a b : Expr)
  | matrix (items : List Expr)
  | listSet (name : String)
  | setOperations (a b : String)
  | listMap (name : String)

namespace Session

def equalityMatrix (vs : List Value) : List (List Bool) :=
  vs.map fun v => vs.map fun w => v == w

def setOperations (a b : ValueSet) : SetOperations where
  union := (a.union b).listing
  inter := (a.inter b).listing
  diff := (a.diff b).listing
  eq := a.sameKeys b
  subset := a.subset b

def ask (s : Session) : Query → Except Fault Answer
  | .hashBytes bytes n => .ok (.hash (.ofBytes (Bytes.copies n bytes)))
  | .hashText text => .ok (.hash (.ofText text))
  | .hashWord word => .ok (.hash (.ofWord word))
  | .combine seed values => .ok (.hashes (HashCode.combineAll seed values))
  | .failure f => .ok (.failureMade f f.outline.texts)
  | .compareFailures a b => .ok (.failuresCompared (a == b) (a != b))
  | .context name => do
    let c ← s.context name
    return .contextTexts c.serial c.outline.texts
  | .token name => do return .token (some (s.world.reportToken (← s.token name)))
  | .compareTokens a b => do
    let t ← s.token a
    let u ← s.token b
    return .tokensCompared (t == u) (t != u) (t.feed == u.feed)
  | .insertTokens names => do
    let news := Token.firsts [] (← names.mapM s.token)
    return .tokensInserted news (news.count true)
  | .belongs token context => do
    let t ← s.token token
    let c ← s.context context
    return .belongs (t.belongsTo c)
  | .function name => do return .function (some (s.world.reportFunction (← s.function name)))
  | .functionTexts name => do
    let f ← s.function name
    return .functionTexts f.outline.texts f.descriptor.outline.texts
  | .compareFunctions a b => do
    let f ← s.function a
    let g ← s.function b
    return .functionsCompared (f.compare g)
  | .hashValue e => do
    let v ← s.eval e
    return .valueHash v.typeName v.hashCode v.display.utf8ByteSize
  | .valueTexts e => do return .valueTexts (← s.eval e).outline.texts
  | .feed e => do
    let v ← s.eval e
    return .feed v.feed (v.function?.map Function.feed)
  | .compareValues a b => do
    let v ← s.eval a
    let w ← s.eval b
    return .valuesCompared (v == w) (v != w) (w == v) (v.hashCode == w.hashCode)
  | .matrix items => do
    let vs ← s.evalItems items
    return .matrix (equalityMatrix vs) (vs.map Value.hashCode)
  | .listSet name => do
    let t ← s.set name
    return .set t.size t.listing
  | .setOperations a b => do
    let t ← s.set a
    let u ← s.set b
    return .setOperations (setOperations t u)
  | .listMap name => do
    let t ← s.map name
    return .map t.size t.listingWith

end Session
end ScriptValues
