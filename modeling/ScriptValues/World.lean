import ScriptValues.Callback.Computation
import ScriptValues.Function.Parts

/-! The world that functions live in: it mints contexts, registers host functions, holds the routines
behind the callbacks, and keeps the history of the first two. Identities are ordinals that are used
once; the serials of the contexts start anywhere and wrap. -/

namespace ScriptValues

inductive Event where
  | minted (context : Context)
  | dropped (context : Context)
  | registered (registration : Registration)

structure World where
  nextSerial : UInt64
  contextCount : Nat := 0
  /-- The contexts that have an owner. -/
  live : List ContextId := []
  registrationCount : Nat := 0
  callbackCount : Nat := 0
  routines : Array Routine := #[]
  /-- The first event comes first. -/
  history : List Event := []

namespace World

def mint (w : World) : Context × World :=
  let c : Context := ⟨⟨w.contextCount⟩, w.nextSerial⟩
  (c, { w with
    nextSerial := w.nextSerial + 1
    contextCount := w.contextCount + 1
    live := c.id :: w.live
    history := w.history ++ [.minted c] })

def drop (w : World) (c : Context) : World :=
  { w with live := w.live.erase c.id, history := w.history ++ [.dropped c] }

def isLive (w : World) (t : Token) : Bool :=
  w.live.contains t.context

/-- A new callback object over a routine that may have others. -/
def wrap (w : World) (routine : RoutineId) : Callback × World :=
  (⟨⟨w.callbackCount⟩, routine⟩, { w with callbackCount := w.callbackCount + 1 })

/-- A new callback object over a new routine. -/
def newCallback (w : World) (behaviour : Behaviour) : Callback × World :=
  { w with routines := w.routines.push ⟨behaviour, 0⟩ }.wrap ⟨w.routines.size⟩

def register (w : World) (signature : String) (callback : Callback) : Function × World :=
  let r : Registration := ⟨⟨w.registrationCount⟩, signature, callback⟩
  (.host r, { w with
    registrationCount := w.registrationCount + 1
    history := w.history ++ [.registered r] })

/-- A compiler function is what its parts say; a host function is registered, so it is new. -/
def make (w : World) : Origin → Function × World
  | .compiler id t => (.compiler id t, w)
  | .host signature callback => w.register signature callback

/-- The function of complete parts. Other parts leave the world as it was. -/
def build (w : World) (p : Parts) : Except Failure Function × World :=
  match p.origin with
  | .error e => (.error e, w)
  | .ok o => (.ok (w.make o).1, (w.make o).2)

def remember (w : World) (routine : RoutineId) (memory : Nat) : World :=
  { w with routines := w.routines.modify routine.index ({ · with memory }) }

end World
end ScriptValues
