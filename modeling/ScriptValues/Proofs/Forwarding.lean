import ScriptValues.Proofs.Provenance
import ScriptValues.Proofs.Tracing

/-! Calls that go through functions which forward them. However long the chain, the function at its
end is called once with the arguments that are left, and what it does is what the chain does: its
value comes back as it is, its failure with one more label for every call it came through. -/

namespace ScriptValues

namespace Failure

/-- The text of a failure that came out of so many callbacks. -/
def labelled (n : Nat) (e : Failure) : String :=
  String.join (List.replicate n "host callback failed: ") ++ e.message

theorem labelled_zero (e : Failure) : e.labelled 0 = e.message := by
  simp [labelled]

theorem labelled_succ (n : Nat) (e : Failure) :
    e.labelled (n + 1) = (callback (e.labelled n)).message := by
  change _ = "host callback failed: " ++ e.labelled n
  simp only [labelled, List.replicate_succ, String.join_cons, String.append_assoc]

end Failure

namespace World

variable {w : World} {f : Function} {fs : List Function}

/-- A host function over a callback that calls its first argument with the others. -/
def Forwards (w : World) (f : Function) : Prop :=
  ∃ r q, f = .host r ∧ w.routines[r.callback.routine.index]? = some q ∧ q.behaviour = .forward

/-- Nothing happens before the forwarded call or after it. -/
theorem call_forwards (hf : w.Forwards f) (g : Function) (args : List Value) :
    w.call f (.function g :: args) =
      ((w.call g args).1.mapError fun e => .callback e.message, (w.call g args).2) := by
  obtain ⟨r, q, rfl, hq, hforward⟩ := hf
  rw [call_host, perform_forward hq hforward]
  simp only [target]
  cases (w.call g args).1 <;> rfl

/-- By induction on the chain: the calls below the first one are a chain that is shorter by one. -/
theorem call_chain (hf : w.Forwards f) (hfs : ∀ h ∈ fs, w.Forwards h) (g : Function)
    (args : List Value) :
    w.call f (fs.map Value.function ++ .function g :: args) =
      ((w.call g args).1.mapError fun e => .callback (e.labelled fs.length), (w.call g args).2) := by
  induction fs generalizing f with
  | nil => simpa [Failure.labelled_zero] using call_forwards hf g args
  | cons f' fs ih =>
    obtain ⟨hf', hfs⟩ := List.forall_mem_cons.1 hfs
    have hinner := ih hf' hfs
    rw [List.map_cons, List.cons_append, call_forwards hf, hinner]
    cases (w.call g args).1 with
    | error e => simp [Except.mapError, Failure.labelled_succ]
    | ok v => rfl

/-- A chain of forwarding functions does what the call at its end does, and only labels its failure,
once for every call between the first and the last. -/
theorem chain_agrees_with_end (w : World) (f : Function) (fs : List Function)
    (hchain : ∀ h ∈ f :: fs, w.Forwards h) (g : Function) (args : List Value) :
    let chained := w.call f (fs.map Value.function ++ .function g :: args)
    let alone := w.call g args
    (∀ v, alone.1 = .ok v → chained.1 = .ok v) ∧
    (∀ e, alone.1 = .error e → chained.1 = .error (.callback (e.labelled fs.length))) ∧
    (∀ id t, g = .compiler id t →
      chained.1 = .error (.callback ((Failure.notCallable id).labelled fs.length))) ∧
    chained.2 = alone.2 := by
  obtain ⟨hf, hfs⟩ := List.forall_mem_cons.1 hchain
  intro chained alone
  have hcall : chained = (alone.1.mapError fun e => .callback (e.labelled fs.length), alone.2) :=
    call_chain hf hfs g args
  have hfailed (e : Failure) (he : alone.1 = .error e) :
      chained.1 = .error (.callback (e.labelled fs.length)) := by
    rw [hcall, he]
    rfl
  refine ⟨?_, hfailed, ?_, by rw [hcall]⟩
  · intro v hv
    rw [hcall, hv]
    rfl
  · rintro id t rfl
    apply hfailed
    rw [show alone = _ from call_compiler w id t args]

end World

namespace Session

/-- Two functions share a forwarding callback and one has its own; behind them, a counter and a
function that cannot be called. -/
def forwarders : List Command :=
  [.act (.newCallback .forward (some "pass")), .act (.host "a()" (.stored "pass") (some "a")),
    .act (.register "b()" (.stored "pass") (some "b")),
    .act (.register "c()" (.fresh .forward) (some "c")),
    .act (.register "tick()" (.fresh (.plain .counter)) (some "tick")), .act (.mint (some "context")),
    .act (.contextFunction "context" 7 (some "compiled"))]

theorem forwarders_chained : ∃ a b c tick compiled,
    let s := (start 1).after forwarders
    s.functions.get? "a" = some a ∧ s.functions.get? "b" = some b ∧ s.functions.get? "c" = some c ∧
    s.functions.get? "tick" = some tick ∧ s.functions.get? "compiled" = some compiled ∧
    (s.world.call a ([b, c, a].map Value.function ++ [.function compiled, .null])).1 =
      .error (.callback ("host callback failed: host callback failed: host callback failed: " ++
        "<compiler function 7> can only be invoked by the compiler")) ∧
    (s.world.call a ([a, c].map Value.function ++ [.function tick, .null])).1 = .ok (.string "1") ∧
    (s.world.call a ([a, c].map Value.function ++ [.function tick, .null])).2.routines[2]? =
      some ⟨.plain .counter, 1⟩ := by
  let s := (start 1).after forwarders
  let a : Function := .host ⟨⟨0⟩, "a()", ⟨⟨1⟩, ⟨0⟩⟩⟩
  let b : Function := .host ⟨⟨1⟩, "b()", ⟨⟨0⟩, ⟨0⟩⟩⟩
  let c : Function := .host ⟨⟨2⟩, "c()", ⟨⟨2⟩, ⟨1⟩⟩⟩
  let tick : Function := .host ⟨⟨3⟩, "tick()", ⟨⟨3⟩, ⟨2⟩⟩⟩
  have ha : s.world.Forwards a := ⟨_, _, rfl, rfl, rfl⟩
  have hb : s.world.Forwards b := ⟨_, _, rfl, rfl, rfl⟩
  have hc : s.world.Forwards c := ⟨_, _, rfl, rfl, rfl⟩
  have hcounter : s.world.routines[2]? = some ⟨.plain .counter, 0⟩ := rfl
  have htick : s.world.call tick [.null] = (.ok (.string "1"), s.world.remember ⟨2⟩ 1) := by
    rw [World.call_host, World.perform_plain hcounter rfl]
    rfl
  obtain ⟨-, -, hrefused, -⟩ := World.chain_agrees_with_end s.world a [b, c, a]
    (by simp [ha, hb, hc]) (.compiler 7 ⟨⟨0⟩, 1⟩) [.null]
  obtain ⟨hvalue, -, -, hworld⟩ := World.chain_agrees_with_end s.world a [a, c]
    (by simp [ha, hc]) tick [.null]
  refine ⟨a, b, c, tick, .compiler 7 ⟨⟨0⟩, 1⟩, rfl, rfl, rfl, rfl, rfl, ?_, ?_, ?_⟩
  · exact hrefused 7 _ rfl
  · exact hvalue _ (by rw [htick])
  · rw [hworld, htick]
    rfl

end Session
end ScriptValues
