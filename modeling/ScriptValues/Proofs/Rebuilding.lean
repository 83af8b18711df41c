import ScriptValues.Proofs.KeyContract
import ScriptValues.Proofs.Liveness

/-! Functions taken apart and built again. Parts make a function exactly when they are the parts of
one, and then they are its parts. What comes back is the same function if a compiler owns it; on the
host's side it is a new one every time, which only looks like the one taken apart. -/

namespace ScriptValues

namespace PartsField

theorem forall_iff {P : PartsField → Prop} :
    (∀ k, P k) ↔ P .id ∧ P .context ∧ P .signature ∧ P .callback := by
  constructor
  · intro h
    exact ⟨h _, h _, h _, h _⟩
  · rintro ⟨hid, hcontext, hsignature, hcallback⟩ k
    cases k <;> assumption

/-- The field that completes a payload together with this one. -/
def partner : PartsField → PartsField
  | id => context
  | context => id
  | signature => callback
  | callback => signature

/-- How parts are refused for lack of this field alone. -/
def absence : PartsField → Failure
  | id => .incompleteCompilerPayload "id"
  | context => .incompleteCompilerPayload "compile context"
  | signature => .incompleteHostPayload "signature"
  | callback => .incompleteHostPayload "callback"

end PartsField

namespace Parts

variable {p : Parts}

/-- Whether the field is set. -/
def has (p : Parts) : PartsField → Bool
  | .id => p.id.isSome
  | .context => p.context.isSome
  | .signature => p.signature.isSome
  | .callback => p.callback.isSome

/-- The complete parts that make it. -/
def ofOrigin : Origin → Parts
  | .compiler id t => { id := some id, context := some t }
  | .host signature c => { signature := some signature, callback := some c }

theorem origin_eq_ok_iff {o : Origin} : p.origin = .ok o ↔ p = ofOrigin o := by
  rcases p with ⟨_ | _, _ | _, _ | _, _ | _⟩ <;> cases o <;> simp [origin, ofOrigin]

theorem origin_bothPayloads_iff : p.origin = .error .bothPayloads ↔
    (p.has .id ∨ p.has .context) ∧ (p.has .signature ∨ p.has .callback) := by
  rcases p with ⟨_ | _, _ | _, _ | _, _ | _⟩ <;> simp [origin, has]

theorem origin_missingPayload_iff : p.origin = .error .missingPayload ↔ ∀ k, ¬ p.has k := by
  rcases p with ⟨_ | _, _ | _, _ | _, _ | _⟩ <;> simp [origin, has, PartsField.forall_iff]

theorem origin_absence_iff {k : PartsField} :
    p.origin = .error k.absence ↔ ∀ j, p.has j ↔ j = k.partner := by
  rcases p with ⟨_ | _, _ | _, _ | _, _ | _⟩ <;> cases k <;>
    simp [origin, has, PartsField.forall_iff, PartsField.absence, PartsField.partner]

/-- There is no other refusal. -/
theorem origin_eq_error {e : Failure} (h : p.origin = .error e) :
    e = .bothPayloads ∨ e = .missingPayload ∨ ∃ k : PartsField, e = k.absence := by
  unfold origin at h
  split at h
  · exact Or.inl (Except.error.inj h).symm
  · exact Or.inr (Or.inl (Except.error.inj h).symm)
  · refine Or.inr (Or.inr ?_)
    split at h
    · cases h
    · exact ⟨.context, (Except.error.inj h).symm⟩
    · exact ⟨.id, (Except.error.inj h).symm⟩
  · refine Or.inr (Or.inr ?_)
    split at h
    · cases h
    · exact ⟨.callback, (Except.error.inj h).symm⟩
    · exact ⟨.signature, (Except.error.inj h).symm⟩

theorem exists_ofOrigin (f : Function) : ∃ o, ofFunction f = ofOrigin o := by
  cases f with
  | compiler id t => exact ⟨.compiler id t, rfl⟩
  | host r => exact ⟨.host r.signature r.callback, rfl⟩

end Parts

/-- The function looks like the other, which need not make them equal. -/
structure Function.Resembles (g f : Function) : Prop where
  isHost : g.isHost = f.isHost
  signature : g.signature? = f.signature?
  callback : g.callback? = f.callback?
  hashCode : g.hashCode = f.hashCode
  display : g.display = f.display
  descriptor : g.descriptor = f.descriptor

namespace World

variable {w : World} {p : Parts} {f : Function} {e : Failure}

theorem build_ofOrigin (w : World) (o : Origin) :
    w.build (Parts.ofOrigin o) = (.ok (w.make o).1, (w.make o).2) := by
  rw [build, Parts.origin_eq_ok_iff.2 rfl]

theorem ofFunction_make (w : World) (o : Origin) : Parts.ofFunction (w.make o).1 = Parts.ofOrigin o := by
  cases o <;> rfl

theorem build_eq_error_iff : (w.build p).1 = .error e ↔ p.origin = .error e := by
  unfold build
  split <;> simp_all

theorem world_build_of_error (h : (w.build p).1 = .error e) : (w.build p).2 = w := by
  rw [build, build_eq_error_iff.1 h]

theorem ofFunction_of_build (h : (w.build p).1 = .ok f) : Parts.ofFunction f = p := by
  cases ho : p.origin with
  | error e =>
    rw [build_eq_error_iff.2 ho] at h
    cases h
  | ok o =>
    obtain rfl := Parts.origin_eq_ok_iff.1 ho
    rw [build_ofOrigin] at h
    obtain rfl := Except.ok.inj h
    exact ofFunction_make w o

theorem build_succeeds_iff : (∃ f, (w.build p).1 = .ok f) ↔ ∃ f, p = Parts.ofFunction f := by
  constructor
  · rintro ⟨f, hf⟩
    exact ⟨f, (ofFunction_of_build hf).symm⟩
  · rintro ⟨f, rfl⟩
    obtain ⟨o, ho⟩ := Parts.exists_ofOrigin f
    exact ⟨_, by rw [ho, build_ofOrigin]⟩

theorem build_compiler (w : World) (hf : f.isCompiler) :
    w.build (Parts.ofFunction f) = (.ok f, w) := by
  cases f with
  | compiler id t => exact w.build_ofOrigin (.compiler id t)
  | host r => cases hf

/-- No function that the world knows has the identity that is given out next. -/
theorem Fresh.register_beq_eq_false (hw : w.Fresh) (signature : String) (c : Callback)
    (hf : w.Knows f) : ((w.register signature c).1 == f) = false := by
  rw [Bool.eq_false_iff]
  intro heq
  rcases Function.beq_iff.1 heq with ⟨_, _, _, hg, -, -⟩ | ⟨r, q, hg, rfl, hrq⟩
  · cases hg
  · cases hg
    have htaken : q.id.ordinal < w.registrationCount := hw.taken _ hf
    rw [← Registration.beq_iff.1 hrq] at htaken
    exact Nat.lt_irrefl _ htaken

theorem knows_register (w : World) (signature : String) (c : Callback) :
    (w.register signature c).2.Knows (w.register signature c).1 :=
  ⟨_, List.mem_append_right _ (List.mem_singleton_self _), rfl⟩

/-- The world registers a function that looks like the host function that was taken apart. -/
theorem build_host (w : World) (hf : f.isHost) : ∃ signature c,
    w.build (Parts.ofFunction f) =
      (.ok (w.register signature c).1, (w.register signature c).2) ∧
    (w.register signature c).1.Resembles f := by
  cases f with
  | compiler id t => cases hf
  | host r =>
    exact ⟨r.signature, r.callback, w.build_ofOrigin (.host r.signature r.callback),
      ⟨rfl, rfl, rfl, rfl, rfl, rfl⟩⟩

end World

namespace Session

variable {s : Session} {f : Function}

/-- What comes of building the parts again and again, with some commands before each time. -/
def builds (s : Session) (p : Parts) : List (List Command) → List (Except Failure Function)
  | [] => []
  | cs :: later =>
    ((s.after cs).world.build p).1 ::
      builds { s.after cs with world := ((s.after cs).world.build p).2 } p later

/-- A build that fails answers with the failure, logs nothing and leaves the session as it was. -/
theorem step_build_of_error {parts : String} {name : Option String} {p : Parts} {e : Failure}
    (hp : s.parts.get? parts = some p) (he : (s.world.build p).1 = .error e) :
    s.step (.act (.build parts name)) = (⟨.ok (.failed e), []⟩, s) := by
  have hbuild : s.world.build p = (.error e, s.world) := Prod.ext he (World.world_build_of_error he)
  have hact : s.act (.build parts name) = .ok (.failed e, s) := by
    simp only [act, partsNamed, Store.fetch, hp, Session.build, hbuild, bind, Except.bind, pure,
      Except.pure]
  simp [step, hact, logSince]

/-- Each build is after the ones before it, so what they made is known when it makes something new. -/
theorem builds_host (hs : s.world.Fresh) (hf : f.isHost) (gaps : List (List Command)) :
    ∃ gs : List Function, s.builds (Parts.ofFunction f) gaps = gs.map .ok ∧
      gs.length = gaps.length ∧ gs.Pairwise (fun g h => (g == h) = false) ∧
      ∀ g ∈ gs, g.Resembles f ∧ ∀ h, s.world.Knows h → (g == h) = false := by
  induction gaps generalizing s with
  | nil => exact ⟨[], rfl, rfl, List.Pairwise.nil, nofun⟩
  | cons cs gaps ih =>
    have hmoves := s.after_moves cs
    have hfresh := hs.moves hmoves
    obtain ⟨signature, c, hbuild, hresembles⟩ := (s.after cs).world.build_host hf
    have hregister : s.world.Moves ((s.after cs).world.register signature c).2 :=
      .register signature c hmoves
    let s' := { s.after cs with world := ((s.after cs).world.register signature c).2 }
    obtain ⟨gs, hgs, hlength, hapart, hnew⟩ := ih (s := s') (hs.moves hregister)
    have hknown : s'.world.Knows ((s.after cs).world.register signature c).1 :=
      World.knows_register _ signature c
    refine ⟨((s.after cs).world.register signature c).1 :: gs, ?_, ?_, ?_, ?_⟩
    · rw [builds, hbuild, List.map_cons, ← hgs]
    · rw [List.length_cons, List.length_cons, hlength]
    · refine List.pairwise_cons.2 ⟨fun g hg => ?_, hapart⟩
      rw [BEq.comm]
      exact (hnew g hg).2 _ hknown
    · refine List.forall_mem_cons.2 ⟨⟨hresembles, fun h hh => ?_⟩, fun g hg => ⟨(hnew g hg).1, ?_⟩⟩
      · exact hfresh.register_beq_eq_false signature c (hmoves.knows hh)
      · exact fun h hh => (hnew g hg).2 h (hregister.knows hh)

/-- Building and taking apart undo each other as far as identities allow. -/
structure Rebuilds (s : Session) : Prop where
  inverse : ∀ p f, (s.world.build p).1 = .ok f → Parts.ofFunction f = p
  accepted : ∀ p, (∃ f, (s.world.build p).1 = .ok f) ↔ ∃ f, p = Parts.ofFunction f
  both : ∀ p, (s.world.build p).1 = .error .bothPayloads ↔
    (p.has .id ∨ p.has .context) ∧ (p.has .signature ∨ p.has .callback)
  nothing : ∀ p, (s.world.build p).1 = .error .missingPayload ↔ ∀ k, ¬ p.has k
  /-- One field is set, and the failure names the other of its pair. -/
  incomplete : ∀ p (k : PartsField),
    (s.world.build p).1 = .error k.absence ↔ ∀ j, p.has j ↔ j = k.partner
  refused : ∀ p e, (s.world.build p).1 = .error e →
    (e = .bothPayloads ∨ e = .missingPayload ∨ ∃ k : PartsField, e = k.absence) ∧
      (s.world.build p).2 = s.world
  silent : ∀ parts name p e, s.parts.get? parts = some p → (s.world.build p).1 = .error e →
    s.step (.act (.build parts name)) = (⟨.ok (.failed e), []⟩, s)
  /-- Whether or not the context of the function is still owned. -/
  compiler : ∀ f : Function, f.isCompiler → ∃ g,
    s.world.build (Parts.ofFunction f) = (.ok g, s.world) ∧ g == f
  host : ∀ f : Function, f.isHost → ∃ g w, s.world.build (Parts.ofFunction f) = (.ok g, w) ∧
    g.Resembles f ∧ ∀ h, s.HoldsFunction h ∨ s.world.Knows h → (g == h) = false
  /-- Whatever happens between the builds. -/
  repeated : ∀ (f : Function) (gaps : List (List Command)), f.isHost → ∃ gs : List Function,
    s.builds (Parts.ofFunction f) gaps = gs.map .ok ∧ gs.length = gaps.length ∧
    gs.Pairwise (fun g h => (g == h) = false) ∧
    ∀ g ∈ gs, g.Resembles f ∧ ∀ h, s.world.Knows h → (g == h) = false

/-- In every state that a run can reach. -/
theorem parts_rebuild (n : UInt64) (cs : List Command) : ((start n).after cs).Rebuilds where
  inverse p f h := World.ofFunction_of_build h
  accepted p := World.build_succeeds_iff
  both p := World.build_eq_error_iff.trans Parts.origin_bothPayloads_iff
  nothing p := World.build_eq_error_iff.trans Parts.origin_missingPayload_iff
  incomplete p k := World.build_eq_error_iff.trans Parts.origin_absence_iff
  refused p e h := ⟨Parts.origin_eq_error (World.build_eq_error_iff.1 h), World.world_build_of_error h⟩
  silent parts name p e hp he := step_build_of_error hp he
  compiler f hf := ⟨f, World.build_compiler _ hf, BEq.rfl⟩
  host f hf := by
    obtain ⟨signature, c, hbuild, hresembles⟩ := World.build_host _ hf
    refine ⟨_, _, hbuild, hresembles, fun h hh => ?_⟩
    have hknown : ((start n).after cs).world.Knows h := hh.elim HoldsFunction.knows id
    exact (fresh_after n cs).register_beq_eq_false signature c hknown
  repeated f gaps hf := builds_host (fresh_after n cs) hf gaps

/-- A compiler function that has outlived its context, and a host function. -/
def dismantled : List Command :=
  [.act (.mint (some "a")), .act (.contextFunction "a" 7 (some "f")), .act (.dropContext "a"),
    .act (.host "h()" (.fresh (.plain .null)) (some "h"))]

theorem dismantled_rebuilt : ∃ f h,
    let s := (start 1).after dismantled
    s.functions.get? "f" = some f ∧ s.functions.get? "h" = some h ∧
    f.context?.map s.world.isLive = some false ∧
    (∃ g, s.world.build (Parts.ofFunction f) = (.ok g, s.world) ∧ g == f) ∧
    (s.world.build { id := some 7 }).1 = .error (.incompleteCompilerPayload "compile context") ∧
    ∃ gs : List Function, s.builds (Parts.ofFunction h) [dismantled, []] = gs.map .ok ∧ gs.length = 2 ∧
      gs.Pairwise (fun g k => (g == k) = false) ∧ ∀ g ∈ gs, g.display = "h()" ∧ (g == h) = false := by
  have hrebuilds := parts_rebuild 1 dismantled
  let f : Function := .compiler 7 ⟨⟨0⟩, 1⟩
  let h : Function := .host ⟨⟨0⟩, "h()", ⟨⟨1⟩, ⟨0⟩⟩⟩
  have hh : ((start 1).after dismantled).functions.get? "h" = some h := rfl
  have hknown : ((start 1).after dismantled).world.Knows h := HoldsFunction.knows (.stored hh)
  obtain ⟨gs, hgs, hlength, hapart, hnew⟩ := hrebuilds.repeated h [dismantled, []] rfl
  refine ⟨f, h, rfl, hh, rfl, hrebuilds.compiler f rfl, ?_, gs, hgs, hlength, hapart, fun g hg => ?_⟩
  · refine (hrebuilds.incomplete { id := some 7 } .context).2 fun j => ?_
    cases j <;> decide
  · obtain ⟨hresembles, hunequal⟩ := hnew g hg
    exact ⟨hresembles.display, hunequal h hknown⟩

end Session
end ScriptValues
