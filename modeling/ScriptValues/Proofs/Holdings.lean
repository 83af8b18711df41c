import ScriptValues.Proofs.Bucketing
import ScriptValues.Proofs.Calling
import ScriptValues.Session.Run

/-! What a session holds, wherever it holds it: under a name, inside a value, as a key, captured by a
callback. A property of all the entities held survives every command that makes only entities with
the property, because commands copy and drop what is held and make nothing else. -/

namespace ScriptValues

theorem bind_eq_ok {ε α β : Type} {x : Except ε α} {f : α → Except ε β} {b : β} :
    (x >>= f) = .ok b ↔ ∃ a, x = .ok a ∧ f a = .ok b := by
  cases x with
  | error e => simp [bind, Except.bind]
  | ok a => simp [bind, Except.bind]

theorem bind_pure_eq_ok {ε α β : Type} {x : Except ε α} {f : α → β} {b : β} :
    (x >>= fun a => pure (f a)) = .ok b ↔ ∃ a, x = .ok a ∧ f a = b := by
  rw [bind_eq_ok]
  refine exists_congr fun a => and_congr_right fun _ => ?_
  exact ⟨Except.ok.inj, congrArg Except.ok⟩

namespace Store

variable {α : Type} {p : α → Prop} {s : Store α}

/-- Something holds of everything in the store. -/
def Forall (p : α → Prop) (s : Store α) : Prop :=
  ∀ name a, s.get? name = some a → p a

theorem Forall.mono {q : α → Prop} (h : s.Forall p) (hpq : ∀ a, p a → q a) : s.Forall q :=
  fun name a ha => hpq a (h name a ha)

theorem Forall.empty : (Store.empty : Store α).Forall p := by
  intro name a h
  cases h

theorem Forall.insert (h : s.Forall p) (name : String) {a : α} (ha : p a) :
    (s.insert name a).Forall p := by
  intro other b hb
  rw [get?_insert] at hb
  split at hb
  · cases hb
    exact ha
  · exact h other b hb

theorem Forall.erase (h : s.Forall p) (name : String) : (s.erase name).Forall p := by
  intro other b hb
  rw [get?_erase] at hb
  split at hb
  · cases hb
  · exact h other b hb

theorem Forall.keep (h : s.Forall p) (name : Option String) {a : α} (ha : p a) :
    (s.keep name a).Forall p := by
  cases name with
  | none => exact h
  | some name => exact h.insert name ha

theorem fetch_eq_ok {kind : StoreKind} {name : String} {a : α} :
    s.fetch kind name = .ok a ↔ s.get? name = some a := by
  unfold fetch
  split
  · next h => simp [h]
  · next h => simp [h]

theorem Forall.fetch (h : s.Forall p) {kind : StoreKind} {name : String} {a : α}
    (ha : s.fetch kind name = .ok a) : p a :=
  h name a (fetch_eq_ok.1 ha)

end Store

variable {A : Entity → Prop}

theorem Value.over_nest {v : Value} (h : v.Over A) (n : Nat) : (v.nest n).Over A := by
  induction n generalizing v with
  | zero => exact h
  | succ n ih => exact ih (forall_list.2 (List.forall_mem_singleton.2 h))

def Parts.Over (A : Entity → Prop) (p : Parts) : Prop :=
  ∀ t, p.context = some t → A (.token t)

theorem Parts.Over.mono {B : Entity → Prop} {p : Parts} (h : p.Over A) (hAB : ∀ x, A x → B x) :
    p.Over B :=
  fun t ht => hAB _ (h t ht)

namespace Table

variable {n : Nat} {assign : HashCode → Fin n} {α : Type}

def Over (A : Entity → Prop) (t : Table assign α) : Prop :=
  ∀ v ∈ t.keys, v.Over A

variable {t : Table assign α}

theorem Over.mono {B : Entity → Prop} (h : t.Over A) (hAB : ∀ x, A x → B x) : t.Over B :=
  fun v hv => (h v hv).mono hAB

theorem Over.empty : (Table.empty : Table assign α).Over A := by
  intro v hv
  rw [keys_empty] at hv
  cases hv

theorem Over.insert (h : t.Over A) {key : Value} (hkey : key.Over A) (a : α) :
    (t.insert key a).Over A := by
  intro v hv
  rcases mem_keys_insert hv with hv | ⟨rfl, -⟩
  · exact h v hv
  · exact hkey

theorem Over.erase (h : t.Over A) (key : Value) : (t.erase key).Over A :=
  fun v hv => h v (mem_keys_erase hv)

theorem over_ofList {vs : List Value} (h : ∀ v ∈ vs, v.Over A) :
    (ofList vs : Table assign Unit).Over A := by
  intro v hv
  obtain ⟨before, later, rfl, -⟩ := mem_keys_ofList hv
  exact h v (List.mem_append_right _ List.mem_cons_self)

end Table

namespace Session

/-- The entities in every place of a session are of one sort. -/
structure Over (A : Entity → Prop) (s : Session) : Prop where
  world : s.world.Over A
  contexts : s.contexts.Forall fun c => A (.token c.token)
  tokens : s.tokens.Forall fun t => A (.token t)
  functions : s.functions.Forall fun f => A f.entity
  values : s.values.Forall (Value.Over A)
  parts : s.parts.Forall (Parts.Over A)
  sets : s.sets.Forall (Table.Over A)
  maps : s.maps.Forall (Table.Over A)

variable {s s' : Session}

theorem over_start (n : UInt64) : (start n).Over A where
  world := by
    intro b hb
    simp [start] at hb
  contexts := Store.Forall.empty
  tokens := Store.Forall.empty
  functions := Store.Forall.empty
  values := Store.Forall.empty
  parts := Store.Forall.empty
  sets := Store.Forall.empty
  maps := Store.Forall.empty

theorem Over.mono {B : Entity → Prop} (h : s.Over A) (hAB : ∀ x, A x → B x) : s.Over B where
  world := h.world.mono hAB
  contexts := h.contexts.mono fun _ => hAB _
  tokens := h.tokens.mono fun _ => hAB _
  functions := h.functions.mono fun _ => hAB _
  values := h.values.mono fun _ hv => hv.mono hAB
  parts := h.parts.mono fun _ hp => hp.mono hAB
  sets := h.sets.mono fun _ ht => ht.mono hAB
  maps := h.maps.mono fun _ ht => ht.mono hAB

/-- The function is somewhere in the session. -/
inductive HoldsFunction (s : Session) : Function → Prop where
  | stored {name : String} {f : Function} : s.functions.get? name = some f → HoldsFunction s f
  | inValue {name : String} {v : Value} {f : Function} : s.values.get? name = some v →
      f ∈ v.functions → HoldsFunction s f
  | inSet {name : String} {t : ValueSet} {v : Value} {f : Function} : s.sets.get? name = some t →
      v ∈ t.keys → f ∈ v.functions → HoldsFunction s f
  | inMap {name : String} {t : ValueMap} {v : Value} {f : Function} : s.maps.get? name = some t →
      v ∈ t.keys → f ∈ v.functions → HoldsFunction s f
  | captured {v : Value} {f : Function} : .constant v ∈ s.world.routines.map (·.behaviour) →
      f ∈ v.functions → HoldsFunction s f

/-- The token is somewhere in the session, or is that of a context with an owner. -/
inductive HoldsToken (s : Session) : Token → Prop where
  | owned {name : String} {c : Context} : s.contexts.get? name = some c → HoldsToken s c.token
  | stored {name : String} {t : Token} : s.tokens.get? name = some t → HoldsToken s t
  | inParts {name : String} {p : Parts} {t : Token} : s.parts.get? name = some p →
      p.context = some t → HoldsToken s t
  | inFunction {f : Function} {t : Token} : s.HoldsFunction f → f.context? = some t → HoldsToken s t

def Holds (s : Session) : Entity → Prop
  | .token t => s.HoldsToken t
  | .registration r => s.HoldsFunction (.host r)

theorem HoldsFunction.holds {f : Function} (h : s.HoldsFunction f) : s.Holds f.entity := by
  cases f with
  | compiler id t => exact HoldsToken.inFunction h rfl
  | host r => exact h

theorem over_holds (s : Session) : s.Over s.Holds where
  world := by
    intro b hb
    cases b with
    | constant v => exact fun f hf => (HoldsFunction.captured hb hf).holds
    | _ => trivial
  contexts _ _ h := HoldsToken.owned h
  tokens _ _ h := HoldsToken.stored h
  functions _ _ h := (HoldsFunction.stored h).holds
  values _ _ h _ hf := (HoldsFunction.inValue h hf).holds
  parts _ _ h _ ht := HoldsToken.inParts h ht
  sets _ _ h _ hv _ hf := (HoldsFunction.inSet h hv hf).holds
  maps _ _ h _ hv _ hf := (HoldsFunction.inMap h hv hf).holds

theorem Over.function (h : s.Over A) {f : Function} (hf : s.HoldsFunction f) : A f.entity := by
  cases hf with
  | stored hf => exact h.functions _ _ hf
  | inValue hv hf => exact h.values _ _ hv _ hf
  | inSet ht hv hf => exact h.sets _ _ ht _ hv _ hf
  | inMap ht hv hf => exact h.maps _ _ ht _ hv _ hf
  | captured hb hf => exact h.world _ hb _ hf

theorem Over.of_holds (h : s.Over A) {x : Entity} (hx : s.Holds x) : A x := by
  cases x with
  | registration r => exact h.function hx
  | token t =>
    cases hx with
    | owned hc => exact h.contexts _ _ hc
    | stored ht => exact h.tokens _ _ ht
    | inParts hp ht => exact h.parts _ _ hp _ ht
    | @inFunction f _ hf ht =>
      have hentity := h.function hf
      cases f with
      | compiler id u =>
        cases ht
        exact hentity
      | host r => cases ht

theorem elements_eq_ok {v : Value} {vs : List Value} (h : elements v = .ok vs) : v = .list vs := by
  unfold elements at h
  split at h
  · cases h
    rfl
  · cases h

mutual
theorem Over.eval (h : s.Over A) : ∀ (e : Expr) {v : Value}, s.eval e = .ok v → v.Over A
  | .null, _, hv => by
    cases hv
    exact Value.over_of_functions_eq_nil rfl
  | .boolean b, _, hv => by
    cases hv
    exact Value.over_of_functions_eq_nil rfl
  | .string text, _, hv => by
    cases hv
    exact Value.over_of_functions_eq_nil rfl
  | .list es, _, hv => by
    obtain ⟨vs, hvs, rfl⟩ := bind_pure_eq_ok.1 hv
    exact Value.forall_list.2 (h.evalItems es hvs)
  | .function name, _, hv => by
    obtain ⟨f, hf, rfl⟩ := bind_pure_eq_ok.1 hv
    exact Value.forall_function.2 (h.functions.fetch hf)
  | .value name, _, hv => h.values.fetch hv
  | .compiler id name, _, hv => by
    obtain ⟨c, hc, rfl⟩ := bind_pure_eq_ok.1 hv
    exact Value.forall_function.2 (h.contexts.fetch hc)
  | .text n text, _, hv => by
    cases hv
    exact Value.over_of_functions_eq_nil rfl
  | .copies n e, _, hv => by
    obtain ⟨v, hv', rfl⟩ := bind_pure_eq_ok.1 hv
    refine Value.forall_list.2 fun u hu => ?_
    rw [(List.mem_replicate.1 hu).2]
    exact h.eval e hv'
  | .nest n e, _, hv => by
    obtain ⟨v, hv', rfl⟩ := bind_pure_eq_ok.1 hv
    exact Value.over_nest (h.eval e hv') n
  | .concat es, _, hv => by
    obtain ⟨vs, hvs, rfl⟩ := bind_pure_eq_ok.1 hv
    exact Value.forall_list.2 (h.evalConcat es hvs)

theorem Over.evalItems (h : s.Over A) :
    ∀ (es : List Expr) {vs : List Value}, s.evalItems es = .ok vs → ∀ v ∈ vs, v.Over A
  | [], _, hvs => by
    cases hvs
    exact nofun
  | e :: es, _, hvs => by
    obtain ⟨v, hv, hvs⟩ := bind_eq_ok.1 hvs
    obtain ⟨vs, hvs', rfl⟩ := bind_pure_eq_ok.1 hvs
    exact List.forall_mem_cons.2 ⟨h.eval e hv, h.evalItems es hvs'⟩

theorem Over.evalConcat (h : s.Over A) :
    ∀ (es : List Expr) {vs : List Value}, s.evalConcat es = .ok vs → ∀ v ∈ vs, v.Over A
  | [], _, hvs => by
    cases hvs
    exact nofun
  | e :: es, _, hvs => by
    obtain ⟨v, hv, hvs⟩ := bind_eq_ok.1 hvs
    obtain ⟨us, hus, hvs⟩ := bind_eq_ok.1 hvs
    obtain ⟨ws, hws, rfl⟩ := bind_pure_eq_ok.1 hvs
    have hover := h.eval e hv
    rw [elements_eq_ok hus] at hover
    exact List.forall_mem_append.2 ⟨Value.forall_list.1 hover, h.evalConcat es hws⟩
end

theorem Over.behaviour (h : s.Over A) {e : CallbackExpr} {b : Behaviour}
    (hb : s.behaviour e = .ok b) : b.Over A := by
  cases e with
  | plain c =>
    cases hb
    trivial
  | constant e =>
    obtain ⟨v, hv, rfl⟩ := bind_pure_eq_ok.1 hb
    exact h.eval e hv
  | forward =>
    cases hb
    trivial
  | forwardEach =>
    cases hb
    trivial

end Session
end ScriptValues
