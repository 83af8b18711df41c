import ScriptValues.Proofs.Holdings

/-! Where a session holds what has an identity. Every place holds one thing at most, everything held
has a place, and an expression says by itself in which places the functions of its value are. -/

namespace ScriptValues

/-- Under a name, or the `i`-th of the functions in a value: in one under a name, in a key, or in one
that a routine has captured. -/
inductive Place where
  | context (name : String)
  | token (name : String)
  | parts (name : String)
  | function (name : String)
  | inValue (name : String) (i : Nat)
  | inSet (name : String) (key : Value) (i : Nat)
  | inMap (name : String) (key : Value) (i : Nat)
  | captured (routine i : Nat)

namespace Session

def FunctionAt (s : Session) : Place → Function → Prop
  | .function name, f => s.functions.get? name = some f
  | .inValue name i, f => ∃ v, s.values.get? name = some v ∧ v.functions[i]? = some f
  | .inSet name v i, f => ∃ t, s.sets.get? name = some t ∧ v ∈ t.keys ∧ v.functions[i]? = some f
  | .inMap name v i, f => ∃ t, s.maps.get? name = some t ∧ v ∈ t.keys ∧ v.functions[i]? = some f
  | .captured k i, f => ∃ v, s.world.Captures k v ∧ v.functions[i]? = some f
  | _, _ => False

/-- A function has the identity of its token or of its registration, so one of these is where it is. -/
def At (s : Session) : Place → Entity → Prop
  | .context name, x => ∃ c, s.contexts.get? name = some c ∧ x = .token c.token
  | .token name, x => ∃ t, s.tokens.get? name = some t ∧ x = .token t
  | .parts name, x => ∃ p t, s.parts.get? name = some p ∧ p.context = some t ∧ x = .token t
  | p, x => ∃ f, s.FunctionAt p f ∧ x = f.entity

variable {s : Session} {p : Place} {f g : Function} {x y : Entity}

theorem FunctionAt.at (h : s.FunctionAt p f) : s.At p f.entity := by
  cases p with
  | context | token | parts => exact h.elim
  | _ => exact ⟨f, h, rfl⟩

theorem holdsFunction_iff : s.HoldsFunction f ↔ ∃ p, s.FunctionAt p f := by
  constructor
  · rintro (hf | ⟨hv, hf⟩ | ⟨ht, hv, hf⟩ | ⟨ht, hv, hf⟩ | ⟨hv, hf⟩)
    · exact ⟨.function _, hf⟩
    · obtain ⟨i, hi⟩ := List.mem_iff_getElem?.1 hf
      exact ⟨.inValue _ i, _, hv, hi⟩
    · obtain ⟨i, hi⟩ := List.mem_iff_getElem?.1 hf
      exact ⟨.inSet _ _ i, _, ht, hv, hi⟩
    · obtain ⟨i, hi⟩ := List.mem_iff_getElem?.1 hf
      exact ⟨.inMap _ _ i, _, ht, hv, hi⟩
    · obtain ⟨i, hi⟩ := List.mem_iff_getElem?.1 hf
      obtain ⟨k, hk⟩ := Array.mem_iff_getElem?.1 hv
      exact ⟨.captured k i, _, hk, hi⟩
  · rintro ⟨p, hp⟩
    cases p with
    | context | token | parts => exact hp.elim
    | function name => exact .stored hp
    | inValue name i =>
      obtain ⟨v, hv, hf⟩ := hp
      exact .inValue hv (List.mem_of_getElem? hf)
    | inSet name v i =>
      obtain ⟨t, ht, hv, hf⟩ := hp
      exact .inSet ht hv (List.mem_of_getElem? hf)
    | inMap name v i =>
      obtain ⟨t, ht, hv, hf⟩ := hp
      exact .inMap ht hv (List.mem_of_getElem? hf)
    | captured k i =>
      obtain ⟨v, hv, hf⟩ := hp
      exact .captured (Array.mem_of_getElem? hv) (List.mem_of_getElem? hf)

theorem At.holds (h : s.At p x) : s.Holds x := by
  cases p with
  | context name =>
    obtain ⟨c, hc, rfl⟩ := h
    exact HoldsToken.owned hc
  | token name =>
    obtain ⟨t, ht, rfl⟩ := h
    exact HoldsToken.stored ht
  | parts name =>
    obtain ⟨q, t, hq, ht, rfl⟩ := h
    exact HoldsToken.inParts hq ht
  | _ =>
    obtain ⟨f, hf, rfl⟩ := h
    exact (holdsFunction_iff.2 ⟨_, hf⟩).holds

theorem holds_iff : s.Holds x ↔ ∃ p, s.At p x := by
  constructor
  · intro hx
    cases x with
    | registration r =>
      obtain ⟨p, hp⟩ := holdsFunction_iff.1 hx
      exact ⟨p, hp.at⟩
    | token t =>
      cases hx with
      | owned hc => exact ⟨.context _, _, hc, rfl⟩
      | stored ht => exact ⟨.token _, _, ht, rfl⟩
      | inParts hq ht => exact ⟨.parts _, _, _, hq, ht, rfl⟩
      | @inFunction f _ hf ht =>
        obtain ⟨p, hp⟩ := holdsFunction_iff.1 hf
        cases f with
        | compiler id u =>
          cases ht
          exact ⟨p, hp.at⟩
        | host r => cases ht
  · rintro ⟨p, hp⟩
    exact hp.holds

theorem FunctionAt.unique (hf : s.FunctionAt p f) (hg : s.FunctionAt p g) : f = g := by
  have key {v w : Value} {i : Nat} (hvw : v = w) (hv : v.functions[i]? = some f)
      (hw : w.functions[i]? = some g) : f = g := by
    subst hvw
    exact Option.some.inj (hv.symm.trans hw)
  cases p with
  | context | token | parts => exact hf.elim
  | function name => exact Option.some.inj (hf.symm.trans hg)
  | inValue name i =>
    obtain ⟨v, hv, hf⟩ := hf
    obtain ⟨w, hw, hg⟩ := hg
    exact key (Option.some.inj (hv.symm.trans hw)) hf hg
  | inSet name v i =>
    obtain ⟨_, _, _, hf⟩ := hf
    obtain ⟨_, _, _, hg⟩ := hg
    exact key rfl hf hg
  | inMap name v i =>
    obtain ⟨_, _, _, hf⟩ := hf
    obtain ⟨_, _, _, hg⟩ := hg
    exact key rfl hf hg
  | captured k i =>
    obtain ⟨v, hv, hf⟩ := hf
    obtain ⟨w, hw, hg⟩ := hg
    exact key (Behaviour.constant.inj (Option.some.inj (hv.symm.trans hw))) hf hg

theorem At.unique (hx : s.At p x) (hy : s.At p y) : x = y := by
  cases p with
  | context name =>
    obtain ⟨c, hc, rfl⟩ := hx
    obtain ⟨d, hd, rfl⟩ := hy
    rw [Option.some.inj (hc.symm.trans hd)]
  | token name =>
    obtain ⟨t, ht, rfl⟩ := hx
    obtain ⟨u, hu, rfl⟩ := hy
    rw [Option.some.inj (ht.symm.trans hu)]
  | parts name =>
    obtain ⟨q, t, hq, ht, rfl⟩ := hx
    obtain ⟨q', u, hq', hu, rfl⟩ := hy
    rw [Option.some.inj (hq.symm.trans hq')] at ht
    rw [Option.some.inj (ht.symm.trans hu)]
  | _ =>
    obtain ⟨f, hf, rfl⟩ := hx
    obtain ⟨g, hg, rfl⟩ := hy
    rw [hf.unique hg]

mutual
/-- The places of the functions in the value of an expression, from left to right. -/
def sources (s : Session) : Expr → List Place
  | .null | .boolean _ | .string _ | .text _ _ => []
  | .list es => s.sourcesItems es
  | .function name => [.function name]
  | .value name =>
    (List.range ((s.values.get? name).elim 0 (·.functions.length))).map (.inValue name)
  | .compiler _ name => [.context name]
  | .copies n e => (List.replicate n (s.sources e)).flatten
  | .nest _ e => s.sources e
  | .concat es => s.sourcesItems es

def sourcesItems (s : Session) : List Expr → List Place
  | [] => []
  | e :: es => s.sources e ++ s.sourcesItems es
end

end Session

theorem Value.functions_nest (v : Value) (n : Nat) : (v.nest n).functions = v.functions := by
  induction n generalizing v with
  | zero => rfl
  | succ n ih =>
    rw [nest, ih, functions, functionsOfItems, functionsOfItems, List.append_nil]

namespace Session

variable {s : Session}

/-- The functions are in these places, each in its own. -/
def Located (s : Session) (ps : List Place) (fs : List Function) : Prop :=
  List.Forall₂ (fun p f => s.At p f.entity) ps fs

theorem Located.append {ps qs : List Place} {fs gs : List Function} (h : s.Located ps fs)
    (k : s.Located qs gs) : s.Located (ps ++ qs) (fs ++ gs) :=
  List.rel_append h k

theorem Located.replicate {ps : List Place} {v : Value} (h : s.Located ps v.functions) (n : Nat) :
    s.Located (List.replicate n ps).flatten (Value.functionsOfItems (List.replicate n v)) := by
  induction n with
  | zero => exact .nil
  | succ n ih =>
    rw [List.replicate_succ, List.replicate_succ, List.flatten_cons, Value.functionsOfItems]
    exact h.append ih

theorem located_value {name : String} {v : Value} (h : s.values.get? name = some v) :
    s.Located (s.sources (.value name)) v.functions := by
  rw [sources, h, Option.elim_some, Located, List.forall₂_map_left_iff]
  refine List.forall₂_iff_get.2 ⟨List.length_range, fun i hi hi' => ?_⟩
  rw [List.get_eq_getElem, List.getElem_range]
  exact ⟨_, ⟨v, h, List.getElem?_eq_getElem hi'⟩, rfl⟩

mutual
theorem eval_located : ∀ (e : Expr) {v : Value}, s.eval e = .ok v →
    s.Located (s.sources e) v.functions
  | .null, _, h => by
    cases h
    exact .nil
  | .boolean b, _, h => by
    cases h
    exact .nil
  | .string text, _, h => by
    cases h
    exact .nil
  | .text n text, _, h => by
    cases h
    exact .nil
  | .list es, _, h => by
    obtain ⟨vs, hvs, rfl⟩ := bind_pure_eq_ok.1 h
    exact evalItems_located es hvs
  | .function name, _, h => by
    obtain ⟨f, hf, rfl⟩ := bind_pure_eq_ok.1 h
    exact .cons ⟨f, Store.fetch_eq_ok.1 hf, rfl⟩ .nil
  | .value name, _, h => located_value (Store.fetch_eq_ok.1 h)
  | .compiler id name, _, h => by
    obtain ⟨c, hc, rfl⟩ := bind_pure_eq_ok.1 h
    exact .cons ⟨c, Store.fetch_eq_ok.1 hc, rfl⟩ .nil
  | .copies n e, _, h => by
    obtain ⟨v, hv, rfl⟩ := bind_pure_eq_ok.1 h
    exact (eval_located e hv).replicate n
  | .nest n e, _, h => by
    obtain ⟨v, hv, rfl⟩ := bind_pure_eq_ok.1 h
    rw [Value.functions_nest]
    exact eval_located e hv
  | .concat es, _, h => by
    obtain ⟨vs, hvs, rfl⟩ := bind_pure_eq_ok.1 h
    exact evalConcat_located es hvs

theorem evalItems_located : ∀ (es : List Expr) {vs : List Value}, s.evalItems es = .ok vs →
    s.Located (s.sourcesItems es) (Value.functionsOfItems vs)
  | [], _, h => by
    cases h
    exact .nil
  | e :: es, _, h => by
    obtain ⟨v, hv, h⟩ := bind_eq_ok.1 h
    obtain ⟨vs, hvs, rfl⟩ := bind_pure_eq_ok.1 h
    exact (eval_located e hv).append (evalItems_located es hvs)

theorem evalConcat_located : ∀ (es : List Expr) {vs : List Value}, s.evalConcat es = .ok vs →
    s.Located (s.sourcesItems es) (Value.functionsOfItems vs)
  | [], _, h => by
    cases h
    exact .nil
  | e :: es, _, h => by
    obtain ⟨v, hv, h⟩ := bind_eq_ok.1 h
    obtain ⟨us, hus, h⟩ := bind_eq_ok.1 h
    obtain ⟨ws, hws, rfl⟩ := bind_pure_eq_ok.1 h
    have hfirst := eval_located e hv
    rw [elements_eq_ok hus] at hfirst
    rw [Value.functionsOfItems_eq_flatMap, List.flatMap_append, ← Value.functionsOfItems_eq_flatMap,
      ← Value.functionsOfItems_eq_flatMap]
    exact hfirst.append (evalConcat_located es hws)
end

theorem Located.at {ps : List Place} {fs : List Function} (h : s.Located ps fs) {i : Nat} {p : Place}
    {f : Function} (hp : ps[i]? = some p) (hf : fs[i]? = some f) : s.At p f.entity := by
  obtain ⟨hi, rfl⟩ := List.getElem?_eq_some_iff.1 hp
  obtain ⟨hi', rfl⟩ := List.getElem?_eq_some_iff.1 hf
  exact (List.forall₂_iff_get.1 h).2 i hi hi'

theorem Located.exists_place {ps : List Place} {fs : List Function} (h : s.Located ps fs) {i : Nat}
    {f : Function} (hf : fs[i]? = some f) : ∃ p, ps[i]? = some p := by
  obtain ⟨hi, -⟩ := List.getElem?_eq_some_iff.1 hf
  rw [← List.Forall₂.length_eq h] at hi
  exact ⟨_, List.getElem?_eq_getElem hi⟩

end Session
end ScriptValues
