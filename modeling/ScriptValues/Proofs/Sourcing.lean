import ScriptValues.Proofs.Handing
import ScriptValues.Proofs.Supplying

/-! Whatever is in a place after an action was made by the action, was handed over by it from another
place, or was in the place before. -/

namespace ScriptValues

namespace Store

variable {α : Type} {t : Store α} {a b : α} {n other : String}

theorem get?_keep (name : Option String) (h : (t.keep name a).get? n = some b) :
    name = some n ∧ b = a ∨ t.get? n = some b := by
  cases name with
  | none => exact Or.inr h
  | some name =>
    rw [keep, get?_insert] at h
    split at h
    · next hn => exact Or.inl ⟨congrArg some hn.symm, (Option.some.inj h).symm⟩
    · exact Or.inr h

theorem get?_of_erase (h : (t.erase other).get? n = some b) : t.get? n = some b := by
  rw [get?_erase] at h
  split at h
  · cases h
  · exact h

end Store

namespace Session

section Stores

variable {s : Session} {name : Option String} {q : Place} {x : Entity}

theorem at_keepContext {c : Context} (h : (s.keepContext name c).At q x) :
    (∃ n, name = some n ∧ q = .context n ∧ x = .token c.token) ∨ s.At q x := by
  cases name with
  | none => exact Or.inr h
  | some name =>
    have hworld : (s.keepContext (some name) c).world.routines = s.world.routines :=
      routines_keepContext s (some name) c
    cases q with
    | context n =>
      obtain ⟨d, hd, rfl⟩ := h
      rcases Store.get?_keep (some name) hd with ⟨hn, rfl⟩ | hd
      · cases hn
        exact Or.inl ⟨_, rfl, rfl, rfl⟩
      · exact Or.inr ⟨d, hd, rfl⟩
    | captured k i =>
      obtain ⟨f, ⟨v, hv, hf⟩, rfl⟩ := h
      rw [World.Captures, hworld] at hv
      exact Or.inr ⟨f, ⟨v, hv, hf⟩, rfl⟩
    | _ => exact Or.inr h

theorem at_keepToken {t : Token} (h : (s.keepToken name t).2.At q x) :
    (∃ n, name = some n ∧ q = .token n ∧ x = .token t) ∨ s.At q x := by
  cases q with
  | token n =>
    obtain ⟨u, hu, rfl⟩ := h
    rcases Store.get?_keep name hu with ⟨rfl, rfl⟩ | hu
    · exact Or.inl ⟨n, rfl, rfl, rfl⟩
    · exact Or.inr ⟨u, hu, rfl⟩
  | _ => exact Or.inr h

theorem at_keepFunction {f : Function} (h : (s.keepFunction name f).2.At q x) :
    (∃ n, name = some n ∧ q = .function n ∧ x = f.entity) ∨ s.At q x := by
  cases q with
  | function n =>
    obtain ⟨g, hg, rfl⟩ := h
    rcases Store.get?_keep name hg with ⟨rfl, rfl⟩ | hg
    · exact Or.inl ⟨n, rfl, rfl, rfl⟩
    · exact Or.inr ⟨g, hg, rfl⟩
  | _ => exact Or.inr h

theorem at_keepValue {v : Value} (h : { s with values := s.values.keep name v }.At q x) :
    (∃ n i f, name = some n ∧ q = .inValue n i ∧ v.functions[i]? = some f ∧ x = f.entity) ∨
      s.At q x := by
  cases q with
  | inValue n i =>
    obtain ⟨f, ⟨u, hu, hf⟩, rfl⟩ := h
    rcases Store.get?_keep name hu with ⟨rfl, rfl⟩ | hu
    · exact Or.inl ⟨n, i, f, rfl, rfl, hf, rfl⟩
    · exact Or.inr ⟨f, ⟨u, hu, hf⟩, rfl⟩
  | _ => exact Or.inr h

theorem at_keepSet (name : Option String) {t : ValueSet} (h : { s with sets := s.sets.keep name t }.At q x) :
    (∃ n v i f, name = some n ∧ q = .inSet n v i ∧ v ∈ t.keys ∧ v.functions[i]? = some f ∧
      x = f.entity) ∨ s.At q x := by
  cases q with
  | inSet n v i =>
    obtain ⟨f, ⟨u, hu, hv, hf⟩, rfl⟩ := h
    rcases Store.get?_keep name hu with ⟨rfl, rfl⟩ | hu
    · exact Or.inl ⟨n, v, i, f, rfl, rfl, hv, hf, rfl⟩
    · exact Or.inr ⟨f, ⟨u, hu, hv, hf⟩, rfl⟩
  | _ => exact Or.inr h

theorem at_keepMap {t : ValueMap} {name : String} (h : { s with maps := s.maps.insert name t }.At q x) :
    (∃ v i f, q = .inMap name v i ∧ v ∈ t.keys ∧ v.functions[i]? = some f ∧ x = f.entity) ∨
      s.At q x := by
  cases q with
  | inMap n v i =>
    obtain ⟨f, ⟨u, hu, hv, hf⟩, rfl⟩ := h
    rcases Store.get?_keep (some name) hu with ⟨hn, rfl⟩ | hu
    · cases hn
      exact Or.inl ⟨v, i, f, rfl, hv, hf, rfl⟩
    · exact Or.inr ⟨f, ⟨u, hu, hv, hf⟩, rfl⟩
  | _ => exact Or.inr h

/-- Of the world a session needs only what its routines have captured. -/
theorem at_world {w : World} (h : { s with world := w }.At q x)
    (hw : ∀ k v, w.Captures k v → s.world.Captures k v) : s.At q x := by
  cases q with
  | captured k i =>
    obtain ⟨f, ⟨v, hv, hf⟩, rfl⟩ := h
    exact ⟨f, ⟨v, hw k v hv, hf⟩, rfl⟩
  | _ => exact h

end Stores

variable {s : Session} {a : Action} {r : Answer × Session} {p q : Place} {x : Entity}

/-- Where that comes from which is in a place after an action. -/
inductive Sourced (s : Session) (a : Action) (q : Place) (x : Entity) : Prop where
  | made : s.Makes a q → Sourced s a q x
  | handed {p : Place} : s.Hands a p q → Sourced s a q x
  | left : s.At q x → Sourced s a q x

theorem captured_source (h : s.act a = .ok r) {k i : Nat} (hq : r.2.At (.captured k i) x)
    {ref : CallbackRef} (ha : a.callback? = some ref) : s.Sourced a (.captured k i) x := by
  obtain ⟨f, ⟨v, hv, hf⟩, rfl⟩ := hq
  obtain ⟨c, hc, hcaptures⟩ := act_callback h ha
  rcases (captures_callback hc).1 ((hcaptures k v).1 hv) with hv | ⟨rfl, e, rfl, he⟩
  · exact .left ⟨f, ⟨v, hv, hf⟩, rfl⟩
  · obtain ⟨p, hp⟩ := (eval_located e he).exists_place hf
    exact .handed (.captured ha hp)

theorem evalItems_append_cons {es : List Expr} {us ws : List Value} {v : Value}
    (h : s.evalItems es = .ok (us ++ v :: ws)) : ∃ before e later, es = before ++ e :: later ∧
      s.evalItems before = .ok us ∧ s.eval e = .ok v := by
  induction us generalizing es with
  | nil =>
    cases es with
    | nil => cases h
    | cons e es =>
      obtain ⟨u, hu, h⟩ := bind_eq_ok.1 h
      obtain ⟨us, hus, hcons⟩ := bind_pure_eq_ok.1 h
      cases hcons
      exact ⟨[], e, es, rfl, rfl, hu⟩
  | cons u us ih =>
    cases es with
    | nil => cases h
    | cons e es =>
      obtain ⟨u', hu, h⟩ := bind_eq_ok.1 h
      obtain ⟨us', hus, hcons⟩ := bind_pure_eq_ok.1 h
      cases hcons
      obtain ⟨before, e', later, rfl, hbefore, he'⟩ := ih hus
      refine ⟨e :: before, e', later, rfl, ?_, he'⟩
      exact bind_eq_ok.2 ⟨u, hu, bind_pure_eq_ok.2 ⟨us, hbefore, rfl⟩⟩

theorem mem_keys_orNew {n : Nat} {assign : HashCode → Fin n} {α : Type}
    {t : Option (Table assign α)} {v : Value} (hv : v ∈ (t.getD .empty).keys) :
    ∃ u, t = some u ∧ v ∈ u.keys := by
  cases t with
  | none =>
    rw [Option.getD_none, Table.keys_empty] at hv
    cases hv
  | some u => exact ⟨u, rfl, hv⟩

theorem at_setOrNew {name : String} {v : Value} {i : Nat} {f : Function}
    (hv : v ∈ (s.setOrNew name).keys) (hf : v.functions[i]? = some f) :
    s.At (.inSet name v i) f.entity := by
  obtain ⟨t, ht, hv⟩ := mem_keys_orNew hv
  exact ⟨f, ⟨t, ht, hv, hf⟩, rfl⟩

theorem at_mapOrNew {name : String} {v : Value} {i : Nat} {f : Function}
    (hv : v ∈ (s.mapOrNew name).keys) (hf : v.functions[i]? = some f) :
    s.At (.inMap name v i) f.entity := by
  obtain ⟨t, ht, hv⟩ := mem_keys_orNew hv
  exact ⟨f, ⟨t, ht, hv, hf⟩, rfl⟩

theorem at_keepSet_subset {name : String} {t : ValueSet} {result : Bool}
    (ht : t.keys ⊆ (s.setOrNew name).keys) (hq : (s.keepSet name t result).2.At q x) : s.At q x := by
  rcases at_keepSet (some name) hq with ⟨n, v, i, f, hn, rfl, hv, hf, rfl⟩ | hq
  · cases hn
    exact at_setOrNew (ht hv) hf
  · exact hq

theorem at_keepMap_subset {name : String} {t : ValueMap} (ht : t.keys ⊆ (s.mapOrNew name).keys)
    (hq : { s with maps := s.maps.insert name t }.At q x) : s.At q x := by
  rcases at_keepMap hq with ⟨v, i, f, rfl, hv, hf, rfl⟩ | hq
  · exact at_mapOrNew (ht hv) hf
  · exact hq

/-- A registration is what the action makes; the callback under it may capture something. -/
theorem registered_source (h : s.act a = .ok r) {ref : CallbackRef} (ha : a.callback? = some ref)
    {name : Option String} {w : World} {f : Function}
    (hr : r.2 = ({ s with world := w }.keepFunction name f).2)
    (hname : ∀ n, name = some n → s.Makes a (.function n)) (hq : r.2.At q x) : s.Sourced a q x := by
  cases q with
  | captured k i => exact captured_source h hq ha
  | _ =>
    rw [hr] at hq
    rcases at_keepFunction hq with ⟨n, hn, heq, -⟩ | hq
    · rw [heq]
      exact .made (hname n hn)
    · exact .left hq

theorem call_source {function : String} {args : List Expr} {name : Option String} {f : Function}
    {vs : List Value} (hf : s.function function = .ok f) (hvs : s.evalItems args = .ok vs)
    (hq : (s.call name f vs).2.At q x) : s.Sourced (.call function args name) q x := by
  have hquiet := World.quiet_call s.world f vs
  unfold Session.call at hq
  split at hq
  · next e w hcall =>
    rw [hcall] at hquiet
    exact .left (at_world hq fun _ _ hv => hv.quiet hquiet)
  · next v w hcall =>
    have hv : (s.world.call f vs).1 = .ok v := by rw [hcall]
    rw [hcall] at hquiet
    rcases at_keepValue (s := { s with world := w }) hq with ⟨n, j, g, rfl, rfl, hg, -⟩ | hq
    · rcases World.call_supplied _ _ _ hv g (List.mem_of_getElem? hg) with hgiven | ⟨hrun, hcaptures, hg'⟩
      · obtain ⟨i, hi⟩ := List.mem_iff_getElem?.1 hgiven
        obtain ⟨p, hp⟩ := (evalItems_located args hvs).exists_place hi
        exact .handed (.argument hf hvs hv hp hi hg)
      · obtain ⟨i, hi⟩ := List.mem_iff_getElem?.1 hg'
        exact .handed (.returned hf hvs hv hrun ⟨_, hcaptures, hi⟩ hg)
    · exact .left (at_world hq fun _ _ hv => hv.quiet hquiet)

theorem build_source {parts : String} {name : Option String} {p : Parts}
    (hp : s.parts.get? parts = some p) (hq : (s.build name p).2.At q x) :
    s.Sourced (.build parts name) q x := by
  unfold build World.build at hq
  cases ho : p.origin with
  | error e =>
    rw [ho] at hq
    exact .left hq
  | ok o =>
    rw [ho] at hq
    cases o with
    | host signature c =>
      rcases at_keepFunction (s := { s with world := (s.world.register signature c).2 }) hq with
        ⟨n, rfl, rfl, -⟩ | hq
      · exact .made (.registration (by simp [registersAs, hp, Parts.registers, ho]))
      · exact .left (at_world hq fun _ _ hv => hv)
    | compiler id t =>
      rcases at_keepFunction hq with ⟨n, rfl, rfl, -⟩ | hq
      · exact .handed (.build hp ho)
      · exact .left hq

theorem act_source (h : s.act a = .ok r) (hq : r.2.At q x) : s.Sourced a q x := by
  cases a with
  | mint name =>
    obtain rfl := Except.ok.inj h
    rcases at_keepContext hq with ⟨n, rfl, rfl, -⟩ | hq
    · exact .made .context
    · exact .left (at_world hq fun _ _ hv => hv)
  | dropContext name =>
    obtain rfl := Except.ok.inj h
    apply Sourced.left
    unfold dropContext at hq
    split at hq
    · exact hq
    · cases q with
      | context n =>
        obtain ⟨c, hc, rfl⟩ := hq
        exact ⟨c, Store.get?_of_erase hc, rfl⟩
      | _ => exact hq
  | takeToken context name =>
    obtain ⟨c, hc, rfl⟩ := bind_pure_eq_ok.1 h
    rcases at_keepToken hq with ⟨n, rfl, rfl, -⟩ | hq
    · exact .handed .takeToken
    · exact .left hq
  | copyToken token name =>
    obtain ⟨t, ht, rfl⟩ := bind_pure_eq_ok.1 h
    rcases at_keepToken hq with ⟨n, rfl, rfl, -⟩ | hq
    · exact .handed .copyToken
    · exact .left hq
  | tokenOf function name =>
    obtain ⟨f, hf, rfl⟩ := bind_pure_eq_ok.1 h
    cases f with
    | host q => exact .left hq
    | compiler id t =>
      rcases at_keepToken hq with ⟨n, rfl, rfl, -⟩ | hq
      · exact .handed (.tokenOf ⟨_, Store.fetch_eq_ok.1 hf, rfl⟩)
      · exact .left hq
  | dropToken name =>
    obtain rfl := Except.ok.inj h
    apply Sourced.left
    cases q with
    | token n =>
      obtain ⟨t, ht, rfl⟩ := hq
      exact ⟨t, Store.get?_of_erase ht, rfl⟩
    | _ => exact hq
  | compiler id token name =>
    obtain ⟨t, ht, rfl⟩ := bind_pure_eq_ok.1 h
    rcases at_keepFunction hq with ⟨n, rfl, rfl, -⟩ | hq
    · exact .handed .compiler
    · exact .left hq
  | contextFunction context id name =>
    obtain ⟨c, hc, rfl⟩ := bind_pure_eq_ok.1 h
    rcases at_keepFunction hq with ⟨n, rfl, rfl, -⟩ | hq
    · exact .handed .contextFunction
    · exact .left hq
  | newCallback e name =>
    obtain ⟨b, hb, rfl⟩ := bind_pure_eq_ok.1 h
    cases q with
    | captured k i => exact captured_source h hq rfl
    | _ => exact .left hq
  | host signature callback name =>
    obtain ⟨c, hc, rfl⟩ := bind_pure_eq_ok.1 h
    exact registered_source h rfl rfl (fun n hn => .registration hn) hq
  | register signature callback name =>
    obtain ⟨c, hc, rfl⟩ := bind_pure_eq_ok.1 h
    exact registered_source h rfl rfl (fun n hn => .registration hn) hq
  | copyFunction function name =>
    obtain ⟨f, hf, rfl⟩ := bind_pure_eq_ok.1 h
    rcases at_keepFunction hq with ⟨n, rfl, rfl, -⟩ | hq
    · exact .handed .copyFunction
    · exact .left hq
  | dropFunction name =>
    obtain rfl := Except.ok.inj h
    apply Sourced.left
    cases q with
    | function n =>
      obtain ⟨f, hf, rfl⟩ := hq
      exact ⟨f, Store.get?_of_erase hf, rfl⟩
    | _ => exact hq
  | call function args name =>
    obtain ⟨f, hf, h⟩ := bind_eq_ok.1 h
    obtain ⟨vs, hvs, rfl⟩ := bind_pure_eq_ok.1 h
    exact call_source hf hvs hq
  | parts e name =>
    obtain ⟨p, hp, rfl⟩ := bind_pure_eq_ok.1 h
    cases q with
    | captured k i =>
      cases href : e.callback with
      | some ref => exact captured_source h hq href
      | none =>
        obtain ⟨p₀, made, -, hmade, -, hworld⟩ := edit_callback hp
        rw [href] at hmade
        cases hmade
        obtain ⟨f, ⟨v, hv, hf⟩, rfl⟩ := hq
        change p.2.Captures k v at hv
        rw [hworld] at hv
        exact .left ⟨f, ⟨v, hv, hf⟩, rfl⟩
    | parts n =>
      obtain ⟨p', t, hp', ht, rfl⟩ := hq
      rcases Store.get?_keep name hp' with ⟨rfl, rfl⟩ | hp'
      · obtain ⟨hclear, ⟨token, htoken, -⟩ | ⟨htoken, source, q, hsource, -⟩⟩ := edit_token hp ht
        · exact .handed (.editToken htoken hclear)
        · exact .handed (.editSource htoken hsource hclear)
      · exact .left ⟨p', t, hp', ht, rfl⟩
    | _ => exact .left hq
  | build parts name =>
    obtain ⟨p, hp, rfl⟩ := bind_pure_eq_ok.1 h
    exact build_source (Store.fetch_eq_ok.1 hp) hq
  | value e name =>
    obtain ⟨v, hv, rfl⟩ := bind_pure_eq_ok.1 h
    rcases at_keepValue hq with ⟨n, i, f, rfl, rfl, hf, -⟩ | hq
    · obtain ⟨p, hp⟩ := (eval_located e hv).exists_place hf
      exact .handed (.value hp)
    · exact .left hq
  | functionOf e name =>
    obtain ⟨v, hv, rfl⟩ := bind_pure_eq_ok.1 h
    cases v with
    | function f =>
      rcases at_keepFunction hq with ⟨n, rfl, rfl, -⟩ | hq
      · obtain ⟨p, hp⟩ := List.length_eq_one_iff.1 (eval_located e hv).length_eq
        exact .handed (.functionOf hv hp)
      · exact .left hq
    | _ => exact .left hq
  | dropValue name =>
    obtain rfl := Except.ok.inj h
    apply Sourced.left
    cases q with
    | inValue n i =>
      obtain ⟨f, ⟨v, hv, hf⟩, rfl⟩ := hq
      exact ⟨f, ⟨v, Store.get?_of_erase hv, hf⟩, rfl⟩
    | _ => exact hq
  | collect values name =>
    obtain ⟨vs, hvs, rfl⟩ := bind_pure_eq_ok.1 h
    rcases at_keepSet name hq with ⟨n, v, i, f, rfl, rfl, hv, hf, -⟩ | hq
    · obtain ⟨us, ws, rfl, habsent⟩ := Table.mem_keys_ofList hv
      obtain ⟨before, e, later, rfl, hbefore, he⟩ := evalItems_append_cons hvs
      obtain ⟨p, hp⟩ := (eval_located e he).exists_place hf
      exact .handed (.collected hbefore he habsent hp)
    · exact .left hq
  | setInsert name e =>
    obtain ⟨u, hu, rfl⟩ := bind_pure_eq_ok.1 h
    rcases at_keepSet (some name) hq with ⟨n, v, i, f, hn, rfl, hv, hf, rfl⟩ | hq
    · cases hn
      rcases Table.mem_keys_insert hv with hv | ⟨rfl, habsent⟩
      · exact .left (at_setOrNew hv hf)
      · obtain ⟨p, hp⟩ := (eval_located e hu).exists_place hf
        exact .handed (.setInsert hu habsent hp)
    · exact .left hq
  | setContains name e =>
    obtain ⟨u, hu, rfl⟩ := bind_pure_eq_ok.1 h
    exact .left (at_keepSet_subset (List.Subset.refl _) hq)
  | setRemove name e =>
    obtain ⟨u, hu, rfl⟩ := bind_pure_eq_ok.1 h
    exact .left (at_keepSet_subset (fun _ => Table.mem_keys_erase) hq)
  | mapInsert name key payload =>
    obtain ⟨u, hu, rfl⟩ := bind_pure_eq_ok.1 h
    rcases at_keepMap hq with ⟨v, i, f, rfl, hv, hf, rfl⟩ | hq
    · rcases Table.mem_keys_insert hv with hv | ⟨rfl, habsent⟩
      · exact .left (at_mapOrNew hv hf)
      · obtain ⟨p, hp⟩ := (eval_located key hu).exists_place hf
        exact .handed (.mapInsert hu habsent hp)
    · exact .left hq
  | mapGet name key =>
    obtain ⟨u, hu, rfl⟩ := bind_pure_eq_ok.1 h
    exact .left (at_keepMap_subset (List.Subset.refl _) hq)
  | mapRemove name key =>
    obtain ⟨u, hu, rfl⟩ := bind_pure_eq_ok.1 h
    exact .left (at_keepMap_subset (fun _ => Table.mem_keys_erase) hq)

end Session
end ScriptValues
