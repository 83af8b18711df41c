import ScriptValues.Proofs.Sourcing

/-! Identity is provenance. Each command of a run makes one thing at most, and passes others on from
place to place. So what is in a place goes back, place by place, to the one command that made it, and
two tokens or two functions are equal exactly when their places go back to the same command. No order
of minting, dropping, copying, storing, calling and registering makes two things equal by accident. -/

namespace ScriptValues
namespace Session

/-- The command makes something with an identity, and it is in the place after it. -/
inductive Creates (s : Session) : Command → Place → Prop where
  | act {a : Action} {r : Answer × Session} {q : Place} : s.act a = .ok r → s.Makes a q →
      Creates s (.act a) q

/-- What was in the first place is in the second after the command: handed over by it, or left there. -/
inductive Passes (s : Session) : Command → Place → Place → Prop where
  | asked {query : Query} {p : Place} : Passes s (.ask query) p p
  | refused {a : Action} {fault : Fault} {p : Place} : s.act a = .error fault → Passes s (.act a) p p
  | handed {a : Action} {r : Answer × Session} {p q : Place} : s.act a = .ok r → s.Hands a p q →
      Passes s (.act a) p q
  | left {a : Action} {r : Answer × Session} {p : Place} : s.act a = .ok r → ¬ s.Makes a p →
      (∀ q, ¬ s.Hands a q p) → Passes s (.act a) p p

def Occupied (s : Session) (p : Place) : Prop :=
  ∃ x, s.At p x

/-- The `k`-th command made what is in the place after the commands. It has passed from place to place
since then, and was somewhere all the time. -/
inductive Descends (s : Session) : List Command → Place → Nat → Prop where
  | made {cs : List Command} {c : Command} {q : Place} : (s.after cs).Creates c q →
      (s.after (cs ++ [c])).Occupied q → Descends s (cs ++ [c]) q cs.length
  | passed {cs : List Command} {c : Command} {p q : Place} {k : Nat} : Descends s cs p k →
      (s.after cs).Passes c p q → (s.after (cs ++ [c])).Occupied q → Descends s (cs ++ [c]) q k

variable {s : Session} {c : Command} {p q : Place} {x y : Entity}

theorem step_act {a : Action} {r : Answer × Session} (h : s.act a = .ok r) :
    (s.step (.act a)).2 = r.2 := by
  simp only [step, h]

theorem step_refused {a : Action} {fault : Fault} (h : s.act a = .error fault) :
    (s.step (.act a)).2 = s := by
  simp only [step, h]

theorem Passes.at (hp : s.Passes c p q) (hq : (s.step c).2.At q x) : s.At p x := by
  cases hp with
  | asked => exact hq
  | refused h =>
    rw [step_refused h] at hq
    exact hq
  | handed h hp =>
    rw [step_act h] at hq
    exact hp.at h hq
  | left h hmakes hhands =>
    rw [step_act h] at hq
    cases act_source h hq with
    | made hq => exact absurd hq hmakes
    | handed hp => exact absurd hp (hhands _)
    | left hq => exact hq

/-- What is in a place was made there by the last command or comes from a place before it. -/
theorem creates_or_passes (hq : (s.step c).2.At q x) :
    s.Creates c q ∨ ∃ p, s.Passes c p q ∧ s.At p x := by
  suffices s.Creates c q ∨ ∃ p, s.Passes c p q from this.imp_right fun ⟨p, hp⟩ => ⟨p, hp, hp.at hq⟩
  cases c with
  | ask query => exact Or.inr ⟨q, .asked⟩
  | act a =>
    cases h : s.act a with
    | error fault => exact Or.inr ⟨q, .refused h⟩
    | ok r =>
      by_cases hmakes : s.Makes a q
      · exact Or.inl (.act h hmakes)
      by_cases hhands : ∃ p, s.Hands a p q
      · obtain ⟨p, hp⟩ := hhands
        exact Or.inr ⟨p, .handed h hp⟩
      · exact Or.inr ⟨q, .left h hmakes fun p hp => hhands ⟨p, hp⟩⟩

theorem exists_descends {n : UInt64} {cs : List Command} (hq : ((start n).after cs).At q x) :
    ∃ k, Descends (start n) cs q k := by
  induction cs using List.reverseRecOn generalizing q x with
  | nil => exact absurd hq.holds (not_holds_start n x)
  | append_singleton cs c ih =>
    have hstep := hq
    rw [after_concat] at hstep
    rcases creates_or_passes hstep with hcreates | ⟨p, hpasses, hp⟩
    · exact ⟨cs.length, .made hcreates ⟨x, hq⟩⟩
    · obtain ⟨k, hk⟩ := ih hp
      exact ⟨k, .passed hk hpasses ⟨x, hq⟩⟩

theorem not_taken_next (s : Session) (a : Action) : ¬ s.world.Taken (s.next a) := by
  cases a <;> exact Nat.lt_irrefl _

/-- The `k`-th of the commands makes the entity: it has the identity that was the next one then, and
that has been taken since. -/
structure MadeBy (s : Session) (cs : List Command) (k : Nat) (a : Action) (x : Entity) : Prop where
  command : cs[k]? = some (.act a)
  makes : ∃ p, (s.after (cs.take k)).Makes a p
  identity : x.identity = (s.after (cs.take k)).next a
  taken : (s.after (cs.take (k + 1))).world.Taken x.identity

namespace MadeBy

variable {cs : List Command} {k l : Nat} {a b : Action}

theorem concat (h : MadeBy s cs k a x) (c : Command) : MadeBy s (cs ++ [c]) k a x := by
  obtain ⟨hlt, -⟩ := List.getElem?_eq_some_iff.1 h.command
  have htake : (cs ++ [c]).take k = cs.take k := List.take_append_of_le_length (Nat.le_of_lt hlt)
  have htake' : (cs ++ [c]).take (k + 1) = cs.take (k + 1) :=
    List.take_append_of_le_length (Nat.succ_le_of_lt hlt)
  refine ⟨?_, ?_, ?_, ?_⟩
  · rw [List.getElem?_append_left hlt, h.command]
  · rw [htake]
    exact h.makes
  · rw [htake]
    exact h.identity
  · rw [htake']
    exact h.taken

theorem of_creates {n : UInt64} (hcreates : ((start n).after cs).Creates c q)
    (hq : ((start n).after (cs ++ [c])).At q x) :
    ∃ a, MadeBy (start n) (cs ++ [c]) cs.length a x := by
  obtain @⟨a, r, _, h, hmakes⟩ := hcreates
  have htaken := (fresh_after n _).taken x (made_of_holds hq.holds)
  rw [after_concat, step_act h] at hq
  refine ⟨a, ?_, ?_, ?_, ?_⟩
  · exact List.getElem?_concat_length
  · rw [List.take_left]
    exact ⟨_, hmakes⟩
  · rw [List.take_left]
    exact hmakes.identity h hq
  · rwa [List.take_of_length_le (by simp)]

/-- Only a mint makes the identity of a token. -/
theorem mint {t : Token} (h : MadeBy s cs k a (.token t)) :
    ∃ name, cs[k]? = some (.act (.mint (some name))) := by
  obtain ⟨hcommand, ⟨p, hmakes⟩, hidentity, -⟩ := h
  cases a with
  | mint name =>
    cases hmakes with
    | context => exact ⟨_, hcommand⟩
    | registration hname => cases hname
  | _ => cases hidentity

theorem registration {r : Registration} (h : MadeBy s cs k a (.registration r)) :
    ∃ name, (s.after (cs.take k)).registersAs a = some name := by
  obtain ⟨-, ⟨p, hmakes⟩, hidentity, -⟩ := h
  cases hmakes with
  | context => cases hidentity
  | registration hname => exact ⟨_, hname⟩

/-- What one command makes has one identity. -/
theorem identity_eq (h : MadeBy s cs k a x) (h' : MadeBy s cs k b y) : x.identity = y.identity := by
  obtain rfl := Command.act.inj (Option.some.inj (h.command.symm.trans h'.command))
  rw [h.identity, h'.identity]

/-- A thing of one identity is made once: what is taken is not the next one any more. -/
theorem index_le (h : MadeBy s cs k a x) (h' : MadeBy s cs l b y) (hxy : x.identity = y.identity) :
    l ≤ k := by
  by_contra hlt
  have hsplit := List.take_append_drop (k + 1) (cs.take l)
  rw [List.take_take, Nat.min_eq_left (by omega)] at hsplit
  have hmoves := after_moves (s.after (cs.take (k + 1))) ((cs.take l).drop (k + 1))
  rw [← after_append, hsplit] at hmoves
  have htaken := hmoves.taken h.taken
  rw [hxy, h'.identity] at htaken
  exact not_taken_next _ b htaken

theorem index_eq (h : MadeBy s cs k a x) (h' : MadeBy s cs l b y) (hxy : x.identity = y.identity) :
    k = l :=
  Nat.le_antisymm (h'.index_le h hxy.symm) (h.index_le h' hxy)

end MadeBy

section Runs

variable {n : UInt64} {cs : List Command} {k l : Nat}

/-- What is in a place is made by the command that the place descends from. -/
theorem Descends.madeBy (h : Descends (start n) cs q k) (hq : ((start n).after cs).At q x) :
    ∃ a, MadeBy (start n) cs k a x := by
  induction h generalizing x with
  | made hcreates _ => exact MadeBy.of_creates hcreates hq
  | @passed cs c p q k _ hpasses _ ih =>
    have hstep := hq
    rw [after_concat] at hstep
    obtain ⟨a, ha⟩ := ih (hpasses.at hstep)
    exact ⟨a, ha.concat c⟩

/-- Places descend from one command exactly when what is in them has one identity. -/
theorem identity_eq_iff_descends (hp : ((start n).after cs).At p x) (hq : ((start n).after cs).At q y) :
    x.identity = y.identity ↔ ∃ k, Descends (start n) cs p k ∧ Descends (start n) cs q k := by
  constructor
  · intro hxy
    obtain ⟨k, hk⟩ := exists_descends hp
    obtain ⟨l, hl⟩ := exists_descends hq
    obtain ⟨a, ha⟩ := hk.madeBy hp
    obtain ⟨b, hb⟩ := hl.madeBy hq
    obtain rfl := ha.index_eq hb hxy
    exact ⟨k, hk, hl⟩
  · rintro ⟨k, hk, hl⟩
    obtain ⟨a, ha⟩ := hk.madeBy hp
    obtain ⟨b, hb⟩ := hl.madeBy hq
    exact ha.identity_eq hb

theorem existsUnique_descends (hp : ((start n).after cs).At p x) :
    ∃! k, Descends (start n) cs p k := by
  obtain ⟨k, hk⟩ := exists_descends hp
  refine ⟨k, hk, fun l hl => ?_⟩
  obtain ⟨a, ha⟩ := hk.madeBy hp
  obtain ⟨b, hb⟩ := hl.madeBy hp
  exact hb.index_eq ha rfl

theorem token_beq_iff_descends {t u : Token} (hp : ((start n).after cs).At p (.token t))
    (hq : ((start n).after cs).At q (.token u)) :
    t == u ↔ ∃ k, Descends (start n) cs p k ∧ Descends (start n) cs q k := by
  rw [Token.beq_iff, ← identity_eq_iff_descends hp hq]
  exact ⟨congrArg Identity.context, Identity.context.inj⟩

theorem registration_beq_iff_descends {r r' : Registration}
    (hp : ((start n).after cs).At p (.registration r))
    (hq : ((start n).after cs).At q (.registration r')) :
    r == r' ↔ ∃ k, Descends (start n) cs p k ∧ Descends (start n) cs q k := by
  rw [Registration.beq_iff, ← identity_eq_iff_descends hp hq]
  exact ⟨congrArg Identity.registration, Identity.registration.inj⟩

theorem function_beq_iff_descends {f g : Function} (hp : ((start n).after cs).FunctionAt p f)
    (hq : ((start n).after cs).FunctionAt q g) :
    f == g ↔
      (∃ id t u k, f = .compiler id t ∧ g = .compiler id u ∧ Descends (start n) cs p k ∧
        Descends (start n) cs q k) ∨
      (∃ r r' k, f = .host r ∧ g = .host r' ∧ Descends (start n) cs p k ∧
        Descends (start n) cs q k) := by
  rw [Function.beq_iff]
  constructor
  · rintro (⟨id, t, u, rfl, rfl, htu⟩ | ⟨r, r', rfl, rfl, hrr'⟩)
    · obtain ⟨k, hk, hl⟩ := (token_beq_iff_descends hp.at hq.at).1 htu
      exact Or.inl ⟨id, t, u, k, rfl, rfl, hk, hl⟩
    · obtain ⟨k, hk, hl⟩ := (registration_beq_iff_descends hp.at hq.at).1 hrr'
      exact Or.inr ⟨r, r', k, rfl, rfl, hk, hl⟩
  · rintro (⟨id, t, u, k, rfl, rfl, hk, hl⟩ | ⟨r, r', k, rfl, rfl, hk, hl⟩)
    · exact Or.inl ⟨id, t, u, rfl, rfl, (token_beq_iff_descends hp.at hq.at).2 ⟨k, hk, hl⟩⟩
    · exact Or.inr ⟨r, r', rfl, rfl, (registration_beq_iff_descends hp.at hq.at).2 ⟨k, hk, hl⟩⟩

/-- Everything held is in some place, a place holds one thing and descends from one command, which mints
for a token and registers for a registration, and equality is descent from the same command. -/
theorem equal_iff_same_descent (n : UInt64) (cs : List Command) :
    let s := (start n).after cs
    (∀ x, s.Holds x ↔ ∃ p, s.At p x) ∧
    (∀ f, s.HoldsFunction f ↔ ∃ p, s.FunctionAt p f) ∧
    (∀ p x y, s.At p x → s.At p y → x = y) ∧
    (∀ p x, s.At p x → ∃! k, Descends (start n) cs p k) ∧
    (∀ p k t, Descends (start n) cs p k → s.At p (.token t) →
      ∃ name, cs[k]? = some (.act (.mint (some name)))) ∧
    (∀ p k r, Descends (start n) cs p k → s.At p (.registration r) →
      ∃ a name, cs[k]? = some (.act a) ∧ ((start n).after (cs.take k)).registersAs a = some name) ∧
    (∀ p q t u, s.At p (.token t) → s.At q (.token u) →
      (t == u ↔ ∃ k, Descends (start n) cs p k ∧ Descends (start n) cs q k)) ∧
    (∀ p q f g, s.FunctionAt p f → s.FunctionAt q g →
      (f == g ↔
        (∃ id t u k, f = .compiler id t ∧ g = .compiler id u ∧ Descends (start n) cs p k ∧
          Descends (start n) cs q k) ∨
        (∃ r r' k, f = .host r ∧ g = .host r' ∧ Descends (start n) cs p k ∧
          Descends (start n) cs q k))) := by
  intro s
  refine ⟨fun x => holds_iff, fun f => holdsFunction_iff, fun p x y => At.unique,
    fun p x => existsUnique_descends, ?_, ?_, fun p q t u => token_beq_iff_descends,
    fun p q f g => function_beq_iff_descends⟩
  · intro p k t hk hp
    obtain ⟨a, ha⟩ := hk.madeBy hp
    exact ha.mint
  · intro p k r hk hp
    obtain ⟨a, ha⟩ := hk.madeBy hp
    obtain ⟨name, hname⟩ := ha.registration
    exact ⟨a, name, ha.command, hname⟩

end Runs

/-- Two contexts live at once and the name of one is used again, there are functions of one id in all
three and two registrations of one signature over one callback, and the functions are cloned, put into
a key and sent through a call. -/
def passedAround : List Command :=
  [.act (.mint (some "a")), .act (.mint (some "b")), .act (.takeToken "a" (some "old")),
    .act (.contextFunction "a" 7 (some "f")), .act (.contextFunction "b" 7 (some "g")),
    .act (.newCallback (.plain .arguments) (some "list")),
    .act (.register "list()" (.stored "list") (some "h")),
    .act (.register "list()" (.stored "list") (some "i")), .act (.copyFunction "h" (some "clone")),
    .act (.dropContext "a"), .act (.mint (some "a")), .act (.contextFunction "a" 7 (some "renewed")),
    .act (.setInsert "keys" (.list [.function "clone", .function "f"]))]

def sentAround : Command :=
  .act (.call "h" [.function "i", .list [.function "g"], .function "f"] (some "sent"))

theorem passedAround_traced :
    let cs := passedAround ++ [sentAround]
    let kin (p q : Place) : Prop := ∃ k, Descends (start 1) cs p k ∧ Descends (start 1) cs q k
    let key : Value := .list [.function (.host ⟨⟨0⟩, "list()", ⟨⟨0⟩, ⟨0⟩⟩⟩),
      .function (.compiler 7 ⟨⟨0⟩, 1⟩)]
    (∃ k name, Descends (start 1) cs (.token "old") k ∧ cs[k]? = some (.act (.mint (some name)))) ∧
    (∃ k a name, Descends (start 1) cs (.inValue "sent" 0) k ∧ cs[k]? = some (.act a) ∧
      ((start 1).after (cs.take k)).registersAs a = some name) ∧
    kin (.token "old") (.function "f") ∧ kin (.function "f") (.inValue "sent" 2) ∧
    kin (.function "g") (.inValue "sent" 1) ∧ kin (.function "i") (.inValue "sent" 0) ∧
    kin (.function "h") (.inSet "keys" key 0) ∧
    ¬ kin (.token "old") (.context "a") ∧ ¬ kin (.function "f") (.function "g") ∧
    ¬ kin (.function "f") (.function "renewed") ∧ ¬ kin (.function "h") (.function "i") := by
  intro cs kin key
  let s := (start 1).after passedAround
  let f : Function := .compiler 7 ⟨⟨0⟩, 1⟩
  let g : Function := .compiler 7 ⟨⟨1⟩, 2⟩
  let h : Function := .host ⟨⟨0⟩, "list()", ⟨⟨0⟩, ⟨0⟩⟩⟩
  let i : Function := .host ⟨⟨1⟩, "list()", ⟨⟨0⟩, ⟨0⟩⟩⟩
  have hcall (args : List Value) :
      s.world.call h args = (.ok (.list args), s.world.remember ⟨0⟩ 0) := by
    have hr : s.world.routines[0]? = some ⟨.plain .arguments, 0⟩ := rfl
    rw [World.call_host, World.perform_plain hr rfl]
    rfl
  have hs : (start 1).after cs = { s with
      world := s.world.remember ⟨0⟩ 0
      values := s.values.insert "sent" (.list [.function i, .list [.function g], .function f]) } := by
    have hlast : (start 1).after cs =
        (s.call (some "sent") h [.function i, .list [.function g], .function f]).2 :=
      after_concat (start 1) passedAround sentAround
    rw [hlast, Session.call, hcall]
    rfl
  -- What is in the places once the call is through.
  obtain ⟨hold, ha, hf, hg, hrenewed, hh, hi⟩ :
      ((start 1).after cs).At (.token "old") (.token ⟨⟨0⟩, 1⟩) ∧
      ((start 1).after cs).At (.context "a") (.token ⟨⟨2⟩, 3⟩) ∧
      ((start 1).after cs).FunctionAt (.function "f") f ∧
      ((start 1).after cs).FunctionAt (.function "g") g ∧
      ((start 1).after cs).FunctionAt (.function "renewed") (.compiler 7 ⟨⟨2⟩, 3⟩) ∧
      ((start 1).after cs).FunctionAt (.function "h") h ∧
      ((start 1).after cs).FunctionAt (.function "i") i := by
    rw [hs]
    exact ⟨⟨_, rfl, rfl⟩, ⟨⟨⟨2⟩, 3⟩, rfl, rfl⟩, rfl, rfl, rfl, rfl, rfl⟩
  have hsent {j : Nat} {e : Function} (he : [i, g, f][j]? = some e) :
      ((start 1).after cs).FunctionAt (.inValue "sent" j) e := by
    rw [hs]
    exact ⟨_, rfl, he⟩
  have hkey : ((start 1).after cs).FunctionAt (.inSet "keys" key 0) h := by
    rw [hs]
    exact ⟨_, rfl, Table.mem_keys_insert_self (Table.contains_empty key) (), rfl⟩
  obtain ⟨-, -, -, hone, hmint, hregister, htokens, hfunctions⟩ := equal_iff_same_descent 1 cs
  have hcloned {p q : Place} {r : Registration} (hp : ((start 1).after cs).FunctionAt p (.host r))
      (hq : ((start 1).after cs).FunctionAt q (.host r)) : kin p q := by
    rcases (hfunctions p q _ _ hp hq).1 (Function.beq_refl _) with
      ⟨_, _, _, _, hr, _⟩ | ⟨_, _, k, _, _, hk⟩
    · cases hr
    · exact ⟨k, hk⟩
  obtain ⟨k, hk, -⟩ := hone _ _ hold
  obtain ⟨name, hname⟩ := hmint _ k _ hk hold
  obtain ⟨l, hl, -⟩ := hone _ _ (hsent (j := 0) rfl).at
  refine ⟨⟨k, name, hk, hname⟩, ?_, (htokens _ _ _ _ hold hf.at).1 rfl, ?_, ?_,
    hcloned hi (hsent rfl), hcloned hh hkey, ?_, ?_, ?_, ?_⟩
  · obtain ⟨a, name, hcommand, hregisters⟩ := hregister _ l _ hl (hsent (j := 0) rfl).at
    exact ⟨l, a, name, hl, hcommand, hregisters⟩
  · exact (htokens _ _ _ _ hf.at (hsent (j := 2) rfl).at).1 rfl
  · exact (htokens _ _ _ _ hg.at (hsent (j := 1) rfl).at).1 rfl
  · intro hsame
    cases (htokens _ _ _ _ hold ha).2 hsame
  · rintro ⟨k, hk⟩
    cases (hfunctions _ _ _ _ hf hg).2 (Or.inl ⟨7, _, _, k, rfl, rfl, hk⟩)
  · rintro ⟨k, hk⟩
    cases (hfunctions _ _ _ _ hf hrenewed).2 (Or.inl ⟨7, _, _, k, rfl, rfl, hk⟩)
  · rintro ⟨k, hk⟩
    cases (hfunctions _ _ _ _ hh hi).2 (Or.inr ⟨_, _, k, rfl, rfl, hk⟩)

end Session
end ScriptValues
