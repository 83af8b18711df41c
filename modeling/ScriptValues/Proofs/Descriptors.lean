import ScriptValues.Function.Descriptor
import ScriptValues.Proofs.JsonReading
import ScriptValues.Proofs.KeyContract
import ScriptValues.Proofs.Lifecycle

/-! A descriptor can be had back from its JSON, so its text says neither less nor more than it does. For
the functions of a run it stands between equality and the hash code: a descriptor tells compiler
functions apart as equality does, and host functions as the hash code does. -/

namespace ScriptValues

namespace Json.Tree

def text? : Tree → Option String
  | text s => some s
  | _ => none

def natural? : Tree → Option Nat
  | number (.ofNat n) 0 => some n
  | _ => none

end Json.Tree

namespace Descriptor

/-- The descriptor that the members are for. Numbers beyond an id or a serial are refused. -/
def ofMembers? (members : List (String × Json.Tree)) : Option Descriptor := do
  let kind ← (members.lookup "kind").bind Json.Tree.text?
  if kind = "compiler" then
    let id ← (members.lookup "id").bind Json.Tree.natural?
    let context ← (members.lookup "context").bind Json.Tree.natural?
    if id < 2 ^ 32 ∧ context < 2 ^ 64 then return .compiler id.toUInt32 context.toUInt64 else none
  else if kind = "host" then
    let signature ← (members.lookup "signature").bind Json.Tree.text?
    return .host signature
  else none

def ofJson? (text : String) : Option Descriptor :=
  match Json.read? text with
  | some (.object members) => ofMembers? members
  | _ => none

theorem read?_json (d : Descriptor) :
    Json.read? d.json = some (.object (d.toJson.map Json.memberTree)) :=
  Json.read?_write d.toJson

theorem ofMembers?_toJson (d : Descriptor) : ofMembers? (d.toJson.map Json.memberTree) = some d := by
  cases d with
  | compiler id context =>
    change (if id.toNat < 2 ^ 32 ∧ context.toNat < 2 ^ 64 then
      some (compiler id.toNat.toUInt32 context.toNat.toUInt64) else none) = some (compiler id context)
    rw [if_pos ⟨id.toNat_lt, context.toNat_lt⟩, Nat.toUInt32_eq, Nat.toUInt64_eq, UInt32.ofNat_toNat,
      UInt64.ofNat_toNat]
  | host signature => rfl

theorem ofJson?_json (d : Descriptor) : ofJson? d.json = some d := by
  rw [ofJson?, read?_json]
  exact ofMembers?_toJson d

theorem json_eq_iff {d e : Descriptor} : d.json = e.json ↔ d = e := by
  refine ⟨fun h => ?_, fun h => by rw [h]⟩
  have hread := ofJson?_json d
  rw [h, ofJson?_json] at hread
  exact (Option.some.inj hread).symm

end Descriptor

namespace Function

variable {f g : Function}

theorem hashCode_eq_of_descriptor_eq (h : f.descriptor = g.descriptor) : f.hashCode = g.hashCode := by
  cases f with
  | compiler i t =>
    cases g with
    | compiler j u =>
      obtain rfl : i = j := (Descriptor.compiler.inj h).1
      rfl
    | host s => cases h
  | host r =>
    cases g with
    | compiler j u => cases h
    | host s => exact congrArg HashCode.ofText (Descriptor.host.inj h)

theorem descriptor_eq_iff_of_isHost (hf : f.isHost) (hg : g.isHost) :
    f.descriptor = g.descriptor ↔ f.signature? = g.signature? := by
  cases f with
  | compiler i t => cases hf
  | host r =>
    cases g with
    | compiler j u => cases hg
    | host s => simp [descriptor, signature?]

end Function

namespace Session

variable {n : UInt64} {cs : List Command} {f g : Function}

theorem beq_of_descriptor_eq (hmints : cs.countP Command.isMint < 2 ^ 64)
    (hf : ((start n).after cs).world.Knows f) (hg : ((start n).after cs).world.Knows g)
    (hfc : f.isCompiler) (hgc : g.isCompiler) (h : f.descriptor = g.descriptor) : f == g := by
  cases f with
  | host r => cases hfc
  | compiler i t =>
    cases g with
    | host r => cases hgc
    | compiler j u =>
      obtain ⟨rfl, hserial⟩ := Descriptor.compiler.inj h
      rw [token_eq_of_serial_eq hmints hf hg hserial]
      exact BEq.rfl

/-- Every descriptor is read back from its JSON, so different ones have different texts. In a run that
has not used up the serials, equal functions have equal descriptors, and equal descriptors mean equal
hash codes; for compiler functions they mean equality, for host functions no more than one signature. -/
theorem descriptors_between_equality_and_hash :
    (∀ d : Descriptor, ∃ members, Json.read? d.json = some (.object members) ∧
      Descriptor.ofMembers? members = some d) ∧
    (∀ d e : Descriptor, d.json = e.json ↔ d = e) ∧
    (∀ id context signature,
      (Descriptor.compiler id context).json ≠ (Descriptor.host signature).json) ∧
    ∀ (n : UInt64) (cs : List Command), cs.countP Command.isMint < 2 ^ 64 →
      let s := (start n).after cs
      (∀ f g, s.world.Knows f → s.world.Knows g →
        (f == g → f.descriptor = g.descriptor) ∧
        (f.descriptor = g.descriptor → f.hashCode = g.hashCode) ∧
        (f.isCompiler → g.isCompiler → f.descriptor = g.descriptor → f == g) ∧
        (f.isHost → g.isHost → (f.descriptor = g.descriptor ↔ f.signature? = g.signature?))) ∧
      ∀ f, s.HoldsFunction f → s.world.Knows f := by
  refine ⟨?_, fun d e => Descriptor.json_eq_iff, ?_, ?_⟩
  · intro d
    exact ⟨_, d.read?_json, d.ofMembers?_toJson⟩
  · intro id context signature h
    cases Descriptor.json_eq_iff.1 h
  · intro n cs hmints s
    refine ⟨fun f g hf hg => ⟨fun heq => ?_, Function.hashCode_eq_of_descriptor_eq,
      beq_of_descriptor_eq hmints hf hg, Function.descriptor_eq_iff_of_isHost⟩, fun f hf => hf.knows⟩
    rw [(fresh_after n cs).function_eq hf hg heq]

/-- One id in two contexts of one name, and one signature twice. -/
def described : List Command :=
  [.act (.mint (some "a")), .act (.contextFunction "a" 7 (some "old")), .act (.mint (some "a")),
    .act (.contextFunction "a" 7 (some "new")),
    .act (.host "say(\"\\\x00\x08\x1f\x7f/\")" (.fresh (.plain .null)) (some "first")),
    .act (.host "say(\"\\\x00\x08\x1f\x7f/\")" (.fresh (.plain .null)) (some "second"))]

theorem described_apart : ∃ old new first second members,
    let s := (start (-1)).after described
    s.functions.get? "old" = some old ∧ s.functions.get? "new" = some new ∧
    s.functions.get? "first" = some first ∧ s.functions.get? "second" = some second ∧
    old.hashCode = new.hashCode ∧ old.descriptor ≠ new.descriptor ∧
    old.descriptor.json ≠ new.descriptor.json ∧
    (first == second) = false ∧ first.descriptor = second.descriptor ∧
    Json.read? first.descriptor.json = some (.object members) ∧
    Descriptor.ofMembers? members = some second.descriptor := by
  obtain ⟨hread, hjson, -, hruns⟩ := descriptors_between_equality_and_hash
  obtain ⟨hfunctions, hknown⟩ := hruns (-1) described (by decide)
  let old : Function := .compiler 7 ⟨⟨0⟩, -1⟩
  let new : Function := .compiler 7 ⟨⟨1⟩, 0⟩
  let twin (registration object routine : Nat) : Function :=
    .host ⟨⟨registration⟩, "say(\"\\\x00\x08\x1f\x7f/\")", ⟨⟨object⟩, ⟨routine⟩⟩⟩
  have hold : ((start (-1)).after described).functions.get? "old" = some old := rfl
  have hnew : ((start (-1)).after described).functions.get? "new" = some new := rfl
  have hfirst : ((start (-1)).after described).functions.get? "first" = some (twin 0 1 0) := rfl
  have hsecond : ((start (-1)).after described).functions.get? "second" = some (twin 1 3 1) := rfl
  obtain ⟨-, -, hcompilers, -⟩ :=
    hfunctions old new (hknown old (.stored hold)) (hknown new (.stored hnew))
  obtain ⟨-, -, -, hhosts⟩ := hfunctions (twin 0 1 0) (twin 1 3 1) (hknown _ (.stored hfirst))
    (hknown _ (.stored hsecond))
  have hapart : old.descriptor ≠ new.descriptor := fun h => Bool.false_ne_true (hcompilers rfl rfl h)
  have hsame : (twin 0 1 0).descriptor = (twin 1 3 1).descriptor := (hhosts rfl rfl).2 rfl
  obtain ⟨members, hmembers, hback⟩ := hread (twin 0 1 0).descriptor
  refine ⟨old, new, twin 0 1 0, twin 1 3 1, members, hold, hnew, hfirst, hsecond, rfl, hapart, ?_, rfl,
    hsame, hmembers, hback.trans (congrArg some hsame)⟩
  exact fun h => hapart ((hjson _ _).1 h)

end Session
end ScriptValues
