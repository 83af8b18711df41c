import ScriptValues.Failure
import ScriptValues.Proofs.Layouts
import ScriptValues.Proofs.Reading

/-! Each text of a failure tells which failure it is. The message shows a payload as it is, whatever it
looks like, so only its first words can be trusted: they name the kind, and what surrounds the payload is
then known. The debug text begins with a name and quotes the payload, so that even its own end is seen,
in either layout. -/

namespace ScriptValues

namespace Failure

/-- A failure without its payload. -/
inductive Kind where
  | bothPayloads
  | missingPayload
  | incompleteCompilerPayload
  | incompleteHostPayload
  | notCallable
  | callback

def kind : Failure → Kind
  | bothPayloads => .bothPayloads
  | missingPayload => .missingPayload
  | incompleteCompilerPayload _ => .incompleteCompilerPayload
  | incompleteHostPayload _ => .incompleteHostPayload
  | notCallable _ => .notCallable
  | callback _ => .callback

namespace Kind

/-- How a message begins. -/
def opening : Kind → String
  | bothPayloads => "a function cannot "
  | missingPayload => "a function needs "
  | incompleteCompilerPayload => "compiler function is missing its "
  | incompleteHostPayload => "host function is missing its "
  | notCallable => "<compiler function "
  | callback => "host callback failed: "

/-- How a debug text begins. -/
def name : Kind → String
  | bothPayloads => "BothPayloads"
  | missingPayload => "MissingPayload"
  | incompleteCompilerPayload => "IncompleteCompilerPayload"
  | incompleteHostPayload => "IncompleteHostPayload"
  | notCallable => "NotCallable"
  | callback => "Callback"

theorem prefixFree_opening : Text.PrefixFree opening := by
  intro k l h
  cases k <;> cases l <;> simp [opening] at h ⊢

theorem prefixFree_name : Text.PrefixFree name := by
  intro k l h
  cases k <;> cases l <;> simp [name] at h ⊢

end Kind

variable {a b : Failure}

section Message

/-- The message after its first words. -/
def remainder : Failure → String
  | bothPayloads => "carry both a compiler id and a host signature"
  | missingPayload => "either a compiler id and context or a signature and callback"
  | incompleteCompilerPayload missing | incompleteHostPayload missing => missing
  | notCallable id => toString id.toNat ++ "> can only be invoked by the compiler"
  | callback text => text

theorem message_eq (e : Failure) : e.message = e.kind.opening ++ e.remainder := by
  cases e with
  | bothPayloads | missingPayload => decide
  | notCallable id => exact String.append_assoc
  | incompleteCompilerPayload | incompleteHostPayload | callback => rfl

theorem eq_of_remainder_eq (hkind : a.kind = b.kind) (h : a.remainder = b.remainder) : a = b := by
  cases a <;> cases b <;> cases hkind
  case bothPayloads.bothPayloads | missingPayload.missingPayload => rfl
  case incompleteCompilerPayload.incompleteCompilerPayload
    | incompleteHostPayload.incompleteHostPayload | callback.callback => exact congrArg _ h
  case notCallable.notCallable i j =>
    have hdigits : toString i.toNat = toString j.toNat := (String.append_left_inj _).1 h
    have hid := Text.eq_of_decimal_eq (congrArg String.toList hdigits)
    exact congrArg _ (UInt32.toNat_inj.1 hid)

theorem message_eq_iff : a.message = b.message ↔ a = b := by
  refine ⟨fun h => ?_, fun h => by rw [h]⟩
  have htexts := congrArg String.toList h
  rw [message_eq, message_eq, String.toList_append, String.toList_append] at htexts
  obtain ⟨hkind, hremainder⟩ := Kind.prefixFree_opening.inj htexts
  exact eq_of_remainder_eq hkind (String.toList_inj.1 hremainder)

/-- A callback may fail with the message of another failure, and that is not the other failure. -/
example : (callback (notCallable 7).message).message ≠ (notCallable 7).message := by decide

end Message

section Outline

variable {L : Text.Layout} {r s : List Char}

/-- The debug text after its name, in front of what follows it. -/
def particulars (L : Text.Layout) : Failure → List Char → List Char
  | bothPayloads, r | missingPayload, r => r
  | incompleteCompilerPayload missing, r | incompleteHostPayload missing, r =>
    L.opening .curly ++ ("missing: ".toList ++ (Text.quote missing ++ (L.closing .curly ++ r)))
  | notCallable id, r =>
    L.opening .curly ++ ("id: ".toList ++ ((toString id.toNat).toList ++ (L.closing .curly ++ r)))
  | callback text, r => L.opening .round ++ (Text.quote text ++ (L.closing .round ++ r))

theorem write_outline (L : Text.Layout) (e : Failure) (r : List Char) :
    L.write e.outline r = e.kind.name.toList ++ e.particulars L r := by
  cases e with
  | bothPayloads | missingPayload => exact L.write_word r (by decide)
  | incompleteCompilerPayload missing | incompleteHostPayload missing =>
    rw [outline, Text.Layout.write_record,
      Text.Layout.write_text _ _ (Text.newline_not_mem_quote missing)]
    rfl
  | notCallable id =>
    have hid : '\n' ∉ (toString id.toNat).toList := Text.not_mem_decimal (by decide) _
    rw [outline, Text.Layout.write_record, Text.Layout.write_word _ _ hid]
    rfl
  | callback text =>
    rw [outline, Text.Layout.write_tuple,
      Text.Layout.write_text _ _ (Text.newline_not_mem_quote text)]
    rfl

theorem particulars_inj (hkind : a.kind = b.kind) (h : a.particulars L r = b.particulars L s) :
    a = b ∧ r = s := by
  cases a <;> cases b <;> cases hkind
  case bothPayloads.bothPayloads | missingPayload.missingPayload => exact ⟨rfl, h⟩
  case incompleteCompilerPayload.incompleteCompilerPayload
    | incompleteHostPayload.incompleteHostPayload =>
    obtain ⟨rfl, hrest⟩ := Text.quote_inj (List.append_cancel_left (List.append_cancel_left h))
    exact ⟨rfl, List.append_cancel_left hrest⟩
  case notCallable.notCallable i j =>
    have hnumbers := List.append_cancel_left (List.append_cancel_left h)
    -- how the record is closed depends on the layout, but not with a digit
    obtain ⟨c, cs, hclosing, hc⟩ := L.exists_closing .curly
    rw [hclosing] at hnumbers
    obtain ⟨hid, hrest⟩ := Text.decimal_inj hc hnumbers
    rw [UInt32.toNat_inj.1 hid]
    exact ⟨rfl, List.append_cancel_left hrest⟩
  case callback.callback =>
    obtain ⟨rfl, hrest⟩ := Text.quote_inj (List.append_cancel_left h)
    exact ⟨rfl, List.append_cancel_left hrest⟩

theorem readable : Text.Outline.Readable outline fun _ => True := by
  intro a b _ _ L r s h
  rw [write_outline, write_outline] at h
  obtain ⟨hkind, hparticulars⟩ := Kind.prefixFree_name.inj h
  exact particulars_inj hkind hparticulars

end Outline

/-- Two failures are equal exactly when they have the same message, the same debug text on one line, and
the same one on many. -/
theorem texts_identify (a b : Failure) :
    (a == b ↔ a.message = b.message) ∧
    (a.message = b.message ↔ a.outline.flat = b.outline.flat) ∧
    (a.outline.flat = b.outline.flat ↔ a.outline.tall = b.outline.tall) := by
  have hflat : a.outline.flat = b.outline.flat ↔ a = b := readable.flat_eq_iff trivial trivial
  have htall : a.outline.tall = b.outline.tall ↔ a = b := readable.tall_eq_iff trivial trivial
  refine ⟨?_, message_eq_iff.trans hflat.symm, hflat.trans htall.symm⟩
  rw [message_eq_iff, beq_iff_eq]

end Failure
end ScriptValues
