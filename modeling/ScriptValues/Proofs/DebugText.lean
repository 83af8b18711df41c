import ScriptValues.Proofs.Canonicity
import ScriptValues.Proofs.Layouts
import ScriptValues.Proofs.Legibility
import ScriptValues.Proofs.Lifecycle
import ScriptValues.Proofs.Reading

/-! The debug text of a value without host functions pins it, on one line as well as on many. Texts are
escaped, kinds are named, and a compiler function is shown by its id and a serial; that the serial tells
the context is a fact about runs, which the equality of values never looks at. -/

namespace ScriptValues

namespace Token

theorem toList_debug (t : Token) :
    t.debug.toList = "ContextToken(#".toList ++ ((toString t.serial.toNat).toList ++ [')']) :=
  calc t.debug.toList
    _ = ("ContextToken(#" ++ toString t.serial.toNat).toList ++ ")".toList := String.toList_append
    _ = "ContextToken(#".toList ++ (toString t.serial.toNat).toList ++ [')'] :=
      congrArg (· ++ _) String.toList_append
    _ = _ := List.append_assoc _ _ _

theorem newline_not_mem_debug (t : Token) : '\n' ∉ t.debug.toList := by
  rw [toList_debug, List.mem_append, List.mem_append, not_or, not_or]
  exact ⟨by decide, Text.not_mem_decimal (by decide) _, by decide⟩

end Token

namespace Function

variable {L : Text.Layout} {i j : UInt32} {t u : Token} {r s : List Char}

theorem write_compiler (L : Text.Layout) (id : UInt32) (t : Token) (r : List Char) :
    L.write (compiler id t).outline r = "CompilerFunction".toList ++ (L.opening .curly ++
      ("id: ".toList ++ ((toString id.toNat).toList ++ (L.separator ++
        ("context: ContextToken(#".toList ++ ((toString t.serial.toNat).toList ++
          ')' :: (L.closing .curly ++ r))))))) := by
  have hid : '\n' ∉ (toString id.toNat).toList := Text.not_mem_decimal (by decide) _
  change L.write (.group "CompilerFunction" .curly [.field "id" (.word (toString id.toNat)),
    .field "context" (.word t.debug)]) r = _
  rw [Text.Layout.write_group, Text.Layout.write_field, Text.Layout.write_word _ _ hid,
    Text.Layout.othersOnto, Text.Layout.write_field,
    Text.Layout.write_word _ _ t.newline_not_mem_debug, Text.Layout.othersOnto, Token.toList_debug]
  simp

/-- The id ends at the separator, the serial at the bracket. -/
theorem compiler_outline_inj
    (h : L.write (compiler i t).outline r = L.write (compiler j u).outline s) :
    i = j ∧ t.serial = u.serial ∧ r = s := by
  obtain ⟨cs, hseparator⟩ := L.exists_separator
  simp only [write_compiler, hseparator, List.cons_append, List.append_cancel_left_eq] at h
  obtain ⟨hid, hcontexts⟩ := Text.decimal_inj (by decide) h
  simp only [List.append_cancel_left_eq] at hcontexts
  obtain ⟨hserial, hrest⟩ := Text.decimal_inj (by decide) hcontexts
  exact ⟨UInt32.toNat_inj.1 hid, UInt64.toNat_inj.1 hserial, List.append_cancel_left hrest⟩

/-- Among functions whose serials tell their contexts. -/
theorem readable_of_serials {K : Function → Prop} (hcompiler : ∀ f, K f → ∃ id t, f = compiler id t)
    (hserials : ∀ i j t u, K (compiler i t) → K (compiler j u) → t.serial = u.serial → t = u) :
    Text.Outline.Readable outline K := by
  intro f g hf hg L r s h
  obtain ⟨i, t, rfl⟩ := hcompiler f hf
  obtain ⟨j, u, rfl⟩ := hcompiler g hg
  obtain ⟨rfl, hserial, hrest⟩ := compiler_outline_inj h
  rw [hserials i i t u hf hg hserial]
  exact ⟨rfl, hrest⟩

end Function

namespace Value

/-- How a debug text begins. -/
def constructor : Value → String
  | null => "Null"
  | boolean _ => "Boolean"
  | string _ => "String"
  | list _ => "List"
  | function _ => "Function"

section Written

variable (L : Text.Layout) (r : List Char)

theorem write_null : L.write null.outline r = "Null".toList ++ r :=
  L.write_word r (by decide)

theorem write_boolean (b : Bool) : L.write (boolean b).outline r = "Boolean".toList ++
    (L.opening .round ++ ((if b then "true" else "false").toList ++ (L.closing .round ++ r))) := by
  have hword : '\n' ∉ (if b then "true" else "false").toList := by cases b <;> decide
  rw [outline, Text.Layout.write_tuple, Text.Layout.write_word _ _ hword]

theorem write_string (text : String) : L.write (string text).outline r =
    "String".toList ++ (L.opening .round ++ (Text.quote text ++ (L.closing .round ++ r))) := by
  rw [outline, Text.Layout.write_tuple, Text.Layout.write_text _ _ (Text.newline_not_mem_quote text)]

theorem write_list (vs : List Value) : L.write (list vs).outline r = "List".toList ++
    (L.opening .round ++ L.inner.write (.list (vs.map outline)) (L.closing .round ++ r)) := by
  rw [outline, Text.Layout.write_tuple, outlineItems_eq_map]

theorem write_function (f : Function) : L.write (function f).outline r =
    "Function".toList ++ (L.opening .round ++ L.inner.write f.outline (L.closing .round ++ r)) := by
  rw [outline, Text.Layout.write_tuple]

theorem exists_written (v : Value) : ∃ rest, L.write v.outline r = v.constructor.toList ++ rest := by
  cases v with
  | null => exact ⟨_, write_null L r⟩
  | boolean b => exact ⟨_, write_boolean L r b⟩
  | string text => exact ⟨_, write_string L r text⟩
  | list vs => exact ⟨_, write_list L r vs⟩
  | function f => exact ⟨_, write_function L r f⟩

end Written

variable {L : Text.Layout} {v w : Value} {r s : List Char}

/-- No two of the names begin with the same letter. -/
theorem ctorIdx_eq_of_outline_eq (h : L.write v.outline r = L.write w.outline s) :
    v.ctorIdx = w.ctorIdx := by
  obtain ⟨_, hv⟩ := exists_written L r v
  obtain ⟨_, hw⟩ := exists_written L s w
  rw [hv, hw] at h
  cases v <;> cases w <;> first | rfl | simp [constructor] at h

theorem outline_ne_bracket (L : Text.Layout) (v : Value) (r s : List Char) :
    L.write v.outline r ≠ ']' :: s := by
  obtain ⟨_, hv⟩ := exists_written L r v
  rw [hv]
  cases v <;> simp [constructor]

/-- By induction on the first value; the second one is of the same kind. -/
theorem readable {K : Function → Prop} (hK : Text.Outline.Readable Function.outline K) :
    Text.Outline.Readable outline (Value.Forall K) := by
  intro v
  induction v with
  | null =>
    intro w _ _ L r s h
    have hkind := ctorIdx_eq_of_outline_eq h
    cases w with
    | null =>
      rw [write_null, write_null] at h
      exact ⟨rfl, List.append_cancel_left h⟩
    | _ => cases hkind
  | boolean b =>
    intro w _ _ L r s h
    have hkind := ctorIdx_eq_of_outline_eq h
    cases w with
    | boolean c =>
      simp only [write_boolean, List.append_cancel_left_eq] at h
      obtain rfl : b = c := by cases b <;> cases c <;> simp_all
      simp only [List.append_cancel_left_eq] at h
      exact ⟨rfl, h⟩
    | _ => cases hkind
  | string text =>
    intro w _ _ L r s h
    have hkind := ctorIdx_eq_of_outline_eq h
    cases w with
    | string text' =>
      simp only [write_string, List.append_cancel_left_eq] at h
      obtain ⟨rfl, hrest⟩ := Text.quote_inj h
      exact ⟨rfl, List.append_cancel_left hrest⟩
    | _ => cases hkind
  | list vs ih =>
    intro w hv hw L r s h
    have hkind := ctorIdx_eq_of_outline_eq h
    cases w with
    | list ws =>
      have hvs := forall_list.1 hv
      have hws := forall_list.1 hw
      simp only [write_list, List.append_cancel_left_eq] at h
      obtain ⟨rfl, hrest⟩ := Text.Layout.write_list_inj
        (fun v _ => outline_ne_bracket L.inner.inner v)
        (fun v hmem w hmem' => ih v hmem w (hvs v hmem) (hws w hmem') L.inner.inner) h
      exact ⟨rfl, List.append_cancel_left hrest⟩
    | _ => cases hkind
  | function f =>
    intro w hv hw L r s h
    have hkind := ctorIdx_eq_of_outline_eq h
    cases w with
    | function g =>
      simp only [write_function, List.append_cancel_left_eq] at h
      obtain ⟨rfl, hrest⟩ := hK f g (forall_function.1 hv) (forall_function.1 hw) L.inner _ _ h
      exact ⟨rfl, List.append_cancel_left hrest⟩
    | _ => cases hkind

end Value

namespace Session

/-- The functions of a run that are not the host's can be told apart by their debug texts. -/
theorem readable_compilers {n : UInt64} {cs : List Command}
    (hmints : cs.countP Command.isMint < 2 ^ 64) :
    Text.Outline.Readable Function.outline fun f =>
      ((start n).after cs).world.Knows f ∧ f.isHost = false := by
  apply Function.readable_of_serials
  · rintro f ⟨-, hf⟩
    cases f with
    | compiler id t => exact ⟨id, t, rfl⟩
    | host r => cases hf
  · rintro i j t u ⟨ht, -⟩ ⟨hu, -⟩ hserial
    exact token_eq_of_serial_eq hmints ht hu hserial

/-- As long as the serials of a run have not wrapped, its values without host functions have one debug
text, in either layout, exactly when they are equal. -/
theorem debug_text_pins (n : UInt64) (cs : List Command)
    (hmints : cs.countP Command.isMint < 2 ^ 64) :
    let s := (start n).after cs
    (∀ u v : Value, s.KnowsValue u → s.KnowsValue v →
      (u.Forall fun f => f.isHost = false) → (v.Forall fun f => f.isHost = false) →
      (u.outline.flat = v.outline.flat ↔ u == v) ∧ (u.outline.tall = v.outline.tall ↔ u == v)) ∧
    ∀ v, s.HoldsValue v → s.KnowsValue v := by
  intro s
  refine ⟨fun u v hu hv hu' hv' => ?_, fun v hv => hv.knows⟩
  have hreadable := Value.readable (readable_compilers (n := n) hmints)
  have huK : u.Forall fun f => s.world.Knows f ∧ f.isHost = false := fun f hf => ⟨hu f hf, hu' f hf⟩
  have hvK : v.Forall fun f => s.world.Knows f ∧ f.isHost = false := fun f hf => ⟨hv f hf, hv' f hf⟩
  have hsame : u = v ↔ u == v :=
    ⟨fun huv => huv ▸ BEq.rfl, (fresh_after n cs).value_eq hu hv⟩
  exact ⟨(hreadable.flat_eq_iff huK hvK).trans hsame, (hreadable.tall_eq_iff huK hvK).trans hsame⟩

/-- The name of a context is used again, and a token leads back to the first one. -/
def remade : List Command :=
  [.act (.mint (some "a")), .act (.takeToken "a" (some "t")),
    .act (.contextFunction "a" 7 (some "old")), .act (.mint (some "a")),
    .act (.contextFunction "a" 7 (some "new")), .act (.compiler 7 "t" (some "again"))]

/-- A function behind a text that looks like the end of one value and the beginning of the next. -/
def camouflaged (name : String) : Expr :=
  .list [.string "\\\"),\n    Function(\x00", .list [], .list [.function name]]

theorem remade_pinned : ∃ u v w,
    ((start (-1)).after remade).eval (camouflaged "old") = .ok u ∧
    ((start (-1)).after remade).eval (camouflaged "again") = .ok v ∧
    ((start (-1)).after remade).eval (camouflaged "new") = .ok w ∧
    (u == v) = true ∧ u.outline.flat = v.outline.flat ∧ u.outline.tall = v.outline.tall ∧
    (u == w) = false ∧ u.outline.flat ≠ w.outline.flat ∧ u.outline.tall ≠ w.outline.tall := by
  let hidden (f : Function) : Value :=
    .list [.string "\\\"),\n    Function(\x00", .list [], .list [.function f]]
  let u := hidden (.compiler 7 ⟨⟨0⟩, -1⟩)
  let w := hidden (.compiler 7 ⟨⟨1⟩, 0⟩)
  have hu : ((start (-1)).after remade).eval (camouflaged "old") = .ok u := rfl
  have hv : ((start (-1)).after remade).eval (camouflaged "again") = .ok u := rfl
  have hw : ((start (-1)).after remade).eval (camouflaged "new") = .ok w := rfl
  obtain ⟨hpins, hknown⟩ := debug_text_pins (-1) remade (by decide)
  have hcompilers (f : Function) (hf : f.isHost = false) :
      (hidden f).Forall fun f => f.isHost = false := by
    simpa [hidden, Value.Forall, Value.functions, Value.functionsOfItems] using hf
  have hapart : (u == w) = false := rfl
  obtain ⟨hflat, htall⟩ := hpins u u (hknown u (.given hu)) (hknown u (.given hv))
    (hcompilers _ rfl) (hcompilers _ rfl)
  obtain ⟨hflat', htall'⟩ := hpins u w (hknown u (.given hu)) (hknown w (.given hw))
    (hcompilers _ rfl) (hcompilers _ rfl)
  refine ⟨u, u, w, hu, hv, hw, BEq.rfl, hflat.2 BEq.rfl, htall.2 BEq.rfl, hapart, ?_, ?_⟩
  · exact fun htexts => Bool.false_ne_true (hapart.symm.trans (hflat'.1 htexts))
  · exact fun htexts => Bool.false_ne_true (hapart.symm.trans (htall'.1 htexts))

end Session
end ScriptValues
