import ScriptValues.Proofs.Reading
import ScriptValues.Proofs.Skeletons

/-! The display of a value can be read back, except for its contexts, as long as its texts hold no
quote and it holds no host function, whose signature is shown as it is. Each value is written in front
of what follows it, and its own end can be found there: no text is the beginning of another. -/

namespace ScriptValues

namespace Text.Outline

variable {α : Type} {write : α → Outline} {P : α → Prop} {R : α → α → Prop} {close : Char}

/-- The outline of the first can be told from what is written after it, up to what `R` ignores, when the
other is one of `P`. -/
def Legible (write : α → Outline) (P : α → Prop) (R : α → α → Prop) (a : α) : Prop :=
  ∀ b r s, P b → (write a).flatOnto r = (write b).flatOnto s → R a b ∧ r = s

/-- None of the outlines begins with the character. -/
def Avoids (write : α → Outline) (P : α → Prop) (close : Char) : Prop :=
  ∀ a r s, P a → (write a).flatOnto r ≠ close :: s

theorem flatItemsOnto_ne_close (havoid : Avoids write P close) {a : α} {as : List α} (ha : P a)
    (r s : List Char) : flatItemsOnto ((a :: as).map write) r ≠ close :: s := by
  cases as with
  | nil => exact havoid a _ _ ha
  | cons b bs => exact havoid a _ _ ha

/-- Items that can be read one by one can be read up to what closes them. -/
theorem legible_items (hclose : close ≠ ',') (havoid : Avoids write P close) {as bs : List α}
    {r s : List Char} (hlegible : ∀ a ∈ as, Legible write P R a) (has : ∀ a ∈ as, P a)
    (hbs : ∀ b ∈ bs, P b)
    (h : flatItemsOnto (as.map write) (close :: r) = flatItemsOnto (bs.map write) (close :: s)) :
    List.Forall₂ R as bs ∧ r = s := by
  induction as generalizing bs with
  | nil =>
    cases bs with
    | nil => exact ⟨.nil, (List.cons.inj h).2⟩
    | cons b bs => exact absurd h.symm (flatItemsOnto_ne_close havoid (hbs b List.mem_cons_self) _ _)
  | cons a as ih =>
    cases bs with
    | nil => exact absurd h (flatItemsOnto_ne_close havoid (has a List.mem_cons_self) _ _)
    | cons b bs =>
      obtain ⟨ha, hlegible⟩ := List.forall_mem_cons.1 hlegible
      obtain ⟨-, has⟩ := List.forall_mem_cons.1 has
      obtain ⟨hb, hbs⟩ := List.forall_mem_cons.1 hbs
      -- after the first item comes a comma or the end, and they cannot be mistaken for each other
      cases as with
      | nil =>
        cases bs with
        | nil =>
          obtain ⟨hab, hrest⟩ := ha b _ _ hb h
          exact ⟨.cons hab .nil, (List.cons.inj hrest).2⟩
        | cons b' bs =>
          obtain ⟨-, hrest⟩ := ha b _ _ hb h
          exact absurd (List.cons.inj hrest).1 hclose
      | cons a' as =>
        cases bs with
        | nil =>
          obtain ⟨-, hrest⟩ := ha b _ _ hb h
          exact absurd (List.cons.inj hrest).1.symm hclose
        | cons b' bs =>
          obtain ⟨hab, hrest⟩ := ha b _ _ hb h
          have hitems := (List.cons.inj (List.cons.inj hrest).2).2
          obtain ⟨habs, hrest⟩ := ih hlegible has hbs hitems
          exact ⟨.cons hab habs, hrest⟩

end Text.Outline

theorem Function.display_compiler (id : UInt32) (t : Token) :
    (compiler id t).display = "<compiler function " ++ toString id.toNat ++ ">" := rfl

namespace Value

/-- The same value, whichever contexts its functions refer to. -/
inductive SameUpToContexts : Value → Value → Prop where
  | null : SameUpToContexts null null
  | boolean (b : Bool) : SameUpToContexts (boolean b) (boolean b)
  | string (text : String) : SameUpToContexts (string text) (string text)
  | list {vs ws : List Value} : List.Forall₂ SameUpToContexts vs ws →
      SameUpToContexts (list vs) (list ws)
  | compiler (id : UInt32) (t u : Token) :
      SameUpToContexts (function (.compiler id t)) (function (.compiler id u))

/-- No host function inside, and no quote in a text. -/
def Plain (v : Value) : Prop :=
  (v.Forall fun f => f.isHost = false) ∧ ∀ text ∈ v.texts, '"' ∉ text.toList

theorem plain_list {vs : List Value} : (list vs).Plain ↔ ∀ v ∈ vs, v.Plain := by
  simp only [Plain, forall_list, texts, textsOfItems_eq_flatMap, List.mem_flatMap]
  grind

theorem Plain.eq_compiler {f : Function} (h : (function f).Plain) : ∃ id t, f = .compiler id t := by
  cases f with
  | compiler id t => exact ⟨id, t, rfl⟩
  | host r => cases forall_function.1 h.1

theorem Plain.not_mem_string {text : String} (h : (string text).Plain) : '"' ∉ text.toList :=
  h.2 text (List.mem_singleton_self text)

/-- The first character of the display. -/
def initial : Value → Char
  | null => 'n'
  | boolean true => 't'
  | boolean false => 'f'
  | string _ => '"'
  | list _ => '['
  | function _ => '<'

theorem initial_ne_bracket (v : Value) : v.initial ≠ ']' := by
  rcases v with _ | ⟨_ | _⟩ | _ | _ | _ <;> simp [initial]

/-- The first character tells the kind. -/
theorem ctorIdx_eq_of_initial_eq {v w : Value} (h : v.initial = w.initial) : v.ctorIdx = w.ctorIdx := by
  rcases v with _ | ⟨_ | _⟩ | _ | _ | _ <;> rcases w with _ | ⟨_ | _⟩ | _ | _ | _ <;>
    first | rfl | simp [initial] at h

section Written

variable (r : List Char)

theorem written_null : null.shown.flatOnto r = null.initial :: ("ull".toList ++ r) := by
  simp [shown, initial, Text.Outline.word, Text.Outline.flatOnto]

theorem written_boolean (b : Bool) : (boolean b).shown.flatOnto r =
    (boolean b).initial :: ((if b then "rue" else "alse").toList ++ r) := by
  cases b <;> simp [shown, initial, Text.Outline.word, Text.Outline.flatOnto]

theorem written_string (text : String) :
    (string text).shown.flatOnto r = (string text).initial :: (text.toList ++ '"' :: r) := by
  simp [shown, initial, Text.Outline.flatOnto]

theorem written_list (vs : List Value) : (list vs).shown.flatOnto r =
    (list vs).initial :: Text.Outline.flatItemsOnto (vs.map shown) (']' :: r) := by
  simp [shown, initial, Text.Outline.list, Text.Outline.flatOnto, Text.Bracket.flat, shownItems_eq_map]

theorem written_compiler (id : UInt32) (t : Token) : (function (.compiler id t)).shown.flatOnto r =
    "<compiler function ".toList ++ ((toString id.toNat).toList ++ '>' :: r) := by
  simp [shown, Text.Outline.word, Text.Outline.flatOnto, Function.display_compiler]

theorem label_compiler : "<compiler function ".toList = '<' :: "compiler function ".toList := by
  decide

end Written

namespace Plain

variable {v w : Value} {r s : List Char}

theorem exists_written (h : v.Plain) (r : List Char) :
    ∃ rest, v.shown.flatOnto r = v.initial :: rest := by
  cases v with
  | null => exact ⟨_, written_null r⟩
  | boolean b => exact ⟨_, written_boolean r b⟩
  | string text => exact ⟨_, written_string r text⟩
  | list vs => exact ⟨_, written_list r vs⟩
  | function f =>
    obtain ⟨id, t, rfl⟩ := h.eq_compiler
    exact ⟨_, (written_compiler r id t).trans (congrArg (· ++ _) label_compiler)⟩

theorem ctorIdx_eq (hv : v.Plain) (hw : w.Plain) (h : v.shown.flatOnto r = w.shown.flatOnto s) :
    v.ctorIdx = w.ctorIdx := by
  obtain ⟨_, hv⟩ := hv.exists_written r
  obtain ⟨_, hw⟩ := hw.exists_written s
  rw [hv, hw] at h
  exact ctorIdx_eq_of_initial_eq (List.cons.inj h).1

end Plain

theorem avoids_bracket : Text.Outline.Avoids shown Plain ']' := by
  intro v r s hv h
  obtain ⟨_, hwritten⟩ := hv.exists_written r
  rw [hwritten] at h
  exact v.initial_ne_bracket (List.cons.inj h).1

/-- By induction on the first value; the second one is of the same kind. -/
theorem Plain.legible {v : Value} (hv : v.Plain) :
    Text.Outline.Legible shown Plain SameUpToContexts v := by
  induction v with
  | null =>
    intro w r s hw h
    have hkind := hv.ctorIdx_eq hw h
    cases w with
    | null =>
      rw [written_null, written_null] at h
      exact ⟨.null, List.append_cancel_left (List.cons.inj h).2⟩
    | _ => cases hkind
  | boolean b =>
    intro w r s hw h
    have hkind := hv.ctorIdx_eq hw h
    cases w with
    | boolean c =>
      rw [written_boolean, written_boolean] at h
      obtain ⟨hinitial, hrest⟩ := List.cons.inj h
      obtain rfl : b = c := by cases b <;> cases c <;> simp_all [initial]
      exact ⟨.boolean b, List.append_cancel_left hrest⟩
    | _ => cases hkind
  | string text =>
    intro w r s hw h
    have hkind := hv.ctorIdx_eq hw h
    cases w with
    | string text' =>
      rw [written_string, written_string] at h
      have htexts := (List.cons.inj h).2
      obtain ⟨hsame, hrest⟩ := Text.closed_inj hv.not_mem_string hw.not_mem_string htexts
      obtain rfl := String.toList_inj.1 hsame
      exact ⟨.string text, hrest⟩
    | _ => cases hkind
  | list vs ih =>
    intro w r s hw h
    have hkind := hv.ctorIdx_eq hw h
    cases w with
    | list ws =>
      rw [written_list, written_list] at h
      have hvs := plain_list.1 hv
      have hitems := (List.cons.inj h).2
      obtain ⟨hsame, hrest⟩ := Text.Outline.legible_items (by decide) avoids_bracket
        (fun v hmem => ih v hmem (hvs v hmem)) hvs (plain_list.1 hw) hitems
      exact ⟨.list hsame, hrest⟩
    | _ => cases hkind
  | function f =>
    intro w r s hw h
    have hkind := hv.ctorIdx_eq hw h
    obtain ⟨id, t, rfl⟩ := hv.eq_compiler
    cases w with
    | function g =>
      obtain ⟨id', u, rfl⟩ := hw.eq_compiler
      rw [written_compiler, written_compiler] at h
      have hnumbers := List.append_cancel_left h
      obtain ⟨hid, hrest⟩ := Text.decimal_inj (by decide) hnumbers
      obtain rfl := UInt32.toNat_inj.1 hid
      exact ⟨.compiler id t u, hrest⟩
    | _ => cases hkind

theorem SameUpToContexts.shown_eq {v w : Value} (h : v.SameUpToContexts w) : v.shown = w.shown := by
  induction v generalizing w with
  | list vs ih =>
    obtain ⟨⟩ | ⟨⟩ | ⟨⟩ | ⟨hitems⟩ | ⟨⟩ := h
    rw [shown, shown, shownItems_eq_map, shownItems_eq_map]
    congr 1
    induction hitems with
    | nil => rfl
    | cons hvw _ ihs =>
      obtain ⟨hv, hvs⟩ := List.forall_mem_cons.1 ih
      rw [List.map_cons, List.map_cons, hv hvw, ihs hvs]
  | _ =>
    cases h
    rfl

/-- Plain values have one display exactly when they are the same but for their contexts. -/
theorem display_eq_iff {v w : Value} (hv : v.Plain) (hw : w.Plain) :
    v.display = w.display ↔ v.SameUpToContexts w := by
  constructor
  · intro h
    exact (hv.legible w [] [] hw (String.ofList_inj.1 h)).1
  · intro h
    rw [display, display, h.shown_eq]

/-- A text that looks like items, an empty list, and one id in some context. -/
def lookalike (context : Nat) : Value :=
  .list [.string "], [null, <compiler function 7>", .list [],
    .function (.compiler 7 ⟨⟨context⟩, context.toUInt64⟩)]

theorem plain_lookalike (context : Nat) : (lookalike context).Plain := by
  constructor
  · simp [lookalike, Forall, functions, functionsOfItems, Function.isHost]
  · simp [lookalike, texts, textsOfItems]

theorem lookalikes_displayed : (lookalike 0).Plain ∧ (lookalike 1).Plain ∧
    (lookalike 0).display = (lookalike 1).display ∧
    (lookalike 0).display ≠ (list [lookalike 0]).display := by
  have hnested : (list [lookalike 0]).Plain := plain_list.2 (List.forall_mem_singleton.2 (plain_lookalike 0))
  refine ⟨plain_lookalike 0, plain_lookalike 1, ?_, fun h => ?_⟩
  · refine (display_eq_iff (plain_lookalike 0) (plain_lookalike 1)).2 (.list ?_)
    exact .cons (.string _) (.cons (.list .nil) (.cons (.compiler 7 _ _) .nil))
  · have hsame := (display_eq_iff (plain_lookalike 0) hnested).1 h
    obtain ⟨⟩ | ⟨⟩ | ⟨⟩ | ⟨hitems⟩ | ⟨⟩ := hsame
    cases hitems.length_eq

/-- Quotes in a text are not escaped. -/
example : (list [string "a\", \"b"]).display = (list [string "a", string "b"]).display := by
  decide

end Value
end ScriptValues
