import Mathlib.Data.List.Induction
import ScriptValues.Value

/-! Reading off the front of a text. A label is found where none begins another, a number ends where no
digit follows. Where each character between two quotes is written so that a reader finds it, whatever
follows, the whole text between the quotes is found, and so two quoted texts with something behind them
are the same only if the texts are and what is behind them is. -/

namespace ScriptValues.Text

/-- Reads one thing off the front of a text and gives what is left, or refuses. -/
abbrev Reader (α : Type) := List Char → Option (α × List Char)

/-- The reader finds the thing in the text, whatever follows, and takes no more than the text. -/
def Reads {α : Type} (read : Reader α) (text : List Char) (a : α) : Prop :=
  ∀ r, read (text ++ r) = some (a, r)

theorem Reads.inj {α : Type} {read : Reader α} {s t x y : List Char} {a b : α} (hs : Reads read s a)
    (ht : Reads read t b) (h : s ++ x = t ++ y) : a = b ∧ x = y := by
  have hboth : some (a, x) = some (b, y) := by rw [← hs x, h, ht y]
  simpa using hboth

/-- None of the labels is the beginning of another. -/
def PrefixFree {ι : Type} (label : ι → String) : Prop :=
  ∀ i j, (label i).toList <+: (label j).toList → i = j

theorem PrefixFree.inj {ι : Type} {label : ι → String} (hfree : PrefixFree label) {i j : ι}
    {r s : List Char} (h : (label i).toList ++ r = (label j).toList ++ s) : i = j ∧ r = s := by
  have hi : (label i).toList <+: (label j).toList ++ s := ⟨r, h⟩
  have hj : (label j).toList <+: (label j).toList ++ s := List.prefix_append _ s
  have hsame : i = j := by
    rcases List.prefix_or_prefix_of_prefix hi hj with hij | hji
    · exact hfree i j hij
    · exact (hfree j i hji).symm
  subst hsame
  exact ⟨rfl, List.append_cancel_left h⟩

/-- Two texts without the character that closes them end where it comes first. -/
theorem closed_inj {c : Char} {xs ys r s : List Char} (hxs : c ∉ xs) (hys : c ∉ ys)
    (h : xs ++ c :: r = ys ++ c :: s) : xs = ys ∧ r = s := by
  induction xs generalizing ys with
  | nil =>
    cases ys with
    | nil => exact ⟨rfl, (List.cons.inj h).2⟩
    | cons y ys =>
      obtain rfl : c = y := (List.cons.inj h).1
      exact absurd List.mem_cons_self hys
  | cons x xs ih =>
    cases ys with
    | nil =>
      obtain rfl : x = c := (List.cons.inj h).1
      exact absurd List.mem_cons_self hxs
    | cons y ys =>
      obtain ⟨rfl, htail⟩ := List.cons.inj h
      rw [List.mem_cons, not_or] at hxs hys
      obtain ⟨rfl, hrest⟩ := ih hxs.2 hys.2 htail
      exact ⟨rfl, hrest⟩

theorem not_mem_decimal {c : Char} (hc : c.isDigit = false) (n : Nat) : c ∉ (toString n).toList := by
  rw [Nat.toString_eq_ofList_toDigits, String.toList_ofList]
  intro hmem
  rw [Nat.isDigit_of_mem_toDigits (by decide) (by decide) hmem] at hc
  cases hc

theorem eq_of_decimal_eq {m n : Nat} (h : (toString m).toList = (toString n).toList) : m = n := by
  have hvalues := congrArg (fun digits => Nat.ofDigitChars 10 digits 0) h
  simpa [Nat.toString_eq_ofList_toDigits] using hvalues

/-- A number ends where something comes that is not a digit. -/
theorem decimal_inj {c : Char} (hc : c.isDigit = false) {m n : Nat} {r s : List Char}
    (h : (toString m).toList ++ c :: r = (toString n).toList ++ c :: s) : m = n ∧ r = s := by
  obtain ⟨hdigits, hrest⟩ := closed_inj (not_mem_decimal hc m) (not_mem_decimal hc n) h
  exact ⟨eq_of_decimal_eq hdigits, hrest⟩

section Quoted

variable {readChar : Reader Char} {escape : Char → List Char}

/-- The characters before the closing quote, if there are fewer than the bound. -/
def readQuotedWithin (readChar : Reader Char) : Nat → Reader (List Char)
  | 0, _ => none
  | _ + 1, '"' :: r => some ([], r)
  | n + 1, s => do
    let (c, r) ← readChar s
    let (cs, r) ← readQuotedWithin readChar n r
    return (c :: cs, r)

def readQuoted (readChar : Reader Char) (s : List Char) : Option (List Char × List Char) :=
  readQuotedWithin readChar s.length s

theorem readQuotedWithin_of_ne {n : Nat} {s : List Char} (h : ∀ r, s ≠ '"' :: r) :
    readQuotedWithin readChar (n + 1) s = (do
      let (c, r) ← readChar s
      let (cs, r) ← readQuotedWithin readChar n r
      return (c :: cs, r)) := by
  rw [readQuotedWithin]
  exact h

variable (hread : ∀ c, Reads readChar (escape c) c) (hquote : ∀ c r s, escape c ++ r ≠ '"' :: s)

include hquote in
/-- Each character takes its place in the text, so the length of the text bounds their number. -/
theorem length_le_escaped (cs : List Char) : cs.length ≤ (cs.flatMap escape).length := by
  induction cs with
  | nil => exact Nat.le_refl 0
  | cons c cs ih =>
    have hne : escape c ≠ [] := fun hnil => hquote c ['"'] [] (by rw [hnil]; rfl)
    have hpos := List.length_pos_iff.2 hne
    simp only [List.flatMap_cons, List.length_append, List.length_cons]
    omega

include hread hquote

theorem readQuotedWithin_escaped {n : Nat} {cs : List Char} (hn : cs.length < n) (r : List Char) :
    readQuotedWithin readChar n (cs.flatMap escape ++ '"' :: r) = some (cs, r) := by
  induction cs generalizing n with
  | nil =>
    obtain ⟨n, rfl⟩ : ∃ m, n = m + 1 := ⟨n - 1, by omega⟩
    rfl
  | cons c cs ih =>
    obtain ⟨n, rfl⟩ : ∃ m, n = m + 1 := ⟨n - 1, by omega⟩
    have hrest := ih (Nat.lt_of_succ_lt_succ hn)
    rw [List.flatMap_cons, List.append_assoc, readQuotedWithin_of_ne (hquote c _), hread c]
    simp [hrest]

theorem reads_quoted (cs : List Char) :
    Reads (readQuoted readChar) (cs.flatMap escape ++ ['"']) cs := by
  intro r
  rw [List.append_assoc]
  apply readQuotedWithin_escaped hread hquote
  have hlength := length_le_escaped hquote cs
  simp only [List.length_append, List.length_cons]
  omega

end Quoted

section Hexadecimal

def hexDigit? (c : Char) : Option Nat :=
  if c.isDigit then some (c.toNat - '0'.toNat)
  else if 'a' ≤ c ∧ c ≤ 'f' then some (c.toNat - 'a'.toNat + 10)
  else if 'A' ≤ c ∧ c ≤ 'F' then some (c.toNat - 'A'.toNat + 10)
  else none

/-- The number of these digits, in either case. -/
def hexNumber? (digits : List Char) : Option Nat :=
  digits.foldlM (fun n c => do
    let d ← hexDigit? c
    return 16 * n + d) 0

theorem hexDigit?_digitChar {d : Nat} (h : d < 16) : hexDigit? (Nat.digitChar d) = some d := by
  have hall : ∀ d < 16, hexDigit? (Nat.digitChar d) = some d := by decide
  exact hall d h

theorem hexNumber?_concat (digits : List Char) (c : Char) : hexNumber? (digits ++ [c]) = (do
    let n ← hexNumber? digits
    let d ← hexDigit? c
    return 16 * n + d) := by
  simp only [hexNumber?, List.foldlM_append, List.foldlM_cons, List.foldlM_nil, bind_pure]

theorem hexNumber?_toDigits (n : Nat) : hexNumber? (Nat.toDigits 16 n) = some n := by
  induction n using Nat.strongRecOn with
  | ind n ih =>
    by_cases hn : n < 16
    · rw [Nat.toDigits_of_lt_base hn]
      simp [hexNumber?, hexDigit?_digitChar hn]
    · have hbase : 16 ≤ n := Nat.le_of_not_lt hn
      rw [Nat.toDigits_of_base_le (by decide) hbase, hexNumber?_concat,
        ih (n / 16) (Nat.div_lt_self (by omega) (by decide)),
        hexDigit?_digitChar (Nat.mod_lt n (by decide))]
      simp [Nat.div_add_mod]

theorem hexDigit?_of_mem {digits : List Char} {n : Nat} (h : hexNumber? digits = some n) {c : Char}
    (hc : c ∈ digits) : hexDigit? c ≠ none := by
  induction digits using List.reverseRecOn generalizing n with
  | nil => cases hc
  | append_singleton digits d ih =>
    rw [hexNumber?_concat] at h
    obtain ⟨m, hm, h⟩ := Option.bind_eq_some_iff.1 h
    obtain ⟨_, hd, -⟩ := Option.bind_eq_some_iff.1 h
    rcases List.mem_append.1 hc with hc | hc
    · exact ih hm hc
    · rw [List.mem_singleton.1 hc, hd]
      nofun

end Hexadecimal

/-- The character that an escape stands for, or the first one as it is. -/
def unescape : Reader Char
  | '\\' :: '"' :: r => some ('"', r)
  | '\\' :: '\\' :: r => some ('\\', r)
  | '\\' :: '0' :: r => some ('\x00', r)
  | '\\' :: 't' :: r => some ('\t', r)
  | '\\' :: 'n' :: r => some ('\n', r)
  | '\\' :: 'r' :: r => some ('\r', r)
  | '\\' :: 'u' :: '\x7b' :: r => do
    let n ← hexNumber? (r.takeWhile (· != '\x7d'))
    return (Char.ofNat n, (r.dropWhile (· != '\x7d')).tail)
  | '\\' :: _ => none
  | c :: r => some (c, r)
  | [] => none

theorem unescape_hex (c : Char) (r : List Char) :
    unescape ('\\' :: 'u' :: '\x7b' :: Nat.toDigits 16 c.toNat ++ '\x7d' :: r) = some (c, r) := by
  have hdigits : ∀ d ∈ Nat.toDigits 16 c.toNat, (d != '\x7d') = true := by
    intro d hd
    refine bne_iff_ne.2 ?_
    rintro rfl
    exact hexDigit?_of_mem (hexNumber?_toDigits _) hd (by decide)
  rw [List.cons_append, List.cons_append, List.cons_append, unescape,
    List.takeWhile_append_of_pos hdigits, List.dropWhile_append_of_pos hdigits]
  simp [hexNumber?_toDigits]

theorem reads_escape (c : Char) : Reads unescape (escape c) c := by
  intro r
  unfold escape
  split
  · rfl
  · rfl
  · rfl
  · rfl
  · rfl
  · rfl
  · next _ hbackslash _ _ _ _ =>
    split
    · simpa using unescape_hex c r
    · rw [List.singleton_append, unescape]
      all_goals simp_all

theorem escape_ne_quote (c : Char) (r s : List Char) : escape c ++ r ≠ '"' :: s := by
  unfold escape
  split <;> grind

theorem newline_not_mem_escape (c : Char) : '\n' ∉ escape c := by
  unfold escape
  split
  all_goals try decide
  split
  · have hdigits : '\n' ∉ Nat.toDigits 16 c.toNat := fun hmem =>
      hexDigit?_of_mem (hexNumber?_toDigits _) hmem (by decide)
    simpa using hdigits
  · grind

theorem newline_not_mem_quote (text : String) : '\n' ∉ quote text := by
  simp [quote, newline_not_mem_escape]

theorem reads_quote (text : String) :
    Reads (readQuoted unescape) (text.toList.flatMap escape ++ ['"']) text.toList :=
  reads_quoted reads_escape escape_ne_quote text.toList

theorem quote_inj {s t : String} {x y : List Char} (h : quote s ++ x = quote t ++ y) :
    s = t ∧ x = y := by
  obtain ⟨hsame, hrest⟩ := (reads_quote s).inj (reads_quote t) (List.cons.inj h).2
  exact ⟨String.toList_inj.1 hsame, hrest⟩

end ScriptValues.Text
