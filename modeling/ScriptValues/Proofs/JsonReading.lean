import ScriptValues.Json
import ScriptValues.Proofs.Reading

/-! A reader of JSON, and what it finds in the objects that are written here. It reads any JSON text:
blanks, nested arrays and objects, all escapes and surrogate pairs, fractions and exponents, of which the
written objects have none. -/

namespace ScriptValues.Json

open Text (Reader Reads)

inductive Tree where
  | null
  | boolean (b : Bool)
  /-- So many times that power of ten. -/
  | number (mantissa exponent : Int)
  | text (s : String)
  | array (items : List Tree)
  | object (members : List (String × Tree))

def isBlank (c : Char) : Bool :=
  c == ' ' || c == '\t' || c == '\n' || c == '\r'

def skipBlanks (s : List Char) : List Char :=
  s.dropWhile isBlank

section Texts

/-- Four hexadecimal digits. -/
def readUnit : Reader Nat
  | a :: b :: c :: d :: r => (Text.hexNumber? [a, b, c, d]).map (·, r)
  | _ => none

/-- What comes after a backslash and a `u`. A character beyond the units is two of them. -/
def readUnicode (s : List Char) : Option (Char × List Char) := do
  let (high, r) ← readUnit s
  if high < 0xd800 ∨ 0xdfff < high then
    return (Char.ofNat high, r)
  match r with
  | '\\' :: 'u' :: r =>
    let (low, r) ← readUnit r
    if high < 0xdc00 ∧ 0xdc00 ≤ low ∧ low ≤ 0xdfff then
      return (Char.ofNat (0x10000 + (high - 0xd800) * 0x400 + (low - 0xdc00)), r)
    else none
  | _ => none

def unescape : Reader Char
  | '\\' :: '"' :: r => some ('"', r)
  | '\\' :: '\\' :: r => some ('\\', r)
  | '\\' :: '/' :: r => some ('/', r)
  | '\\' :: 'b' :: r => some ('\x08', r)
  | '\\' :: 'f' :: r => some ('\x0c', r)
  | '\\' :: 'n' :: r => some ('\n', r)
  | '\\' :: 'r' :: r => some ('\r', r)
  | '\\' :: 't' :: r => some ('\t', r)
  | '\\' :: 'u' :: r => readUnicode r
  | '\\' :: _ => none
  | c :: r => if c.toNat < 0x20 then none else some (c, r)
  | [] => none

def readText : Reader String
  | '"' :: r => (Text.readQuoted unescape r).map fun (cs, r) => (String.ofList cs, r)
  | _ => none

end Texts

section Numbers

/-- At least one digit. -/
def readDigits (s : List Char) : Option (List Char × List Char) :=
  match s.takeWhile Char.isDigit with
  | [] => none
  | digits => some (digits, s.dropWhile Char.isDigit)

/-- No zero in front of other digits. -/
def readWhole : Reader (List Char)
  | '0' :: r => some (['0'], r)
  | s => readDigits s

def readFraction : Reader (List Char)
  | '.' :: r => readDigits r
  | s => some ([], s)

def natural (digits : List Char) : Nat :=
  Nat.ofDigitChars 10 digits 0

/-- The sign of an exponent, which may be left out. -/
def readSign : List Char → Int × List Char
  | '-' :: r => (-1, r)
  | '+' :: r => (1, r)
  | s => (1, s)

def readExponent : Reader Int
  | 'e' :: s | 'E' :: s => do
    let (sign, r) := readSign s
    let (digits, r) ← readDigits r
    return (sign * natural digits, r)
  | s => some (0, s)

def readUnsigned (s : List Char) : Option ((Nat × Int) × List Char) := do
  let (whole, r) ← readWhole s
  let (fraction, r) ← readFraction r
  let (exponent, r) ← readExponent r
  return ((natural (whole ++ fraction), exponent - fraction.length), r)

def readNumber : Reader Tree
  | '-' :: s => (readUnsigned s).map fun ((mantissa, exponent), r) => (.number (-mantissa) exponent, r)
  | s => (readUnsigned s).map fun ((mantissa, exponent), r) => (.number mantissa exponent, r)

end Numbers

section Trees

variable {α : Type}

/-- One thing and then, each behind a comma, the others up to the close. The bound is on how many. -/
def readSeparated (close : Char) (read : Reader α) : Nat → Reader (List α)
  | 0, _ => none
  | n + 1, s => do
    let (a, r) ← read s
    match skipBlanks r with
    | ',' :: r =>
      let (as, r) ← readSeparated close read n r
      return (a :: as, r)
    | c :: r => if c = close then return ([a], r) else none
    | [] => none

/-- What comes after an opening bracket. Each thing takes its place in the text, so the length of the
text bounds their number. -/
def readGroup (close : Char) (read : Reader α) (s : List Char) : Option (List α × List Char) :=
  match skipBlanks s with
  | c :: r => if c = close then some ([], r) else readSeparated close read s.length s
  | [] => none

def readMember (read : Reader Tree) (s : List Char) : Option ((String × Tree) × List Char) := do
  let (key, r) ← readText (skipBlanks s)
  match skipBlanks r with
  | ':' :: r =>
    let (t, r) ← read r
    return ((key, t), r)
  | _ => none

/-- The bound is on how deep the tree is. -/
def readTree : Nat → Reader Tree
  | 0, _ => none
  | depth + 1, s =>
    match skipBlanks s with
    | 'n' :: 'u' :: 'l' :: 'l' :: r => some (.null, r)
    | 't' :: 'r' :: 'u' :: 'e' :: r => some (.boolean true, r)
    | 'f' :: 'a' :: 'l' :: 's' :: 'e' :: r => some (.boolean false, r)
    | '"' :: r => (readText ('"' :: r)).map fun (text, r) => (.text text, r)
    | '[' :: r => (readGroup ']' (readTree depth) r).map fun (items, r) => (.array items, r)
    | '\x7b' :: r =>
      (readGroup '\x7d' (readMember (readTree depth)) r).map fun (members, r) => (.object members, r)
    | r => readNumber r

/-- The tree of a whole text. -/
def read? (s : String) : Option Tree := do
  let (t, r) ← readTree s.length s.toList
  if skipBlanks r = [] then return t else none

end Trees

section Escapes

theorem readUnit_hexPair {n : Nat} (hn : n < 256) (r : List Char) :
    readUnit ('0' :: '0' :: hexPair n ++ r) = some (n, r) := by
  have hhigh := Text.hexDigit?_digitChar (Nat.mod_lt (n / 16) (by decide : 0 < 16))
  have hlow := Text.hexDigit?_digitChar (Nat.mod_lt n (by decide : 0 < 16))
  have hzero : Text.hexDigit? '0' = some 0 := by decide
  have hvalue : 16 * (n / 16 % 16) + n % 16 = n := by omega
  simp [readUnit, hexPair, Text.hexNumber?, hzero, hhigh, hlow, hvalue]

theorem reads_escape (c : Char) : Reads unescape (escape c) c := by
  intro r
  unfold escape
  split
  · rfl
  · rfl
  · rfl
  · rfl
  · rfl
  · rfl
  · rfl
  · split
    · next hc =>
      have hunit : readUnit ('0' :: '0' :: hexPair c.toNat ++ r) = some (c.toNat, r) :=
        readUnit_hexPair (by omega) r
      have hsingle : c.toNat < 0xd800 ∨ 0xdfff < c.toNat := by omega
      simp only [List.cons_append] at hunit ⊢
      simp [unescape, readUnicode, hunit, hsingle]
    · next hc =>
      rw [List.singleton_append, unescape]
      all_goals simp_all

theorem escape_ne_quote (c : Char) (r s : List Char) : escape c ++ r ≠ '"' :: s := by
  unfold escape
  split <;> grind

theorem reads_quote (s : String) : Reads readText (quote s) s := by
  intro r
  have hquoted := Text.reads_quoted reads_escape escape_ne_quote s.toList r
  rw [quote, List.cons_append, List.cons_append, readText, hquoted]
  simp

end Escapes

section Digits

variable {c : Char} (hc : c = ',' ∨ c = '\x7d')

theorem exists_toDigits_cons (n : Nat) :
    ∃ d ds, Nat.toDigits 10 n = d :: ds ∧ (d = '0' → n = 0) := by
  induction n using Nat.strongRecOn with
  | ind n ih =>
    by_cases hn : n < 10
    · exact ⟨_, _, Nat.toDigits_of_lt_base hn, Nat.digitChar_eq_zero.1⟩
    · have hbase : 10 ≤ n := Nat.le_of_not_lt hn
      obtain ⟨d, ds, hdigits, hzero⟩ := ih (n / 10) (Nat.div_lt_self (by omega) (by decide))
      refine ⟨d, ds ++ [Nat.digitChar (n % 10)], ?_, fun hd => ?_⟩
      · rw [Nat.toDigits_of_base_le (by decide) hbase, hdigits, List.cons_append]
      · have := hzero hd
        omega

theorem isDigit_of_mem {n : Nat} {d : Char} (hd : d ∈ Nat.toDigits 10 n) : d.isDigit = true :=
  Nat.isDigit_of_mem_toDigits (by decide) (by decide) hd

include hc

theorem readDigits_toDigits (n : Nat) (r : List Char) :
    readDigits (Nat.toDigits 10 n ++ c :: r) = some (Nat.toDigits 10 n, c :: r) := by
  have hend : c.isDigit = false := by rcases hc with rfl | rfl <;> rfl
  have hdigits : ∀ d ∈ Nat.toDigits 10 n, d.isDigit = true := fun d => isDigit_of_mem
  have htake : (Nat.toDigits 10 n ++ c :: r).takeWhile Char.isDigit = Nat.toDigits 10 n := by
    simp [List.takeWhile_append_of_pos hdigits, hend]
  have hdrop : (Nat.toDigits 10 n ++ c :: r).dropWhile Char.isDigit = c :: r := by
    simp [List.dropWhile_append_of_pos hdigits, hend]
  obtain ⟨d, ds, hcons, -⟩ := exists_toDigits_cons n
  rw [readDigits, htake, hdrop, hcons]

/-- The digits of zero are one zero, and those of other numbers begin with another digit. -/
theorem readWhole_toDigits (n : Nat) (r : List Char) :
    readWhole (Nat.toDigits 10 n ++ c :: r) = some (Nat.toDigits 10 n, c :: r) := by
  by_cases hn : n = 0
  · subst hn
    rfl
  · obtain ⟨d, ds, hcons, hzero⟩ := exists_toDigits_cons n
    have hd : d ≠ '0' := fun hd => hn (hzero hd)
    have hread := readDigits_toDigits hc n r
    rw [hcons, List.cons_append] at hread ⊢
    rw [readWhole, hread]
    simpa using hd

theorem readUnsigned_toDigits (n : Nat) (r : List Char) :
    readUnsigned (Nat.toDigits 10 n ++ c :: r) = some ((n, 0), c :: r) := by
  have hfraction : readFraction (c :: r) = some ([], c :: r) := by rcases hc with rfl | rfl <;> rfl
  have hexponent : readExponent (c :: r) = some (0, c :: r) := by rcases hc with rfl | rfl <;> rfl
  have hvalue : natural (Nat.toDigits 10 n) = n := Nat.ofDigitChars_toDigits (by decide) (by decide)
  simp [readUnsigned, readWhole_toDigits hc, hfraction, hexponent, hvalue]

end Digits

section Written

theorem skipBlanks_of_not_blank {c : Char} (hc : isBlank c = false) (s : List Char) :
    skipBlanks (c :: s) = c :: s := by
  rw [skipBlanks, List.dropWhile_cons, hc]
  rfl

/-- Nothing else begins with a digit. -/
theorem readTree_of_isDigit {c : Char} (hc : c.isDigit = true) (depth : Nat) (s : List Char) :
    readTree (depth + 1) (c :: s) = readNumber (c :: s) := by
  have hblank : isBlank c = false := by
    rw [Bool.eq_false_iff]
    intro h
    simp only [isBlank, Bool.or_eq_true, beq_iff_eq] at h
    rcases h with ((rfl | rfl) | rfl) | rfl <;> cases hc
  rw [readTree, skipBlanks_of_not_blank hblank]
  split
  case h_7 => rfl
  all_goals
    next heq =>
    cases heq
    cases hc

theorem readNumber_of_isDigit {c : Char} (hc : c.isDigit = true) (s : List Char) :
    readNumber (c :: s) =
      (readUnsigned (c :: s)).map fun ((mantissa, exponent), r) => (.number mantissa exponent, r) := by
  rw [readNumber]
  rintro s' ⟨⟩
  cases hc

def Scalar.tree : Scalar → Tree
  | .text s => .text s
  | .natural n => .number n 0

theorem readTree_write (depth : Nat) (x : Scalar) {c : Char} (hc : c = ',' ∨ c = '\x7d')
    (r : List Char) : readTree (depth + 1) (x.write ++ c :: r) = some (x.tree, c :: r) := by
  cases x with
  | text s =>
    have hread := reads_quote s (c :: r)
    simp only [Scalar.write, quote, List.cons_append] at hread ⊢
    rw [readTree, skipBlanks_of_not_blank (by decide)]
    exact congrArg (Option.map fun (text, r) => (Tree.text text, r)) hread
  | natural n =>
    obtain ⟨d, ds, hcons, -⟩ := exists_toDigits_cons n
    have hd : d.isDigit = true := isDigit_of_mem (n := n) (by rw [hcons]; exact List.mem_cons_self)
    have hread := readUnsigned_toDigits hc n r
    rw [hcons, List.cons_append] at hread
    rw [Scalar.write, hcons, List.cons_append, readTree_of_isDigit hd, readNumber_of_isDigit hd, hread]
    rfl

def memberTree (m : String × Scalar) : String × Tree :=
  (m.1, m.2.tree)

def Object.tree (o : Object) : Tree :=
  .object (o.map memberTree)

theorem exists_writeMember (m : String × Scalar) : ∃ cs, writeMember m = '"' :: cs :=
  ⟨_, rfl⟩

theorem readMember_write (depth : Nat) (m : String × Scalar) {c : Char} (hc : c = ',' ∨ c = '\x7d')
    (r : List Char) : readMember (readTree (depth + 1)) (writeMember m ++ c :: r) =
      some (memberTree m, c :: r) := by
  have hkey := reads_quote m.1 (':' :: (m.2.write ++ c :: r))
  have hvalue := readTree_write depth m.2 hc r
  have hstart : skipBlanks (quote m.1 ++ ':' :: (m.2.write ++ c :: r)) =
      quote m.1 ++ ':' :: (m.2.write ++ c :: r) := by
    rw [quote, List.cons_append]
    exact skipBlanks_of_not_blank (by decide) _
  have hcolon := skipBlanks_of_not_blank (by decide : isBlank ':' = false) (m.2.write ++ c :: r)
  rw [writeMember, List.append_assoc, List.cons_append, readMember, hstart, hkey]
  simp [hcolon, hvalue, memberTree]

theorem readSeparated_write (depth : Nat) {n : Nat} (m : String × Scalar) {o : Object}
    (hn : o.length < n) (r : List Char) :
    readSeparated '\x7d' (readMember (readTree (depth + 1))) n
      ([','].intercalate ((m :: o).map writeMember) ++ '\x7d' :: r) =
        some ((m :: o).map memberTree, r) := by
  obtain ⟨n, rfl⟩ : ∃ m, n = m + 1 := ⟨n - 1, by omega⟩
  induction o generalizing m n with
  | nil =>
    have hread := readMember_write depth m (Or.inr rfl) r
    have hclose := skipBlanks_of_not_blank (by decide : isBlank '\x7d' = false) r
    simp [readSeparated, hread, hclose]
  | cons m' o ih =>
    obtain ⟨n, rfl⟩ : ∃ m, n = m + 1 := ⟨n - 1, by rw [List.length_cons] at hn; omega⟩
    have hothers := ih m' n (Nat.lt_of_succ_lt_succ hn)
    generalize htext : [','].intercalate ((m' :: o).map writeMember) ++ '\x7d' :: r = text at hothers
    have hread := readMember_write depth m (Or.inl rfl) text
    have hcomma := skipBlanks_of_not_blank (by decide : isBlank ',' = false) text
    have hsplit : [','].intercalate ((m :: m' :: o).map writeMember) ++ '\x7d' :: r =
        writeMember m ++ ',' :: text := by
      simp [← htext, List.intercalate_cons_cons]
    rw [hsplit, readSeparated, hread]
    simp [hcomma, hothers]

/-- Every member takes its place in the text. -/
theorem length_le_write (o : Object) : o.length ≤ ([','].intercalate (o.map writeMember)).length := by
  induction o with
  | nil => exact Nat.zero_le _
  | cons m o ih =>
    obtain ⟨cs, hcs⟩ := exists_writeMember m
    cases o with
    | nil => simp [hcs]
    | cons m' o =>
      simp only [List.map_cons, List.intercalate_cons_cons, List.length_append, List.length_cons,
        hcs] at ih ⊢
      omega

theorem readGroup_write (depth : Nat) (o : Object) (r : List Char) :
    readGroup '\x7d' (readMember (readTree (depth + 1)))
      ([','].intercalate (o.map writeMember) ++ '\x7d' :: r) = some (o.map memberTree, r) := by
  cases o with
  | nil => rfl
  | cons m o =>
    have hlength := length_le_write (m :: o)
    have hbound : o.length < ([','].intercalate ((m :: o).map writeMember) ++ '\x7d' :: r).length := by
      simp only [List.length_append, List.length_cons] at hlength ⊢
      omega
    have hread := readSeparated_write depth m hbound r
    obtain ⟨cs, hcs⟩ : ∃ cs, [','].intercalate ((m :: o).map writeMember) ++ '\x7d' :: r = '"' :: cs := by
      cases o <;> simp [List.intercalate_cons_cons, writeMember, quote]
    rw [hcs] at hread ⊢
    rw [readGroup, skipBlanks_of_not_blank (by decide)]
    exact hread

theorem readTree_object (depth : Nat) (o : Object) (r : List Char) :
    readTree (depth + 2) (o.write ++ r) = some (o.tree, r) := by
  have hgroup := readGroup_write depth o r
  have htext : o.write ++ r = '\x7b' :: ([','].intercalate (o.map writeMember) ++ '\x7d' :: r) := by
    simp [Object.write]
  rw [htext, readTree, skipBlanks_of_not_blank (by decide)]
  exact congrArg (Option.map fun (members, r) => (Tree.object members, r)) hgroup

/-- What is written for an object is JSON for it, whatever its texts hold. -/
theorem read?_write (o : Object) : read? (String.ofList o.write) = some o.tree := by
  obtain ⟨depth, hdepth⟩ : ∃ depth, (String.ofList o.write).length = depth + 2 := by
    rw [String.length_ofList]
    exact ⟨_, by rw [Object.write, List.cons_append, List.length_cons, List.length_append]; rfl⟩
  have hread := readTree_object depth o []
  rw [List.append_nil] at hread
  rw [read?, hdepth, String.toList_ofList, hread]
  rfl

/-- What no object written here has is read as well. -/
example : read? " \x7b\"a\": [-2.50e+3, true, \x7b\x7d], \"b\" :\"\\ud83d\\ude00\\/\"\x7d\n" =
    some (.object [("a", .array [.number (-250) 1, .boolean true, .object []]), ("b", .text "😀/")]) := by
  rfl

/-- A zero in front, a comma too many, half a pair of surrogates. -/
example : read? "[01]" = none ∧ read? "[1,]" = none ∧ read? "\"\\ud83d\"" = none := by
  exact ⟨rfl, rfl, rfl⟩

end Written

end ScriptValues.Json
