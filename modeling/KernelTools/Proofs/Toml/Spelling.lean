import KernelTools.Toml.Statement
import Mathlib.Data.List.Forall2
import Mathlib.Logic.Basic

/-!
# How strings and keys are written

A string may be written in many ways as a basic string, since most characters stand for themselves or
are escaped.  Every way of writing it reads as that string, and there is one for every string.  A key
is written without quotes, or as a string in double or single quotes.

Main results:

- Theorem {lit}`readBasic_of_writes`: a basic string reads as what it writes.
- Theorem {lit}`writesText_escaped`: every text can be written as a basic string.
- Theorem {lit}`readKey_of_writes`: a key reads as what it writes.
-/

namespace KernelTools.Toml

variable {c d : Char} {s w t rest digits : Text} {key : Text} {values : List Nat} {n : Nat}

/-! ## Characters -/

/-- A character that may stand for itself within quotes: any but the control characters of ASCII,
tabs apart. -/
def StandsForItself (c : Char) : Prop :=
  c = '\t' ∨ 0x20 ≤ c.toNat ∧ c ≠ '\x7f'

theorem isPlain_iff : isPlain c = true ↔ StandsForItself c := by
  simp [isPlain, StandsForItself]

/-- A hexadecimal digit, in either case, with its value. -/
def WritesDigit (n : Nat) (d : Char) : Prop :=
  n < 16 ∧ (d = n.digitChar ∨ d = n.digitChar.toUpper)

/-- The number that hexadecimal digits write. -/
def WritesHex (digits : Text) (n : Nat) : Prop :=
  ∃ values, List.Forall₂ WritesDigit values digits ∧ values.foldl (fun n v => n * 16 + v) 0 = n

/-- The letters that may follow a backslash, with the characters that they stand for. -/
def escapeLetters : List (Char × Char) :=
  [('b', '\x08'), ('t', '\t'), ('n', '\n'), ('f', '\x0c'), ('r', '\r'), ('"', '"'), ('\\', '\\')]

/-- The ways to write a character in a basic string. -/
inductive WritesChar (c : Char) : Text → Prop
  | itself (hitself : StandsForItself c) (hquote : c ≠ '"') (hbackslash : c ≠ '\\') : WritesChar c [c]
  | letter {l : Char} (hletter : (l, c) ∈ escapeLetters) : WritesChar c ['\\', l]
  | short {digits : Text} (hlength : digits.length = 4) (hhex : WritesHex digits c.toNat) :
    WritesChar c ('\\' :: 'u' :: digits)
  | long {digits : Text} (hlength : digits.length = 8) (hhex : WritesHex digits c.toNat) :
    WritesChar c ('\\' :: 'U' :: digits)

/-- The ways to write a text in a basic string, between its quotes. -/
inductive WritesText : Text → Text → Prop
  | nil : WritesText [] []
  | cons {c : Char} {w s ws : Text} (hc : WritesChar c w) (hs : WritesText s ws) :
    WritesText (c :: s) (w ++ ws)

/-! ## Reading -/

theorem hexDigit?_of_writes (h : WritesDigit n d) : hexDigit? d = some n := by
  obtain ⟨hn, hd⟩ := h
  have hall : ∀ m < 16, hexDigit? m.digitChar = some m ∧ hexDigit? m.digitChar.toUpper = some m := by
    decide
  rcases hd with rfl | rfl
  · exact (hall n hn).1
  · exact (hall n hn).2

theorem scalar?_toNat (c : Char) : scalar? c.toNat = some c := by
  have hvalid : c.toNat.isValidChar := c.valid
  rw [scalar?, if_pos hvalid, Char.ofNat_toNat]

/-- The digits of an escape read as the character whose code point they write. -/
theorem readBasic_hex {left value : Nat} (hdigits : List.Forall₂ WritesDigit values digits)
    (hlength : digits.length = left + 1) (hvalue : values.foldl (fun n v => n * 16 + v) value = c.toNat)
    (rest : Text) :
    readBasic (.hex left value) (digits ++ rest) = push c (readBasic .plain rest) := by
  induction hdigits generalizing left value with
  | nil => simp at hlength
  | @cons v d values digits hdigit hdigits ih =>
    rw [List.cons_append, readBasic]
    simp only [hexDigit?_of_writes hdigit]
    rw [List.foldl_cons] at hvalue
    cases left with
    | zero =>
      obtain rfl : digits = [] := by simpa using hlength
      cases hdigits
      rw [List.foldl_nil] at hvalue
      simp only [hvalue, scalar?_toNat, List.nil_append]
    | succ left => exact ih (by simpa using hlength) hvalue

theorem readBasic_char (h : WritesChar c w) (rest : Text) :
    readBasic .plain (w ++ rest) = push c (readBasic .plain rest) := by
  cases h with
  | itself hitself hquote hbackslash =>
    rw [List.singleton_append, readBasic, if_neg hquote, if_neg hbackslash,
      if_pos (isPlain_iff.2 hitself)]
  | letter hletter =>
    simp only [escapeLetters, List.mem_cons, Prod.mk.injEq, List.not_mem_nil, or_false] at hletter
    rcases hletter with ⟨rfl, rfl⟩ | ⟨rfl, rfl⟩ | ⟨rfl, rfl⟩ | ⟨rfl, rfl⟩ | ⟨rfl, rfl⟩ | ⟨rfl, rfl⟩ |
      ⟨rfl, rfl⟩ <;> rfl
  | short hlength hhex =>
    obtain ⟨values, hdigits, hvalue⟩ := hhex
    exact readBasic_hex hdigits hlength hvalue rest
  | long hlength hhex =>
    obtain ⟨values, hdigits, hvalue⟩ := hhex
    exact readBasic_hex hdigits hlength hvalue rest

/-- A basic string reads as what it writes. -/
theorem readBasic_of_writes (h : WritesText s w) (rest : Text) :
    readBasic .plain (w ++ '"' :: rest) = some (s, rest) := by
  induction h with
  | nil => rfl
  | cons hc _ ih =>
    rw [List.append_assoc, readBasic_char hc, ih]
    rfl

/-! ## Every text can be written -/

/-- Writes a character in a basic string: quotes and backslashes behind a backslash, control
characters of ASCII by their code points, and every other character as it is. -/
def escaped (c : Char) : Text :=
  if c = '"' ∨ c = '\\' then ['\\', c]
  else if 0x20 ≤ c.toNat ∧ c ≠ '\x7f' then [c]
  else ['\\', 'u', '0', '0', (c.toNat / 16).digitChar, (c.toNat % 16).digitChar]

theorem writesChar_escaped (c : Char) : WritesChar c (escaped c) := by
  rw [escaped]
  split
  · next hc =>
    rcases hc with rfl | rfl
    · exact .letter (by simp [escapeLetters])
    · exact .letter (by simp [escapeLetters])
  · next hc =>
    rw [not_or] at hc
    split
    · next hplain => exact .itself (.inr hplain) hc.1 hc.2
    · next hcontrol =>
      have hsmall : c.toNat < 128 := by
        rw [not_and_or, Nat.not_le, not_not] at hcontrol
        rcases hcontrol with hlt | rfl
        · omega
        · decide
      refine .short rfl ⟨[0, 0, c.toNat / 16, c.toNat % 16], ?_, ?_⟩
      · have hdigit : ∀ n < 16, WritesDigit n n.digitChar := fun n hn => ⟨hn, .inl rfl⟩
        exact .cons (hdigit 0 (by omega)) (.cons (hdigit 0 (by omega))
          (.cons (hdigit _ (by omega)) (.cons (hdigit _ (by omega)) .nil)))
      · simp only [List.foldl_cons, List.foldl_nil]
        omega

/-- Every text can be written as a basic string. -/
theorem writesText_escaped (s : Text) : WritesText s (s.flatMap escaped) := by
  induction s with
  | nil => exact .nil
  | cons c s ih => exact .cons (writesChar_escaped c) ih

/-! ## Keys -/

/-- The ways to write one part of a key: without quotes, or in double or single quotes. -/
inductive WritesKey (key : Text) : Text → Prop
  | bare (hne : key ≠ []) (hchars : ∀ c ∈ key, isKeyChar c = true) : WritesKey key key
  | basic {w : Text} (hw : WritesText key w) : WritesKey key ('"' :: w ++ ['"'])
  | literal (hchars : ∀ c ∈ key, StandsForItself c ∧ c ≠ '\'') : WritesKey key ('\'' :: key ++ ['\''])

theorem writesKey_of_all (hne : key ≠ []) (hall : key.all isKeyChar = true) : WritesKey key key :=
  .bare hne (List.all_eq_true.1 hall)

/-- A text that does not go on with a key that was written without quotes. -/
def EndsKey (rest : Text) : Prop :=
  ∀ c ∈ rest.head?, isKeyChar c = false

/-- A character with which a part of a key begins. -/
def beginsKey (c : Char) : Bool :=
  isKeyChar c || c == '"' || c == '\''

theorem ne_of_class {p : Char → Bool} (hc : p c = true) (hd : p d = false) : c ≠ d :=
  ne_of_apply_ne p (by rw [hc, hd]; decide)

theorem exists_beginsKey_of_writes (h : WritesKey key w) :
    ∃ c more, w = c :: more ∧ beginsKey c = true := by
  cases h with
  | bare hne hchars =>
    obtain ⟨c, more, rfl⟩ := List.exists_cons_of_ne_nil hne
    exact ⟨c, more, rfl, by simp [beginsKey, hchars c List.mem_cons_self]⟩
  | basic hw => exact ⟨_, _, rfl, rfl⟩
  | literal hchars => exact ⟨_, _, rfl, rfl⟩

theorem skipBlanks_of_beginsKey (hc : beginsKey c = true) (rest : Text) :
    skipBlanks (c :: rest) = c :: rest := by
  have hspace : c ≠ ' ' := ne_of_class hc (by decide)
  have htab : c ≠ '\t' := ne_of_class hc (by decide)
  exact List.dropWhile_cons_of_neg (by simp [isBlank, hspace, htab])

theorem readLiteral_of_chars (hchars : ∀ c ∈ s, StandsForItself c ∧ c ≠ '\'') (rest : Text) :
    readLiteral (s ++ '\'' :: rest) = some (s, rest) := by
  induction s with
  | nil => rfl
  | cons c s ih =>
    obtain ⟨⟨hitself, hquote⟩, hs⟩ := List.forall_mem_cons.1 hchars
    rw [List.cons_append, readLiteral, if_neg hquote, if_pos (isPlain_iff.2 hitself), ih hs]
    rfl

theorem takeWhile_key (hchars : ∀ c ∈ key, isKeyChar c = true) (hrest : EndsKey rest) :
    (key ++ rest).takeWhile isKeyChar = key ∧ (key ++ rest).dropWhile isKeyChar = rest := by
  rw [List.takeWhile_append_of_pos hchars, List.dropWhile_append_of_pos hchars]
  cases rest with
  | nil => simp
  | cons c rest =>
    have hc : ¬isKeyChar c = true := by simp [hrest c rfl]
    rw [List.takeWhile_cons_of_neg hc, List.dropWhile_cons_of_neg hc, List.append_nil]
    exact ⟨rfl, rfl⟩

/-- A key reads as what it writes. -/
theorem readKey_of_writes (h : WritesKey key w) (hrest : EndsKey rest) :
    readKey (w ++ rest) = some (key, rest) := by
  cases h with
  | bare hne hchars =>
    obtain ⟨htake, hdrop⟩ := takeWhile_key hchars hrest
    obtain ⟨c, more, rfl⟩ := List.exists_cons_of_ne_nil hne
    have hc : isKeyChar c = true := hchars c List.mem_cons_self
    unfold readKey
    split
    · next heq =>
      cases (List.cons.inj heq).1
      contradiction
    · next heq =>
      cases (List.cons.inj heq).1
      contradiction
    · simp only [htake, hdrop, if_neg hne]
  | basic hw =>
    rw [List.cons_append, List.cons_append, List.append_assoc, List.singleton_append, readKey]
    exact readBasic_of_writes hw rest
  | literal hchars =>
    rw [List.cons_append, List.cons_append, List.append_assoc, List.singleton_append, readKey]
    exact readLiteral_of_chars hchars rest

end KernelTools.Toml
