import KernelTools.Text

/-!
# Wildcard patterns

A pattern describes the name of one directory entry: {lit}`*` stands for any run of characters,
{lit}`?` for any one character, {lit}`[a-z]` for one character of a class, {lit}`[!a-z]` for one
character outside it, and every other character for itself.  A {lit}`[` that no {lit}`]` closes
stands for itself too, and adjacent stars mean the same as one.

Main results:

- Theorem {lit}`length_readClass`: reading a class consumes at least its closing bracket, so
  reading a pattern ends.
-/

namespace KernelTools.Wildcard

/-! ## Tokens -/

/-- A member of a character class. -/
inductive ClassItem
  | single (c : Char)
  /-- All characters from {lean}`low` to {lean}`high`, both included. -/
  | range (low high : Char)
deriving DecidableEq

/-- Whether a class member covers a character. -/
def ClassItem.covers (c : Char) : ClassItem → Bool
  | .single d => d == c
  | .range low high => decide (low ≤ c) && decide (c ≤ high)

/-- One step of a pattern. -/
inductive Token
  /-- The character itself. -/
  | literal (c : Char)
  /-- Any one character. -/
  | anyChar
  /-- Any run of characters, the empty one included. -/
  | anyRun
  /-- One character covered by some item, or by none when the class is negated. -/
  | charClass (negated : Bool) (items : List ClassItem)
deriving DecidableEq

/-- Whether a token takes a single character; a run is never taken character by character. -/
def Token.accepts (c : Char) : Token → Bool
  | .literal d => d == c
  | .anyChar => true
  | .anyRun => false
  | .charClass negated items => items.any (·.covers c) != negated

/-- A wildcard pattern. -/
structure Pattern where
  tokens : List Token
deriving DecidableEq

/-! ## Reading a class -/

/-- Reads class items up to the closing bracket and returns them with the text after it;
{lean}`none` when no bracket closes the class.  At the head of the body ({lean}`atHead`) a
{lit}`]` is an item. -/
def readItems (atHead : Bool) : Text → Option (List ClassItem × Text)
  | [] => none
  | c :: rest =>
    if c = ']' ∧ atHead = false then some ([], rest)
    else match rest with
      | d :: e :: rest' =>
        if d = '-' ∧ e ≠ ']' then
          (readItems false rest').map fun (items, left) => (.range c e :: items, left)
        else
          (readItems false (d :: e :: rest')).map fun (items, left) => (.single c :: items, left)
      | rest => (readItems false rest).map fun (items, left) => (.single c :: items, left)

/-- Reads a class after its opening bracket: an optional {lit}`!`, then the items. -/
def readClass (t : Text) : Option (Token × Text) :=
  let negated := t.head? == some '!'
  (readItems true (if negated then t.tail else t)).map fun (items, left) =>
    (.charClass negated items, left)

/-- Reading a class body consumes at least its closing bracket. -/
theorem length_readItems {atHead : Bool} {t left : Text} {items : List ClassItem}
    (h : readItems atHead t = some (items, left)) : left.length < t.length := by
  fun_induction readItems atHead t generalizing items with
  | case1 => simp at h
  | case2 atHead c rest => simp_all
  | case3 atHead c _ d e rest' _ ih =>
    obtain ⟨⟨items', left'⟩, hread, heq⟩ := Option.map_eq_some_iff.1 h
    cases heq
    have := ih hread
    simp only [List.length_cons]
    omega
  | case4 atHead c _ d e rest' _ ih =>
    obtain ⟨⟨items', left'⟩, hread, heq⟩ := Option.map_eq_some_iff.1 h
    cases heq
    have := ih hread
    simp only [List.length_cons] at *
    omega
  | case5 atHead c rest _ _ ih =>
    obtain ⟨⟨items', left'⟩, hread, heq⟩ := Option.map_eq_some_iff.1 h
    cases heq
    have := ih hread
    simp only [List.length_cons]
    omega

/-- Reading a class consumes at least its closing bracket. -/
theorem length_readClass {t left : Text} {token : Token}
    (h : readClass t = some (token, left)) : left.length < t.length := by
  obtain ⟨⟨items, left'⟩, hread, heq⟩ := Option.map_eq_some_iff.1 h
  cases heq
  have := length_readItems hread
  split at this
  · have := List.length_tail (l := t)
    omega
  · exact this

/-! ## Reading a pattern -/

/-- Puts a run in front of a pattern, unless the pattern starts with one already. -/
def consRun : List Token → List Token
  | .anyRun :: tokens => .anyRun :: tokens
  | tokens => .anyRun :: tokens

/-- Reads the tokens of a pattern from left to right. -/
def readTokens : Text → List Token
  | [] => []
  | c :: rest =>
    if c = '*' then consRun (readTokens rest)
    else if c = '?' then .anyChar :: readTokens rest
    else if c = '[' then
      match _h : readClass rest with
      | some (token, left) => token :: readTokens left
      | none => .literal '[' :: readTokens rest
    else .literal c :: readTokens rest
termination_by t => t.length
decreasing_by
  all_goals simp_wf
  have := length_readClass _h
  omega

/-- The pattern that a text spells; every text spells one. -/
def Pattern.ofText (t : Text) : Pattern :=
  ⟨readTokens t⟩

end KernelTools.Wildcard
