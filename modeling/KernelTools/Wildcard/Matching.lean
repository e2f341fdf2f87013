import KernelTools.Wildcard.Pattern

/-!
# Matching names against wildcard patterns

A name is matched from left to right.  A run is entered without absorbing anything; when a later
character does not fit, the most recent run absorbs one character more and matching resumes behind
it.  Earlier runs are never revisited, which keeps the walk within
{lit}`(tokens + 1) * characters` moves.
-/

namespace KernelTools.Wildcard

/-! ## The state of a match -/

/-- Where a match stands: what is left of the pattern and of the name, and, once a run has been
entered, what followed the most recent run and where its absorption ended. -/
structure Cursor where
  tokens : List Token
  name : Text
  retry : Option (List Token × Text)

/-- The cursor at the start of a match. -/
def Cursor.start (tokens : List Token) (name : Text) : Cursor :=
  ⟨tokens, name, none⟩

/-- Lets the most recent run absorb one character more; {lean}`none` when there is no run. -/
def Cursor.absorb (s : Cursor) : Option Cursor :=
  s.retry.map fun (afterRun, absorbed) => ⟨afterRun, absorbed.tail, some (afterRun, absorbed.tail)⟩

/-- One move of a match, for a cursor with a character {lean}`c` ahead and {lean}`rest` behind it;
{lean}`none` when the match has failed. -/
def Cursor.move (s : Cursor) (c : Char) (rest : Text) : Option Cursor :=
  match s.tokens with
  | .anyRun :: tokens => some ⟨tokens, s.name, some (tokens, s.name)⟩
  | token :: tokens => if token.accepts c then some ⟨tokens, rest, s.retry⟩ else s.absorb
  | [] => s.absorb

/-- Whether what is left of a pattern takes the empty name: only runs do. -/
def takesNothing (tokens : List Token) : Bool :=
  tokens.all (· == .anyRun)

/-- Moves on until the name is used up or the match fails, at most {lean}`fuel` times. -/
def Cursor.run : (fuel : Nat) → Cursor → Bool
  | 0, s => s.name.isEmpty && takesNothing s.tokens
  | fuel + 1, s =>
    match s.name with
    | [] => takesNothing s.tokens
    | c :: rest =>
      match s.move c rest with
      | none => false
      | some s' => s'.run fuel

/-- Moves that suffice for every match of a pattern against a name. -/
def moveBound (tokens : List Token) (name : Text) : Nat :=
  (tokens.length + 1) * name.length

/-- Whether a pattern matches a whole name. -/
def Pattern.matches (p : Pattern) (name : Text) : Bool :=
  (Cursor.start p.tokens name).run (moveBound p.tokens name)

end KernelTools.Wildcard
