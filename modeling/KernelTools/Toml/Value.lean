import KernelTools.Text

/-!
# TOML values

The values that a TOML document is made of.  Tables keep their keys in the order in which they were
written, and remember how they came about, because that decides what may still be added to them.

Numbers and dates keep the text in which they were written.
-/

namespace KernelTools.Toml

/-- How a table came about. -/
inductive Origin
  /-- Written between braces, and complete. -/
  | braces
  /-- Opened by a header of its own. -/
  | header
  /-- Implied by the header of a table beneath it. -/
  | implied
  /-- Made by a dotted key. -/
  | dotted
deriving DecidableEq

/-- A TOML value. -/
inductive Value
  | string (text : Text)
  | boolean (value : Bool)
  | integer (value : Int)
  | float (spelling : Text)
  | dateTime (spelling : Text)
  | array (items : List Value)
  /-- An array of tables that headers add to, the latest table first. -/
  | tables (latestFirst : List (List (Text × Value)))
  | table (origin : Origin) (entries : List (Text × Value))

/-- Keys with their values, in the order in which they were written. -/
abbrev Table := List (Text × Value)

end KernelTools.Toml
