import KernelTools.Toml.Statement

/-!
# Documents

A document reads as the table that its statements build, one after the other.  Pairs go into the
table that the latest header opened, or into the top table before the first header.
-/

namespace KernelTools.Toml

/-- What the statements so far have built, and where the next pair goes. -/
structure Draft where
  top : Table
  current : List Text

/-- The draft before the first statement. -/
def Draft.start : Draft :=
  ⟨[], []⟩

/-- Adds what a statement says; {lean}`none` when it redefines something. -/
def Draft.apply (d : Draft) : Statement → Option Draft
  | .header key =>
    let path := key.parts
    (d.top.changeAt (Table.openTable (path.getLast (by simp [path, DottedKey.parts])))
      path.dropLast).map fun top => ⟨top, path⟩
  | .nextHeader key =>
    let path := key.parts
    (d.top.changeAt (Table.openNext (path.getLast (by simp [path, DottedKey.parts])))
      path.dropLast).map fun top => ⟨top, path⟩
  | .pair key value =>
    (d.top.changeAt (fun t => t.addDotted key.1 value key.2) d.current).map fun top =>
      ⟨top, d.current⟩

/-- The table that statements build. -/
def assemble (statements : List Statement) : Option Table :=
  (statements.foldlM Draft.apply Draft.start).map Draft.top

/-- Drops a byte order mark. -/
def dropByteOrderMark : Text → Text
  | '\ufeff' :: rest => rest
  | t => t

/-- Reads a document. -/
def readDocument (t : Text) : Option Table :=
  (readStatements (dropByteOrderMark t)).bind assemble

end KernelTools.Toml
