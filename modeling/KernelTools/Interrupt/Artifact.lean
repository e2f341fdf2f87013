import KernelTools.Interrupt.Vector

/-!
# The generated artifacts

Two files are generated for the kernel build: a C source that declares the 256 entry stubs and
installs each in its gate, and an assembler include with one stub macro per vector.  Both depend on
nothing but the vector table.

An artifact is a sequence of pieces, written to a sink one after the other.  A sink of limited
capacity takes what still fits of a piece and after that nothing, which makes writing fail.
-/

namespace KernelTools.Interrupt

/-! ## Pieces -/

/-- The name that the artifacts give as their origin. -/
def generatorName : Text := "isrgen".toList

/-- Calling convention of the entry stubs. -/
def callingConvention : Text := "__attribute__((cdecl))".toList

/-- Segment that every gate refers to. -/
def gateSegment : Text := "GDT_CODE_SEGMENT".toList

/-- Flags that every gate is installed with. -/
def gateFlags : Text := "IDT_FLAG_RING_0 | IDT_FLAG_GATE_32_BIT_INT".toList

/-- The pieces of a stub declaration. -/
def declaration (v : VectorNumber) : List Text :=
  ["void ".toList, callingConvention, " ".toList, stubSymbol v, "();\n".toList]

/-- The pieces of a gate registration. -/
def registration (v : VectorNumber) : List Text :=
  ["    idt_set_gate(".toList, Text.decimal v.val, ", ".toList, stubSymbol v, ", ".toList,
    gateSegment, ", ".toList, gateFlags, ");\n".toList]

/-- The pieces of a stub macro line. -/
def macroLine (v : VectorNumber) : List Text :=
  [(stubShape v).macroName, " ".toList, Text.decimal v.val, "\n".toList]

/-- The two generated files. -/
inductive Artifact
  /-- The C source with declarations and gates. -/
  | cSource
  /-- The assembler include with the stub macros. -/
  | asmInclude
deriving DecidableEq

/-- The pieces of an artifact, in the order in which they are written. -/
def Artifact.pieces : Artifact → List Text
  | .cSource =>
    ["//*  Auto Generated by ".toList, generatorName, "  *//\n".toList,
      "#include \"idt.h\"\n".toList, "#include \"gdt.h\"\n".toList, "\n".toList] ++
    vectors.flatMap declaration ++
    ["\n".toList, "void isr_initialize_gates() \x7b\n".toList] ++
    vectors.flatMap registration ++
    ["\x7d\n".toList]
  | .asmInclude =>
    [";*  Auto Generated by ".toList, generatorName, "  *;\n".toList, "\n".toList] ++
    vectors.flatMap macroLine

/-- The whole text of an artifact. -/
def Artifact.text (a : Artifact) : Text :=
  a.pieces.flatten

/-- The contents of an artifact's file. -/
def Artifact.bytes (a : Artifact) : Bytes :=
  a.text.utf8

/-! ## Sinks of limited capacity -/

/-- A sink that takes a limited number of octets. -/
structure Sink where
  capacity : Nat
  taken : Bytes

/-- An empty sink of a capacity. -/
def Sink.empty (capacity : Nat) : Sink :=
  ⟨capacity, []⟩

/-- How much more a sink takes. -/
def Sink.room (s : Sink) : Nat :=
  s.capacity - s.taken.length

/-- The sink when it has taken as many of some octets as fit. -/
def Sink.fill (s : Sink) (octets : Bytes) : Sink :=
  ⟨s.capacity, s.taken ++ octets.take s.room⟩

/-- Offers octets to a sink once; tells how many of them it took. -/
def Sink.offer (s : Sink) (octets : Bytes) : Sink × Nat :=
  (s.fill octets, min octets.length s.room)

/-- Why octets could not be written. -/
inductive WriteError
  /-- The sink was offered octets and took none. -/
  | writeZero
deriving DecidableEq

/-- Writes a piece to a sink: what is left of it is offered again until the sink has taken all of it,
or takes nothing more. -/
def Sink.write (s : Sink) (piece : Bytes) : Sink × Except WriteError Unit :=
  if piece = [] then (s, .ok ())
  else if (s.offer piece).2 = 0 then ((s.offer piece).1, .error .writeZero)
  else (s.offer piece).1.write (piece.drop (s.offer piece).2)
termination_by piece.length
decreasing_by
  have hpiece : 0 < piece.length := List.length_pos_iff.2 (by assumption)
  rw [List.length_drop]
  omega

/-- Writes pieces to a sink one after the other, up to the first that fails. -/
def Sink.writeAll (s : Sink) : List Bytes → Sink × Except WriteError Unit
  | [] => (s, .ok ())
  | piece :: pieces =>
    match s.write piece with
    | (s', .ok ()) => s'.writeAll pieces
    | (s', .error e) => (s', .error e)

/-- Renders an artifact into a sink. -/
def Artifact.renderInto (a : Artifact) (s : Sink) : Sink × Except WriteError Unit :=
  s.writeAll (a.pieces.map Text.utf8)

/-- Renders an artifact into a sink; tells whether the sink took all of it. -/
def Artifact.render (a : Artifact) (s : Sink) : Sink × Bool :=
  ((a.renderInto s).1, (a.renderInto s).2.isOk)

end KernelTools.Interrupt
