import KernelTools.Interrupt.Artifact
import Mathlib.Data.List.Induction

/-!
# Rendering into a sink of limited capacity

A sink that fills up takes a part of the piece that is written just then, which makes writing fail.
What it has taken by then does not depend on how the artifact was cut into pieces: it is as much of
the whole as there was room for.

Main results:

- Theorem {lit}`Sink.write_eq`: what writing one piece comes to.
- Theorem {lit}`Sink.writeAll_eq`: what writing pieces comes to, however the whole was cut.
- Theorem {lit}`renderInto_clean`: a sink receives a clean beginning of an artifact.
-/

namespace KernelTools.Interrupt

variable {s : Sink} {octets failed : Bytes} {pieces before : List Bytes}

namespace Sink

/-! ## Filling a sink -/

@[simp]
theorem room_fill (s : Sink) (octets : Bytes) : (s.fill octets).room = s.room - octets.length := by
  simp only [room, fill, List.length_append, List.length_take]
  omega

@[simp]
theorem fill_nil (s : Sink) : s.fill [] = s := by
  simp [fill]

/-- Filling a sink twice is filling it with both. -/
@[simp]
theorem fill_fill (s : Sink) (octets more : Bytes) :
    (s.fill octets).fill more = s.fill (octets ++ more) := by
  have htake : (octets ++ more).take s.room = octets.take s.room ++
      more.take (s.room - octets.length) := List.take_append
  rw [fill, room_fill, fill, fill, htake, List.append_assoc]

/-- A sink without room stays as it is. -/
theorem fill_of_full (h : s.room = 0) (octets : Bytes) : s.fill octets = s := by
  simp [fill, h]

/-! ## Writing -/

/-- How writing octets to a sink ends. -/
def verdict (s : Sink) (octets : Bytes) : Except WriteError Unit :=
  if octets.length ≤ s.room then .ok () else .error .writeZero

theorem verdict_eq_ok_iff : s.verdict octets = .ok () ↔ octets.length ≤ s.room := by
  rw [verdict]
  split <;> simp_all

theorem verdict_eq_error_iff : s.verdict octets = .error .writeZero ↔ s.room < octets.length := by
  rw [verdict]
  split <;> simp_all

/-- Writing a piece fills the sink with it, and fails unless all of it fits. -/
theorem write_eq (s : Sink) (piece : Bytes) : s.write piece = (s.fill piece, s.verdict piece) := by
  rw [write]
  split
  · next hpiece =>
    rw [hpiece, fill_nil]
    rfl
  · next hpiece =>
    have hlength : 0 < piece.length := List.length_pos_iff.2 hpiece
    split
    · next hcount =>
      -- The first offer is refused, so there was no room.
      have hroom : s.room < piece.length := by
        simp only [offer] at hcount
        omega
      rw [verdict_eq_error_iff.2 hroom]
      rfl
    · next hcount =>
      -- The rest is empty, or it finds no room, since the first offer was taken up to that.
      simp only [offer] at hcount ⊢
      rw [write_eq (s.fill piece) (piece.drop (min piece.length s.room))]
      by_cases hfits : piece.length ≤ s.room
      · rw [Nat.min_eq_left hfits, List.drop_length, fill_nil, verdict_eq_ok_iff.2 hfits]
        rfl
      · have hfull : (s.fill piece).room = 0 := by
          rw [room_fill]
          omega
        have hrest : (s.fill piece).room < (piece.drop (min piece.length s.room)).length := by
          rw [hfull, List.length_drop]
          omega
        rw [fill_of_full hfull, verdict_eq_error_iff.2 hrest,
          verdict_eq_error_iff.2 (Nat.lt_of_not_le hfits)]
termination_by piece.length
decreasing_by
  simp only [offer, List.length_drop] at *
  omega

/-- Writing pieces fills the sink with all of them together, and fails unless they all fit. -/
theorem writeAll_eq (s : Sink) (pieces : List Bytes) :
    s.writeAll pieces = (s.fill pieces.flatten, s.verdict pieces.flatten) := by
  induction pieces generalizing s with
  | nil => simp [writeAll, verdict]
  | cons piece pieces ih =>
    rw [writeAll, write_eq, List.flatten_cons]
    by_cases hfits : piece.length ≤ s.room
    · have hverdict : (s.fill piece).verdict pieces.flatten =
          s.verdict (piece ++ pieces.flatten) := by
        simp only [verdict, room_fill, List.length_append]
        congr 1
        simp only [eq_iff_iff]
        omega
      rw [verdict_eq_ok_iff.2 hfits]
      simp only [ih, fill_fill, hverdict]
    · have hroom : s.room < piece.length := Nat.lt_of_not_le hfits
      have hfull : (s.fill piece).room = 0 := by
        rw [room_fill]
        omega
      have hwhole : s.room < (piece ++ pieces.flatten).length := by
        rw [List.length_append]
        omega
      rw [verdict_eq_error_iff.2 hroom, verdict_eq_error_iff.2 hwhole, ← fill_fill,
        fill_of_full hfull]

/-! ## The piece at which writing fails -/

/-- Writing pieces to a sink fails at one of them: those before it fit, but not it as well, and no
piece behind it is written, so that it does not matter which pieces these are. -/
structure FailsAt (s : Sink) (before : List Bytes) (failed : Bytes) : Prop where
  fits : before.flatten.length ≤ s.room
  overflows : s.room < before.flatten.length + failed.length
  writeAll_eq : ∀ after, s.writeAll (before ++ failed :: after) =
    (⟨s.capacity, s.taken ++ before.flatten ++ failed.take (s.room - before.flatten.length)⟩,
      .error .writeZero)

theorem failsAt_of_overflow (hfits : before.flatten.length ≤ s.room)
    (hoverflows : s.room < before.flatten.length + failed.length) : s.FailsAt before failed := by
  refine ⟨hfits, hoverflows, ?_⟩
  intro after
  have hroom : s.room < (before ++ failed :: after).flatten.length := by
    simp only [List.flatten_append, List.flatten_cons, List.length_append]
    omega
  have hfull : ((s.fill before.flatten).fill failed).room = 0 := by
    rw [room_fill, room_fill]
    omega
  have hfilled : s.fill (before ++ failed :: after).flatten =
      (s.fill before.flatten).fill failed := by
    rw [List.flatten_append, List.flatten_cons, ← fill_fill, ← fill_fill, fill_of_full hfull]
  rw [Sink.writeAll_eq, verdict_eq_error_iff.2 hroom, hfilled, fill, room_fill, fill,
    List.take_of_length_le hfits]

/-- Pieces that do not all fit fail at one of them. -/
theorem exists_failsAt (h : s.room < pieces.flatten.length) :
    ∃ before failed after, pieces = before ++ failed :: after ∧ s.FailsAt before failed := by
  induction pieces using List.reverseRecOn with
  | nil => simp at h
  | append_singleton pieces last ih =>
    by_cases hfits : pieces.flatten.length ≤ s.room
    · refine ⟨pieces, last, [], rfl, failsAt_of_overflow hfits ?_⟩
      simpa using h
    · obtain ⟨before, failed, after, rfl, hfails⟩ := ih (Nat.lt_of_not_le hfits)
      exact ⟨before, failed, after ++ [last], by simp, hfails⟩

end Sink

/-! ## Artifacts -/

/-- The pieces of an artifact make up its file. -/
theorem Artifact.flatten_pieces (a : Artifact) : (a.pieces.map Text.utf8).flatten = a.bytes := by
  simp only [Artifact.bytes, Artifact.text, Text.utf8, List.flatten_eq_flatMap, List.flatMap_map,
    List.flatMap_assoc, id_eq]

/-- An artifact rendered into a sink leaves there exactly the beginning for which there is room.
Rendering succeeds just when there is room for all of it; otherwise it fails at one piece, of which
the sink has taken a part, and writes none behind it. -/
theorem renderInto_clean (a : Artifact) (capacity : Nat) :
    let rendered := a.renderInto (.empty capacity)
    rendered.1.taken = a.bytes.take (min capacity a.bytes.length) ∧
      (rendered.2 = .ok () ↔ a.bytes.length ≤ capacity) ∧
      (rendered.2 = .ok () ∨ rendered.2 = .error .writeZero ∧
        ∃ before failed after, a.pieces.map Text.utf8 = before ++ failed :: after ∧
          (Sink.empty capacity).FailsAt before failed) := by
  intro rendered
  have hrendered : rendered =
      ((Sink.empty capacity).fill a.bytes, (Sink.empty capacity).verdict a.bytes) := by
    rw [← a.flatten_pieces]
    exact Sink.writeAll_eq _ _
  refine ⟨?_, ?_, ?_⟩
  · rw [hrendered, ← List.take_eq_take_min]
    rfl
  · rw [hrendered]
    exact Sink.verdict_eq_ok_iff
  · rw [hrendered, Sink.verdict_eq_ok_iff, Sink.verdict_eq_error_iff]
    refine (Nat.lt_or_ge capacity a.bytes.length).symm.imp_right fun hroom => ⟨hroom, ?_⟩
    rw [← a.flatten_pieces] at hroom
    exact Sink.exists_failsAt hroom

end KernelTools.Interrupt
