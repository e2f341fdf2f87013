import KernelTools.Path

/-!
# The order of names

Names are ordered by the octets of their UTF-8 forms.  The form determines the text, so no two
names share a place in the order, and sorting names that are all different leaves each strictly
before the next.

Main results:

- Theorem {lit}`Name.before_of_le`: of two different names, the one that is not after the other is
  strictly before it.
- Theorem {lit}`Name.not_before_self`: no name is before itself.
-/

namespace KernelTools.Name

/-- A name comes before another when its octets do. -/
def Before (m n : Name) : Prop :=
  m.bytes < n.bytes

/-- The octets of a name determine it. -/
theorem eq_of_bytes_eq {m n : Name} (h : m.bytes = n.bytes) : m = n := by
  have htext : some m.text = some n.text := by
    rw [← Text.ofUtf8?_utf8 m.text, ← Text.ofUtf8?_utf8 n.text]
    exact congrArg Text.ofUtf8? h
  cases m
  cases n
  simpa using htext

theorem not_before_self (n : Name) : ¬ n.Before n :=
  List.lt_irrefl n.bytes

theorem le_trans {l m n : Name} (hlm : l.le m = true) (hmn : m.le n = true) : l.le n = true := by
  rw [le, decide_eq_true_iff] at *
  exact List.le_trans hlm hmn

theorem le_total (m n : Name) : (m.le n || n.le m) = true := by
  rw [Bool.or_eq_true, le, le, decide_eq_true_iff, decide_eq_true_iff]
  exact List.le_total m.bytes n.bytes

/-- Of two different names, one that is not after the other is before it. -/
theorem before_of_le {m n : Name} (hle : m.le n = true) (hne : m ≠ n) : m.Before n := by
  rw [le, decide_eq_true_iff] at hle
  rcases List.le_iff_lt_or_eq.1 hle with hlt | heq
  · exact hlt
  · exact absurd (eq_of_bytes_eq heq) hne

end KernelTools.Name
