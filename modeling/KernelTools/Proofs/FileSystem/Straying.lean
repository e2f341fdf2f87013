import KernelTools.FileSystem.Access
import KernelTools.Proofs.FileSystem.Resolution

/-!
# Paths that lead nowhere

Reading fails in several ways, and one of them is not like the others: nothing is there.  The relation
{lit}`Strays` has one rule for each way to come to that end, so that all that it does not derive, a
link loop, say, or a file on the way, is some other fault.

Main results:

- Theorem {lit}`leadsToNothing_resolve_iff`: resolution ends without a node exactly when the rules say
  so.
- Theorem {lit}`read_eq_notFound_iff`: nothing is found to read just where a path leads nowhere.
-/

namespace KernelTools.FileSystem

variable {fs : FileSystem} {links : Nat} {dir : Location} {steps : List Path.Step} {slash : Bool}
  {path : Text}

/-! ## Rules -/

/-- The steps of a path lead astray from a directory, with a number of links to follow at most: they
come to an entry that is not there, or to a directory that is gone. -/
inductive Strays (fs : FileSystem) : Nat → Location → List Path.Step → Prop
  /-- The steps are used up where there is no directory. -/
  | gone {links : Nat} {dir : Location} (hdir : fs.nodeAt dir ≠ some .directory) :
    Strays fs links dir []
  /-- A step goes down from where there is no directory. -/
  | goneBefore {links : Nat} {dir : Location} {name : Name} {rest : List Path.Step}
    (hdir : fs.nodeAt dir ≠ some .directory) : Strays fs links dir (.down name :: rest)
  | here {links : Nat} {dir : Location} {rest : List Path.Step} (h : Strays fs links dir rest) :
    Strays fs links dir (.here :: rest)
  | up {links : Nat} {dir : Location} {rest : List Path.Step} (h : Strays fs links dir.tail rest) :
    Strays fs links dir (.up :: rest)
  /-- A step, the last one or not, names an entry that is not there. -/
  | absent {links : Nat} {dir : Location} {name : Name} {rest : List Path.Step}
    (hdir : fs.nodeAt dir = some .directory) (hnode : fs.nodeAt (name :: dir) = none) :
    Strays fs links dir (.down name :: rest)
  /-- A step goes down into a directory, and the rest leads astray from there. -/
  | enter {links : Nat} {dir : Location} {name : Name} {rest : List Path.Step}
    (hdir : fs.nodeAt dir = some .directory) (hnode : fs.nodeAt (name :: dir) = some .directory)
    (h : Strays fs links (name :: dir) rest) : Strays fs links dir (.down name :: rest)
  /-- A step comes to a link, and what it holds leads astray, or the rest does from there. -/
  | follow {links : Nat} {dir : Location} {name : Name} {rest : List Path.Step} {text : Text}
    (hdir : fs.nodeAt dir = some .directory) (hnode : fs.nodeAt (name :: dir) = some (.link text))
    (h : Strays fs links (startOf dir text) (Path.steps text ++ rest)) :
    Strays fs (links + 1) dir (.down name :: rest)

/-- Resolution ended without a node, at a free name or before. -/
def LeadsToNothing (outcome : Except IoError Target) : Prop :=
  outcome = .error .notFound ∨ ∃ dir name, outcome = .ok (.absent dir name)

theorem not_leadsToNothing_error {e : IoError} (h : e ≠ .notFound) :
    ¬ LeadsToNothing (.error e) := by
  simp [LeadsToNothing, h]

theorem not_leadsToNothing_present (loc : Location) (node : Node) :
    ¬ LeadsToNothing (.ok (.present loc node)) := by
  simp [LeadsToNothing]

/-- Resolution that ends without a node was led astray. -/
theorem strays_of_resolve (h : LeadsToNothing (fs.resolve .use links dir steps slash)) :
    Strays fs links dir steps := by
  fun_induction resolve fs .use links dir steps slash with
  | case1 links dir slash hdir => exact absurd h (not_leadsToNothing_present _ _)
  | case2 links dir slash hdir => exact .gone hdir
  | case3 links dir slash rest ih => exact .here (ih h)
  | case4 links dir slash rest ih => exact .up (ih h)
  | case8 links dir slash name rest hslash hdir => exact .goneBefore hdir
  | case9 links dir slash name hdir hnode hslash => exact .absent (not_not.1 hdir) hnode
  | case10 links dir slash name rest hslash hdir hnode hrest => exact .absent (not_not.1 hdir) hnode
  | case11 links dir slash name rest hslash hdir hnode ih =>
    exact .enter (not_not.1 hdir) hnode (ih h)
  | case12 links dir slash name rest hslash hdir text hnode hentry =>
    exact absurd h (not_leadsToNothing_present _ _)
  | case14 dir slash name rest hslash hdir text hnode hentry links ih =>
    exact .follow (not_not.1 hdir) hnode (ih h)
  | case15 links dir slash name rest hslash hdir node hdirectory hlink hnode hend =>
    exact absurd h (not_leadsToNothing_present _ _)
  -- What is left are faults of other kinds; a slash at the end only turns one of them into another.
  | _ => exact absurd h (not_leadsToNothing_error (by decide))

/-- Steps that lead astray end without a node. -/
theorem Strays.leadsToNothing (h : Strays fs links dir steps) (slash : Bool) :
    LeadsToNothing (fs.resolve .use links dir steps slash) := by
  induction h generalizing slash with
  | gone hdir => exact .inl (by rw [resolve, if_neg hdir])
  | goneBefore hdir => exact .inl (by simp [resolve, hdir])
  | here _ ih =>
    rw [resolve]
    exact ih slash
  | up _ ih =>
    rw [resolve]
    exact ih slash
  | @absent _ dir name rest hdir hnode =>
    by_cases hrest : rest = []
    · exact .inr ⟨dir, name, by simp [resolve, hdir, hnode, hrest]⟩
    · exact .inl (by simp [resolve, hdir, hnode, hrest])
  | enter hdir hnode _ ih => simpa [resolve, hdir, hnode] using ih slash
  | follow hdir hnode _ ih => simpa [resolve, hdir, hnode] using ih _

/-- Resolution ends without a node exactly when the rules say so. -/
theorem leadsToNothing_resolve_iff (slash : Bool) :
    LeadsToNothing (fs.resolve .use links dir steps slash) ↔ Strays fs links dir steps :=
  ⟨strays_of_resolve, fun h => h.leadsToNothing slash⟩

/-! ## Whole paths -/

/-- A path leads nowhere when it is empty, or when it is one that could lead somewhere and its steps
lead astray. -/
def LeadsNowhere (fs : FileSystem) (path : Text) : Prop :=
  path = [] ∨ '\x00' ∉ path ∧ path.octets ≤ Path.maxOctets ∧
    Strays fs maxLinks (startOf fs.workingDirectory path) (Path.steps path)

theorem leadsToNothing_locate_iff :
    LeadsToNothing (fs.locate .use path) ↔ LeadsNowhere fs path := by
  rw [LeadsNowhere, ← leadsToNothing_resolve_iff (Path.endsInSlash path), locate]
  split_ifs with hnul hne hoctets
  · have hnonempty : path ≠ [] := List.ne_nil_of_mem hnul
    simp [hnul, hnonempty, LeadsToNothing]
  · simp [hne, LeadsToNothing]
  · simp [hne, Nat.not_le.2 hoctets, LeadsToNothing]
  · simp [hnul, hne, Nat.not_lt.1 hoctets]

/-- Nothing is found to read just where a path leads nowhere. -/
theorem read_eq_notFound_iff : fs.read path = .error .notFound ↔ LeadsNowhere fs path := by
  rw [← leadsToNothing_locate_iff, read]
  cases fs.locate .use path with
  | error e => simp [LeadsToNothing]
  | ok target =>
    cases target with
    | absent dir name => simp [LeadsToNothing]
    | present loc node => cases node <;> simp [LeadsToNothing]

/-- Nothing is present where a path leads nowhere. -/
theorem isPresent_of_leadsNowhere (h : LeadsNowhere fs path) : fs.isPresent path = false := by
  rcases leadsToNothing_locate_iff.2 h with hlocate | ⟨dir, name, hlocate⟩
  · rw [isPresent, hlocate]
  · rw [isPresent, hlocate]

/-- A name that nothing bears in the working directory leads nowhere. -/
theorem leadsNowhere_name {name : Name} (hdir : fs.nodeAt fs.workingDirectory = some .directory)
    (hnone : fs.nodeAt (name :: fs.workingDirectory) = none) : LeadsNowhere fs name.text := by
  have hoctets : name.text.octets ≤ Path.maxOctets :=
    Nat.le_trans name.isName.2.1 (by decide)
  refine .inr ⟨name.nul_not_mem, hoctets, ?_⟩
  rw [startOf, Path.isAbsolute_name, Path.steps_name]
  exact .absent hdir hnone

end KernelTools.FileSystem
