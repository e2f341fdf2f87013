import KernelTools.FileSystem.Resolution
import KernelTools.Proofs.Path.Joining
import Mathlib.Logic.Basic

/-!
# Where a path leads

Resolving a path is a search with many ways to fail.  The relation {lit}`Leads` has one rule for each
way to succeed, and resolution finds a target exactly when the rules derive it; what holds of every
target is then proved by induction on a derivation.

Main results:

- Theorem {lit}`resolve_eq_ok_iff`: resolution and the relation agree.
- Theorem {lit}`Leads.isIn`: a target is where the file system says it is.
- Theorem {lit}`Leads.extend`: steps behind a path to a directory are taken from that directory.
- Theorem {lit}`locate_join`: joining the name of a subdirectory leads into it.
-/

namespace KernelTools.FileSystem

variable {fs : FileSystem} {purpose : Purpose} {links : Nat} {dir : Location}
  {steps : List Path.Step} {slash : Bool} {target : Target}

/-! ## Rules -/

/-- A slash at the end asks for a directory, so no file can be made or found there. -/
def AsksForDirectory (purpose : Purpose) (rest : List Path.Step) (slash : Bool) : Prop :=
  purpose = .create ∧ rest = [] ∧ slash = true

/-- The last entry is meant itself, without following it. -/
def AsksForEntry (purpose : Purpose) (rest : List Path.Step) (slash : Bool) : Prop :=
  purpose = .entry ∧ rest = [] ∧ slash = false

/-- The steps of a path lead from a directory to a target, with a number of links to follow at most;
the flag tells whether the path ends in a slash. -/
inductive Leads (fs : FileSystem) (purpose : Purpose) :
    Nat → Location → List Path.Step → Bool → Target → Prop
  /-- The steps are used up. -/
  | stop {links : Nat} {dir : Location} (hdir : fs.nodeAt dir = some .directory) (slash : Bool) :
    Leads fs purpose links dir [] slash (.present dir .directory)
  | here {links : Nat} {dir : Location} {rest : List Path.Step} {slash : Bool} {target : Target}
    (h : Leads fs purpose links dir rest slash target) :
    Leads fs purpose links dir (.here :: rest) slash target
  | up {links : Nat} {dir : Location} {rest : List Path.Step} {slash : Bool} {target : Target}
    (h : Leads fs purpose links dir.tail rest slash target) :
    Leads fs purpose links dir (.up :: rest) slash target
  /-- The last step names nothing yet. -/
  | absent {links : Nat} {dir : Location} {name : Name} {slash : Bool}
    (hslash : ¬ AsksForDirectory purpose [] slash) (hdir : fs.nodeAt dir = some .directory)
    (hnode : fs.nodeAt (name :: dir) = none) :
    Leads fs purpose links dir [.down name] slash (.absent dir name)
  /-- A step goes down into a directory. -/
  | enter {links : Nat} {dir : Location} {name : Name} {rest : List Path.Step} {slash : Bool}
    {target : Target} (hslash : ¬ AsksForDirectory purpose rest slash)
    (hdir : fs.nodeAt dir = some .directory) (hnode : fs.nodeAt (name :: dir) = some .directory)
    (h : Leads fs purpose links (name :: dir) rest slash target) :
    Leads fs purpose links dir (.down name :: rest) slash target
  /-- The last step comes to a link that is meant itself. -/
  | entryLink {links : Nat} {dir : Location} {name : Name} {text : Text}
    (hpurpose : purpose = .entry) (hdir : fs.nodeAt dir = some .directory)
    (hnode : fs.nodeAt (name :: dir) = some (.link text)) :
    Leads fs purpose links dir [.down name] false (.present (name :: dir) (.link text))
  /-- A step comes to a link, which is followed. -/
  | follow {links : Nat} {dir : Location} {name : Name} {rest : List Path.Step} {slash : Bool}
    {target : Target} {text : Text} (hslash : ¬ AsksForDirectory purpose rest slash)
    (hentry : ¬ AsksForEntry purpose rest slash) (hdir : fs.nodeAt dir = some .directory)
    (hnode : fs.nodeAt (name :: dir) = some (.link text))
    (h : Leads fs purpose links (startOf dir text) (Path.steps text ++ rest)
      (if rest = [] then slash || Path.endsInSlash text else slash) target) :
    Leads fs purpose (links + 1) dir (.down name :: rest) slash target
  /-- The last step comes to a file or device. -/
  | leaf {links : Nat} {dir : Location} {name : Name} {node : Node}
    (hdir : fs.nodeAt dir = some .directory) (hnode : fs.nodeAt (name :: dir) = some node)
    (hleaf : node ≠ .directory ∧ ∀ text, node ≠ .link text) :
    Leads fs purpose links dir [.down name] false (.present (name :: dir) node)

/-- What resolution finds can be derived. -/
theorem leads_of_resolve (h : fs.resolve purpose links dir steps slash = .ok target) :
    Leads fs purpose links dir steps slash target := by
  fun_induction resolve fs purpose links dir steps slash with
  | case1 links dir slash hdir =>
    cases h
    exact .stop hdir slash
  | case3 links dir slash rest ih => exact .here (ih h)
  | case4 links dir slash rest ih => exact .up (ih h)
  | case9 links dir slash name hdir hnode hslash =>
    cases h
    exact .absent hslash (not_not.1 hdir) hnode
  | case11 links dir slash name rest hslash hdir hnode ih =>
    exact .enter hslash (not_not.1 hdir) hnode (ih h)
  | case12 links dir slash name rest hslash hdir text hnode hentry =>
    rcases hentry with ⟨hpurpose, rfl, rfl⟩
    cases h
    exact .entryLink hpurpose (not_not.1 hdir) hnode
  | case14 dir slash name rest hslash hdir text hnode hentry links ih =>
    exact .follow hslash hentry (not_not.1 hdir) hnode (ih h)
  | case15 links dir slash name rest hslash hdir node hdirectory hlink hnode hend =>
    rcases hend with ⟨rfl, rfl⟩
    cases h
    exact .leaf (not_not.1 hdir) hnode ⟨hdirectory, hlink⟩
  | _ => contradiction

/-- What can be derived is found by resolution. -/
theorem Leads.resolve_eq (h : Leads fs purpose links dir steps slash target) :
    fs.resolve purpose links dir steps slash = .ok target := by
  induction h with
  | stop hdir => simp [resolve, hdir]
  | here _ ih => rw [resolve, ih]
  | up _ ih => rw [resolve, ih]
  | absent hslash hdir hnode =>
    rw [AsksForDirectory] at hslash
    rw [resolve, if_neg hslash]
    simp [hdir, hnode]
  | enter hslash hdir hnode _ ih =>
    rw [AsksForDirectory] at hslash
    rw [resolve, if_neg hslash]
    simp [hdir, hnode, ih]
  | entryLink hpurpose hdir hnode => simp [resolve, hpurpose, hdir, hnode]
  | follow hslash hentry hdir hnode _ ih =>
    rw [AsksForDirectory] at hslash
    rw [AsksForEntry] at hentry
    rw [resolve, if_neg hslash]
    simp [hdir, hnode, hentry, ih]
  | @leaf _ _ _ node hdir hnode hleaf =>
    cases node <;> simp_all [resolve]

/-- Resolution finds a target exactly when the rules lead to it. -/
theorem resolve_eq_ok_iff :
    fs.resolve purpose links dir steps slash = .ok target ↔
      Leads fs purpose links dir steps slash target :=
  ⟨leads_of_resolve, Leads.resolve_eq⟩

/-! ## Targets -/

/-- A target is where a file system says: its node lies there, or its directory is one and has no
such entry. -/
def Target.IsIn (fs : FileSystem) : Target → Prop
  | .present loc node => fs.nodeAt loc = some node
  | .absent dir name => fs.nodeAt dir = some .directory ∧ fs.nodeAt (name :: dir) = none

/-- A target is where the file system says it is. -/
theorem Leads.isIn (h : Leads fs purpose links dir steps slash target) : target.IsIn fs := by
  induction h with
  | stop hdir => exact hdir
  | here _ ih => exact ih
  | up _ ih => exact ih
  | absent _ hdir hnode => exact ⟨hdir, hnode⟩
  | enter _ _ _ _ ih => exact ih
  | entryLink _ _ hnode => exact hnode
  | follow _ _ _ _ _ ih => exact ih
  | leaf _ hnode => exact hnode

/-- Steps behind a path to a directory are taken from that directory. -/
theorem Leads.extend {top : Location} {more : List Path.Step} (hmore : more ≠ [])
    (h : Leads fs purpose links dir steps slash (.present top .directory)) :
    ∃ links', ∀ slash' target', Leads fs purpose links' top more slash' target' →
      Leads fs purpose links dir (steps ++ more) slash' target' := by
  generalize htop : Target.present top .directory = target at h
  induction h with
  | @stop links =>
    cases htop
    exact ⟨links, fun slash' target' h' => h'⟩
  | here _ ih =>
    rcases ih htop with ⟨links', hlinks⟩
    exact ⟨links', fun slash' target' h' => .here (hlinks slash' target' h')⟩
  | up _ ih =>
    rcases ih htop with ⟨links', hlinks⟩
    exact ⟨links', fun slash' target' h' => .up (hlinks slash' target' h')⟩
  | absent => cases htop
  | enter _ hdir hnode _ ih =>
    rcases ih htop with ⟨links', hlinks⟩
    refine ⟨links', fun slash' target' h' => .enter ?_ hdir hnode (hlinks slash' target' h')⟩
    simp [AsksForDirectory, hmore]
  | entryLink => cases htop
  | @follow _ dir _ rest slash _ text _ _ hdir hnode _ ih =>
    rcases ih htop with ⟨links', hlinks⟩
    have hne : rest ++ more ≠ [] := List.append_ne_nil_of_right_ne_nil rest hmore
    refine ⟨links', fun slash' target' h' => ?_⟩
    rw [List.cons_append]
    refine .follow ?_ ?_ hdir hnode ?_
    · simp [AsksForDirectory, hmore]
    · simp [AsksForEntry, hmore]
    · rw [if_neg hne, ← List.append_assoc]
      exact hlinks slash' target' h'
  | leaf _ _ hleaf =>
    cases htop
    exact absurd rfl hleaf.1

/-! ## Whole paths -/

/-- A path leads to a target exactly when it is a path at all and its steps lead there. -/
theorem locate_eq_ok_iff {path : Text} :
    fs.locate purpose path = .ok target ↔
      '\x00' ∉ path ∧ path ≠ [] ∧ path.octets ≤ Path.maxOctets ∧
        Leads fs purpose maxLinks (startOf fs.workingDirectory path) (Path.steps path)
          (Path.endsInSlash path) target := by
  rw [← resolve_eq_ok_iff, locate]
  split_ifs with hnul hne hoctets
  · simp [hnul]
  · simp [hne]
  · simp [Nat.not_le.2 hoctets]
  · simp [hnul, hne, Nat.not_lt.1 hoctets]

/-- Joining the name of a subdirectory leads into it, as long as the path is not too long. -/
theorem locate_join {path : Text} {loc : Location} {name : Name}
    (h : fs.locate purpose path = .ok (.present loc .directory))
    (hnode : fs.nodeAt (name :: loc) = some .directory)
    (hoctets : (Path.join path name).octets ≤ Path.maxOctets) :
    fs.locate purpose (Path.join path name) = .ok (.present (name :: loc) .directory) := by
  rcases locate_eq_ok_iff.1 h with ⟨hnul, hne, -, hleads⟩
  have hstart : startOf fs.workingDirectory (Path.join path name) =
      startOf fs.workingDirectory path := by
    rw [startOf, startOf, Path.isAbsolute_join hne]
  rw [locate_eq_ok_iff, Path.nul_mem_join, hstart, Path.steps_join, Path.endsInSlash_join]
  refine ⟨hnul, Path.join_ne_nil path name, hoctets, ?_⟩
  rcases hleads.extend (List.cons_ne_nil (.down name) []) with ⟨links', hlinks⟩
  refine hlinks false _ (.enter ?_ hleads.isIn hnode (.stop hnode false))
  simp [AsksForDirectory]

end KernelTools.FileSystem
