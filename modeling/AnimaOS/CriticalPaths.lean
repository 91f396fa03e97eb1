import AnimaOS.MotorGate

/-!
# Critical paths and the spelling of prefixes

The gate resolves the path and compares it, as a text, with the prefix as it was
configured. The comparison agrees with the one on resolved segments where the
prefix is spelled the way a resolved path is.
-/

namespace MotorGate

open PathSegments TextSplit

/-- Up to trailing slashes, the prefix is the text of its own resolved segments. -/
def Canonical (pre : Text) : Prop := trimEnd '/' pre = rooted '/' (components pre)

instance (pre : Text) : Decidable (Canonical pre) := inferInstanceAs (Decidable (_ = _))

/-- The path lies at or under the prefix once both are resolved. -/
def Covers (pre path : Text) : Prop := components pre <+: components path

instance (pre path : Text) : Decidable (Covers pre path) := inferInstanceAs (Decidable (_ <+: _))

theorem components_plain {path seg : Text} (listed : seg ∈ components path) :
    Plain ['.'] ['.', '.'] seg ∧ '/' ∉ seg := by
  obtain ⟨plain, piece⟩ := mem_resolve listed
  exact ⟨plain, splitOn_fresh piece⟩

theorem components_trimEnd (pre : Text) : components (trimEnd '/' pre) = components pre :=
  resolve_splitOn_trimEnd ['.'] ['.', '.'] '/' pre

theorem components_rooted {path : Text} {segs : List Text} (inside : segs <+: components path) :
    components (rooted '/' segs) = segs := by
  apply resolve_splitOn_rooted
  · exact fun seg listed => (components_plain (inside.subset listed)).2
  · exact fun seg listed => (components_plain (inside.subset listed)).1

theorem normalizePath_cut {path text rest : Text} (trimmed : text.getLast? ≠ some '/')
    (cut : normalizePath path = text ++ rest) (boundary : Boundary '/' rest) :
    ∃ segs, segs <+: components path ∧ text = rooted '/' segs := by
  by_cases root : components path = []
  · refine ⟨[], List.nil_prefix, ?_⟩
    rw [normalizePath, root] at cut
    -- the text of the root is a lone slash, which a trimmed prefix cannot be
    cases text with
    | nil => rfl
    | cons c text =>
      cases text with
      | nil =>
        cases cut
        exact absurd rfl trimmed
      | cons d text => cases cut
  · rw [normalizePath, rooted_join '/' root] at cut
    exact rooted_cut (fun seg listed => (components_plain listed).2) cut boundary

theorem normalizePath_extends {path : Text} {segs : List Text} (inside : segs <+: components path) :
    ∃ rest, normalizePath path = rooted '/' segs ++ rest ∧ Boundary '/' rest := by
  by_cases root : components path = []
  · rw [root] at inside
    cases List.prefix_nil.mp inside
    exact ⟨normalizePath path, rfl, .inr rfl⟩
  · obtain ⟨later, split⟩ := inside
    refine ⟨rooted '/' later, ?_, rooted_boundary '/' later⟩
    rw [normalizePath, rooted_join '/' root, ← split]
    exact List.flatMap_append

theorem pathUnderPrefix_iff_cut (path pre : Text) : pathUnderPrefix path pre = true ↔
    ∃ rest, path = trimEnd '/' pre ++ rest ∧ Boundary '/' rest := by
  rw [pathUnderPrefix]
  cases found : path.dropPrefix? (trimEnd '/' pre) with
  | none =>
    constructor
    · intro under
      cases under
    · rintro ⟨rest, split, -⟩
      have kept : path.dropPrefix? (trimEnd '/' pre) = some rest :=
        List.dropPrefix?_eq_some_iff.mpr ⟨_, split, beq_self_eq_true _⟩
      rw [found] at kept
      cases kept
  | some rest =>
    obtain ⟨text, split, same⟩ := List.dropPrefix?_eq_some_iff.mp found
    rw [beq_iff_eq] at same
    subst same
    simp only [Bool.or_eq_true, List.isEmpty_iff, decide_eq_true_eq]
    constructor
    · exact fun boundary => ⟨rest, split, boundary⟩
    · rintro ⟨rest', split', boundary⟩
      rwa [List.append_cancel_left (split.symm.trans split')]

/-- What the comparison of texts says about the segments. -/
theorem pathUnderPrefix_iff (path pre : Text) :
    pathUnderPrefix (normalizePath path) pre = true ↔ Canonical pre ∧ Covers pre path := by
  rw [pathUnderPrefix_iff_cut]
  constructor
  · rintro ⟨rest, cut, boundary⟩
    obtain ⟨segs, inside, spelled⟩ := normalizePath_cut (trimEnd_getLast '/' pre) cut boundary
    have resolved : components pre = segs := by
      rw [← components_trimEnd, spelled, components_rooted inside]
    subst resolved
    exact ⟨spelled, inside⟩
  · rintro ⟨spelled, inside⟩
    rw [spelled]
    exact normalizePath_extends inside

/-- Some configured prefix covers the path. -/
def Critical (gate : UnsafeMotorActionGate) (path : Text) : Prop :=
  ∃ pre ∈ gate.criticalPrefixes, Covers pre path

/-- Some configured prefix that is canonical covers the path. -/
def CanonicallyCritical (gate : UnsafeMotorActionGate) (path : Text) : Prop :=
  ∃ pre ∈ gate.criticalPrefixes, Canonical pre ∧ Covers pre path

theorem screenFilesystem_vetoed (gate : UnsafeMotorActionGate) {operation : Text} (path : Text)
    {capability : Option Capability} (write : isWrite operation = true)
    (without : capability.any grantsFilesystem = false) :
    (screenFilesystem gate operation path capability).isVetoed = true ↔
      CanonicallyCritical gate path := by
  simp only [screenFilesystem, write, without, Bool.not_true, Bool.false_eq_true, if_false]
  by_cases under : gate.criticalPrefixes.any (pathUnderPrefix (normalizePath path)) = true
  · simp only [under, Bool.not_true, Bool.false_eq_true, if_false, VetoResult.isVetoed, true_iff]
    obtain ⟨pre, listed, matched⟩ := List.any_eq_true.mp under
    exact ⟨pre, listed, (pathUnderPrefix_iff path pre).mp matched⟩
  · simp only [under, Bool.not_false, if_true, VetoResult.isVetoed, Bool.false_eq_true, false_iff]
    rintro ⟨pre, listed, covered⟩
    exact under (List.any_eq_true.mpr ⟨pre, listed, (pathUnderPrefix_iff path pre).mpr covered⟩)

/-- A write without the capability is vetoed on the paths that the configured prefixes cover, for
exactly those paths which a canonical prefix covers if any prefix does. -/
theorem critical_write_vetoed_iff (gate : UnsafeMotorActionGate) (operation path : Text)
    (capability : Option Capability) (write : isWrite operation = true)
    (without : capability.any grantsFilesystem = false) :
    ((screenFilesystem gate operation path capability).isVetoed = true ↔ Critical gate path) ↔
      (Critical gate path → CanonicallyCritical gate path) := by
  rw [screenFilesystem_vetoed gate path write without]
  constructor
  · exact fun agrees covered => agrees.mpr covered
  · intro backed
    constructor
    · rintro ⟨pre, listed, -, covered⟩
      exact ⟨pre, listed, covered⟩
    · exact backed

/-- The first custom prefix ends in a slash, the second is relative. -/
def customGate : UnsafeMotorActionGate :=
  withCriticalPrefix (withCriticalPrefix .new "/srv/".toList) "opt/animaos".toList

theorem dotted_write_vetoed :
    (screenFilesystem customGate "Chmod".toList "/opt/../srv/./x".toList none).isVetoed = true ↔
      Critical customGate "/opt/../srv/./x".toList :=
  (critical_write_vetoed_iff customGate _ _ none (by decide) rfl).mpr fun _ =>
    ⟨"/srv/".toList, by decide, by decide, by decide⟩

theorem relative_prefix_ignored :
    isWrite "write".toList = true ∧
      screenFilesystem customGate "write".toList "/opt/animaos/state".toList none = .allow ∧
      Critical customGate "/opt/animaos/state".toList := by
  refine ⟨?_, ?_, "opt/animaos".toList, ?_, ?_⟩
  · decide
  · decide
  · decide
  · decide

/-- A gate protects everything its prefixes cover exactly when every prefix lies under a canonical
one. -/
theorem gate_complete_iff (gate : UnsafeMotorActionGate) :
    (∀ path, Critical gate path → CanonicallyCritical gate path) ↔
      ∀ pre ∈ gate.criticalPrefixes, CanonicallyCritical gate pre := by
  constructor
  · exact fun complete pre listed => complete pre ⟨pre, listed, List.prefix_refl _⟩
  · rintro backed path ⟨pre, listed, covered⟩
    obtain ⟨canonical, listed', spelled, above⟩ := backed pre listed
    exact ⟨canonical, listed', spelled, above.trans covered⟩

theorem defaults_canonical : ∀ pre ∈ defaultCriticalPrefixes, Canonical pre := by decide

theorem default_gate_complete (path : Text) (critical : Critical .new path) :
    CanonicallyCritical .new path :=
  (gate_complete_iff .new).mpr
    (fun pre listed => ⟨pre, listed, defaults_canonical pre listed, List.prefix_refl _⟩) path critical

end MotorGate
