import CrateAtlas.Package
import CrateAtlas.Proofs.Ancestors

/-!
Which package an analysis is about, and where it starts. Of the members of a workspace whose directories hold
a path, one in the deepest directory is chosen; a path that no member holds falls to the package of the
workspace's own directory, and if there is none, to the first member. The analysis starts with the first
library or macro crate of the package, or else with its first program.
-/

namespace CrateAtlas

open CrateAtlas.Path

namespace Package

def Around (package : Package) (path dir : Path) : Prop :=
  package.manifest.parent? = some dir ∧ dir.components <+: path.components

def First (package : Package) (kind : BuildTarget → Bool) (target : BuildTarget) : Prop :=
  kind target = true ∧ ∃ before after, package.targets = before ++ target :: after ∧
    ∀ earlier ∈ before, kind earlier = false

/-- The target that an analysis of the package starts with: the first library or macro crate, or the first
program if there is no such crate. -/
def Starts (package : Package) (target : BuildTarget) : Prop :=
  package.First (fun target => target.isLibrary || target.isProcMacro) target ∨
    (∀ other ∈ package.targets, other.isLibrary = false ∧ other.isProcMacro = false) ∧
      package.First BuildTarget.isProgram target

variable {package : Package} {path dir : Path}

private theorem holds_iff : package.holds path = true ↔ ∃ dir, package.Around path dir := by
  unfold holds Around
  cases package.manifest.parent? with
  | none => simp
  | some dir => simp [startsWith_iff]

private theorem Around.depth (around : package.Around path dir) :
    package.depth = dir.components.length + 1 := by
  obtain ⟨last, _, whole⟩ := components_of_parent? around.1
  simp [Package.depth, whole]

private theorem find?_eq_some_iff_first {kind : BuildTarget → Bool} {target : BuildTarget} :
    package.targets.find? kind = some target ↔ package.First kind target := by
  simp [List.find?_eq_some_iff_append, First]

theorem find?_eq_none_iff_crates :
    package.targets.find? (fun target => target.isLibrary || target.isProcMacro) = none ↔
      ∀ other ∈ package.targets, other.isLibrary = false ∧ other.isProcMacro = false := by
  simp [List.find?_eq_none]

private theorem mainTarget?_eq_some_iff {target : BuildTarget} :
    package.mainTarget? = some target ↔ package.Starts target := by
  unfold mainTarget? Starts
  rw [← find?_eq_none_iff_crates, ← find?_eq_some_iff_first, ← find?_eq_some_iff_first,
    Option.orElse_eq_orElse, Option.orElse_eq_or, Option.or_eq_some_iff]

private theorem mainTarget?_eq_none_iff :
    package.mainTarget? = none ↔ ∀ target ∈ package.targets,
      target.isLibrary = false ∧ target.isProcMacro = false ∧ target.isProgram = false := by
  unfold mainTarget?
  rw [Option.orElse_eq_orElse, Option.orElse_eq_or, Option.or_eq_none_iff, find?_eq_none_iff_crates,
    List.find?_eq_none]
  rw [← forall₂_and]
  refine forall₂_congr fun target _ => ?_
  rw [Bool.not_eq_true, and_assoc]

private theorem layout_eq_ok_iff {layout : Layout} : package.layout = .ok layout ↔
    ∃ target, package.Starts target ∧ layout =
      ⟨package.name, target.source, package.manifest.parent?.getD "", package.externCrates⟩ := by
  simp only [← mainTarget?_eq_some_iff]
  unfold Package.layout
  cases package.mainTarget? <;> simp [eq_comm]

private theorem layout_eq_error_iff {error : LayoutError} : package.layout = .error error ↔
    error = .noTarget package.name ∧ ∀ target ∈ package.targets,
      target.isLibrary = false ∧ target.isProcMacro = false ∧ target.isProgram = false := by
  rw [← mainTarget?_eq_none_iff]
  unfold Package.layout
  cases package.mainTarget? <;> simp [eq_comm]

end Package

namespace Workspace

/-- A member is in the deepest of the members' directories that hold a path. -/
def Closest (workspace : Workspace) (path : Path) (package : Package) : Prop :=
  package ∈ workspace.members ∧ ∃ dir, package.Around path dir ∧
    ∀ other ∈ workspace.members, ∀ inner, other.Around path inner →
      inner.components.length ≤ dir.components.length

def Outside (workspace : Workspace) (path : Path) : Prop :=
  ∀ member ∈ workspace.members, ∀ dir, ¬ member.Around path dir

def Owns (workspace : Workspace) (package : Package) : Prop :=
  package.manifest.components = (workspace.root.join "Cargo.toml").components

inductive Chooses (workspace : Workspace) (path : Path) : Package → Prop where
  | closest {package : Package} (near : workspace.Closest path package) : Chooses workspace path package
  | root {package : Package} {before after : List Package} (outside : workspace.Outside path)
      (listed : workspace.members = before ++ package :: after) (own : workspace.Owns package)
      (earlier : ∀ other ∈ before, ¬ workspace.Owns other) : Chooses workspace path package
  | first {package : Package} {rest : List Package} (outside : workspace.Outside path)
      (rootless : ∀ other ∈ workspace.members, ¬ workspace.Owns other)
      (listed : workspace.members = package :: rest) : Chooses workspace path package

def deeper (best : Option Package) (package : Package) : Option Package :=
  best.elim (some package) fun other => if other.depth ≤ package.depth then some package else some other

private theorem deepest?_eq_foldl (packages : List Package) :
    deepest? packages = packages.foldl deeper none := by
  unfold deepest?
  congr 1
  funext best package
  cases best <;> rfl

private theorem foldl_deeper (packages : List Package) (best : Package) :
    ∃ deepest, packages.foldl deeper (some best) = some deepest ∧ deepest ∈ best :: packages ∧
      ∀ other ∈ best :: packages, other.depth ≤ deepest.depth := by
  induction packages generalizing best with
  | nil => exact ⟨best, rfl, by simp, by simp⟩
  | cons package rest ih =>
    rw [List.foldl_cons]
    by_cases below : best.depth ≤ package.depth
    · obtain ⟨deepest, scanned, member, bound⟩ := ih package
      have stepped : deeper (some best) package = some package := by simp [deeper, below]
      refine ⟨deepest, by rw [stepped, scanned], List.mem_cons_of_mem best member, ?_⟩
      rw [List.forall_mem_cons] at bound ⊢
      exact ⟨Nat.le_trans below bound.1, List.forall_mem_cons.mpr bound⟩
    · obtain ⟨deepest, scanned, member, bound⟩ := ih best
      have stepped : deeper (some best) package = some best := by simp [deeper, below]
      rw [List.forall_mem_cons] at bound
      refine ⟨deepest, by rw [stepped, scanned], ?_, ?_⟩
      · rcases List.mem_cons.mp member with here | later
        · exact here ▸ List.mem_cons_self
        · exact List.mem_cons_of_mem best (List.mem_cons_of_mem package later)
      · rw [List.forall_mem_cons, List.forall_mem_cons]
        exact ⟨bound.1, Nat.le_trans (Nat.le_of_not_le below) bound.1, bound.2⟩

private theorem deepest?_cases (packages : List Package) :
    (deepest? packages = none ∧ packages = []) ∨
    ∃ deepest, deepest? packages = some deepest ∧ deepest ∈ packages ∧
      ∀ other ∈ packages, other.depth ≤ deepest.depth := by
  rw [deepest?_eq_foldl]
  cases packages with
  | nil => exact .inl ⟨rfl, rfl⟩
  | cons first rest => exact .inr (foldl_deeper rest first)

variable {workspace : Workspace} {path : Path}

theorem members_eq (all : ∀ entry ∈ workspace.packages, entry.2 = true) :
    workspace.members = workspace.packages.map (·.1) := by
  rw [members, List.filter_eq_self.mpr all]

private theorem rootPackage?_cases (all : ∀ entry ∈ workspace.packages, entry.2 = true) :
    (workspace.rootPackage? = none ∧ ∀ other ∈ workspace.members, ¬ workspace.Owns other) ∨
    ∃ package before after, workspace.rootPackage? = some package ∧
      workspace.members = before ++ package :: after ∧ workspace.Owns package ∧
      ∀ other ∈ before, ¬ workspace.Owns other := by
  rw [members_eq all]
  unfold rootPackage?
  cases found : (workspace.packages.map (·.1)).find? fun package =>
      package.manifest.same (workspace.root.join "Cargo.toml") with
  | none =>
    refine .inl ⟨rfl, fun other member own => ?_⟩
    exact List.find?_eq_none.mp found other member ((same_iff _ _).mpr own)
  | some package =>
    obtain ⟨own, before, after, listed, earlier⟩ := List.find?_eq_some_iff_append.mp found
    refine .inr ⟨package, before, after, rfl, listed, (same_iff _ _).mp own, fun other member own => ?_⟩
    simpa [(same_iff _ _).mpr own] using earlier other member

private theorem Chooses.mem_members {package : Package} (chosen : workspace.Chooses path package) :
    package ∈ workspace.members := by
  cases chosen with
  | closest near => exact near.1
  | root _ listed => simp [listed]
  | first _ _ listed => simp [listed]

/-- A workspace without packages has none for a path, and any other has one that is chosen. -/
theorem packageFor?_cases (all : ∀ entry ∈ workspace.packages, entry.2 = true) (path : Path) :
    (workspace.packageFor? path = none ∧ workspace.packages = []) ∨
    ∃ package, workspace.packageFor? path = some package ∧ workspace.Chooses path package := by
  unfold packageFor?
  rcases deepest?_cases (workspace.members.filter (·.holds path)) with ⟨none, empty⟩ | deepest
  · have outside : workspace.Outside path := by
      intro member listed dir around
      have held : member ∈ workspace.members.filter (·.holds path) :=
        List.mem_filter.mpr ⟨listed, Package.holds_iff.mpr ⟨dir, around⟩⟩
      simp [empty] at held
    rw [none]
    rcases rootPackage?_cases all with ⟨none, rootless⟩ | ⟨package, before, after, found, listed, own, earlier⟩
    · rw [none]
      cases packages : workspace.packages with
      | nil => exact .inl ⟨rfl, rfl⟩
      | cons entry rest =>
        have listed : workspace.members = entry.1 :: rest.map (·.1) := by
          rw [members_eq all, packages, List.map_cons]
        exact .inr ⟨entry.1, rfl, .first outside rootless listed⟩
    · rw [found]
      exact .inr ⟨package, rfl, .root outside listed own earlier⟩
  · obtain ⟨package, found, member, bound⟩ := deepest
    obtain ⟨listed, holds⟩ := List.mem_filter.mp member
    obtain ⟨dir, around⟩ := Package.holds_iff.mp holds
    rw [found]
    refine .inr ⟨package, rfl, .closest ⟨listed, dir, around, fun other listed' inner around' => ?_⟩⟩
    have depth := bound other (List.mem_filter.mpr ⟨listed', Package.holds_iff.mpr ⟨inner, around'⟩⟩)
    rw [around.depth, around'.depth] at depth
    exact Nat.le_of_succ_le_succ depth

end Workspace

namespace Layout

/-- Whenever the package manager answers with members of the workspace only, a package is chosen unless there
is none, and its layout starts with its main target unless it has none. -/
theorem discover_chooses (files : FileSystem) (service : MetadataService) (path : Path)
    (manifest : Option Path) (workspace : Workspace)
    (answered : (request files path manifest).toOption.bind service = some workspace)
    (all : ∀ entry ∈ workspace.packages, entry.2 = true) :
    (∀ shown, discover files service path manifest = .error (.noPackage shown) ↔
      shown = path ∧ workspace.packages = []) ∧
    (workspace.packages ≠ [] → ∃ package, workspace.Chooses (files.canonical path) package ∧
      (∀ layout, discover files service path manifest = .ok layout ↔
        ∃ target, package.Starts target ∧ layout =
          ⟨package.name, target.source, package.manifest.parent?.getD "", package.externCrates⟩) ∧
      ∀ name, discover files service path manifest = .error (.noTarget name) ↔
        name = package.name ∧ ∀ target ∈ package.targets,
          target.isLibrary = false ∧ target.isProcMacro = false ∧ target.isProgram = false) := by
  unfold discover
  rw [answered]
  dsimp only
  rcases Workspace.packageFor?_cases all (files.canonical path) with ⟨none, empty⟩ | ⟨package, found, chosen⟩
  · rw [none]
    refine ⟨fun shown => ?_, fun filled => absurd empty filled⟩
    simp [empty, eq_comm]
  · rw [found]
    have filled : workspace.packages ≠ [] := by
      intro empty
      simpa [Workspace.members, empty] using chosen.mem_members
    refine ⟨fun shown => ?_, fun _ => ⟨package, chosen, fun layout => Package.layout_eq_ok_iff, fun name => ?_⟩⟩
    · simp [Package.layout_eq_error_iff, filled]
    · simp [Package.layout_eq_error_iff]

def borough : FileSystem where
  root := .directory [("w", .directory [("a", .directory [("b", .directory [
    ("src", .directory [("m.rs", .file (some ""))])])])])]
  current := ["w", "a"]

def boroughWorkspace : Workspace where
  root := "/w"
  packages := [
    (⟨"outer", "/w/Cargo.toml", [], [⟨"outer", ["lib"], "/w/o.rs"⟩]⟩, true),
    (⟨"inner", "/w/.//a/b/Cargo.toml", [], [⟨"tool", ["bin"], "/w/a/b/t.rs"⟩,
      ⟨"inner", ["proc-macro"], "/w/a/b/src/m.rs"⟩]⟩, true),
    (⟨"middle", "/w/a/Cargo.toml", [], []⟩, true)]

theorem discover_chooses_borough :
    (∀ entry ∈ boroughWorkspace.packages, entry.2 = true) ∧
    discover borough (fun _ => some boroughWorkspace) "b/../b/src" none =
      .ok ⟨"inner", "/w/a/b/src/m.rs", "/w/.//a/b", []⟩ ∧
    ∃ package target, boroughWorkspace.Chooses (borough.canonical "b/../b/src") package ∧
      package.name = "inner" ∧ package.Starts target ∧ target.source = "/w/a/b/src/m.rs" := by
  have all : ∀ entry ∈ boroughWorkspace.packages, entry.2 = true := by decide
  have answered : (request borough "b/../b/src" none).toOption.bind (fun _ => some boroughWorkspace) =
      some boroughWorkspace := by decide +kernel
  have discovered : discover borough (fun _ => some boroughWorkspace) "b/../b/src" none =
      .ok ⟨"inner", "/w/a/b/src/m.rs", "/w/.//a/b", []⟩ := by decide +kernel
  obtain ⟨_, some⟩ := discover_chooses borough _ "b/../b/src" none boroughWorkspace answered all
  obtain ⟨package, chosen, laid, _⟩ := some (by decide)
  obtain ⟨target, starts, same⟩ := (laid _).mp discovered
  injection same with name source
  exact ⟨all, discovered, package, target, chosen, name.symm, starts, source.symm⟩

end Layout

end CrateAtlas
