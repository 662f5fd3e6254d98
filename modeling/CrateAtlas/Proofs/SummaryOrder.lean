import CrateAtlas.Proofs.CoverageSpelling
import CrateAtlas.Proofs.FiniteCoverage

/-!
The entries of a summary in any order. A summary has each name once, but different names may come to one
path, and then the entry that comes last counts. So a path can get exactly the percentages of the entries
that come to it, and the order does not matter just if these are all the same.
-/

namespace CrateAtlas.CoverageReport

variable {files : FileSystem} {dir path : Path} {entries order other : List (String × Option Double)}
  {percent : Double}

private theorem map_fst_setEntry (entries : List (String × Option Double)) (name : String)
    (percent : Option Double) : (setEntry entries name percent).map (·.1) =
      if name ∈ entries.map (·.1) then entries.map (·.1) else entries.map (·.1) ++ [name] := by
  have known : entries.any (·.1 == name) = true ↔ name ∈ entries.map (·.1) := by simp
  unfold setEntry
  by_cases listed : name ∈ entries.map (·.1)
  · rw [if_pos (known.mpr listed), if_pos listed, List.map_map]
    refine List.map_congr_left fun entry _ => ?_
    dsimp only [Function.comp]
    split
    · next same => exact same.symm
    · rfl
  · rw [if_neg (mt known.mp listed), if_neg listed, List.map_append]
    rfl

private theorem nodup_setEntry (distinct : (entries.map (·.1)).Nodup) (name : String)
    (percent : Option Double) : ((setEntry entries name percent).map (·.1)).Nodup := by
  rw [map_fst_setEntry]
  split
  · exact distinct
  · next unlisted =>
    refine List.nodup_append.mpr ⟨distinct, List.nodup_singleton name, ?_⟩
    intro other member last single same
    rw [List.mem_singleton.mp single] at same
    exact unlisted (same ▸ member)

private theorem nodup_setEntries (members : List (String × Option Double))
    (distinct : (entries.map (·.1)).Nodup) :
    ((members.foldl (fun entries member => setEntry entries member.1 member.2) entries).map
      (·.1)).Nodup := by
  induction members generalizing entries with
  | nil => exact distinct
  | cons member rest ih => exact ih (nodup_setEntry distinct member.1 member.2)

private theorem export?_lines {value : Json.Value} {report : CoverageReport}
    (read : export? value = some report) : ∃ files, report = lines files := by
  obtain ⟨_, _, read⟩ := Option.bind_eq_some_iff.mp read
  obtain ⟨_, _, read⟩ := Option.bind_eq_some_iff.mp read
  obtain ⟨parts, _, read⟩ := Option.bind_eq_some_iff.mp read
  exact ⟨parts.flatten, (Option.some.inj read).symm⟩

private theorem nodup_of_ofText {text : String} (read : ofText text = .ok (statements entries)) :
    (entries.map (·.1)).Nodup := by
  obtain ⟨value, _, exported | summarized⟩ := ofText_ok read
  · obtain ⟨files, other⟩ := export?_lines exported
    cases other
  · unfold summary? at summarized
    split at summarized
    · obtain ⟨members, _, made⟩ := Option.bind_eq_some_iff.mp summarized
      obtain rfl := statements.inj (Option.some.inj made)
      exact nodup_setEntries members List.nodup_nil
    · cases summarized

theorem gives_perm (perm : order.Perm entries) (path : Path) (percent : Double) :
    (statements order).Gives files dir path percent ↔ (statements entries).Gives files dir path percent :=
  exists_congr fun _ => and_congr_left fun _ => and_congr_right fun _ => perm.mem_iff

theorem isSome_get?_perm (perm : order.Perm entries) (path : Path) :
    (((statements order).toMap files dir).get? path).isSome = true ↔
      ∃ percent, (statements entries).Gives files dir path percent :=
  isSome_get?_iff.trans (exists_congr (gives_perm perm path))

theorem gives_of_order (perm : order.Perm entries)
    (found : ((statements order).toMap files dir).get? path = some percent) :
    (statements entries).Gives files dir path percent :=
  (gives_perm perm path percent).mp (gives_of_get? found)

private theorem percentages_concat {name : String} (proper : name ≠ totalName)
    (entries : List (String × Option Double)) (percent : Double) :
    (statements (entries ++ [(name, some percent)])).percentages =
      (statements entries).percentages ++ [(name, percent)] := by
  simp [percentages, proper]

private theorem exists_order (gives : (statements entries).Gives files dir path percent) :
    ∃ order, order.Perm entries ∧ ((statements order).toMap files dir).get? path = some percent := by
  obtain ⟨name, ⟨proper, listed⟩, meets⟩ := gives
  -- the entry can come last, and then it counts
  obtain ⟨before, after, rfl⟩ := List.append_of_mem listed
  refine ⟨before ++ after ++ [(name, some percent)], ?_, ?_⟩
  · rw [List.append_assoc]
    exact List.Perm.append_left before (List.perm_append_singleton _ after)
  · rw [get?_toMap_eq, percentages_concat proper, List.reverse_concat, List.find?_cons, meets]
    rfl

private theorem get?_of_agree (agree : ∀ first second, (statements entries).Gives files dir path first →
      (statements entries).Gives files dir path second → first = second)
    (perm : order.Perm entries) (perm' : other.Perm entries)
    (found : ((statements order).toMap files dir).get? path = some percent) :
    ((statements other).toMap files dir).get? path = some percent := by
  have given := gives_of_order perm found
  obtain ⟨second, found'⟩ := Option.isSome_iff_exists.mp ((isSome_get?_perm perm' path).mpr ⟨percent, given⟩)
  rw [found', agree second percent (gives_of_order perm' found') given]

/-- Whatever summary is read, in whichever orders its entries come: the same paths get a percentage, each
path can get just those of the entries that come to it, and every two orders give the same just if no two
entries that come to one path differ. -/
theorem toMap_orders (files : FileSystem) (dir : Path) (text : String)
    (entries : List (String × Option Double)) (read : ofText text = .ok (statements entries)) :
    CoverageMap.ofText files dir text = .ok ((statements entries).toMap files dir) ∧
    (entries.map (·.1)).Nodup ∧
    (∀ order, order.Perm entries → ∀ path,
      ((((statements order).toMap files dir).get? path).isSome = true ↔
        ∃ percent, (statements entries).Gives files dir path percent)) ∧
    (∀ path percent, (∃ order, order.Perm entries ∧
        ((statements order).toMap files dir).get? path = some percent) ↔
      (statements entries).Gives files dir path percent) ∧
    ((∀ order other, order.Perm entries → other.Perm entries → ∀ path,
        ((statements order).toMap files dir).get? path = ((statements other).toMap files dir).get? path) ↔
      ∀ path first second, (statements entries).Gives files dir path first →
        (statements entries).Gives files dir path second → first = second) := by
  refine ⟨by rw [CoverageMap.ofText, read]; rfl, nodup_of_ofText read,
    fun order perm path => isSome_get?_perm perm path, fun path percent => ⟨?_, exists_order⟩, ?_⟩
  · rintro ⟨order, perm, found⟩
    exact gives_of_order perm found
  constructor
  · intro same path first second gives gives'
    obtain ⟨order, perm, found⟩ := exists_order gives
    obtain ⟨other, perm', found'⟩ := exists_order gives'
    rw [same order other perm perm' path, found'] at found
    exact (Option.some.inj found).symm
  · intro agree order other perm perm' path
    apply Option.ext
    intro percent
    exact ⟨get?_of_agree (agree path) perm perm', get?_of_agree (agree path) perm' perm⟩

def cupboard : FileSystem where
  root := .directory [("a.rs", .file (some ""))]
  current := []

def twofold (first second : Nat) : List (String × Option Double) :=
  [("a.rs", some (.ofNat first)), ("./a.rs", some (.ofNat second))]

theorem toMap_orders_cupboard :
    (cupboard.canonical (Path.join "/" "a.rs")).same (cupboard.canonical (Path.join "/" "./a.rs")) =
      true ∧
    ofText "\x7b\"a.rs\":[[5]],\"./a.rs\":[[5]]\x7d" = .ok (statements (twofold 5 5)) ∧
    ∀ order, order.Perm (twofold 5 5) →
      ((statements order).toMap cupboard "/").get? "/a.rs" = some (.ofNat 5) := by
  have read : ofText "\x7b\"a.rs\":[[5]],\"./a.rs\":[[5]]\x7d" = .ok (statements (twofold 5 5)) :=
    ok_of_toOption (by decide +kernel)
  have orders := toMap_orders cupboard "/" _ _ read
  have single {path : Path} {percent : Double}
      (gives : (statements (twofold 5 5)).Gives cupboard "/" path percent) : percent = .ofNat 5 := by
    obtain ⟨name, ⟨_, listed⟩, _⟩ := gives
    simp only [twofold, List.mem_cons, Prod.mk.injEq, Option.some.injEq, List.not_mem_nil, or_false] at listed
    rcases listed with ⟨_, same⟩ | ⟨_, same⟩
    · exact same
    · exact same
  refine ⟨by decide +kernel, read, fun order perm => ?_⟩
  rw [orders.2.2.2.2.mpr (fun path first second gives gives' => (single gives).trans (single gives').symm)
    order _ perm (.refl _)]
  decide +kernel

/-- The file has the percentage of the entry that comes last, so it depends on the order which one it is. -/
theorem cupboard_order_matters :
    ofText ("\x7b\"a.rs\":\x7b\"statements\":\x7b\"pct\":100\x7d\x7d," ++
      "\"./a.rs\":\x7b\"statements\":\x7b\"pct\":0\x7d\x7d\x7d") = .ok (statements (twofold 100 0)) ∧
    ((statements (twofold 100 0)).toMap cupboard "/").get? "/a.rs" = some (.ofNat 0) ∧
    (twofold 100 0).reverse.Perm (twofold 100 0) ∧
    ((statements (twofold 100 0).reverse).toMap cupboard "/").get? "/a.rs" = some (.ofNat 100) := by
  refine ⟨ok_of_toOption (by decide +kernel), by decide +kernel, List.reverse_perm _, by decide +kernel⟩

end CrateAtlas.CoverageReport
