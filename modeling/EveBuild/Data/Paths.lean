import EveBuild.Data.Layers
import Mathlib.Algebra.BigOperators.Finprod
import Mathlib.Data.List.Chain
import Mathlib.Tactic.Ring

/-!
# Paths through the layers

A path goes from a start down to a thing, each of its things being directly below the one
before.  `along` multiplies what is used of each thing for one of the thing before.

The paths of one length end in the layer of that depth (`mem_pathsTo`), and a quantity that
is spread without any rounding arrives at a thing `quantity` times the sum over the paths
of that length (`spread_eq_sum_paths`).  Where the layers end there are only finitely many
paths to a thing, and the sum over all of them is the sum over the depths (`sum_paths`).
-/

namespace EveBuild

/-! ## Paths -/

section Paths

variable {T : Type*} (below : T → Finset T) (start : T)

/-- A path from `start` down to a thing. -/
structure IsPath (thing : T) (path : List T) : Prop where
  head : path.head? = some start
  last : path.getLast? = some thing
  chain : path.IsChain fun user thing => thing ∈ below user

/-- The product of what is used along a path. -/
def along (perRun : T → T → ℤ) : List T → ℤ
  | user :: thing :: rest => perRun user thing * along perRun (thing :: rest)
  | _ => 1

variable {below start} {thing : T} {path : List T}

theorem isPath_start : IsPath below start start [start] :=
  ⟨rfl, rfl, List.isChain_singleton start⟩

theorem IsPath.ne_nil (hpath : IsPath below start thing path) : path ≠ [] := by
  rintro rfl
  cases hpath.head

theorem IsPath.snoc {user : T} (hpath : IsPath below start user path)
    (hbelow : thing ∈ below user) : IsPath below start thing (path ++ [thing]) where
  head := by rw [List.head?_append_of_ne_nil _ hpath.ne_nil, hpath.head]
  last := List.getLast?_concat ..
  chain := by
    refine List.isChain_append.mpr ⟨hpath.chain, List.isChain_singleton thing, ?_⟩
    intro last hlast first hfirst
    rw [hpath.last, Option.mem_some_iff] at hlast
    rw [List.head?_cons, Option.mem_some_iff] at hfirst
    rwa [← hlast, ← hfirst]

/-- A path is at its start, or goes one step on from a path. -/
theorem IsPath.cases (hpath : IsPath below start thing path) :
    thing = start ∧ path = [start] ∨
      ∃ user init, IsPath below start user init ∧ thing ∈ below user ∧ path = init ++ [thing] := by
  rcases List.eq_nil_or_concat path with rfl | ⟨init, last, rfl⟩
  · exact absurd rfl hpath.ne_nil
  rw [List.concat_eq_append] at hpath ⊢
  obtain rfl : last = thing := by simpa using hpath.last
  by_cases hne : init = []
  · subst hne
    obtain rfl : last = start := by simpa using hpath.head
    exact Or.inl ⟨rfl, rfl⟩
  · obtain ⟨hchain, _, hlink⟩ := List.isChain_append.mp hpath.chain
    have hlast := List.getLast?_eq_getLast_of_ne_nil hne
    refine Or.inr ⟨init.getLast hne, init, ⟨?_, hlast, hchain⟩, hlink _ hlast last rfl, rfl⟩
    rw [← hpath.head, List.head?_append_of_ne_nil _ hne]

theorem along_snoc (perRun : T → T → ℤ) {user : T} (hlast : path.getLast? = some user)
    (thing : T) : along perRun (path ++ [thing]) = along perRun path * perRun user thing := by
  induction path with
  | nil => cases hlast
  | cons first rest ih =>
      cases rest with
      | nil =>
          obtain rfl : first = user := by simpa using hlast
          simp [along]
      | cons second rest =>
          rw [List.getLast?_cons_cons] at hlast
          simp only [List.cons_append, along] at ih ⊢
          rw [ih hlast, mul_assoc]

end Paths

/-! ## Paths of one length -/

section Depth

variable {T : Type*} [DecidableEq T] (below : T → Finset T) (start : T)

/-- The paths of `depth` steps to a thing. -/
def pathsTo : ℕ → T → Finset (List T)
  | 0, thing => if thing = start then {[thing]} else ∅
  | depth + 1, thing =>
      ((layer below start depth).filter fun user => thing ∈ below user).biUnion fun user =>
        (pathsTo depth user).image (· ++ [thing])

variable {below start} {depth : ℕ} {thing : T} {path : List T}

theorem IsPath.mem_layer (hpath : IsPath below start thing path)
    (hlength : path.length = depth + 1) : thing ∈ layer below start depth := by
  induction depth generalizing thing path with
  | zero =>
      rcases hpath.cases with ⟨rfl, _⟩ | ⟨user, init, hinit, _, rfl⟩
      · exact mem_layer_zero.mpr rfl
      · rw [List.length_append, List.length_singleton] at hlength
        exact absurd (List.length_eq_zero_iff.mp (by omega)) hinit.ne_nil
  | succ depth ih =>
      rcases hpath.cases with ⟨_, rfl⟩ | ⟨user, init, hinit, hbelow, rfl⟩
      · cases hlength
      · rw [List.length_append, List.length_singleton] at hlength
        exact mem_layer_succ.mpr ⟨user, ih hinit (by omega), hbelow⟩

theorem mem_pathsTo : path ∈ pathsTo below start depth thing ↔
    IsPath below start thing path ∧ path.length = depth + 1 := by
  induction depth generalizing thing path with
  | zero =>
      rw [pathsTo]
      constructor
      · intro hmem
        split at hmem
        · rename_i heq
          rw [Finset.mem_singleton.mp hmem, heq]
          exact ⟨isPath_start, rfl⟩
        · cases hmem
      · rintro ⟨hpath, hlength⟩
        rcases hpath.cases with ⟨rfl, rfl⟩ | ⟨user, init, hinit, _, rfl⟩
        · simp
        · -- a path of one thing is the start alone
          rw [List.length_append, List.length_singleton] at hlength
          exact absurd (List.length_eq_zero_iff.mp (by omega)) hinit.ne_nil
  | succ depth ih =>
      simp only [pathsTo, Finset.mem_biUnion, Finset.mem_filter, Finset.mem_image]
      constructor
      · rintro ⟨user, ⟨_, hbelow⟩, init, hinit, rfl⟩
        -- the last but one thing of a path is a user
        obtain ⟨hpath, hlength⟩ := ih.mp hinit
        exact ⟨hpath.snoc hbelow, by rw [List.length_append, hlength, List.length_singleton]⟩
      · rintro ⟨hpath, hlength⟩
        rcases hpath.cases with ⟨_, rfl⟩ | ⟨user, init, hinit, hbelow, rfl⟩
        · cases hlength
        · rw [List.length_append, List.length_singleton] at hlength
          have hinitLength : init.length = depth + 1 := by omega
          exact ⟨user, ⟨hinit.mem_layer hinitLength, hbelow⟩, init,
            ih.mpr ⟨hinit, hinitLength⟩, rfl⟩

/-- The sum over the paths of one more step. -/
theorem sum_pathsTo_succ {perRun : T → T → ℤ}
    (hperRun : ∀ user thing, thing ∉ below user → perRun user thing = 0) (depth : ℕ) (thing : T) :
    ∑ path ∈ pathsTo below start (depth + 1) thing, along perRun path =
      ∑ user ∈ layer below start depth,
        (∑ path ∈ pathsTo below start depth user, along perRun path) * perRun user thing := by
  rw [pathsTo, Finset.sum_biUnion, Finset.sum_filter]
  · refine Finset.sum_congr rfl fun user _ => ?_
    split
    · rw [Finset.sum_image fun _ _ _ _ heq => List.append_cancel_right heq, Finset.sum_mul]
      refine Finset.sum_congr rfl fun path hpath => ?_
      exact along_snoc perRun (mem_pathsTo.mp hpath).1.last thing
    · rename_i hnot
      rw [hperRun user thing hnot, mul_zero]
  · -- a path is found below one user only, its last but one
    intro user _ other _ hne
    refine Finset.disjoint_left.mpr fun path hpath hother => hne ?_
    obtain ⟨init, hinit, rfl⟩ := Finset.mem_image.mp hpath
    obtain ⟨init', hinit', heq⟩ := Finset.mem_image.mp hother
    obtain rfl := List.append_cancel_right heq
    exact Option.some_inj.mp ((mem_pathsTo.mp hinit).1.last.symm.trans
      (mem_pathsTo.mp hinit').1.last)

/-- **Spreading without rounding.**  If as many runs are made as units are needed, a
quantity arrives at a thing once for each path. -/
theorem spread_eq_sum_paths {runs : T → ℤ → ℤ} {perRun : T → T → ℤ}
    (hperRun : ∀ user thing, thing ∉ below user → perRun user thing = 0)
    (hruns : ∀ user thing quantity, thing ∈ below user → runs user quantity = quantity)
    (quantity : ℤ) (depth : ℕ) (thing : T) :
    spread below start runs perRun quantity depth thing =
      quantity * ∑ path ∈ pathsTo below start depth thing, along perRun path := by
  induction depth generalizing thing with
  | zero =>
      rw [spread, pathsTo]
      split
      · simp [along]
      · rw [Finset.sum_empty, mul_zero]
  | succ depth ih =>
      rw [spread, sum_pathsTo_succ hperRun, Finset.mul_sum]
      refine Finset.sum_congr rfl fun user _ => ?_
      by_cases hbelow : thing ∈ below user
      · rw [hruns user thing _ hbelow, ih, mul_assoc]
      · rw [hperRun user thing hbelow, mul_zero, mul_zero, mul_zero]

/-- **All paths.**  Where the layers end, the paths to a thing are finitely many, and the
sum over them is the sum over the depths. -/
theorem sum_paths {deeper : ℕ} (hempty : layer below start deeper = ∅) (perRun : T → T → ℤ)
    (thing : T) :
    {path | IsPath below start thing path}.Finite ∧
      ∑ᶠ path ∈ {path | IsPath below start thing path}, along perRun path =
        ∑ depth ∈ Finset.range deeper,
          ∑ path ∈ pathsTo below start depth thing, along perRun path := by
  have hpaths : {path | IsPath below start thing path} =
      ((Finset.range deeper).biUnion fun depth => pathsTo below start depth thing : Finset _) := by
    ext path
    simp only [Set.mem_ofPred_eq, Finset.mem_coe, Finset.mem_biUnion, Finset.mem_range,
      mem_pathsTo]
    constructor
    · intro hpath
      have hlength : path.length = path.length - 1 + 1 := by
        have hpos := List.length_pos_of_ne_nil hpath.ne_nil
        omega
      exact ⟨path.length - 1, lt_of_mem_layer hempty (hpath.mem_layer hlength), hpath, hlength⟩
    · rintro ⟨_, _, hpath, _⟩
      exact hpath
  rw [hpaths]
  refine ⟨Finset.finite_toSet _, ?_⟩
  rw [finsum_mem_coe_finset, Finset.sum_biUnion]
  intro depth _ other _ hne
  refine Finset.disjoint_left.mpr fun path hpath hother => hne ?_
  have hlength := (mem_pathsTo.mp hpath).2
  have hotherLength := (mem_pathsTo.mp hother).2
  omega

end Depth

end EveBuild
