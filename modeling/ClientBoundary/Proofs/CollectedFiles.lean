import ClientBoundary.Files.Collect
import Mathlib.Data.List.Perm.Lattice

/-! The files that patterns stand for, as a list. Paths are compared step by step, so a path is in
the list once, whatever the order of the patterns and however often they reach it. A file can have
several paths, and is in the list once for each sequence of steps by which it is reached. -/
namespace ClientBoundary

open Std

namespace PathName

def Step.label : Step → String
  | .down name => name
  | _ => ""

/-- Steps are in order by what they are, and then by name. -/
theorem Step.compare_eq : Step.compare = compareLex (compareOn Step.rank) (compareOn Step.label) := by
  funext first second
  cases first <;> cases second <;> simp [Step.compare, compareLex, compareOn, Step.rank, Step.label] <;> rfl

instance : TransCmp Step.compare := by
  rw [Step.compare_eq]
  infer_instance

instance : LawfulEqCmp Step.compare where
  eq_of_compare {first second} same := by
    cases first <;> cases second <;> simp_all [Step.compare, Step.rank]

theorem compareSteps_eq (first second : List Step) :
    compareSteps first second = List.compareLex Step.compare first second := by
  induction first generalizing second with
  | nil => cases second <;> rfl
  | cons step rest ih =>
    cases second with
    | nil => rfl
    | cons other others => rw [compareSteps, ih, List.compareLex_cons_cons]

theorem compare_eq (first second : String) :
    compare first second = List.compareLex Step.compare (steps first) (steps second) :=
  compareSteps_eq (steps first) (steps second)

theorem compareLex_swap (first second : List Step) :
    List.compareLex Step.compare first second =
      (List.compareLex Step.compare second first).swap := OrientedCmp.eq_swap

/-- Two texts are the same path exactly if they have the same steps. -/
theorem compare_eq_eq_iff {first second : String} :
    compare first second = .eq ↔ steps first = steps second := by
  rw [compare_eq]
  exact LawfulEqCmp.compare_eq_iff_eq

theorem compare_lt_of_lt_of_isLE {first second third : String} (less : compare first second = .lt)
    (le : (compare second third).isLE = true) : compare first third = .lt := by
  rw [compare_eq] at *
  exact TransCmp.lt_of_lt_of_isLE less le

theorem steps_ne_nil {path : String} (some : path.isEmpty = false) : steps path ≠ [] := by
  unfold steps
  cases spelled : path.toList with
  | nil =>
    rw [String.toList_eq_nil_iff] at spelled
    rw [spelled] at some
    cases some
  | cons first rest =>
    by_cases slash : first = '/'
    · simp [slash]
    · dsimp only
      rw [if_neg (by simpa using slash), pieces, if_neg slash]
      cases pieces '/' rest <;> simp

end PathName

namespace FileTree

open PathName

theorem names?_congr {first second : String} (same : steps first = steps second) :
    names? first = names? second := by
  have isEmpty {path : String} : path.isEmpty = true ↔ steps path = [] := by
    constructor
    · intro empty
      rw [String.isEmpty_iff] at empty
      rw [empty]
      rfl
    · intro none
      by_contra some
      exact steps_ne_nil (by simpa using some) none
  unfold names?
  simp only [isEmpty, same]

theorem namesAlong_append (soFar : List String) (lead rest : List Step) :
    namesAlong soFar (lead ++ rest) =
      (namesAlong soFar lead).bind fun names => namesAlong names.reverse rest := by
  induction lead generalizing soFar with
  | nil => simp [namesAlong]
  | cons step lead ih =>
    cases step with
    | root => rfl
    | here => exact ih soFar
    | up =>
      cases soFar with
      | nil => rfl
      | cons _ outer => exact ih outer
    | down name => exact ih (name :: soFar)

theorem namesAlong_down (soFar names : List String) :
    namesAlong soFar (names.map .down) = some (soFar.reverse ++ names) := by
  induction names generalizing soFar with
  | nil => simp [namesAlong]
  | cons name rest ih => simp [namesAlong, ih]

/-- Straight down from one place, each way leads somewhere else. -/
theorem names_inj_of_lead {lead : List Step} {first second : List String} {place : List String}
    (one : namesAlong [] (lead ++ first.map .down) = some place)
    (two : namesAlong [] (lead ++ second.map .down) = some place) : first = second := by
  rw [namesAlong_append] at one two
  cases reached : namesAlong [] lead with
  | none => simp [reached] at one
  | some names =>
    simp only [reached, Option.bind_some, namesAlong_down, List.reverse_reverse] at one two
    exact List.append_cancel_left (Option.some.inj (one.trans two.symm))

end FileTree

namespace Files

open PathName hiding compare

theorem inOrder_eq (first second : String) : inOrder first second = (PathName.compare first second).isLE := by
  unfold inOrder
  cases PathName.compare first second <;> rfl

theorem sorted_inOrder (paths : List String) :
    (paths.mergeSort inOrder).Pairwise fun first second => (PathName.compare first second).isLE = true := by
  have trans (first second third : String) (one : inOrder first second = true)
      (two : inOrder second third = true) : inOrder first third = true := by
    rw [inOrder_eq, compare_eq] at *
    exact TransCmp.isLE_trans one two
  have total (first second : String) : (inOrder first second || inOrder second first) = true := by
    rw [inOrder_eq, inOrder_eq, compare_eq, compare_eq, compareLex_swap]
    cases List.compareLex Step.compare (steps second) (steps first) <;> rfl
  simpa only [inOrder_eq] using List.pairwise_mergeSort trans total paths

theorem withoutRepeats_sublist (paths : List String) : (withoutRepeats paths).Sublist paths := by
  fun_induction withoutRepeats paths with
  | case1 first second rest _ ih =>
    exact ih.trans ((List.sublist_cons_self second rest).cons_cons first)
  | case2 first second rest _ ih => exact ih.cons_cons first
  | case3 paths => exact .refl paths

theorem exists_withoutRepeats {paths : List String} {path : String} (member : path ∈ paths) :
    ∃ same ∈ withoutRepeats paths, steps same = steps path := by
  fun_induction withoutRepeats paths generalizing path with
  | case1 first second rest same ih =>
    rcases List.mem_cons.mp member with rfl | later
    · exact ih List.mem_cons_self
    · rcases List.mem_cons.mp later with rfl | further
      · obtain ⟨found, isFound, alike⟩ := ih List.mem_cons_self
        exact ⟨found, isFound, alike.trans same⟩
      · exact ih (List.mem_cons_of_mem _ further)
  | case2 first second rest different ih =>
    rcases List.mem_cons.mp member with rfl | later
    · exact ⟨_, List.mem_cons_self, rfl⟩
    · obtain ⟨found, isFound, alike⟩ := ih later
      exact ⟨found, List.mem_cons_of_mem _ isFound, alike⟩
  | case3 paths => exact ⟨path, member, rfl⟩

/-- Without equal neighbours, a list in order is strictly in order. -/
theorem withoutRepeats_increasing {paths : List String}
    (sorted : paths.Pairwise fun first second => (PathName.compare first second).isLE = true) :
    (withoutRepeats paths).Pairwise fun first second => PathName.compare first second = .lt := by
  fun_induction withoutRepeats paths with
  | case1 first second rest _ ih =>
    exact ih (sorted.sublist ((List.sublist_cons_self second rest).cons_cons first))
  | case2 first second rest different ih =>
    obtain ⟨before, others⟩ := List.pairwise_cons.mp sorted
    have less : PathName.compare first second = .lt := by
      have le := before second List.mem_cons_self
      have ne := mt compare_eq_eq_iff.mp different
      cases order : PathName.compare first second with
      | lt => rfl
      | eq => exact absurd order ne
      | gt => rw [order] at le; cases le
    refine .cons (fun path member => ?_) (ih others)
    rcases List.mem_cons.mp ((withoutRepeats_sublist _).subset member) with rfl | later
    · exact less
    · exact compare_lt_of_lt_of_isLE less ((List.pairwise_cons.mp others).1 path later)
  | case3 paths short =>
    rcases paths with _ | ⟨first, _ | ⟨second, rest⟩⟩
    · exact .nil
    · exact List.pairwise_singleton _ _
    · exact (short first second rest rfl).elim

def Reaches (tree : FileTree) (patterns : List String) (path : String) : Prop :=
  ∃ pattern ∈ patterns, path ∈ expand tree pattern

section Collect

variable (tree : FileTree) (patterns : List String)

theorem collect_increasing :
    (collect tree patterns).Pairwise fun first second => PathName.compare first second = .lt :=
  withoutRepeats_increasing (sorted_inOrder _)

variable {patterns}

theorem reaches_of_mem_collect {path : String} (member : path ∈ collect tree patterns) :
    Reaches tree patterns path := by
  have found := (withoutRepeats_sublist _).subset member
  rwa [List.mem_mergeSort, List.mem_flatMap] at found

theorem exists_mem_collect {path : String} (reaches : Reaches tree patterns path) :
    ∃ same ∈ collect tree patterns, steps same = steps path := by
  apply exists_withoutRepeats
  rwa [List.mem_mergeSort, List.mem_flatMap]

theorem mem_steps_collect {route : List Step} :
    route ∈ (collect tree patterns).map steps ↔
      ∃ path, Reaches tree patterns path ∧ steps path = route := by
  rw [List.mem_map]
  constructor
  · rintro ⟨path, member, rfl⟩
    exact ⟨path, reaches_of_mem_collect tree member, rfl⟩
  · rintro ⟨path, reaches, rfl⟩
    exact exists_mem_collect tree reaches

theorem steps_collect_increasing (patterns : List String) :
    ((collect tree patterns).map steps).Pairwise fun first second =>
      List.compareLex Step.compare first second = .lt := by
  rw [List.pairwise_map]
  simpa only [compare_eq] using collect_increasing tree patterns

/-- Two lists in strict order with the same members are one list. -/
theorem steps_collect_congr {others : List String}
    (same : ∀ pattern, pattern ∈ others ↔ pattern ∈ patterns) :
    (collect tree others).map steps = (collect tree patterns).map steps := by
  have nodup (patterns : List String) : ((collect tree patterns).map steps).Nodup := by
    refine (steps_collect_increasing tree patterns).imp ?_
    rintro route _ less rfl
    have self : List.compareLex Step.compare route route = .eq := ReflCmp.compare_self
    rw [self] at less
    cases less
  have members : ∀ route, route ∈ (collect tree others).map steps ↔
      route ∈ (collect tree patterns).map steps := by
    intro route
    simp only [mem_steps_collect, Reaches, same]
  refine List.Perm.eq_of_pairwise ?_ (steps_collect_increasing tree others)
    (steps_collect_increasing tree patterns)
    ((List.perm_ext_iff_of_nodup (nodup others) (nodup patterns)).mpr members)
  intro first second _ _ less more
  rw [compareLex_swap, less] at more
  cases more

/-- A file is in the list once exactly if all the paths by which it is reached have the same
steps. -/
theorem countP_collect_le_one_iff (place : List String) :
    (collect tree patterns).countP (fun path => FileTree.names? path = some place) ≤ 1 ↔
      ∀ first second, Reaches tree patterns first → Reaches tree patterns second →
        FileTree.names? first = some place → FileTree.names? second = some place →
        steps first = steps second := by
  rw [List.countP_eq_length_filter]
  constructor
  · intro once first second reaches reachesToo leads leadsToo
    obtain ⟨one, isOne, alike⟩ := exists_mem_collect tree reaches
    obtain ⟨two, isTwo, alikeToo⟩ := exists_mem_collect tree reachesToo
    have oneLeads : one ∈ (collect tree patterns).filter
        (fun path => FileTree.names? path = some place) :=
      List.mem_filter.mpr ⟨isOne, by simpa [FileTree.names?_congr alike] using leads⟩
    have twoLeads : two ∈ (collect tree patterns).filter
        (fun path => FileTree.names? path = some place) :=
      List.mem_filter.mpr ⟨isTwo, by simpa [FileTree.names?_congr alikeToo] using leadsToo⟩
    obtain ⟨only, isOnly⟩ := List.length_eq_one_iff.mp
      (Nat.le_antisymm once (List.length_pos_of_mem oneLeads))
    rw [isOnly, List.mem_singleton] at oneLeads twoLeads
    rw [← alike, ← alikeToo, oneLeads, twoLeads]
  · intro alike
    have increasing := (collect_increasing tree patterns).sublist
      (@List.filter_sublist _ (fun path => FileTree.names? path = some place) _)
    have leads : ∀ path ∈ (collect tree patterns).filter
        (fun path => FileTree.names? path = some place),
        Reaches tree patterns path ∧ FileTree.names? path = some place := by
      intro path member
      obtain ⟨isPath, holds⟩ := List.mem_filter.mp member
      exact ⟨reaches_of_mem_collect tree isPath, of_decide_eq_true holds⟩
    -- Of two paths next to each other the one would be less than the other, and both have the same
    -- steps.
    generalize (collect tree patterns).filter (fun path => FileTree.names? path = some place) =
      found at increasing leads ⊢
    rcases found with _ | ⟨first, _ | ⟨second, rest⟩⟩
    · exact Nat.zero_le 1
    · exact Nat.le_refl 1
    · obtain ⟨reaches, there⟩ := leads first List.mem_cons_self
      obtain ⟨reachesToo, thereToo⟩ := leads second (List.mem_cons_of_mem _ List.mem_cons_self)
      have same := compare_eq_eq_iff.mpr (alike first second reaches reachesToo there thereToo)
      have less := List.rel_of_pairwise_cons increasing List.mem_cons_self
      rw [same] at less
      cases less

/-- The paths that are collected are strictly in order, they are those that the patterns reach, and
as sequences of steps they depend on neither the order of the patterns nor their number. A file is
collected as often as there are sequences of steps by which it is reached: once exactly if there is
one, and so always if all paths go straight down from one common start. -/
theorem paths_collected_once :
    (collect tree patterns).Pairwise (fun first second => PathName.compare first second = .lt) ∧
    (∀ path ∈ collect tree patterns, Reaches tree patterns path) ∧
    (∀ path, Reaches tree patterns path → ∃ same ∈ collect tree patterns, steps same = steps path) ∧
    (∀ others, (∀ pattern, pattern ∈ others ↔ pattern ∈ patterns) →
      (collect tree others).map steps = (collect tree patterns).map steps) ∧
    (∀ place, (collect tree patterns).countP (fun path => FileTree.names? path = some place) ≤ 1 ↔
      ∀ first second, Reaches tree patterns first → Reaches tree patterns second →
        FileTree.names? first = some place → FileTree.names? second = some place →
        steps first = steps second) ∧
    ∀ lead : List Step,
      (∀ path, Reaches tree patterns path → ∃ names : List String,
        steps path = lead ++ names.map .down) →
      ∀ place, (collect tree patterns).countP (fun path => FileTree.names? path = some place) ≤ 1 := by
  refine ⟨collect_increasing tree patterns, fun path => reaches_of_mem_collect tree,
    fun path => exists_mem_collect tree, fun others => steps_collect_congr tree,
    countP_collect_le_one_iff tree, ?_⟩
  intro lead straight place
  rw [countP_collect_le_one_iff]
  intro first second reaches reachesToo leads leadsToo
  obtain ⟨names, one⟩ := straight first reaches
  obtain ⟨others, two⟩ := straight second reachesToo
  have along {path : String} (leads : FileTree.names? path = some place) :
      FileTree.namesAlong [] (steps path) = some place := by
    unfold FileTree.names? at leads
    split at leads
    · cases leads
    · exact leads
  have same := FileTree.names_inj_of_lead (one ▸ along leads) (two ▸ along leadsToo)
  rw [one, two, same]

end Collect

/-- One file under two paths is collected twice. -/
theorem file_collected_twice :
    let tree := FileTree.folder [("a.jsx", .file ⟨.text "window.a", true⟩)]
    collect tree ["./a.jsx", "a.jsx"] = ["./a.jsx", "a.jsx"] ∧
      (collect tree ["./a.jsx", "a.jsx"]).countP (fun path => FileTree.names? path = some ["a.jsx"]) = 2 := by
  intro tree
  have expanded : ["./a.jsx", "a.jsx"].flatMap (expand tree) = ["./a.jsx", "a.jsx"] := by
    decide +kernel
  have paths : collect tree ["./a.jsx", "a.jsx"] = ["./a.jsx", "a.jsx"] := by
    rw [collect, expanded, List.mergeSort_of_pairwise (by decide +kernel), withoutRepeats,
      if_neg (by decide +kernel), withoutRepeats]
    simp
  rw [paths]
  decide +kernel

end Files

end ClientBoundary
