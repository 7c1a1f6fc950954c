import ClientBoundary.Proofs.EditsTogether

/-! Which fixes are made when several are asked for. Diagnostics are gone through in order, and a
fix is taken as a whole or not at all: it is left out exactly if it is in conflict with one that has
been taken before it. What is left out has no say in what comes later, so it could as well not be
there. -/
namespace ClientBoundary

def Fix.acceptNext (accepted : List TextEdit) (fix : Fix) : List TextEdit :=
  if fix.edits.any fun edit => accepted.any (edit.overlaps ·) then accepted
  else accepted ++ fix.edits

theorem Fix.accept_eq_foldl (fixes : List Fix) : accept fixes = fixes.foldl acceptNext [] := rfl

namespace Diagnostic

def edits (diagnostic : Diagnostic) : List TextEdit := (diagnostic.fix.map (·.edits)).getD []

def ConflictsWith (first second : Diagnostic) : Prop :=
  ∃ edit ∈ first.edits, ∃ other ∈ second.edits, edit.overlaps other = true

instance (first second : Diagnostic) : Decidable (first.ConflictsWith second) :=
  inferInstanceAs (Decidable (∃ _ ∈ _, _))

/-- The diagnostic has a fix, and it can be made along with those of some others. -/
def GoesWith (earlier : List Diagnostic) (diagnostic : Diagnostic) : Prop :=
  diagnostic.fix.isSome = true ∧ ∀ other ∈ earlier, ¬ diagnostic.ConflictsWith other

instance (earlier : List Diagnostic) (diagnostic : Diagnostic) :
    Decidable (diagnostic.GoesWith earlier) := inferInstanceAs (Decidable (_ ∧ _))

/-- For each diagnostic whether its fix is taken, after those of some others have been. -/
def takenAfter (earlier : List Diagnostic) : List Diagnostic → List Bool
  | [] => []
  | diagnostic :: rest =>
    if diagnostic.GoesWith earlier then true :: takenAfter (earlier ++ [diagnostic]) rest
    else false :: takenAfter earlier rest

def taken (diagnostics : List Diagnostic) : List Bool := takenAfter [] diagnostics

def picked : List Bool → List Diagnostic → List Diagnostic
  | true :: choices, diagnostic :: rest => diagnostic :: picked choices rest
  | false :: choices, _ :: rest => picked choices rest
  | _, _ => []

def Covers : (choices fewer : List Bool) → Prop :=
  List.Forall₂ fun wide narrow => narrow = true → wide = true

theorem conflictsWith_comm (first second : Diagnostic) :
    first.ConflictsWith second ↔ second.ConflictsWith first := by
  constructor
  all_goals
    rintro ⟨edit, own, other, theirs, overlap⟩
    exact ⟨other, theirs, edit, own, by rwa [TextEdit.overlaps_comm]⟩

theorem picked_all (diagnostics : List Diagnostic) :
    picked (diagnostics.map fun _ => true) diagnostics = diagnostics := by
  induction diagnostics with
  | nil => rfl
  | cons diagnostic rest ih => simp only [List.map_cons, picked, ih]

/-! The run through the diagnostics, from any that have been taken before. -/

section Run

variable (earlier : List Diagnostic)

theorem takenAfter_of_goes {diagnostic : Diagnostic} (rest : List Diagnostic)
    (goes : diagnostic.GoesWith earlier) :
    takenAfter earlier (diagnostic :: rest) =
      true :: takenAfter (earlier ++ [diagnostic]) rest := by
  rw [takenAfter, if_pos goes]

theorem takenAfter_of_not_goes {diagnostic : Diagnostic} (rest : List Diagnostic)
    (stays : ¬ diagnostic.GoesWith earlier) :
    takenAfter earlier (diagnostic :: rest) = false :: takenAfter earlier rest := by
  rw [takenAfter, if_neg stays]

theorem length_takenAfter (diagnostics : List Diagnostic) :
    (takenAfter earlier diagnostics).length = diagnostics.length := by
  induction diagnostics generalizing earlier with
  | nil => rfl
  | cons diagnostic rest ih =>
    by_cases goes : diagnostic.GoesWith earlier
    · simp [takenAfter_of_goes _ _ goes, ih]
    · simp [takenAfter_of_not_goes _ _ goes, ih]

theorem covers_all (diagnostics : List Diagnostic) :
    Covers (diagnostics.map fun _ => true) (takenAfter earlier diagnostics) := by
  induction diagnostics generalizing earlier with
  | nil => exact .nil
  | cons diagnostic rest ih =>
    by_cases goes : diagnostic.GoesWith earlier
    · rw [takenAfter_of_goes _ _ goes]
      exact .cons (fun _ => rfl) (ih _)
    · rw [takenAfter_of_not_goes _ _ goes]
      exact .cons (fun _ => rfl) (ih _)

/-- The decision at a place is made against those that have been taken up to there. -/
theorem takenAfter_getElem? (diagnostics : List Diagnostic) {place : Nat} {diagnostic : Diagnostic}
    (here : diagnostics[place]? = some diagnostic) :
    (takenAfter earlier diagnostics)[place]? = some true ↔
      diagnostic.GoesWith earlier ∧ ∀ before < place, ∀ other,
        (takenAfter earlier diagnostics)[before]? = some true →
        diagnostics[before]? = some other → ¬ diagnostic.ConflictsWith other := by
  induction diagnostics generalizing earlier place with
  | nil => cases here
  | cons first rest ih =>
    cases place with
    | zero =>
      obtain rfl : first = diagnostic := Option.some.inj here
      by_cases goes : first.GoesWith earlier
      · simp [takenAfter_of_goes _ _ goes, goes]
      · simp [takenAfter_of_not_goes _ _ goes, goes]
    | succ place =>
      by_cases goes : first.GoesWith earlier
      · rw [takenAfter_of_goes _ _ goes, List.getElem?_cons_succ, ih _ here]
        constructor
        · rintro ⟨⟨fixable, apart⟩, later⟩
          refine ⟨⟨fixable, fun other member => apart other (List.mem_append_left _ member)⟩, ?_⟩
          rintro (_ | before) small other chosen found
          · cases found
            exact apart first (by simp)
          · exact later before (by omega) other chosen found
        · rintro ⟨⟨fixable, apart⟩, later⟩
          refine ⟨⟨fixable, fun other member => ?_⟩, fun before small other chosen found =>
            later (before + 1) (by omega) other chosen found⟩
          rcases List.mem_append.mp member with known | new
          · exact apart other known
          · cases List.mem_singleton.mp new
            exact later 0 (by omega) first rfl rfl
      · rw [takenAfter_of_not_goes _ _ goes, List.getElem?_cons_succ, ih _ here]
        refine and_congr_right fun _ => ⟨?_, ?_⟩
        · rintro later (_ | before) small other chosen found
          · cases chosen
          · exact later before (by omega) other chosen found
        · exact fun later before small other chosen found =>
            later (before + 1) (by omega) other chosen found

/-- What is taken is apart from all that has been taken before, and from each other. -/
theorem takenAfter_apart (diagnostics : List Diagnostic) :
    (∀ diagnostic ∈ picked (takenAfter earlier diagnostics) diagnostics,
      diagnostic.GoesWith earlier) ∧
    (picked (takenAfter earlier diagnostics) diagnostics).Pairwise fun first second =>
      ¬ first.ConflictsWith second := by
  induction diagnostics generalizing earlier with
  | nil => exact ⟨nofun, .nil⟩
  | cons diagnostic rest ih =>
    by_cases goes : diagnostic.GoesWith earlier
    · rw [takenAfter_of_goes _ _ goes, picked]
      obtain ⟨goWith, apart⟩ := ih (earlier ++ [diagnostic])
      constructor
      · intro later member
        rcases List.mem_cons.mp member with rfl | further
        · exact goes
        · obtain ⟨fixable, clear⟩ := goWith later further
          exact ⟨fixable, fun other known => clear other (List.mem_append_left _ known)⟩
      · refine .cons (fun later member => ?_) apart
        rw [conflictsWith_comm]
        exact (goWith later member).2 diagnostic (by simp)
    · rw [takenAfter_of_not_goes _ _ goes, picked]
      exact ih earlier

end Run

/-! The same run by the edits alone. -/

/-- A fix goes with those taken before exactly if none of its edits overlaps one of theirs. -/
theorem acceptNext_eq {diagnostic : Diagnostic} {fix : Fix} (has : diagnostic.fix = some fix)
    (earlier : List Diagnostic) :
    Fix.acceptNext (earlier.flatMap edits) fix =
      if diagnostic.GoesWith earlier then (earlier ++ [diagnostic]).flatMap edits
      else earlier.flatMap edits := by
  have own : diagnostic.edits = fix.edits := by simp [edits, has]
  have clash : (fix.edits.any fun edit => (earlier.flatMap edits).any (edit.overlaps ·)) = true ↔
      ¬ diagnostic.GoesWith earlier := by
    simp only [GoesWith, has, Option.isSome_some, true_and, ConflictsWith, own, List.any_eq_true,
      List.mem_flatMap]
    push Not
    constructor
    · rintro ⟨edit, mine, other, ⟨diagnostic, known, theirs⟩, overlap⟩
      exact ⟨diagnostic, known, edit, mine, other, theirs, overlap⟩
    · rintro ⟨diagnostic, known, edit, mine, other, theirs, overlap⟩
      exact ⟨edit, mine, other, ⟨diagnostic, known, theirs⟩, overlap⟩
  unfold Fix.acceptNext
  by_cases goes : diagnostic.GoesWith earlier
  · rw [if_neg (by rw [clash]; exact not_not_intro goes), if_pos goes]
    simp [own]
  · rw [if_pos (clash.mpr goes), if_neg goes]

/-- Whatever is looked at beyond what is taken, the edits that are accepted are those of what is
taken. -/
theorem foldl_acceptNext (earlier diagnostics : List Diagnostic) {choices : List Bool}
    (covers : Covers choices (takenAfter earlier diagnostics)) :
    ((picked choices diagnostics).filterMap (·.fix)).foldl Fix.acceptNext (earlier.flatMap edits) =
      (earlier ++ picked (takenAfter earlier diagnostics) diagnostics).flatMap edits := by
  induction diagnostics generalizing earlier choices with
  | nil =>
    cases covers
    simp [picked, takenAfter]
  | cons diagnostic rest ih =>
    by_cases goes : diagnostic.GoesWith earlier
    · obtain ⟨fix, has⟩ := Option.isSome_iff_exists.mp goes.1
      rw [takenAfter_of_goes _ _ goes] at covers ⊢
      obtain ⟨choice, others, chosen, further, rfl⟩ := List.forall₂_cons_right_iff.mp covers
      rw [chosen rfl, picked, picked, List.filterMap_cons_some has, List.foldl_cons,
        acceptNext_eq has, if_pos goes, ih _ further, List.append_assoc, List.singleton_append]
    · rw [takenAfter_of_not_goes _ _ goes] at covers ⊢
      obtain ⟨choice, others, _, further, rfl⟩ := List.forall₂_cons_right_iff.mp covers
      -- Looked at or not, it changes nothing.
      cases choice with
      | false => exact ih _ further
      | true =>
        cases has : diagnostic.fix with
        | none =>
          rw [picked, picked, List.filterMap_cons_none has]
          exact ih _ further
        | some fix =>
          rw [picked, picked, List.filterMap_cons_some has, List.foldl_cons, acceptNext_eq has,
            if_neg goes]
          exact ih _ further

theorem accept_picked (diagnostics : List Diagnostic) {choices : List Bool}
    (covers : Covers choices (taken diagnostics)) :
    Fix.accept ((picked choices diagnostics).filterMap (·.fix)) =
      (picked (taken diagnostics) diagnostics).flatMap edits := by
  rw [Fix.accept_eq_foldl]
  exact foldl_acceptNext [] diagnostics covers

theorem accept_eq_taken (diagnostics : List Diagnostic) :
    Fix.accept (diagnostics.filterMap (·.fix)) =
      (picked (taken diagnostics) diagnostics).flatMap edits := by
  have all := accept_picked diagnostics (covers_all [] diagnostics)
  rwa [picked_all] at all

end Diagnostic

theorem applyFixes?_congr (source : String) {diagnostics others : List Diagnostic}
    (same : Fix.accept (others.filterMap (·.fix)) = Fix.accept (diagnostics.filterMap (·.fix))) :
    applyFixes? source others = applyFixes? source diagnostics := by
  rw [applyFixes?, applyFixes?, Fix.applyAll?, Fix.applyAll?, same]

open Diagnostic in
/-- Fixes are taken whole and greedily. There is a decision for each diagnostic; the accepted edits
are all those of the fixes that are taken, in order, and no others; no two of these fixes are in
conflict; a fix is left out exactly if it is in conflict with one that is taken before it. The text
that comes out is that of a single fix with the accepted edits. To leave out any of those that are
not taken, or to add diagnostics without a fix anywhere, does not change it. -/
theorem fixes_taken_greedily (diagnostics : List Diagnostic) :
    (taken diagnostics).length = diagnostics.length ∧
    Fix.accept (diagnostics.filterMap (·.fix)) =
      (picked (taken diagnostics) diagnostics).flatMap edits ∧
    (picked (taken diagnostics) diagnostics).Pairwise (fun first second =>
      ∀ edit ∈ first.edits, ∀ other ∈ second.edits, edit.overlaps other = false) ∧
    (∀ (place : Nat) (diagnostic : Diagnostic) (fix : Fix),
      diagnostics[place]? = some diagnostic → diagnostic.fix = some fix →
      ((taken diagnostics)[place]? = some false ↔
        ∃ before < place, ∃ other, (taken diagnostics)[before]? = some true ∧
          diagnostics[before]? = some other ∧
          ∃ edit ∈ fix.edits, ∃ taken ∈ other.edits, edit.overlaps taken = true)) ∧
    ∀ source : String,
      (∀ message, applyFixes? source diagnostics =
        Fix.applyTo? ⟨message, (picked (taken diagnostics) diagnostics).flatMap edits⟩ source) ∧
      (∀ choices, Covers choices (taken diagnostics) →
        applyFixes? source (picked choices diagnostics) = applyFixes? source diagnostics) ∧
      ∀ longer : List Diagnostic,
        longer.filter (·.fix.isSome) = diagnostics.filter (·.fix.isSome) →
        applyFixes? source longer = applyFixes? source diagnostics := by
  refine ⟨length_takenAfter [] diagnostics, accept_eq_taken diagnostics, ?_, ?_,
    fun source => ⟨?_, ?_, ?_⟩⟩
  · refine (takenAfter_apart [] diagnostics).2.imp ?_
    intro first second apart edit own other theirs
    rw [← Bool.not_eq_true]
    exact fun overlap => apart ⟨edit, own, other, theirs, overlap⟩
  · intro place diagnostic fix here has
    have own : diagnostic.edits = fix.edits := by simp [edits, has]
    have fixable : diagnostic.GoesWith [] := ⟨by rw [has]; rfl, nofun⟩
    have decided := takenAfter_getElem? [] diagnostics here
    obtain ⟨choice, chosen⟩ : ∃ choice, (taken diagnostics)[place]? = some choice := by
      have inside := (List.getElem?_eq_some_iff.mp here).1
      rw [← length_takenAfter [] diagnostics] at inside
      exact ⟨_, List.getElem?_eq_getElem inside⟩
    have refused : (taken diagnostics)[place]? = some false ↔
        ¬ (taken diagnostics)[place]? = some true := by
      rw [chosen]
      cases choice <;> simp
    rw [refused, taken, decided, ← own]
    simp only [fixable, true_and, ConflictsWith, not_forall, not_not, exists_prop]
  · intro message
    rw [applyFixes?, Fix.applyAll?, accept_eq_taken, Fix.applyTo?]
  · intro choices covers
    apply applyFixes?_congr
    rw [accept_picked diagnostics covers, accept_eq_taken]
  · intro longer same
    have fixes (list : List Diagnostic) :
        (list.filter (·.fix.isSome)).filterMap (·.fix) = list.filterMap (·.fix) := by
      induction list with
      | nil => rfl
      | cons diagnostic rest ih => cases has : diagnostic.fix <;> simp [has, ih]
    apply applyFixes?_congr
    rw [← fixes longer, same, fixes]

-- The second fix is in conflict with the first; its insertion is not made either, and it is not in
-- the way of the third.
example : Diagnostic.taken [.ofEdits [.delete 2 4], .ofEdits [.insert 9 "X", .delete 3 5],
    .ofEdits [.delete 4 5]] = [true, false, true] := by decide

end ClientBoundary
