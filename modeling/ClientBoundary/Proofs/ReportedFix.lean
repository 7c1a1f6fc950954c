import ClientBoundary.Proofs.ReportCounts
import ClientBoundary.Proofs.Splicing

/-! The fix in a message of the JSON report. It is one replacement: the least range that holds all
edits of the fix, and their new texts one after the other as they are listed. A tool that makes this
replacement gets what the fix itself makes of the text exactly if the edits touch and their texts
are listed as they follow each other in the source: text between two edits is in the range but not
in the report. -/
namespace ClientBoundary

namespace TextEdit

def newTexts (edits : List TextEdit) : List Char := edits.flatMap (·.newText.toList)

/-- Where the last of some edits stops, or the offset if there is none. -/
def stopOfLast : Nat → List TextEdit → Nat
  | offset, [] => offset
  | _, edit :: rest => stopOfLast edit.stop rest

/-- What edits make of the text from an offset up to the end of the last of them. -/
def spliceWithin? (text : List Char) : Nat → List TextEdit → Option (List Char)
  | _, [] => some []
  | offset, edit :: rest => do
    let gap ← Text.slice? offset edit.start text
    let others ← spliceWithin? text edit.stop rest
    return gap ++ edit.newText.toList ++ others

theorem splice?_eq_spliceWithin? (text : List Char) (offset : Nat) (edits : List TextEdit) :
    splice? text offset edits = (spliceWithin? text offset edits).bind fun made =>
      (Text.slice? (stopOfLast offset edits) (Text.byteLength text) text).map (made ++ ·) := by
  induction edits generalizing offset with
  | nil => simp [splice?, spliceWithin?, stopOfLast]
  | cons edit rest ih =>
    rw [splice?, spliceWithin?, stopOfLast, ih]
    cases Text.slice? offset edit.start text with
    | none => rfl
    | some gap =>
      cases spliceWithin? text edit.stop rest with
      | none => rfl
      | some made =>
        cases Text.slice? (stopOfLast edit.stop rest) (Text.byteLength text) text <;> simp

/-- Behind an edit, what the others make is at least as long as their new texts, and no longer only
if they touch. -/
theorem touch_of_length {text made : List Char} {edit : TextEdit} {rest : List TextEdit}
    (found : spliceWithin? text edit.stop rest = some made) :
    (newTexts rest).length ≤ made.length ∧
      (made.length = (newTexts rest).length →
        (edit :: rest).IsChain fun earlier later => earlier.stop = later.start) := by
  induction rest generalizing edit made with
  | nil => simp [newTexts]
  | cons next rest ih =>
    simp only [spliceWithin?, Option.pure_def, Option.bind_eq_bind] at found
    obtain ⟨gap, cut, further⟩ := Option.bind_eq_some_iff.mp found
    obtain ⟨others, behind, same⟩ := Option.bind_eq_some_iff.mp further
    obtain ⟨least, touch⟩ := ih behind
    have split : newTexts (next :: rest) = next.newText.toList ++ newTexts rest := rfl
    rw [← Option.some.inj same, split]
    simp only [List.length_append]
    refine ⟨by omega, fun equal => List.isChain_cons_cons.mpr ⟨?_, touch (by omega)⟩⟩
    have empty : gap = [] := List.eq_nil_of_length_eq_zero (by omega)
    have length := Text.byteLength_of_slice? cut
    rw [empty] at length
    exact length

theorem spliceWithin?_of_touch {text made : List Char} {edit : TextEdit} {rest : List TextEdit}
    (found : spliceWithin? text edit.stop rest = some made)
    (touch : (edit :: rest).IsChain fun earlier later => earlier.stop = later.start) :
    made = newTexts rest := by
  induction rest generalizing edit made with
  | nil => exact (Option.some.inj found).symm
  | cons next rest ih =>
    simp only [spliceWithin?, Option.pure_def, Option.bind_eq_bind] at found
    obtain ⟨gap, cut, further⟩ := Option.bind_eq_some_iff.mp found
    obtain ⟨others, behind, same⟩ := Option.bind_eq_some_iff.mp further
    obtain ⟨meets, onwards⟩ := List.isChain_cons_cons.mp touch
    have length := Text.byteLength_of_slice? cut
    have empty : gap = [] := Text.eq_nil_of_byteLength (by omega)
    rw [← Option.some.inj same, ih behind onwards, empty]
    rfl

/-- Edits from left to right reach from the start of the first to the stop of the last. -/
theorem spans_of_ascending {first : TextEdit} {rest : List TextEdit}
    (ordered : ∀ edit ∈ first :: rest, edit.start ≤ edit.stop)
    (ascends : (first :: rest).Pairwise fun earlier later => earlier.stop ≤ later.start) :
    Spans (first :: rest) first.start (stopOfLast first.stop rest) := by
  induction rest generalizing first with
  | nil => exact ⟨by simp, by simp, by simp [stopOfLast], by simp [stopOfLast]⟩
  | cons next rest ih =>
    have later := ih (fun edit member => ordered edit (List.mem_cons_of_mem _ member)) ascends.of_cons
    have meets : first.stop ≤ next.start := List.rel_of_pairwise_cons ascends List.mem_cons_self
    have forward := ordered first List.mem_cons_self
    obtain ⟨last, isLast, stops⟩ := later.stops
    refine ⟨⟨first, List.mem_cons_self, rfl⟩, ?_, ⟨last, List.mem_cons_of_mem _ isLast, stops⟩, ?_⟩
    · intro edit member
      rcases List.mem_cons.mp member with rfl | isLater
      · exact Nat.le_refl _
      · have := later.least edit isLater
        omega
    · intro edit member
      rcases List.mem_cons.mp member with rfl | isLater
      · have := later.most next List.mem_cons_self
        have := ordered next (List.mem_cons_of_mem _ List.mem_cons_self)
        rw [stopOfLast]
        omega
      · exact later.most edit isLater

/-- Edits from left to right, and one replacement of the stretch that they span. The replacement can
be made as well, and the results agree exactly if the edits touch and it has their new texts in this
order. It is as long as these texts, so there is no place in it for text between the edits. -/
theorem exists_splice?_single {text applied : List Char} {first : TextEdit} {rest : List TextEdit}
    {newText : String} (length : newText.toList.length = (newTexts (first :: rest)).length)
    (made : splice? text 0 (first :: rest) = some applied) :
    ∃ replaced, splice? text 0 [⟨first.start, stopOfLast first.stop rest, newText⟩] = some replaced ∧
      (replaced = applied ↔
        ((first :: rest).IsChain fun earlier later => earlier.stop = later.start) ∧
          newTexts (first :: rest) = newText.toList) := by
  have split : newTexts (first :: rest) = first.newText.toList ++ newTexts rest := rfl
  simp only [splice?, Option.pure_def, Option.bind_eq_bind] at made ⊢
  obtain ⟨gap, before, further⟩ := Option.bind_eq_some_iff.mp made
  obtain ⟨others, behind, isApplied⟩ := Option.bind_eq_some_iff.mp further
  rw [splice?_eq_spliceWithin?] at behind
  obtain ⟨within, inside, found⟩ := Option.bind_eq_some_iff.mp behind
  obtain ⟨after, tail, isOthers⟩ := Option.map_eq_some_iff.mp found
  refine ⟨gap ++ newText.toList ++ after, by rw [before, tail]; rfl, ?_⟩
  rw [← Option.some.inj isApplied, ← isOthers]
  simp only [List.append_assoc, List.append_cancel_left_eq]
  rw [← List.append_assoc, List.append_cancel_right_eq, split]
  constructor
  · intro same
    have lengths := congrArg List.length same
    rw [split] at length
    simp only [List.length_append] at lengths length
    have touch := (touch_of_length inside).2 (by omega)
    exact ⟨touch, by rw [same, spliceWithin?_of_touch inside touch]⟩
  · rintro ⟨touch, same⟩
    rw [← same, spliceWithin?_of_touch inside touch]

end TextEdit

def Json.text? : Json → Option String
  | .string text => some text
  | _ => none

namespace Report

/-- A fix of the report as a tool makes it: one replacement in the source. -/
def replacement? (fix : Json) : Option TextEdit := do
  let range ← fix.member? "range"
  let start ← range.items[0]?
  let stop ← range.items[1]?
  let text ← fix.member? "text"
  return ⟨(← start.integer?).toNat, (← stop.integer?).toNat, ← text.text?⟩

theorem replacement?_fixJson (fix : Fix) : replacement? (fixJson fix) =
    some ⟨fix.range.1, fix.range.2, String.join (fix.edits.map (·.newText))⟩ := by
  simp [replacement?, fixJson, Json.member?, Json.items, Json.integer?, Json.text?]

theorem member?_fix_messageJson (index : LineIndex) (diagnostic : Diagnostic) :
    (messageJson index diagnostic).member? "fix" = diagnostic.fix.map fixJson := by
  cases isFix : diagnostic.fix <;> simp [messageJson, Json.member?, isFix]

/-- The fix in the report and the fix itself. The message of a diagnostic whose fix has an edit
states one replacement, and both can be made. They give the same text exactly if, from left to
right, each edit stops where the next one starts, and the new texts are listed in this order; so a
fix with a single edit is reported as it is. -/
theorem reported_fix_agrees_iff {source : String} {diagnostic : Diagnostic} {fix : Fix}
    (index : LineIndex) (fixable : diagnostic.fix = some fix) (any : fix.edits ≠ [])
    (inside : ∀ edit ∈ fix.edits, edit.span.Cuts source.toList)
    (starts : fix.edits.Pairwise fun first second => first.start ≠ second.start)
    (apart : fix.edits.Pairwise fun first second =>
      first.stop ≤ second.start ∨ second.stop ≤ first.start) :
    ∃ (reported : TextEdit) (ordered : List TextEdit) (replaced : List Char) (applied : String),
      ((messageJson index diagnostic).member? "fix").bind replacement? = some reported ∧
      TextEdit.splice? source.toList 0 [reported] = some replaced ∧
      fix.applyTo? source = some applied ∧
      ordered.Perm fix.edits ∧
      ordered.Pairwise (fun earlier later => earlier.stop ≤ later.start) ∧
      (String.ofList replaced = applied ↔
        ordered.IsChain (fun earlier later => earlier.stop = later.start) ∧
          ordered.flatMap (·.newText.toList) = fix.edits.flatMap (·.newText.toList)) ∧
      (∀ edit, fix.edits = [edit] → String.ofList replaced = applied) := by
  have falling := TextEdit.falling_fromTheEnd inside starts apart
  have perm := (List.reverse_perm _).trans (TextEdit.fromTheEnd_perm fix.edits)
  have ascends := List.pairwise_reverse.mpr falling.apart
  obtain ⟨applied, spliced, run⟩ := falling.foldlM_eq_splice? []
  rw [List.append_nil, List.append_nil] at run
  generalize (TextEdit.fromTheEnd fix.edits).reverse = ordered at perm ascends spliced
  cases ordered with
  | nil => exact absurd (List.nil_perm.mp perm) any
  | cons first rest =>
    have forward : ∀ edit ∈ first :: rest, edit.start ≤ edit.stop := fun edit member =>
      TextEdit.start_le_stop (inside edit (perm.mem_iff.mp member))
    have range := Fix.range_eq ((TextEdit.spans_of_ascending forward ascends).perm perm)
    have listed : (String.join (fix.edits.map (·.newText))).toList = TextEdit.newTexts fix.edits := by
      rw [String.toList_join, List.flatMap_map, TextEdit.newTexts]
    have length : (String.join (fix.edits.map (·.newText))).toList.length =
        (TextEdit.newTexts (first :: rest)).length := by
      rw [listed]
      exact (perm.flatMap_right _).length_eq.symm
    obtain ⟨replaced, one, agrees⟩ := TextEdit.exists_splice?_single length spliced
    rw [listed, ← String.ofList_inj] at agrees
    refine ⟨_, first :: rest, replaced, String.ofList applied, ?_, one, ?_, perm, ascends, agrees, ?_⟩
    · rw [member?_fix_messageJson, fixable, Option.map_some, Option.bind_some, replacement?_fixJson, range]
    · rw [Fix.applyTo?_eq_foldlM, run]
      rfl
    · intro edit single
      rw [single] at perm
      obtain ⟨rfl, rfl⟩ := List.cons.inj (List.perm_singleton.mp perm)
      exact agrees.mpr ⟨.singleton _, by rw [single]⟩

/-- A deletion and a replacement that touch, behind a wide character. -/
theorem reported_fix_agrees_iff_touching :
    let fix : Fix := ⟨"", [.delete 2 3, ⟨3, 4, "XY"⟩]⟩
    ∃ (reported : TextEdit) (replaced : List Char),
      ((messageJson (.ofText "éabc".toList)
        ⟨"rule", "", .error, "", ⟨0, 0⟩, some fix⟩).member? "fix").bind replacement? = some reported ∧
      TextEdit.splice? "éabc".toList 0 [reported] = some replaced ∧
      fix.applyTo? "éabc" = some (String.ofList replaced) := by
  intro fix
  obtain ⟨reported, ordered, replaced, applied, states, one, applies, perm, ascends, agrees, _⟩ :=
    @reported_fix_agrees_iff "éabc" ⟨"rule", "", .error, "", ⟨0, 0⟩, some fix⟩ fix
      (.ofText "éabc".toList) rfl (by decide) (by decide +kernel) (by decide) (by decide)
  have order : ordered = fix.edits := by
    apply List.Perm.eq_of_pairwise _ ascends (by decide) perm
    intro first second isFirst isSecond below above
    have forward : ∀ edit ∈ fix.edits, edit.start < edit.stop := by decide
    have := forward first (perm.mem_iff.mp isFirst)
    have := forward second isSecond
    omega
  rw [← agrees.mpr ⟨by rw [order]; decide, by rw [order]⟩] at applies
  exact ⟨reported, replaced, states, one, applies⟩

/-- Two replacements with a character between them. It is in the range that is reported, but not in
the text, so that a tool loses it. -/
theorem reported_fix_loses_between :
    let fix : Fix := ⟨"", [⟨0, 1, "X"⟩, ⟨2, 3, "Y"⟩]⟩
    (fix.edits ≠ [] ∧ (∀ edit ∈ fix.edits, edit.span.Cuts "abc".toList) ∧
      fix.edits.Pairwise (fun first second => first.start ≠ second.start) ∧
      fix.edits.Pairwise fun first second =>
        first.stop ≤ second.start ∨ second.stop ≤ first.start) ∧
    ((messageJson (.ofText "abc".toList)
      ⟨"r", "", .error, "m", ⟨0, 0⟩, some fix⟩).member? "fix").bind replacement? =
        some ⟨0, 3, "XY"⟩ ∧
    TextEdit.splice? "abc".toList 0 [⟨0, 3, "XY"⟩] = some "XY".toList ∧
    fix.applyTo? "abc" = some "XbY" := by
  intro fix
  refine ⟨by decide +kernel, by decide +kernel, by decide +kernel, ?_⟩
  have order : TextEdit.fromTheEnd [⟨0, 1, "X"⟩, ⟨2, 3, "Y"⟩] = [⟨2, 3, "Y"⟩, ⟨0, 1, "X"⟩] := by
    simp [TextEdit.fromTheEnd, List.mergeSort]
  rw [Fix.applyTo?_eq_foldlM, order]
  decide +kernel

end Report

end ClientBoundary
