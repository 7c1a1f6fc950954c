import ClientBoundary.Proofs.EditsTogether
import Mathlib.Data.List.Pairwise

/-! What a fix with edits apart from each other makes of a text. Its edits are made from the end of
the text, each at offsets of the text as it was, while what has been made grows and shrinks behind
them. Read from the left the result is simple: the stretches between the edits as they were, and the
new texts in their places. So nothing depends on the order in which the edits are listed, no edit is
left out, and the text outside of the range of the fix stays. -/
namespace ClientBoundary

theorem Text.slice?_append_right {stop : Nat} {first : List Char} (rest : List Char) (start : Nat)
    (inside : stop ≤ byteLength first) :
    slice? start stop (first ++ rest) = slice? start stop first := by
  by_cases short : stop < start
  · rw [slice?_of_lt short, slice?_of_lt short]
  · unfold slice?
    rw [cut?_append_right rest (by omega)]
    cases cut : cut? start first with
    | none => rfl
    | some parts =>
      obtain ⟨whole, size⟩ := cut?_append cut
      have length := congrArg byteLength whole
      rw [byteLength_append] at length
      simp only [Option.map_some, Option.bind_eq_bind, Option.bind_some,
        cut?_append_right rest (show stop - start ≤ byteLength parts.2 by omega), Option.bind_map]
      rfl

namespace TextEdit

/-- The stretches of a text from an offset on that edits leave alone, with the new texts of the
edits in between, from left to right. -/
def splice? (text : List Char) : Nat → List TextEdit → Option (List Char)
  | offset, [] => Text.slice? offset (Text.byteLength text) text
  | offset, edit :: rest => do
    let gap ← Text.slice? offset edit.start text
    let others ← splice? text edit.stop rest
    return gap ++ edit.newText.toList ++ others

/-- One more edit behind all others: what they make of the text before it, its new text, and the
text behind it. -/
theorem splice?_concat {before gone : List Char} {edit : TextEdit} (after : List Char)
    (start : Text.byteLength before = edit.start)
    (stop : edit.start + Text.byteLength gone = edit.stop) {edits : List TextEdit}
    (earlier : ∀ other ∈ edits, other.start ≤ edit.start) (offset : Nat) :
    splice? (before ++ (gone ++ after)) offset (edits ++ [edit]) =
      (splice? before offset edits).map (· ++ (edit.newText.toList ++ after)) := by
  induction edits generalizing offset with
  | nil =>
    have gap := Text.slice?_append_right (gone ++ after) offset (Nat.le_refl (Text.byteLength before))
    have rest := Text.slice?_middle (before ++ gone) after []
    rw [List.append_nil, List.append_assoc, Text.byteLength_append, start, stop] at rest
    have length : edit.stop + Text.byteLength after = Text.byteLength (before ++ (gone ++ after)) := by
      simp only [Text.byteLength_append]
      omega
    rw [length] at rest
    rw [start] at gap
    simp only [List.nil_append, splice?, gap, rest, start]
    cases Text.slice? offset edit.start before <;> simp
  | cons other others ih =>
    have gap := @Text.slice?_append_right other.start before (gone ++ after) offset
      (by have := earlier other List.mem_cons_self; omega)
    have further := ih (fun other member => earlier other (List.mem_cons_of_mem _ member)) other.stop
    simp only [List.cons_append, splice?, gap, further]
    cases Text.slice? offset other.start before with
    | none => rfl
    | some stretch => cases splice? before other.stop others <;> simp

structure Spans (edits : List TextEdit) (start stop : Nat) : Prop where
  starts : ∃ edit ∈ edits, edit.start = start
  least : ∀ edit ∈ edits, start ≤ edit.start
  stops : ∃ edit ∈ edits, edit.stop = stop
  most : ∀ edit ∈ edits, edit.stop ≤ stop

theorem Spans.perm {edits others : List TextEdit} {start stop : Nat} (spans : Spans edits start stop)
    (perm : edits.Perm others) : Spans others start stop where
  starts := by simpa only [← perm.mem_iff] using spans.starts
  least edit member := spans.least edit (perm.mem_iff.mpr member)
  stops := by simpa only [← perm.mem_iff] using spans.stops
  most edit member := spans.most edit (perm.mem_iff.mpr member)

/-- Edits in the front of a text, each before the one that precedes it in the list. -/
structure Falling (front : List Char) (edits : List TextEdit) : Prop where
  inside : ∀ edit ∈ edits, edit.span.Cuts front
  apart : edits.Pairwise fun later earlier => earlier.stop ≤ later.start

namespace Falling

variable {front : List Char} {edit : TextEdit} {rest edits : List TextEdit}

/-- One step. The edit finds its stretch where it was in the source, whatever has been made of the
text behind it, and the edits still to come are in the text before it. -/
theorem step (falling : Falling front (edit :: rest)) :
    ∃ before gone after, front = before ++ (gone ++ after) ∧
      Text.byteLength before = edit.start ∧ edit.start + Text.byteLength gone = edit.stop ∧
      Falling before rest ∧
      ∀ behind, edit.applyTo? (front ++ behind) =
        some (before ++ (edit.newText.toList ++ after ++ behind)) := by
  obtain ⟨before, gone, after, split, start, stop⟩ := falling.inside edit List.mem_cons_self
  simp only [span] at start stop
  rw [List.append_assoc] at split
  subst split
  have stop : edit.start + Text.byteLength gone = edit.stop := by omega
  refine ⟨before, gone, after, rfl, start, stop, ⟨?_, falling.apart.of_cons⟩,
    applyTo?_front start stop after⟩
  intro other member
  have ends : other.stop ≤ edit.start := List.rel_of_pairwise_cons falling.apart member
  have cuts := falling.inside other (List.mem_cons_of_mem _ member)
  obtain ⟨first, inner, last, cut, starts, stops⟩ := cuts.front (by simp only [span]; omega)
  exact ⟨first, inner, last, by rw [cut, List.append_assoc], starts, by omega⟩

theorem start_le (falling : Falling front (edit :: rest)) :
    ∀ other ∈ rest, other.start ≤ edit.start := by
  intro other member
  have ends : other.stop ≤ edit.start := List.rel_of_pairwise_cons falling.apart member
  have ordered := start_le_stop (falling.inside other (List.mem_cons_of_mem _ member))
  omega

theorem foldlM_eq_splice? (falling : Falling front edits) (behind : List Char) :
    ∃ text, splice? front 0 edits.reverse = some text ∧
      edits.foldlM (fun text edit => edit.applyTo? text) (front ++ behind) = some (text ++ behind) := by
  induction edits generalizing front behind with
  | nil =>
    have whole := Text.slice?_middle [] front []
    simp only [Text.byteLength, Nat.zero_add, List.nil_append, List.append_nil] at whole
    exact ⟨front, whole, rfl⟩
  | cons edit rest ih =>
    obtain ⟨before, gone, after, rfl, start, stop, others, applied⟩ := falling.step
    obtain ⟨text, spliced, run⟩ := ih others (edit.newText.toList ++ after ++ behind)
    refine ⟨text ++ (edit.newText.toList ++ after), ?_, ?_⟩
    · rw [List.reverse_cons, splice?_concat after start stop
        (fun other member => falling.start_le other (List.mem_reverse.mp member)), spliced]
      rfl
    · rw [List.foldlM_cons, applied, Option.bind_eq_bind, Option.bind_some, run]
      simp

/-- At its turn every edit is in bounds. -/
theorem reaches {made : List TextEdit} (falling : Falling front (made ++ edit :: rest))
    (behind : List Char) :
    ∃ now, made.foldlM (fun text edit => edit.applyTo? text) (front ++ behind) = some now ∧
      edit.start ≤ edit.stop ∧ edit.stop ≤ Text.byteLength now := by
  induction made generalizing front behind with
  | nil =>
    obtain ⟨before, gone, after, rfl, start, stop, _⟩ := falling.step
    refine ⟨_, rfl, by omega, ?_⟩
    simp only [Text.byteLength_append]
    omega
  | cons first others ih =>
    obtain ⟨before, gone, after, rfl, _, _, further, applied⟩ := falling.step
    obtain ⟨now, run, inside⟩ := ih further (first.newText.toList ++ after ++ behind)
    exact ⟨now, by rw [List.foldlM_cons, applied, Option.bind_eq_bind, Option.bind_some, run], inside⟩

theorem outside (falling : Falling front edits) (any : edits ≠ []) (behind : List Char) :
    ∃ before within after changed, front = before ++ within ++ after ∧
      Spans edits (Text.byteLength before) (Text.byteLength before + Text.byteLength within) ∧
      edits.foldlM (fun text edit => edit.applyTo? text) (front ++ behind) =
        some (before ++ changed ++ after ++ behind) := by
  induction edits generalizing front behind with
  | nil => exact absurd rfl any
  | cons edit rest ih =>
    obtain ⟨before, gone, after, rfl, start, stop, others, applied⟩ := falling.step
    rw [List.foldlM_cons, applied, Option.bind_eq_bind, Option.bind_some]
    by_cases last : rest = []
    · subst last
      refine ⟨before, gone, after, edit.newText.toList, by simp, ?_, by simp⟩
      rw [start, stop]
      exact ⟨by simp, by simp, by simp, by simp⟩
    · obtain ⟨first, within, between, changed, split, spans, run⟩ :=
        ih others last (edit.newText.toList ++ after ++ behind)
      refine ⟨first, within ++ between ++ gone, after, changed ++ between ++ edit.newText.toList,
        by simp [split], ?_, by rw [run]; simp⟩
      have length : Text.byteLength first + Text.byteLength (within ++ between ++ gone) = edit.stop := by
        rw [split] at start
        simp only [Text.byteLength_append] at start ⊢
        omega
      obtain ⟨lowest, isLowest, lowestStart⟩ := spans.starts
      rw [length]
      refine ⟨⟨lowest, List.mem_cons_of_mem _ isLowest, lowestStart⟩, ?_,
        ⟨edit, List.mem_cons_self, rfl⟩, ?_⟩
      · intro other member
        rcases List.mem_cons.mp member with rfl | isOther
        · have := falling.start_le lowest isLowest
          omega
        · exact spans.least other isOther
      · intro other member
        rcases List.mem_cons.mp member with rfl | isOther
        · omega
        · have : other.stop ≤ edit.start := List.rel_of_pairwise_cons falling.apart isOther
          omega

end Falling

/-! The order of the edits. -/

section Order

variable {text : List Char} {edits : List TextEdit} (inside : ∀ edit ∈ edits, edit.span.Cuts text)
  (starts : edits.Pairwise fun first second => first.start ≠ second.start)
  (apart : edits.Pairwise fun first second =>
    first.stop ≤ second.start ∨ second.stop ≤ first.start)

include inside starts

/-- There is only one order in which each edit ends before the next one starts. -/
theorem eq_of_perm {first second : List TextEdit} (firstPerm : first.Perm edits)
    (secondPerm : second.Perm edits)
    (firstFalls : first.Pairwise fun later earlier => earlier.stop ≤ later.start)
    (secondFalls : second.Pairwise fun later earlier => earlier.stop ≤ later.start) :
    first = second := by
  apply List.Perm.eq_of_pairwise _ firstFalls secondFalls (firstPerm.trans secondPerm.symm)
  intro one other isOne isOther below above
  have oneOrdered := start_le_stop (inside one (firstPerm.mem_iff.mp isOne))
  have otherOrdered := start_le_stop (inside other (secondPerm.mem_iff.mp isOther))
  by_contra different
  have symmetric : Std.Symm fun first second : TextEdit => first.start ≠ second.start :=
    ⟨fun _ _ => Ne.symm⟩
  have := starts.forall (firstPerm.mem_iff.mp isOne) (secondPerm.mem_iff.mp isOther) different
  omega

include apart

theorem falling_fromTheEnd : Falling text (fromTheEnd edits) where
  inside edit member := inside edit ((fromTheEnd_perm edits).mem_iff.mp member)
  apart := by
    have perm := fromTheEnd_perm edits
    have different := (perm.pairwise_iff fun {_ _} => Ne.symm).mpr starts
    have clear := (perm.pairwise_iff fun {_ _} => Or.symm).mpr apart
    refine ((fromTheEnd_sorted edits).and (different.and clear)).imp_of_mem ?_
    rintro later earlier isLater isEarlier ⟨sorted, unequal, ends | ends⟩
    · have := start_le_stop (inside later (perm.mem_iff.mp isLater))
      omega
    · exact ends

end Order

end TextEdit

namespace Fix

variable {fix : Fix} {source : String}

theorem range_eq {start stop : Nat} (spans : TextEdit.Spans fix.edits start stop) :
    fix.range = (start, stop) := by
  have least : (fix.edits.map (·.start)).min? = some start := by
    rw [List.min?_eq_some_iff]
    simpa using ⟨spans.starts, spans.least⟩
  have most : (fix.edits.map (·.stop)).max? = some stop := by
    rw [List.max?_eq_some_iff]
    simpa using ⟨spans.stops, spans.most⟩
  rw [range, least, most]
  rfl

theorem applyTo?_eq_foldlM (fix : Fix) (source : String) :
    fix.applyTo? source = ((TextEdit.fromTheEnd fix.edits).foldlM
      (fun (text : List Char) (edit : TextEdit) => edit.applyTo? text) source.toList).map
        String.ofList := rfl

theorem applyTo?_outside
    (falling : TextEdit.Falling source.toList (TextEdit.fromTheEnd fix.edits)) :
    ∃ before within after changed, source.toList = before ++ within ++ after ∧
      Text.byteLength before = fix.range.1 ∧
      Text.byteLength before + Text.byteLength within = fix.range.2 ∧
      fix.applyTo? source = some (String.ofList (before ++ changed ++ after)) := by
  have perm := TextEdit.fromTheEnd_perm fix.edits
  by_cases empty : fix.edits = []
  · have nothing : TextEdit.fromTheEnd fix.edits = [] := by
      rw [empty] at perm ⊢
      exact List.perm_nil.mp perm
    refine ⟨[], [], source.toList, [], rfl, ?_, ?_, ?_⟩
    · simp [range, empty, Text.byteLength]
    · simp [range, empty, Text.byteLength]
    · rw [applyTo?_eq_foldlM, nothing]
      rfl
  · have any : TextEdit.fromTheEnd fix.edits ≠ [] := by
      intro nothing
      rw [nothing] at perm
      exact empty (List.nil_perm.mp perm)
    obtain ⟨before, within, after, changed, split, spans, run⟩ := falling.outside any []
    simp only [List.append_nil] at run
    have range := range_eq (spans.perm perm)
    refine ⟨before, within, after, changed, split, ?_, ?_, ?_⟩
    · rw [range]
    · rw [range]
    · rw [applyTo?_eq_foldlM, run]
      rfl

end Fix

/-- A fix is spliced into the text. Its edits are in the text, start at different offsets, and of
any two one ends where the other starts or before. Then the result is what the edits leave alone and
their new texts, from left to right; at its turn each edit is in bounds, so none is left out; what
is outside of the range of the fix stays; and the order in which the edits are listed makes no
difference. -/
theorem fix_splices {source : String} {fix : Fix}
    (inside : ∀ edit ∈ fix.edits, edit.span.Cuts source.toList)
    (starts : fix.edits.Pairwise fun first second => first.start ≠ second.start)
    (apart : fix.edits.Pairwise fun first second =>
      first.stop ≤ second.start ∨ second.stop ≤ first.start) :
    (∃ ordered : List TextEdit, ordered.Perm fix.edits ∧
      ordered.Pairwise fun earlier later => earlier.stop ≤ later.start) ∧
    (∀ ordered, ordered.Perm fix.edits →
      (ordered.Pairwise fun earlier later => earlier.stop ≤ later.start) →
      ∃ text, TextEdit.splice? source.toList 0 ordered = some text ∧
        fix.applyTo? source = some (String.ofList text)) ∧
    (∀ made edit rest, TextEdit.fromTheEnd fix.edits = made ++ edit :: rest →
      ∃ now, made.foldlM (fun text edit => edit.applyTo? text) source.toList = some now ∧
        edit.start ≤ edit.stop ∧ edit.stop ≤ Text.byteLength now) ∧
    (∃ before within after changed, source.toList = before ++ within ++ after ∧
      Text.byteLength before = fix.range.1 ∧
      Text.byteLength before + Text.byteLength within = fix.range.2 ∧
      fix.applyTo? source = some (String.ofList (before ++ changed ++ after))) ∧
    ∀ other : Fix, other.edits.Perm fix.edits → other.applyTo? source = fix.applyTo? source := by
  have falling := TextEdit.falling_fromTheEnd inside starts apart
  have perm := TextEdit.fromTheEnd_perm fix.edits
  have one := @TextEdit.eq_of_perm _ _ inside starts
  refine ⟨?_, ?_, ?_, ?_, ?_⟩
  · exact ⟨_, (List.reverse_perm _).trans perm, List.pairwise_reverse.mpr falling.apart⟩
  · intro ordered isOrder ascends
    have same : ordered.reverse = TextEdit.fromTheEnd fix.edits :=
      one ((List.reverse_perm _).trans isOrder) perm (List.pairwise_reverse.mpr ascends) falling.apart
    obtain ⟨text, spliced, run⟩ := falling.foldlM_eq_splice? []
    rw [← same, List.reverse_reverse] at spliced
    refine ⟨text, spliced, ?_⟩
    rw [List.append_nil, List.append_nil] at run
    rw [Fix.applyTo?_eq_foldlM, run]
    rfl
  · intro made edit rest split
    rw [split] at falling
    simpa using falling.reaches []
  · exact Fix.applyTo?_outside falling
  · intro other same
    have otherPerm := (TextEdit.fromTheEnd_perm other.edits).trans same
    have otherFalling := @TextEdit.falling_fromTheEnd _ other.edits
      (fun edit member => inside edit (same.mem_iff.mp member))
      ((same.pairwise_iff fun {_ _} => Ne.symm).mpr starts)
      ((same.pairwise_iff fun {_ _} => Or.symm).mpr apart)
    rw [Fix.applyTo?_eq_foldlM, Fix.applyTo?_eq_foldlM, one otherPerm perm otherFalling.apart
      falling.apart]

/-- A deletion, a replacement that touches it and grows, and an insertion before both, not listed in
the order of the text. -/
theorem fix_splices_touching :
    (⟨"", [.delete 4 6, ⟨6, 7, "YY"⟩, .insert 2 "X"]⟩ : Fix).applyTo? "éabcdef" = some "éXabYYf" := by
  obtain ⟨_, spliced, _⟩ := @fix_splices "éabcdef"
    ⟨"", [.delete 4 6, ⟨6, 7, "YY"⟩, .insert 2 "X"]⟩ (by decide +kernel) (by decide) (by decide)
  obtain ⟨text, found, applied⟩ := spliced [.insert 2 "X", .delete 4 6, ⟨6, 7, "YY"⟩] (by decide)
    (by decide)
  have evaluated : TextEdit.splice? "éabcdef".toList 0
      [.insert 2 "X", .delete 4 6, ⟨6, 7, "YY"⟩] = some "éXabYYf".toList := by decide +kernel
  rw [applied, Option.some.inj (found.symm.trans evaluated), String.ofList_toList]

end ClientBoundary
