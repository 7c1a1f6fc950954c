import ClientBoundary.Proofs.DirectiveFix

/-! The line breaks around an inserted directive. The block that is inserted breaks lines the way
the text does first, and its own first break is there only if a line has ended before it. So a text
with one kind of line break keeps to it, also where the block meets the text, and below the first
line the directive has a line of its own. -/
namespace ClientBoundary

inductive LineBreak where
  | feed
  | carriageReturn
  | both
  deriving DecidableEq, Repr

namespace Text

/-- The line breaks of a text. A carriage return and a line feed behind it are one. -/
def lineBreaks : List Char → List LineBreak
  | [] => []
  | '\r' :: '\n' :: rest => .both :: lineBreaks rest
  | '\r' :: rest => .carriageReturn :: lineBreaks rest
  | '\n' :: rest => .feed :: lineBreaks rest
  | _ :: rest => lineBreaks rest

def lines : List Char → List (List Char)
  | [] => [[]]
  | '\r' :: '\n' :: rest => [] :: lines rest
  | '\r' :: rest => [] :: lines rest
  | '\n' :: rest => [] :: lines rest
  | c :: rest => (lines rest).modifyHead (c :: ·)

/-- Between the two parts of a text there is a line break that both have a share in. -/
def SplitsBreak (before after : List Char) : Prop :=
  before.getLast? = some '\r' ∧ after.head? = some '\n'

theorem SplitsBreak.cons {before after : List Char} (c : Char) (split : SplitsBreak before after) :
    SplitsBreak (c :: before) after := by
  refine ⟨?_, split.2⟩
  rw [List.getLast?_cons, split.1]
  rfl

theorem not_splitsBreak_append (before after : List Char) {c : Char} (other : c ≠ '\r') :
    ¬SplitsBreak (before ++ [c]) after := by
  rintro ⟨last, _⟩
  rw [List.getLast?_concat] at last
  exact other (Option.some.inj last)

section Openings

variable {c : Char} {rest : List Char}

theorem lineBreaks_carriageReturn (alone : rest.head? ≠ some '\n') :
    lineBreaks ('\r' :: rest) = .carriageReturn :: lineBreaks rest := by
  rw [lineBreaks]
  rintro more rfl
  exact alone rfl

theorem lines_carriageReturn (alone : rest.head? ≠ some '\n') :
    lines ('\r' :: rest) = [] :: lines rest := by
  rw [lines]
  rintro more rfl
  exact alone rfl

variable (noReturn : c ≠ '\r') (noFeed : c ≠ '\n')

include noReturn noFeed

theorem lineBreaks_other : lineBreaks (c :: rest) = lineBreaks rest := by
  rw [lineBreaks]
  · exact fun _ isReturn => absurd isReturn noReturn
  · exact noReturn
  · exact noFeed

theorem lines_other : lines (c :: rest) = (lines rest).modifyHead (c :: ·) := by
  rw [lines]
  · exact fun _ isReturn => absurd isReturn noReturn
  · exact noReturn
  · exact noFeed

end Openings

theorem break_induction {motive : List Char → Prop} (nil : motive [])
    (both : ∀ rest, motive rest → motive ('\r' :: '\n' :: rest))
    (carriageReturn : ∀ rest, rest.head? ≠ some '\n' → motive rest → motive ('\r' :: rest))
    (feed : ∀ rest, motive rest → motive ('\n' :: rest))
    (other : ∀ c rest, c ≠ '\r' → c ≠ '\n' → motive rest → motive (c :: rest)) (text : List Char) :
    motive text := by
  fun_induction lineBreaks text with
  | case1 => exact nil
  | case2 rest ih => exact both rest ih
  | case3 rest alone ih =>
    apply carriageReturn rest _ ih
    cases rest with
    | nil => simp
    | cons c more =>
      rintro ⟨rfl⟩
      exact alone more rfl
  | case4 rest ih => exact feed rest ih
  | case5 c rest _ noReturn noFeed ih => exact other c rest noReturn noFeed ih

theorem lineBreaks_append {before after : List Char} (whole : ¬SplitsBreak before after) :
    lineBreaks (before ++ after) = lineBreaks before ++ lineBreaks after := by
  induction before using break_induction with
  | nil => rfl
  | both rest ih =>
    rw [List.cons_append, List.cons_append, lineBreaks, lineBreaks,
      ih (mt (fun split => (split.cons _).cons _) whole), List.cons_append]
  | carriageReturn rest alone ih =>
    have behind : (rest ++ after).head? ≠ some '\n' := by
      cases rest with
      | nil => exact fun feed => whole ⟨rfl, feed⟩
      | cons c more => exact alone
    rw [List.cons_append, lineBreaks_carriageReturn behind, lineBreaks_carriageReturn alone,
      ih (mt (SplitsBreak.cons _) whole), List.cons_append]
  | feed rest ih =>
    rw [List.cons_append, lineBreaks, lineBreaks, ih (mt (SplitsBreak.cons _) whole), List.cons_append]
  | other c rest noReturn noFeed ih =>
    rw [List.cons_append, lineBreaks_other noReturn noFeed, lineBreaks_other noReturn noFeed,
      ih (mt (SplitsBreak.cons _) whole)]

/-- A carriage return at the end of a text is a line break by itself. -/
theorem carriageReturn_mem_lineBreaks {text : List Char} (last : text.getLast? = some '\r') :
    .carriageReturn ∈ lineBreaks text := by
  obtain ⟨front, rfl⟩ := List.getLast?_eq_some_iff.mp last
  rw [lineBreaks_append (by simp [SplitsBreak])]
  exact List.mem_append_right _ (by decide)

theorem exists_lines_feed (front : List Char) :
    ∃ earlier, earlier ≠ [] ∧ ∀ rest, lines (front ++ '\n' :: rest) = earlier ++ lines rest := by
  induction front using break_induction with
  | nil => exact ⟨[[]], by simp, fun rest => rfl⟩
  | both front ih =>
    obtain ⟨earlier, _, split⟩ := ih
    exact ⟨[] :: earlier, by simp, fun rest => congrArg ([] :: ·) (split rest)⟩
  | carriageReturn front alone ih =>
    cases front with
    | nil => exact ⟨[[]], by simp, fun rest => rfl⟩
    | cons c more =>
      obtain ⟨earlier, _, split⟩ := ih
      refine ⟨[] :: earlier, by simp, fun rest => ?_⟩
      have behind : (c :: more ++ '\n' :: rest).head? ≠ some '\n' := alone
      rw [List.cons_append, lines_carriageReturn behind, split rest, List.cons_append]
  | feed front ih =>
    obtain ⟨earlier, _, split⟩ := ih
    exact ⟨[] :: earlier, by simp, fun rest => congrArg ([] :: ·) (split rest)⟩
  | other c front noReturn noFeed ih =>
    obtain ⟨earlier, any, split⟩ := ih
    refine ⟨earlier.modifyHead (c :: ·), by simpa using any, fun rest => ?_⟩
    rw [List.cons_append, lines_other noReturn noFeed, split rest]
    cases earlier with
    | nil => exact absurd rfl any
    | cons first others => rfl

theorem lines_append_of_plain {plain : List Char} (noBreak : '\n' ∉ plain ∧ '\r' ∉ plain)
    (rest : List Char) : lines (plain ++ rest) = (lines rest).modifyHead (plain ++ ·) := by
  induction plain with
  | nil =>
    rw [List.nil_append]
    cases lines rest <;> rfl
  | cons c plain ih =>
    simp only [List.mem_cons, not_or] at noBreak
    obtain ⟨⟨noFeed, feeds⟩, noReturn, returns⟩ := noBreak
    rw [List.cons_append, lines_other (Ne.symm noReturn) (Ne.symm noFeed), ih ⟨feeds, returns⟩,
      List.modifyHead_modifyHead]
    rfl

end Text

namespace UseClient

open Text

theorem lineEnding_of_both {text : List Char} (any : lineBreaks text ≠ [])
    (all : ∀ lineBreak ∈ lineBreaks text, lineBreak = .both) : lineEnding text = "\r\n" := by
  induction text using break_induction with
  | nil => exact absurd rfl any
  | both rest ih => rfl
  | carriageReturn rest alone ih =>
    rw [lineBreaks_carriageReturn alone] at all
    cases all .carriageReturn List.mem_cons_self
  | feed rest ih => cases all .feed List.mem_cons_self
  | other c rest noReturn noFeed ih =>
    rw [lineBreaks_other noReturn noFeed] at any all
    rw [lineEnding, ih any all]
    · exact fun _ isReturn => absurd isReturn noReturn
    · exact noFeed

theorem lineEnding_of_no_return {text : List Char} (none : '\r' ∉ text) : lineEnding text = "\n" := by
  induction text using break_induction with
  | nil => rfl
  | both rest ih => simp at none
  | carriageReturn rest alone ih => simp at none
  | feed rest ih => rfl
  | other c rest noReturn noFeed ih =>
    rw [lineEnding, ih (by simp_all)]
    · exact fun _ isReturn => absurd isReturn noReturn
    · exact noFeed

theorem lineEnding_cases (text : List Char) : lineEnding text = "\n" ∨ lineEnding text = "\r\n" := by
  fun_induction lineEnding text <;> simp_all

theorem lines_blank (text rest : List Char) :
    lines ((lineEnding text).toList ++ ((lineEnding text).toList ++ rest)) = [] :: [] :: lines rest := by
  rcases lineEnding_cases text with ending | ending <;> rw [ending] <;> rfl

theorem insertedText_eq {text before after : List Char} (split : text = before ++ after) :
    (insertedText text (byteLength before)).toList =
      (if '\n' ∈ before ∨ '\r' ∈ before then (lineEnding text).toList else []) ++
        (directiveStatement.toList ++ ((lineEnding text).toList ++ (lineEnding text).toList)) := by
  have front : ((cut? (byteLength before) text).map Prod.fst).getD [] = before := by
    rw [split, cut?_byteLength]
    rfl
  have below : (before.any fun c => c == '\n' || c == '\r') = true ↔ '\n' ∈ before ∨ '\r' ∈ before := by
    simp only [List.any_eq_true, Bool.or_eq_true, beq_iff_eq]
    constructor
    · rintro ⟨c, member, rfl | rfl⟩
      · exact .inl member
      · exact .inr member
    · rintro (member | member)
      · exact ⟨_, member, .inl rfl⟩
      · exact ⟨_, member, .inr rfl⟩
  rw [insertedText, front]
  by_cases breaks : '\n' ∈ before ∨ '\r' ∈ before
  · rw [if_pos breaks, if_pos (below.mpr breaks)]
    simp only [String.toList_append, List.append_assoc]
  · rw [if_neg breaks, if_neg (mt below.mp breaks)]
    simp only [String.toList_append, List.append_assoc, List.nil_append]

section Insertion

variable {text before after : List Char} (split : text = before ++ after)

include split

theorem lineBreaks_inserted (whole : ¬SplitsBreak before after) (any : lineBreaks text ≠ [])
    (all : ∀ lineBreak ∈ lineBreaks text, lineBreak = .both) :
    ∀ lineBreak ∈ lineBreaks (before ++ (insertedText text (byteLength before)).toList ++ after),
      lineBreak = .both := by
  have ending := lineEnding_of_both any all
  rw [split, lineBreaks_append whole, List.forall_mem_append] at all
  have first : before.getLast? ≠ some '\r' := by
    intro last
    cases all.1 _ (carriageReturn_mem_lineBreaks last)
  have block : ∃ front, (insertedText text (byteLength before)).toList = front ++ ['\n'] ∧
      ∀ lineBreak ∈ lineBreaks (front ++ ['\n']), lineBreak = .both := by
    rw [insertedText_eq split, ending]
    split
    · exact ⟨"\r\n'use client';\r\n\r".toList, by decide, by decide⟩
    · exact ⟨"'use client';\r\n\r".toList, by decide, by decide⟩
  obtain ⟨front, block, both⟩ := block
  have second := not_splitsBreak_append (before ++ front) after (show '\n' ≠ '\r' by decide)
  rw [List.append_assoc] at second
  rw [block, lineBreaks_append second, lineBreaks_append fun meets => first meets.1,
    List.forall_mem_append, List.forall_mem_append]
  exact ⟨⟨all.1, both⟩, all.2⟩

/-- Below the first line. The line that the block ends before the directive is the one that the text
before it leaves open. -/
theorem lines_inserted_below (below : '\n' ∈ before ∨ '\r' ∈ before) :
    ∃ earlier, lines (before ++ (lineEnding text).toList) = earlier ++ [[]] ∧
      lines (before ++ (insertedText text (byteLength before)).toList ++ after) =
        earlier ++ [directiveStatement.toList, []] ++ lines after := by
  obtain ⟨front, ending⟩ : ∃ front, (lineEnding text).toList = front ++ ['\n'] := by
    rcases lineEnding_cases text with ending | ending <;> rw [ending]
    · exact ⟨[], rfl⟩
    · exact ⟨['\r'], rfl⟩
  obtain ⟨earlier, _, ends⟩ := exists_lines_feed (before ++ front)
  refine ⟨earlier, by rw [ending, ← List.append_assoc, ends]; rfl, ?_⟩
  have directive := lines_append_of_plain (show '\n' ∉ directiveStatement.toList ∧
    '\r' ∉ directiveStatement.toList by decide)
      ((lineEnding text).toList ++ ((lineEnding text).toList ++ after))
  rw [lines_blank] at directive
  calc lines (before ++ (insertedText text (byteLength before)).toList ++ after)
      = lines (before ++ front ++ '\n' :: (directiveStatement.toList ++
          ((lineEnding text).toList ++ ((lineEnding text).toList ++ after)))) := by
        rw [insertedText_eq split, if_pos below]
        nth_rewrite 1 [ending]
        simp only [List.append_assoc, List.cons_append, List.nil_append]
    _ = earlier ++ [directiveStatement.toList, []] ++ lines after := by
        rw [ends, directive]
        simp

theorem lines_inserted_on_first (first : ¬('\n' ∈ before ∨ '\r' ∈ before)) :
    lines (before ++ (insertedText text (byteLength before)).toList ++ after) =
      [before ++ directiveStatement.toList, []] ++ lines after := by
  have noBreak : '\n' ∉ before ++ directiveStatement.toList ∧
      '\r' ∉ before ++ directiveStatement.toList := by
    have directive : '\n' ∉ directiveStatement.toList ∧ '\r' ∉ directiveStatement.toList := by decide
    simp only [List.mem_append, not_or] at first ⊢
    exact ⟨⟨first.1, directive.1⟩, first.2, directive.2⟩
  have plain := lines_append_of_plain noBreak
    ((lineEnding text).toList ++ ((lineEnding text).toList ++ after))
  rw [lines_blank] at plain
  rw [insertedText_eq split, if_neg first]
  simpa using plain

end Insertion

/-- The inserted directive keeps to the line breaks of the file. It can be inserted between any two
characters of a text, but not in the middle of a line break. The result is the text with the block
at that place. If all line breaks of the text are a carriage return and a line feed, and there are
any, so are all of the result; if the text has no carriage return, the result has none. Below the
first line the directive is a line, and one blank line is between it and the text that it was put in
front of; on the first line it ends the line that the text before it starts. -/
theorem insertion_keeps_line_breaks {source : String} {before after : List Char}
    (split : source.toList = before ++ after) (whole : ¬SplitsBreak before after) :
    let text := source.toList
    let result := before ++ (insertedText text (byteLength before)).toList ++ after
    (insertDirective source (byteLength before)).applyTo? source = some (String.ofList result) ∧
    (lineBreaks text ≠ [] → (∀ lineBreak ∈ lineBreaks text, lineBreak = .both) →
      ∀ lineBreak ∈ lineBreaks result, lineBreak = .both) ∧
    ('\r' ∉ text → '\r' ∉ result) ∧
    ('\n' ∈ before ∨ '\r' ∈ before → ∃ earlier,
      lines (before ++ (lineEnding text).toList) = earlier ++ [[]] ∧
      lines result = earlier ++ [directiveStatement.toList, []] ++ lines after) ∧
    (¬('\n' ∈ before ∨ '\r' ∈ before) →
      lines result = [before ++ directiveStatement.toList, []] ++ lines after) := by
  intro text result
  refine ⟨insertDirective_applyTo? split, lineBreaks_inserted split whole, ?_,
    lines_inserted_below split, lines_inserted_on_first split⟩
  intro none
  have block : '\r' ∉ (insertedText text (byteLength before)).toList := by
    rw [insertedText_eq split, lineEnding_of_no_return none]
    split <;> decide
  simp only [text, split, List.mem_append, not_or] at none
  simp only [result, List.mem_append, not_or]
  exact ⟨⟨none.1, block⟩, none.2⟩

/-- A comment above the first statement, in a file that ends its lines with both characters. -/
theorem insertion_keeps_line_breaks_comment :
    let result := "// é\r\n\r\n'use client';\r\n\r\nwindow.a".toList
    (insertDirective "// é\r\nwindow.a" 7).applyTo? "// é\r\nwindow.a" = some (String.ofList result) ∧
      (∀ lineBreak ∈ lineBreaks result, lineBreak = .both) ∧
      ∃ earlier, lines result = earlier ++ ["'use client';".toList, []] ++ lines "window.a".toList := by
  intro result
  obtain ⟨applied, both, _, below, _⟩ := @insertion_keeps_line_breaks "// é\r\nwindow.a"
    "// é\r\n".toList "window.a".toList (by decide) (by unfold SplitsBreak; decide)
  obtain ⟨earlier, _, shown⟩ := below (by decide)
  exact ⟨applied, both (by decide) (by decide), earlier, shown⟩

end UseClient

end ClientBoundary
