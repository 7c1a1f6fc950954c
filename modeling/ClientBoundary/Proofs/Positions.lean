import ClientBoundary.Proofs.EditsTogether
import ClientBoundary.Proofs.ReportCounts
import Mathlib.Data.List.DropRight

/-! Lines and columns of offsets, told by the text alone. The line is found by halving a table of
line starts, and the column by cutting out the text from there; a scan of the text from its start
comes to the same. Between characters a greater offset has a later position, so no two offsets share
one, and no message ends before it starts. -/
namespace ClientBoundary

namespace Text

def bytes (text : List Char) : List UInt8 := text.flatMap String.utf8EncodeChar

/-- A character starts at the offset, or the text ends there. -/
def IsBoundary (text : List Char) (offset : Nat) : Prop :=
  ∃ before after, text = before ++ after ∧ byteLength before = offset

/-- What stands behind the last line feed of a text, and all of it if there is none. -/
def lastLine (text : List Char) : List Char := text.rtakeWhile (· ≠ '\n')

theorem utf8Size_lineFeed : '\n'.utf8Size = 1 := by decide

theorem length_bytes (text : List Char) : (bytes text).length = byteLength text := by
  induction text with
  | nil => rfl
  | cons c rest ih =>
    rw [bytes, List.flatMap_cons, List.length_append, String.length_utf8EncodeChar, byteLength, ← ih]
    rfl

theorem length_le_byteLength (text : List Char) : text.length ≤ byteLength text := by
  induction text with
  | nil => exact Nat.le_refl 0
  | cons c rest ih =>
    have positive := c.utf8Size_pos
    rw [List.length_cons, byteLength]
    omega

theorem high_of_mem_utf8EncodeChar {c : Char} (wide : ¬c.val.toNat ≤ 127) :
    ∀ byte ∈ String.utf8EncodeChar c, 128 ≤ byte.toNat := by
  unfold String.utf8EncodeChar
  dsimp only
  rw [if_neg wide]
  split
  · simp; omega
  · split
    · simp; omega
    · simp; omega

/-- A line feed is one byte, and no other character has this byte in it. -/
theorem lineFeed_mem_utf8EncodeChar {c : Char} : 0x0A ∈ String.utf8EncodeChar c ↔ c = '\n' := by
  constructor
  · intro member
    by_cases ascii : c.val.toNat ≤ 127
    · unfold String.utf8EncodeChar at member
      dsimp only at member
      rw [if_pos ascii, List.mem_singleton] at member
      have same := congrArg UInt8.toNat member
      rw [UInt8.toNat_ofNat'] at same
      apply Char.ext
      apply UInt32.toNat.inj
      change c.val.toNat = 10
      change 10 = _ at same
      omega
    · exact absurd (high_of_mem_utf8EncodeChar ascii _ member) (by decide)
  · rintro rfl
    decide

theorem count_take_utf8EncodeChar {c : Char} (other : c ≠ '\n') (length : Nat) :
    ((String.utf8EncodeChar c).take length).count 0x0A = 0 := by
  rw [List.count_eq_zero]
  intro member
  exact other (lineFeed_mem_utf8EncodeChar.mp (List.mem_of_mem_take member))

/-- The last line has no line feed in it, and before it there is nothing or a line feed. -/
theorem lastLine_split (text : List Char) :
    ∃ front, text = front ++ lastLine text ∧ (front = [] ∨ ∃ others, front = others ++ ['\n']) ∧
      ∀ c ∈ lastLine text, c ≠ '\n' := by
  refine ⟨text.rdropWhile (· ≠ '\n'), List.rdropWhile_append_rtakeWhile.symm, ?_, ?_⟩
  · rcases List.eq_nil_or_concat (text.rdropWhile (· ≠ '\n')) with empty | ⟨others, last, split⟩
    · exact .inl empty
    · rw [List.concat_eq_append] at split
      have ends := List.rdropWhile_last_not (· ≠ '\n') text (by rw [split]; simp)
      simp only [split, List.getLast_append_singleton, decide_eq_true_eq, not_not] at ends
      exact .inr ⟨others, by rw [split, ends]⟩
  · intro c member
    simpa using List.mem_rtakeWhile_imp member

theorem lastLine_append {rest : List Char} (text : List Char) (one : ∀ c ∈ rest, c ≠ '\n') :
    lastLine (text ++ rest) = lastLine text ++ rest := by
  have all : ∀ c ∈ rest.reverse, decide (c ≠ '\n') = true := by simpa using one
  simp only [lastLine, List.rtakeWhile, List.reverse_append, List.takeWhile_append_of_pos all,
    List.reverse_reverse]

theorem isBoundary_iff_cut? {text : List Char} {offset : Nat} :
    IsBoundary text offset ↔ (cut? offset text).isSome = true := by
  constructor
  · rintro ⟨before, after, rfl, rfl⟩
    rw [cut?_byteLength]
    rfl
  · intro cuts
    obtain ⟨parts, found⟩ := Option.isSome_iff_exists.mp cuts
    obtain ⟨whole, size⟩ := cut?_append found
    exact ⟨parts.1, parts.2, whole.symm, size⟩

instance (text : List Char) (offset : Nat) : Decidable (IsBoundary text offset) :=
  decidable_of_iff _ isBoundary_iff_cut?.symm

end Text

theorem Span.Cuts.isBoundary {span : Span} {text : List Char} (cuts : span.Cuts text) :
    Text.IsBoundary text span.start ∧ Text.IsBoundary text span.stop := by
  obtain ⟨before, inside, after, split, start, stop⟩ := cuts
  refine ⟨⟨before, inside ++ after, by rw [split, List.append_assoc], start⟩,
    ⟨before ++ inside, after, split, ?_⟩⟩
  rw [Text.byteLength_append, stop]

namespace Text

theorem isBoundary_of_slice? {start stop : Nat} {text inside : List Char}
    (found : slice? start stop text = some inside) : IsBoundary text stop := by
  have cuts : (⟨start, stop⟩ : Span).Cuts text := by
    rw [Span.cuts_iff_slice?, found]
    rfl
  exact cuts.isBoundary.2

end Text

namespace LineIndex

open Text

/-! The table. -/

theorem startsAfter_append (offset : Nat) (first rest : List Char) :
    startsAfter offset (first ++ rest) =
      startsAfter offset first ++ startsAfter (offset + byteLength first) rest := by
  induction first generalizing offset with
  | nil => simp [startsAfter, byteLength]
  | cons c others ih =>
    by_cases ends : c = '\n'
    · subst ends
      simp [startsAfter, byteLength, ih, utf8Size_lineFeed, Nat.add_assoc]
    · simp [startsAfter, byteLength, ih, ends, Nat.add_assoc]

theorem lt_of_mem_startsAfter (offset : Nat) (text : List Char) :
    ∀ start ∈ startsAfter offset text, offset < start := by
  fun_induction startsAfter offset text with
  | case1 => simp
  | case2 offset rest ih =>
    intro start member
    rcases List.mem_cons.mp member with rfl | later
    · omega
    · have := ih start later
      omega
  | case3 offset c rest other ih =>
    intro start member
    have := ih start member
    omega

theorem startsAfter_sorted (offset : Nat) (text : List Char) :
    (startsAfter offset text).Pairwise (· < ·) := by
  fun_induction startsAfter offset text with
  | case1 => exact .nil
  | case2 offset rest ih => exact List.pairwise_cons.mpr ⟨lt_of_mem_startsAfter _ rest, ih⟩
  | case3 offset c rest other ih => exact ih

theorem le_of_mem_startsAfter (offset : Nat) (text : List Char) :
    ∀ start ∈ startsAfter offset text, start ≤ offset + byteLength text := by
  fun_induction startsAfter offset text with
  | case1 => simp
  | case2 offset rest ih =>
    simp only [byteLength, utf8Size_lineFeed]
    intro start member
    rcases List.mem_cons.mp member with rfl | later
    · omega
    · have := ih start later
      omega
  | case3 offset c rest other ih =>
    intro start member
    have := ih start member
    simp only [byteLength]
    omega

theorem length_startsAfter (offset : Nat) (text : List Char) :
    (startsAfter offset text).length = text.count '\n' := by
  fun_induction startsAfter offset text with
  | case1 => rfl
  | case2 offset rest ih => simp [ih]
  | case3 offset c rest other ih => simp [ih, other]

theorem startsAfter_eq_nil {text : List Char} (one : ∀ c ∈ text, c ≠ '\n') (offset : Nat) :
    startsAfter offset text = [] := by
  rw [← List.length_eq_zero_iff, length_startsAfter, List.count_eq_zero]
  intro member
  exact one '\n' member rfl

theorem countP_startsAfter_of_past {offset bound : Nat} (text : List Char) (past : bound ≤ offset) :
    (startsAfter offset text).countP (· ≤ bound) = 0 := by
  rw [List.countP_eq_zero]
  intro start member
  have := lt_of_mem_startsAfter offset text start member
  simp only [decide_eq_true_eq]
  omega

/-- As many lines start up to an offset as there are line feeds among the bytes before it. -/
theorem countP_startsAfter (offset length : Nat) (text : List Char) :
    (startsAfter offset text).countP (· ≤ offset + length) =
      ((bytes text).take length).count 0x0A := by
  induction text generalizing offset length with
  | nil => simp [startsAfter, bytes]
  | cons c rest ih =>
    have split : (bytes (c :: rest)).take length =
        (String.utf8EncodeChar c).take length ++ (bytes rest).take (length - c.utf8Size) := by
      rw [bytes, List.flatMap_cons, List.take_append, String.length_utf8EncodeChar]
      rfl
    rw [split, List.count_append]
    by_cases ends : c = '\n'
    · subst ends
      have feed : String.utf8EncodeChar '\n' = [0x0A] := by decide
      rw [startsAfter, if_pos rfl, List.countP_cons, utf8Size_lineFeed, feed]
      cases length with
      | zero => simp [countP_startsAfter_of_past rest (Nat.le_succ offset)]
      | succ length =>
        have later := ih (offset + 1) length
        rw [Nat.add_right_comm, Nat.add_assoc] at later
        rw [later]
        simp [Nat.add_comm]
    · rw [startsAfter, if_neg ends, count_take_utf8EncodeChar ends, Nat.zero_add]
      by_cases whole : c.utf8Size ≤ length
      · have later := ih (offset + c.utf8Size) (length - c.utf8Size)
        rw [Nat.add_assoc, Nat.add_sub_cancel' whole] at later
        exact later
      · rw [countP_startsAfter_of_past rest (by omega), Nat.sub_eq_zero_of_le (by omega)]
        rfl

/-! The search. -/

theorem getD_le_iff {starts : Array UInt32} (sorted : (starts.toList.map UInt32.toNat).Pairwise (· < ·))
    (bound : Nat) {place : Nat} (inside : place < starts.size) :
    (starts.getD place 0).toNat ≤ bound ↔ place < starts.toList.countP (·.toNat ≤ bound) := by
  obtain ⟨starts⟩ := starts
  simp only [List.size_toArray] at sorted inside ⊢
  rw [Array.getD_eq_getD_getElem?, List.getElem?_toArray]
  induction starts generalizing place with
  | nil => simp at inside
  | cons first rest ih =>
    obtain ⟨least, others⟩ := List.pairwise_cons.mp sorted
    by_cases low : first.toNat ≤ bound
    · cases place with
      | zero => simp [low]
      | succ place => simpa [low] using ih others (by simpa using inside)
    · have beyond : rest.countP (·.toNat ≤ bound) = 0 := by
        rw [List.countP_eq_zero]
        intro start member
        have := least start.toNat (List.mem_map_of_mem member)
        simp only [decide_eq_true_eq]
        omega
      cases place with
      | zero => simp [low, beyond]
      | succ place => simpa [low, beyond] using ih others (by simpa using inside)

/-- Halving comes to the number of entries up to the offset, once this number is between the
bounds. -/
theorem countUpTo_eq {starts : Array UInt32}
    (sorted : (starts.toList.map UInt32.toNat).Pairwise (· < ·)) {offset low high : Nat}
    (least : low ≤ starts.toList.countP (·.toNat ≤ offset))
    (most : starts.toList.countP (·.toNat ≤ offset) ≤ high) (inside : high ≤ starts.size) :
    countUpTo starts offset low high = starts.toList.countP (·.toNat ≤ offset) := by
  fun_induction countUpTo starts offset low high with
  | case1 low high apart middle reached ih =>
    have := (getD_le_iff sorted offset (show middle < starts.size by omega)).mp reached
    exact ih (by omega) most inside
  | case2 low high apart middle beyond ih =>
    have := mt (getD_le_iff sorted offset (show middle < starts.size by omega)).mpr beyond
    exact ih least (by omega) (by omega)
  | case3 low high closed => omega

/-! Positions in a text that 32 bits are enough for. -/

section Lookup

variable {text : List Char} (short : byteLength text + 1 < 2 ^ 32)

include short

theorem starts_ofText :
    (ofText text).starts.toList.map UInt32.toNat = 0 :: startsAfter 0 text := by
  rw [ofText, List.map_map]
  refine (List.map_congr_left ?_).trans (List.map_id _)
  intro start member
  have most : start ≤ byteLength text := by
    rcases List.mem_cons.mp member with rfl | later
    · exact Nat.zero_le _
    · simpa using le_of_mem_startsAfter 0 text start later
  exact UInt32.toNat_ofNat_of_lt' (by change _ < 2 ^ 32; omega)

theorem starts_sorted : ((ofText text).starts.toList.map UInt32.toNat).Pairwise (· < ·) := by
  rw [starts_ofText short]
  exact List.pairwise_cons.mpr ⟨lt_of_mem_startsAfter 0 text, startsAfter_sorted 0 text⟩

theorem countP_starts (bound : Nat) : (ofText text).starts.toList.countP (·.toNat ≤ bound) =
    (0 :: startsAfter 0 text).countP (· ≤ bound) := by
  rw [← starts_ofText short, List.countP_map]
  rfl

theorem countP_starts_lt (bound : Nat) :
    (0 :: startsAfter 0 text).countP (· ≤ bound) < 2 ^ 32 := by
  have most : (0 :: startsAfter 0 text).countP (· ≤ bound) ≤ _ := List.countP_le_length
  have feeds : text.count '\n' ≤ text.length := List.count_le_length
  have characters := length_le_byteLength text
  rw [List.length_cons, length_startsAfter] at most
  omega

variable (offset : Nat)

theorem position_eq :
    let stop := min offset (byteLength text)
    let line := (0 :: startsAfter 0 text).countP (· ≤ stop)
    let start := ((ofText text).starts.getD (line - 1) 0).toNat
    (ofText text).position offset =
      ⟨line, ((slice? start stop text).map List.length).getD 0 + 1⟩ := by
  have length : (byteLength text).toUInt32.toNat = byteLength text :=
    UInt32.toNat_ofNat_of_lt' (by change _ < 2 ^ 32; omega)
  have counted (stop : Nat) : countUpTo (ofText text).starts stop 0 (ofText text).starts.size =
      (0 :: startsAfter 0 text).countP (· ≤ stop) := by
    rw [← countP_starts short]
    exact countUpTo_eq (starts_sorted short) (Nat.zero_le _) List.countP_le_length (Nat.le_refl _)
  have characters (start : Nat) :
      ((slice? start (min offset (byteLength text)) text).map List.length).getD 0 + 1 < 2 ^ 32 := by
    cases sliced : slice? start (min offset (byteLength text)) text with
    | none => simp
    | some stretch =>
      have bytes := byteLength_of_slice? sliced
      have most := length_le_byteLength stretch
      simp only [Option.map_some, Option.getD_some]
      omega
  have held : (ofText text).text = text := rfl
  simp only [position, held, length, counted]
  rw [Position.mk.injEq]
  exact ⟨UInt32.toNat_ofNat_of_lt' (countP_starts_lt short _),
    UInt32.toNat_ofNat_of_lt' (characters _)⟩

theorem position_min : (ofText text).position (min offset (byteLength text)) =
    (ofText text).position offset := by
  rw [position_eq short, position_eq short, Nat.min_assoc, Nat.min_self]

theorem line_eq_countP : ((ofText text).position offset).line =
    (0 :: startsAfter 0 text).countP (· ≤ min offset (byteLength text)) := by
  rw [position_eq short]

theorem line_eq_count : ((ofText text).position offset).line =
    1 + ((bytes text).take (min offset (byteLength text))).count 0x0A := by
  have later := countP_startsAfter 0 (min offset (byteLength text)) text
  rw [Nat.zero_add] at later
  rw [line_eq_countP short, List.countP_cons, later]
  simp [Nat.add_comm]

theorem start_found : ∃ start,
    (ofText text).starts[((ofText text).position offset).line - 1]? = some start ∧
      start.toNat ≤ min offset (byteLength text) := by
  have line := line_eq_countP short offset
  rw [← countP_starts short] at line
  have positive := line_eq_count short offset
  have most : ((ofText text).position offset).line ≤ (ofText text).starts.size := by
    rw [line]
    exact List.countP_le_length
  have inside : ((ofText text).position offset).line - 1 < (ofText text).starts.size := by omega
  have entry := Array.getElem?_eq_getElem inside
  have reached := (getD_le_iff (starts_sorted short) (min offset (byteLength text)) inside).mpr
    (by omega)
  rw [Array.getD_eq_getD_getElem?, entry] at reached
  exact ⟨_, entry, reached⟩

variable {offset}

theorem column_eq {start : UInt32}
    (found : (ofText text).starts[((ofText text).position offset).line - 1]? = some start) :
    ((ofText text).position offset).column =
      ((slice? start.toNat (min offset (byteLength text)) text).map List.length).getD 0 + 1 := by
  rw [line_eq_countP short] at found
  rw [position_eq short]
  simp only [Array.getD_eq_getD_getElem?, found, Option.getD_some]

theorem column_of_inside (inside : ¬IsBoundary text (min offset (byteLength text))) :
    ((ofText text).position offset).column = 1 := by
  obtain ⟨start, found, _⟩ := start_found short offset
  rw [column_eq short found]
  cases sliced : slice? start.toNat (min offset (byteLength text)) text with
  | none => rfl
  | some stretch => exact absurd (isBoundary_of_slice? sliced) inside

end Lookup

theorem lastLine_start (text : List Char) :
    ∃ front, text = front ++ lastLine text ∧
      (0 :: startsAfter 0 text)[(startsAfter 0 text).length]? = some (byteLength front) := by
  obtain ⟨front, split, before, one⟩ := lastLine_split text
  refine ⟨front, split, ?_⟩
  have starts : startsAfter 0 text = startsAfter 0 front := by
    rw [split, startsAfter_append, startsAfter_eq_nil one, List.append_nil]
  rw [starts]
  rcases before with rfl | ⟨others, rfl⟩
  · rfl
  · rw [startsAfter_append]
    simp [startsAfter, byteLength_append, byteLength, utf8Size_lineFeed]

/-- Between two characters the position is that of a scan: the line feeds before it, and what stands
behind the last of them. -/
theorem position_byteLength {before after : List Char}
    (short : byteLength (before ++ after) + 1 < 2 ^ 32) :
    (ofText (before ++ after)).position (byteLength before) =
      ⟨1 + before.count '\n', 1 + (lastLine before).length⟩ := by
  have clamp : min (byteLength before) (byteLength (before ++ after)) = byteLength before := by
    rw [byteLength_append]
    omega
  have line : ((ofText (before ++ after)).position (byteLength before)).line =
      1 + before.count '\n' := by
    have within : (startsAfter 0 before).countP (· ≤ byteLength before) = before.count '\n' := by
      rw [← length_startsAfter 0, List.countP_eq_length]
      intro start member
      simpa using le_of_mem_startsAfter 0 before start member
    rw [line_eq_countP short, clamp, List.countP_cons, startsAfter_append, List.countP_append, within,
      countP_startsAfter_of_past after (by omega)]
    simp [Nat.add_comm]
  obtain ⟨start, found, _⟩ := start_found short (byteLength before)
  obtain ⟨front, split, entry⟩ := lastLine_start before
  have starts : start.toNat = byteLength front := by
    have numbers := congrArg (·[before.count '\n']?) (starts_ofText short)
    rw [line, Nat.add_sub_cancel_left, ← Array.getElem?_toList] at found
    simp only [List.getElem?_map, found, Option.map_some, startsAfter_append] at numbers
    rw [← List.cons_append, List.getElem?_append_left (by simp [length_startsAfter]),
      ← length_startsAfter 0, entry] at numbers
    exact Option.some.inj numbers
  have sliced : slice? (byteLength front) (byteLength before) (before ++ after) =
      some (lastLine before) := by
    have middle := slice?_middle front (lastLine before) after
    rw [← byteLength_append, ← List.append_assoc, ← split] at middle
    exact middle
  have column := column_eq short found
  rw [starts, clamp, sliced, Option.map_some, Option.getD_some, Nat.add_comm] at column
  rw [← line, ← column]

/-- The position that is looked up is that of a naive scan, in a text that 32 bits are enough for.
The line is counted by the line feeds among the bytes up to the offset, or up to the end if the
offset is past it. The column is counted by the characters from the last line feed before the
offset, or from the start of the text; it is 1 if the offset is inside of a character. The lookup in
the table always finds an entry. -/
theorem position_agrees_with_scan (text : List Char) (offset : Nat)
    (short : (bytes text).length + 1 < 2 ^ 32) :
    let index := ofText text
    let stop := min offset (bytes text).length
    let found := index.position offset
    found.line = 1 + ((bytes text).take stop).count 0x0A ∧
    (∀ before after, text = before ++ after → (bytes before).length = stop →
      found.column = 1 + (lastLine before).length) ∧
    (¬IsBoundary text stop → found.column = 1) ∧
    ∃ start, index.starts[found.line - 1]? = some start ∧ start.toNat ≤ stop := by
  simp only [length_bytes] at short ⊢
  refine ⟨line_eq_count short offset, ?_, column_of_inside short, start_found short offset⟩
  rintro before after rfl reached
  have same : (ofText (before ++ after)).position offset =
      (ofText (before ++ after)).position (byteLength before) := by
    rw [reached]
    exact (position_min short _).symm
  rw [same, position_byteLength short]

/-- A text of two lines with wide characters, looked up behind one and inside of one. -/
theorem position_agrees_with_scan_wide :
    ((ofText "é\nüx".toList).position 5).column = 2 ∧
      ((ofText "é\nüx".toList).position 4).column = 1 := by
  refine ⟨?_, ?_⟩
  · exact (position_agrees_with_scan "é\nüx".toList 5 (by decide)).2.1 "é\nü".toList "x".toList
      (by decide) (by decide)
  · exact (position_agrees_with_scan "é\nüx".toList 4 (by decide)).2.2.1 (by decide)

/-- A text whose length wraps around to nothing has its start as its only position. -/
theorem position_of_wrapped {text : List Char} (wraps : (byteLength text).toUInt32 = 0)
    (one : ∀ c ∈ text, c ≠ '\n') (offset : Nat) : (ofText text).position offset = ⟨1, 1⟩ := by
  have starts : (ofText text).starts = #[0] := by
    rw [ofText, startsAfter_eq_nil one]
    rfl
  have empty : (slice? 0 0 text).map List.length = some 0 := by
    cases text <;> rfl
  have held : (ofText text).text = text := rfl
  have counted : countUpTo #[0] 0 0 1 = 1 := by simp [countUpTo]
  simp [position, starts, held, wraps, counted, empty]

theorem byteLength_replicate (length : Nat) : byteLength (List.replicate length 'a') = length := by
  induction length with
  | zero => rfl
  | succ length ih =>
    rw [List.replicate_succ, byteLength, ih, Nat.add_comm]
    rfl

theorem position_of_replicate (offset : Nat) :
    (ofText (List.replicate (2 ^ 32) 'a')).position offset = ⟨1, 1⟩ := by
  apply position_of_wrapped
  · rw [byteLength_replicate]
    rfl
  · intro c member
    rw [List.eq_of_mem_replicate member]
    decide

/-- In a text of 4 GiB the column of the sixth character is looked up as 1, while a scan comes to
6. -/
theorem position_wraps_around :
    let text := List.replicate (2 ^ 32) 'a'
    let before := List.replicate 5 'a'
    (∃ after, text = before ++ after) ∧ (bytes before).length = min 5 (bytes text).length ∧
      1 + (lastLine before).length = 6 ∧ ((ofText text).position 5).column = 1 := by
  intro text before
  refine ⟨⟨List.replicate (2 ^ 32 - 5) 'a', ?_⟩, ?_, by decide, ?_⟩
  · exact List.replicate_add 5 (2 ^ 32 - 5) 'a'
  · rw [length_bytes, length_bytes, byteLength_replicate, byteLength_replicate]
    rfl
  · rw [position_of_replicate]

end LineIndex

/-- One position comes before another, line by line and then column by column. -/
def Position.Before (first second : Position) : Prop :=
  first.line < second.line ∨ first.line = second.line ∧ first.column < second.column

instance (first second : Position) : Decidable (first.Before second) :=
  inferInstanceAs (Decidable (_ ∨ _))

theorem Position.Before.ne {first second : Position} (before : first.Before second) :
    first ≠ second := by
  rintro rfl
  rcases before with less | ⟨_, less⟩
  · omega
  · omega

namespace LineIndex

open Text

/-- Some text further on, the position is a later one: on a later line if there is a line feed on
the way, and otherwise on the same line by as many columns. -/
theorem before_of_append {before between after : List Char}
    (short : byteLength (before ++ (between ++ after)) + 1 < 2 ^ 32) (any : between ≠ []) :
    ((ofText (before ++ (between ++ after))).position (byteLength before)).Before
      ((ofText (before ++ (between ++ after))).position (byteLength (before ++ between))) := by
  have regrouped := List.append_assoc before between after
  rw [position_byteLength short, ← regrouped, position_byteLength (by rwa [regrouped])]
  by_cases one : ∀ c ∈ between, c ≠ '\n'
  · have noFeed : between.count '\n' = 0 := by
      rw [List.count_eq_zero]
      intro member
      exact one '\n' member rfl
    have longer : 0 < between.length := List.length_pos_iff.mpr any
    refine .inr ⟨by simp [noFeed], ?_⟩
    simp only [lastLine_append before one, List.length_append]
    omega
  · have feeds : 0 < between.count '\n' := by
      rw [List.count_pos_iff]
      simpa using one
    refine .inl ?_
    simp only [List.count_append]
    omega

theorem position_before {text : List Char} (short : byteLength text + 1 < 2 ^ 32) {first second : Nat}
    (starts : IsBoundary text first) (ends : IsBoundary text second) (less : first < second) :
    ((ofText text).position first).Before ((ofText text).position second) := by
  obtain ⟨before, rest, split, rfl⟩ := starts
  obtain ⟨longer, after, same, rfl⟩ := ends
  rcases List.append_eq_append_iff.mp (split.symm.trans same) with ⟨more, cut, tail⟩ | ⟨more, cut, _⟩
  · subst split cut tail
    apply before_of_append short
    rintro rfl
    simp at less
  · subst cut
    rw [byteLength_append] at less
    omega

theorem position_injective {text : List Char} (short : byteLength text + 1 < 2 ^ 32)
    {first second : Nat} (starts : IsBoundary text first) (ends : IsBoundary text second)
    (same : (ofText text).position first = (ofText text).position second) : first = second := by
  rcases Nat.lt_trichotomy first second with less | equal | greater
  · exact absurd same (position_before short starts ends less).ne
  · exact equal
  · exact absurd same.symm (position_before short ends starts greater).ne

end LineIndex

namespace Report

def statedPosition? (line column : String) (message : Json) : Option Position := do
  return ⟨(← stated? message line).toNat, (← stated? message column).toNat⟩

theorem statedPosition?_messageJson (index : LineIndex) (diagnostic : Diagnostic) :
    statedPosition? "line" "column" (messageJson index diagnostic) =
        some (index.position diagnostic.span.start) ∧
      statedPosition? "endLine" "endColumn" (messageJson index diagnostic) =
        some (index.position diagnostic.span.stop) := by
  simp [statedPosition?, stated?, messageJson, Json.member?, Json.integer?]

/-- Positions are in the order of offsets, in a text that 32 bits are enough for. Of two offsets
between characters the greater one has the later position, so a position stands for one offset only;
and the message of a diagnostic whose span cuts the text ends where it starts or later. -/
theorem positions_in_order :
    (∀ (text : List Char) (first second : Nat), Text.byteLength text + 1 < 2 ^ 32 →
      Text.IsBoundary text first → Text.IsBoundary text second → first < second →
      ((LineIndex.ofText text).position first).Before ((LineIndex.ofText text).position second)) ∧
    (∀ (text : List Char) (first second : Nat), Text.byteLength text + 1 < 2 ^ 32 →
      Text.IsBoundary text first → Text.IsBoundary text second →
      (LineIndex.ofText text).position first = (LineIndex.ofText text).position second →
      first = second) ∧
    ∀ (sources : Sources) (result : LintResult) (place : Nat) (diagnostic : Diagnostic),
      result.diagnostics[place]? = some diagnostic →
      Text.byteLength (sources.text result.fileName).toList + 1 < 2 ^ 32 →
      diagnostic.span.Cuts (sources.text result.fileName).toList →
      let index := LineIndex.ofText (sources.text result.fileName).toList
      let start := index.position diagnostic.span.start
      let stop := index.position diagnostic.span.stop
      ∃ message, (messages (resultJson sources result))[place]? = some message ∧
        statedPosition? "line" "column" message = some start ∧
        statedPosition? "endLine" "endColumn" message = some stop ∧
        (start = stop ∨ start.Before stop) := by
  refine ⟨fun _ _ _ short => LineIndex.position_before short,
    fun _ _ _ short => LineIndex.position_injective short, ?_⟩
  intro sources result place diagnostic here short cuts index start stop
  obtain ⟨states, ends⟩ := statedPosition?_messageJson index diagnostic
  obtain ⟨starts, stops⟩ := cuts.isBoundary
  refine ⟨_, by rw [messages_resultJson, List.getElem?_map, here]; rfl, states, ends, ?_⟩
  rcases Nat.eq_or_lt_of_le cuts.start_le_stop with same | less
  · exact .inl (congrArg index.position same)
  · exact .inr (LineIndex.position_before short starts stops less)

/-- A message that starts at the end of one line and ends behind a wide character of the next. -/
theorem positions_in_order_wide :
    let result : LintResult := ⟨"page.jsx", [⟨"rule", "", .error, "", ⟨2, 5⟩, none⟩], 1, 0⟩
    let index := LineIndex.ofText "é\nüx".toList
    (index.position 2).Before (index.position 5) ∧
      ∃ message, (messages (resultJson [("page.jsx", "é\nüx")] result))[0]? = some message ∧
        statedPosition? "line" "column" message = some (index.position 2) ∧
        statedPosition? "endLine" "endColumn" message = some (index.position 5) := by
  intro result index
  obtain ⟨ordered, _, stated⟩ := positions_in_order
  refine ⟨ordered _ 2 5 (by decide) (by decide) (by decide) (by decide), ?_⟩
  obtain ⟨message, shown, starts, stops, _⟩ :=
    stated [("page.jsx", "é\nüx")] result 0 _ rfl (by decide +kernel) (by decide +kernel)
  exact ⟨message, shown, starts, stops⟩

/-- In a text of 4 GiB the first and the sixth character have the same position. -/
theorem positions_wrap_around :
    let text := List.replicate (2 ^ 32) 'a'
    Text.IsBoundary text 0 ∧ Text.IsBoundary text 5 ∧
      (LineIndex.ofText text).position 0 = (LineIndex.ofText text).position 5 := by
  intro text
  refine ⟨⟨[], text, rfl, rfl⟩, ?_, ?_⟩
  · exact ⟨List.replicate 5 'a', List.replicate (2 ^ 32 - 5) 'a',
      List.replicate_add 5 (2 ^ 32 - 5) 'a', rfl⟩
  · rw [LineIndex.position_of_replicate, LineIndex.position_of_replicate]

end Report

end ClientBoundary
