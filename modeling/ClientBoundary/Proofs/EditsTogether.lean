import ClientBoundary.Proofs.FixLoop

/-! Several edits of one text. Edits are chosen so that no two of them overlap, and are then made
one after the other from the end of the text. What this comes to is told without an order: at every
offset goes in what the edits put there, and the characters in their stretches go. One case is
different. An insertion may be made right before an edit that starts at the same offset; then the
stretch of that edit is counted from the inserted text, and some of the inserted text goes in place
of what should. -/
namespace ClientBoundary

theorem Span.covers_iff {span : Span} {offset : Nat} :
    span.covers offset = true ↔ span.start ≤ offset ∧ offset < span.stop := by
  simp [Span.covers]

namespace Text

theorem eq_nil_of_byteLength {text : List Char} (empty : byteLength text = 0) : text = [] := by
  cases text with
  | nil => rfl
  | cons c rest =>
    have positive : 0 < c.utf8Size := c.utf8Size_pos
    simp only [byteLength] at empty
    omega

theorem cut?_append_right {offset : Nat} {first : List Char} (rest : List Char)
    (inside : offset ≤ byteLength first) :
    cut? offset (first ++ rest) = (cut? offset first).map fun parts => (parts.1, parts.2 ++ rest) := by
  fun_induction cut? offset first with
  | case1 text => simp [cut?]
  | case2 n => simp [byteLength] at inside
  | case3 n c others fits ih =>
    simp only [byteLength] at inside
    simp only [List.cons_append, cut?, fits, if_true, ih (by omega), Option.map_map]
    rfl
  | case4 n c others short => simp [cut?, short]

theorem slice?_middle (before inside after : List Char) :
    slice? (byteLength before) (byteLength before + byteLength inside) (before ++ (inside ++ after)) =
      some inside := by
  have moved := slice?_append_left before (inside ++ after) 0 (byteLength inside)
  rw [Nat.add_zero] at moved
  rw [moved]
  simp [slice?, cut?, cut?_byteLength]

theorem byteLength_of_slice? {start stop : Nat} {text stretch : List Char}
    (found : slice? start stop text = some stretch) : start + byteLength stretch = stop := by
  unfold slice? at found
  split at found
  · cases found
  · next ordered =>
    simp only [Option.pure_def, Option.bind_eq_bind] at found
    obtain ⟨parts, _, further⟩ := Option.bind_eq_some_iff.mp found
    obtain ⟨pieces, second, same⟩ := Option.bind_eq_some_iff.mp further
    obtain ⟨_, length⟩ := cut?_append second
    rw [← Option.some.inj same, length]
    omega

end Text

theorem Span.Cuts.front {span : Span} {front rest : List Char} (cuts : span.Cuts (front ++ rest))
    (ends : span.stop ≤ Text.byteLength front) :
    ∃ before inside after, front = before ++ (inside ++ after) ∧
      Text.byteLength before = span.start ∧ span.start + Text.byteLength inside = span.stop := by
  obtain ⟨before, inside, after, split, start, stop⟩ := cuts
  rcases List.append_eq_append_iff.mp split with ⟨more, cut, _⟩ | ⟨more, cut, _⟩
  · have empty : more = [] := by
      apply Text.eq_nil_of_byteLength
      have := congrArg Text.byteLength cut
      simp only [Text.byteLength_append] at this
      omega
    rw [empty, List.append_nil] at cut
    exact ⟨before, inside, [], by simp [cut], start, by omega⟩
  · exact ⟨before, inside, more, by rw [cut, List.append_assoc], start, by omega⟩

namespace TextEdit

/-- The new text that belongs at an offset: what is inserted there, and then what is put in place of
the stretch that starts there. -/
def newTextAt (edits : List TextEdit) (offset : Nat) : List Char :=
  ((edits.filter (·.start = offset)).filter (·.stop = offset) ++
    (edits.filter (·.start = offset)).filter (·.stop ≠ offset)).flatMap (·.newText.toList)

/-- A text that starts at an offset, character by character, with all edits made. -/
def madeFrom (edits : List TextEdit) : Nat → List Char → List Char
  | _, [] => []
  | offset, c :: rest =>
    newTextAt edits offset ++ (if edits.any (·.span.covers offset) then [] else [c]) ++
      madeFrom edits (offset + c.utf8Size) rest

def madeTogether (edits : List TextEdit) (text : List Char) : List Char :=
  madeFrom edits 0 text ++ newTextAt edits (Text.byteLength text)

/-- The first edit only inserts, and the second one starts at the same offset. -/
def isUndercutBy (insertion edit : TextEdit) : Bool :=
  insertion.start = insertion.stop && edit.start = insertion.start

/-- What an insertion and an edit that undercuts it come to. As many bytes go as should, but they
are counted from the inserted text; if they end inside of a character there is no result. -/
def undercut? (text : List Char) (insertion edit : TextEdit) : Option TextEdit := do
  let stretch ← Text.slice? edit.start edit.stop text
  let (_, left) ← Text.cut? (edit.stop - edit.start) (insertion.newText.toList ++ stretch)
  return { edit with newText := edit.newText ++ String.ofList left }

/-- The edits that are left to make at once when each undercut insertion has been made one with the
edit that follows it. -/
def settle? (text : List Char) : List TextEdit → Option (List TextEdit)
  | insertion :: edit :: rest =>
    if insertion.isUndercutBy edit then do
      let both ← undercut? text insertion edit
      return both :: (← settle? text rest)
    else do
      return insertion :: (← settle? text (edit :: rest))
  | edits => some edits

theorem overlaps_comm (first second : TextEdit) : first.overlaps second = second.overlaps first := by
  unfold overlaps
  rw [Bool.and_comm, Bool.beq_comm, @Bool.beq_comm _ _ _ first.stop]

/-- Edits that do not overlap have different extents, and share no byte. -/
theorem overlaps_eq_false_iff {first second : TextEdit} :
    first.overlaps second = false ↔
      ¬(first.start < second.stop ∧ second.start < first.stop) ∧
        ¬(first.start = second.start ∧ first.stop = second.stop) := by
  simp [overlaps]

theorem start_le_stop {edit : TextEdit} {text : List Char} (cuts : edit.span.Cuts text) :
    edit.start ≤ edit.stop := cuts.start_le_stop

/-! What is made at once. -/

section MadeTogether

variable {edits : List TextEdit} {offset : Nat} {text : List Char}

theorem madeFrom_append (edits : List TextEdit) (offset : Nat) (first rest : List Char) :
    madeFrom edits offset (first ++ rest) =
      madeFrom edits offset first ++ madeFrom edits (offset + Text.byteLength first) rest := by
  induction first generalizing offset with
  | nil => simp [madeFrom, Text.byteLength]
  | cons c others ih =>
    simp only [List.cons_append, madeFrom, ih, Text.byteLength, List.append_assoc, Nat.add_assoc]

theorem newTextAt_eq_nil (none : ∀ edit ∈ edits, edit.start ≠ offset) :
    newTextAt edits offset = [] := by
  have no : edits.filter (·.start = offset) = [] := by
    rw [List.filter_eq_nil_iff]
    intro edit member
    simpa using none edit member
  simp [newTextAt, no]

theorem madeFrom_of_apart
    (apart : ∀ edit ∈ edits, edit.stop ≤ offset ∧ edit.start < offset ∨
      offset + Text.byteLength text ≤ edit.start) : madeFrom edits offset text = text := by
  induction text generalizing offset with
  | nil => rfl
  | cons c rest ih =>
    have positive : 0 < c.utf8Size := c.utf8Size_pos
    simp only [Text.byteLength] at apart
    have nothing : newTextAt edits offset = [] := by
      apply newTextAt_eq_nil
      intro edit member
      have := apart edit member
      omega
    have kept : edits.any (·.span.covers offset) = false := by
      rw [List.any_eq_false]
      intro edit member
      have := apart edit member
      simp only [Span.covers_iff, span]
      omega
    have later : madeFrom edits (offset + c.utf8Size) rest = rest := by
      apply ih
      intro edit member
      have := apart edit member
      omega
    simp [madeFrom, nothing, kept, later]

theorem madeFrom_past (past : ∀ edit ∈ edits, edit.stop ≤ offset ∧ edit.start < offset) :
    madeFrom edits offset text ++ newTextAt edits (offset + Text.byteLength text) = text := by
  have stays : madeFrom edits offset text = text :=
    madeFrom_of_apart fun edit member => .inl (past edit member)
  have nothing : newTextAt edits (offset + Text.byteLength text) = [] := by
    apply newTextAt_eq_nil
    intro edit member
    have := past edit member
    omega
  rw [stays, nothing, List.append_nil]

theorem madeFrom_of_inside {edit : TextEdit} (member : edit ∈ edits) (start : edit.start ≤ offset)
    (stop : offset + Text.byteLength text ≤ edit.stop) (none : ∀ other ∈ edits, other.start < offset) :
    madeFrom edits offset text = [] := by
  induction text generalizing offset with
  | nil => rfl
  | cons c rest ih =>
    have positive : 0 < c.utf8Size := c.utf8Size_pos
    simp only [Text.byteLength] at stop
    have nothing : newTextAt edits offset = [] :=
      newTextAt_eq_nil fun other isOther => Nat.ne_of_lt (none other isOther)
    have covered : edits.any (·.span.covers offset) = true := by
      refine List.any_eq_true.mpr ⟨edit, member, ?_⟩
      simp only [Span.covers_iff, span]
      omega
    have later : madeFrom edits (offset + c.utf8Size) rest = [] := by
      apply ih
      · omega
      · omega
      · intro other isOther
        have := none other isOther
        omega
    simp [madeFrom, nothing, covered, later]

theorem madeFrom_congr {others : List TextEdit}
    (same : ∀ place, offset ≤ place → place < offset + Text.byteLength text →
      newTextAt edits place = newTextAt others place ∧
        edits.any (·.span.covers place) = others.any (·.span.covers place)) :
    madeFrom edits offset text = madeFrom others offset text := by
  induction text generalizing offset with
  | nil => rfl
  | cons c rest ih =>
    have positive : 0 < c.utf8Size := c.utf8Size_pos
    simp only [Text.byteLength] at same
    have here := same offset (by omega) (by omega)
    have later : madeFrom edits (offset + c.utf8Size) rest =
        madeFrom others (offset + c.utf8Size) rest := by
      apply ih
      intro place low high
      exact same place (by omega) (by omega)
    simp only [madeFrom, here, later]

theorem madeTogether_nil (text : List Char) : madeTogether [] text = text := by
  rw [madeTogether, madeFrom_of_apart (by simp), newTextAt_eq_nil (by simp), List.append_nil]

section Cons

variable {edit : TextEdit}
  (earlier : ∀ other ∈ edits, other.start ≤ other.stop ∧ other.stop ≤ edit.start ∧
    edit.overlaps other = false)

include earlier

/-- Of the others only an insertion can start where the edit does, and it comes first. -/
theorem newTextAt_cons_start :
    newTextAt (edit :: edits) edit.start = newTextAt edits edit.start ++ edit.newText.toList := by
  by_cases inserts : edit.stop = edit.start
  · have alone : ∀ other ∈ edits, other.start ≠ edit.start := by
      intro other member same
      obtain ⟨ordered, before, apart⟩ := earlier other member
      have := overlaps_eq_false_iff.mp apart
      omega
    have no : edits.filter (·.start = edit.start) = [] := by
      rw [List.filter_eq_nil_iff]
      intro other member
      simpa using alone other member
    simp [newTextAt, no, inserts]
  · have noStretch : (edits.filter (·.start = edit.start)).filter (·.stop ≠ edit.start) = [] := by
      rw [List.filter_eq_nil_iff]
      intro other member
      obtain ⟨isOther, same⟩ := List.mem_filter.mp member
      obtain ⟨ordered, before, _⟩ := earlier other isOther
      simp only [decide_eq_true_eq] at same
      simp only [decide_eq_true_eq, not_not]
      omega
    simp only [newTextAt, List.filter_cons, decide_true, if_true, inserts, decide_false,
      Bool.false_eq_true, if_false, ne_eq, not_false_eq_true] at noStretch ⊢
    rw [noStretch]
    simp

/-- From the start of the edit on there is its new text and the text behind it. -/
theorem madeFrom_behind {gone : List Char} (after : List Char)
    (stop : edit.start + Text.byteLength gone = edit.stop) :
    madeFrom (edit :: edits) edit.start (gone ++ after) ++
        newTextAt (edit :: edits) (edit.start + Text.byteLength (gone ++ after)) =
      newTextAt (edit :: edits) edit.start ++ after := by
  have bounds : ∀ other ∈ edit :: edits, other.start ≤ edit.start ∧ other.stop ≤ edit.stop := by
    intro other member
    rcases List.mem_cons.mp member with rfl | isOther
    · omega
    · have := earlier other isOther
      omega
  cases gone with
  | nil =>
    cases after with
    | nil => simp [madeFrom, Text.byteLength]
    | cons c rest =>
      have positive : 0 < c.utf8Size := c.utf8Size_pos
      simp only [Text.byteLength, List.nil_append] at stop ⊢
      have kept : (edit :: edits).any (·.span.covers edit.start) = false := by
        rw [List.any_eq_false]
        intro other member
        have := bounds other member
        simp only [Span.covers_iff, span]
        omega
      have stays : madeFrom (edit :: edits) (edit.start + c.utf8Size) rest ++
          newTextAt (edit :: edits) (edit.start + c.utf8Size + Text.byteLength rest) = rest := by
        apply madeFrom_past
        intro other member
        have := bounds other member
        omega
      rw [madeFrom, kept, ← Nat.add_assoc, List.append_assoc, stays]
      simp
  | cons c rest =>
    have positive : 0 < c.utf8Size := c.utf8Size_pos
    simp only [Text.byteLength, List.cons_append, Text.byteLength_append] at stop ⊢
    have covered : (edit :: edits).any (·.span.covers edit.start) = true := by
      refine List.any_eq_true.mpr ⟨edit, List.mem_cons_self, ?_⟩
      simp only [Span.covers_iff, span]
      omega
    have goes : madeFrom (edit :: edits) (edit.start + c.utf8Size) rest = [] := by
      apply madeFrom_of_inside List.mem_cons_self
      · omega
      · omega
      · intro other member
        have := bounds other member
        omega
    have stays : madeFrom (edit :: edits) edit.stop after ++
        newTextAt (edit :: edits) (edit.stop + Text.byteLength after) = after := by
      apply madeFrom_past
      intro other member
      have := bounds other member
      omega
    rw [madeFrom, covered, madeFrom_append, goes, Nat.add_assoc, stop, ← Nat.add_assoc c.utf8Size,
      ← Nat.add_assoc, stop, List.nil_append, List.append_assoc, stays]
    simp

end Cons

/-- Edit by edit from the end: the last one puts its new text between what the others make of the
text before it, and the text behind it. -/
theorem madeTogether_cons {edit : TextEdit} {before gone : List Char} (after : List Char)
    (start : Text.byteLength before = edit.start)
    (stop : edit.start + Text.byteLength gone = edit.stop)
    (earlier : ∀ other ∈ edits, other.start ≤ other.stop ∧ other.stop ≤ edit.start ∧
      edit.overlaps other = false) :
    madeTogether (edit :: edits) (before ++ (gone ++ after)) =
      madeTogether edits before ++ (edit.newText.toList ++ after) := by
  have front : madeFrom (edit :: edits) 0 before = madeFrom edits 0 before := by
    apply madeFrom_congr
    intro place _ high
    have different : edit.start ≠ place := by omega
    have outside : edit.span.covers place = false := by
      rw [← Bool.not_eq_true, Span.covers_iff]
      simp only [span]
      omega
    simp [newTextAt, different, outside]
  have behind := madeFrom_behind earlier after stop
  rw [madeTogether, madeFrom_append, front, Nat.zero_add, start, Text.byteLength_append, start,
    List.append_assoc, behind, newTextAt_cons_start earlier, madeTogether, start]
  simp only [List.append_assoc]

end MadeTogether

/-! What is made one after the other. -/

structure Lined (text : List Char) (edits : List TextEdit) : Prop where
  sorted : edits.Pairwise fun later earlier => earlier.start ≤ later.start
  apart : edits.Pairwise fun later earlier => later.overlaps earlier = false
  inside : ∀ edit ∈ edits, edit.span.Cuts text

namespace Lined

variable {text : List Char} {edit : TextEdit} {rest : List TextEdit}

theorem tail (lined : Lined text (edit :: rest)) : Lined text rest where
  sorted := lined.sorted.of_cons
  apart := lined.apart.of_cons
  inside := fun other member => lined.inside other (List.mem_cons_of_mem _ member)

/-- What follows an edit in the line, other than at its very start, ends where the edit starts or
before. -/
theorem earlier (lined : Lined text (edit :: rest)) {other : TextEdit} (member : other ∈ rest)
    (free : edit.start < edit.stop ∨ other.start < edit.start) :
    other.start ≤ other.stop ∧ other.stop ≤ edit.start ∧ edit.overlaps other = false := by
  have sorted := List.rel_of_pairwise_cons lined.sorted member
  have apart := List.rel_of_pairwise_cons lined.apart member
  have ordered := start_le_stop (lined.inside other (List.mem_cons_of_mem _ member))
  have own := start_le_stop (lined.inside edit List.mem_cons_self)
  have := overlaps_eq_false_iff.mp apart
  exact ⟨ordered, by omega, apart⟩

theorem replace (lined : Lined text (edit :: rest)) {one : TextEdit} (start : one.start = edit.start)
    (stop : one.stop = edit.stop) : Lined text (one :: rest) where
  sorted := by
    rw [List.pairwise_cons, start]
    exact List.pairwise_cons.mp lined.sorted
  apart := by
    simp only [List.pairwise_cons, overlaps, start, stop]
    exact List.pairwise_cons.mp lined.apart
  inside := by
    intro other member
    rcases List.mem_cons.mp member with rfl | isOther
    · rw [span, start, stop]
      exact lined.inside edit List.mem_cons_self
    · exact lined.inside other (List.mem_cons_of_mem _ isOther)

/-- Two insertions at one offset overlap, so what undercuts an insertion has a stretch. -/
theorem stretches {insertion : TextEdit} (lined : Lined text (insertion :: edit :: rest))
    (undercut : insertion.isUndercutBy edit = true) : edit.start < edit.stop := by
  have inserts : insertion.start = insertion.stop ∧ edit.start = insertion.start := by
    simpa [isUndercutBy] using undercut
  have apart := List.rel_of_pairwise_cons lined.apart List.mem_cons_self
  have ordered := start_le_stop (lined.inside edit (by simp))
  have := overlaps_eq_false_iff.mp apart
  omega

/-- If the next one does not undercut an edit, none does. -/
theorem free {first next : TextEdit} (lined : Lined text (first :: next :: rest))
    (free : ¬first.isUndercutBy next = true) :
    ∀ other ∈ next :: rest, first.start < first.stop ∨ other.start < first.start := by
  intro other member
  have nextSorted := List.rel_of_pairwise_cons lined.sorted List.mem_cons_self
  have ordered := start_le_stop (lined.inside first List.mem_cons_self)
  have different : first.start = first.stop → next.start ≠ first.start := by
    simpa [isUndercutBy] using free
  rcases List.mem_cons.mp member with rfl | isOther
  · omega
  · have sorted := List.rel_of_pairwise_cons lined.tail.sorted isOther
    omega

end Lined

theorem undercut?_extent {text : List Char} {insertion edit both : TextEdit}
    (merged : undercut? text insertion edit = some both) :
    both.start = edit.start ∧ both.stop = edit.stop := by
  simp only [undercut?, Option.bind_eq_bind, Option.bind_eq_some_iff] at merged
  obtain ⟨stretch, _, parts, _, same⟩ := merged
  cases same
  exact ⟨rfl, rfl⟩

theorem settle?_extents {text : List Char} {edits settled : List TextEdit}
    (settles : settle? text edits = some settled) :
    ∀ one ∈ settled, ∃ edit ∈ edits, one.start = edit.start ∧ one.stop = edit.stop := by
  fun_induction settle? text edits generalizing settled with
  | case1 insertion edit rest undercut ih =>
    simp only [Option.bind_eq_bind, Option.bind_eq_some_iff] at settles
    obtain ⟨both, merged, others, further, same⟩ := settles
    cases same
    intro one member
    rcases List.mem_cons.mp member with rfl | inOthers
    · exact ⟨edit, by simp, undercut?_extent merged⟩
    · obtain ⟨other, isOther, extent⟩ := ih further one inOthers
      exact ⟨other, by simp [isOther], extent⟩
  | case2 first next rest free ih =>
    simp only [Option.bind_eq_bind, Option.bind_eq_some_iff] at settles
    obtain ⟨others, further, same⟩ := settles
    cases same
    intro one member
    rcases List.mem_cons.mp member with rfl | inOthers
    · exact ⟨one, by simp, rfl, rfl⟩
    · obtain ⟨other, isOther, extent⟩ := ih further one inOthers
      exact ⟨other, List.mem_cons_of_mem _ isOther, extent⟩
  | case3 edits short =>
    cases settles
    exact fun one member => ⟨one, member, rfl, rfl⟩

section Steps

variable {edit : TextEdit} {before gone : List Char} (start : Text.byteLength before = edit.start)
  (stop : edit.start + Text.byteLength gone = edit.stop)

include start stop

theorem applyTo?_front (after done : List Char) :
    edit.applyTo? (before ++ (gone ++ after) ++ done) =
      some (before ++ (edit.newText.toList ++ after ++ done)) := by
  have applied := applyTo?_append before gone (after ++ done) edit.newText
  rw [start, stop] at applied
  simpa only [List.append_assoc] using applied

theorem applyTo?_undercut (inserted after done : List Char) :
    edit.applyTo? (before ++ (inserted ++ (gone ++ after) ++ done)) =
      (Text.cut? (Text.byteLength gone) (inserted ++ gone)).map fun parts =>
        before ++ (edit.newText.toList ++ parts.2 ++ after ++ done) := by
  have first := Text.cut?_byteLength before (inserted ++ (gone ++ after) ++ done)
  have second := Text.cut?_append_left before (inserted ++ (gone ++ after) ++ done)
    (Text.byteLength gone)
  have inside : Text.byteLength gone ≤ Text.byteLength (inserted ++ gone) := by
    rw [Text.byteLength_append]
    omega
  have front := Text.cut?_append_right (after ++ done) inside
  have extent : edit.start ≤ edit.stop ∧
      edit.stop ≤ Text.byteLength (before ++ (inserted ++ (gone ++ after) ++ done)) := by
    simp only [Text.byteLength_append]
    omega
  simp only [List.append_assoc] at first second front extent ⊢
  rw [start] at first
  rw [start, stop, front] at second
  unfold applyTo?
  rw [if_pos extent, first, second]
  cases Text.cut? (Text.byteLength gone) (inserted ++ gone) with
  | none => rfl
  | some parts => simp

theorem undercut?_eq (insertion : TextEdit) (after : List Char) :
    undercut? (before ++ (gone ++ after)) insertion edit =
      (Text.cut? (Text.byteLength gone) (insertion.newText.toList ++ gone)).map fun parts =>
        { edit with newText := edit.newText ++ String.ofList parts.2 } := by
  have stretch := Text.slice?_middle before gone after
  rw [start, stop] at stretch
  have length : edit.stop - edit.start = Text.byteLength gone := by omega
  rw [undercut?, stretch, length, Option.bind_eq_bind, Option.bind_some]
  cases Text.cut? (Text.byteLength gone) (insertion.newText.toList ++ gone) with
  | none => rfl
  | some parts => rfl

end Steps

/-- One edit that undercuts nothing, and then the others, if these come to what they should. -/
theorem foldlM_cons_lined {source front behind : List Char} (split : source = front ++ behind)
    {edit : TextEdit} {rest : List TextEdit} (lined : Lined source (edit :: rest))
    (fits : edit.stop ≤ Text.byteLength front)
    (free : ∀ other ∈ rest, edit.start < edit.stop ∨ other.start < edit.start)
    (others : ∀ {before after : List Char}, source = before ++ after →
      (∀ other ∈ rest, other.stop ≤ Text.byteLength before) → ∀ done,
      rest.foldlM (fun text edit => edit.applyTo? text) (before ++ done) =
        (settle? source rest).map fun settled => madeTogether settled before ++ done)
    (done : List Char) :
    (edit :: rest).foldlM (fun text edit => edit.applyTo? text) (front ++ done) =
      (settle? source rest).map fun settled => madeTogether (edit :: settled) front ++ done := by
  have cuts := lined.inside edit List.mem_cons_self
  rw [split] at cuts
  obtain ⟨before, gone, after, rfl, start, stop⟩ := cuts.front fits
  simp only [span] at start stop
  have earlier : ∀ other ∈ rest, _ := fun other member => lined.earlier member (free other member)
  have further := @others before (gone ++ after ++ behind) (by simp [split])
    (fun other member => by have := earlier other member; omega)
    (edit.newText.toList ++ after ++ done)
  rw [List.foldlM_cons, applyTo?_front start stop, Option.bind_eq_bind, Option.bind_some, further]
  cases settles : settle? source rest with
  | none => rfl
  | some settled =>
    have settledEarlier : ∀ one ∈ settled, one.start ≤ one.stop ∧ one.stop ≤ edit.start ∧
        edit.overlaps one = false := by
      intro one member
      obtain ⟨other, isOther, first, last⟩ := settle?_extents settles one member
      have := earlier other isOther
      simpa only [first, last, overlaps] using this
    simp [madeTogether_cons after start stop settledEarlier]

/-- An insertion and then the edit that undercuts it are one edit. -/
theorem applyTo?_both {source front behind : List Char} (split : source = front ++ behind)
    {insertion edit : TextEdit} (undercut : insertion.isUndercutBy edit = true)
    (cuts : edit.span.Cuts source) (fits : edit.stop ≤ Text.byteLength front) (done : List Char) :
    ((insertion.applyTo? (front ++ done)).bind fun text => edit.applyTo? text) =
      (undercut? source insertion edit).bind fun both => both.applyTo? (front ++ done) := by
  have inserts : insertion.start = insertion.stop ∧ edit.start = insertion.start := by
    simpa [isUndercutBy] using undercut
  rw [split] at cuts
  obtain ⟨before, gone, after, rfl, start, stop⟩ := cuts.front fits
  simp only [span] at start stop
  have inserted : insertion.applyTo? (before ++ (gone ++ after) ++ done) =
      some (before ++ (insertion.newText.toList ++ (gone ++ after) ++ done)) := by
    have front := @applyTo?_front insertion before [] (by omega)
      (by simp [Text.byteLength, inserts]) (gone ++ after) done
    simpa using front
  have merged := undercut?_eq start stop insertion (after ++ behind)
  rw [show before ++ (gone ++ (after ++ behind)) = source by simp [split]] at merged
  rw [inserted, Option.bind_some, applyTo?_undercut start stop, merged]
  cases Text.cut? (Text.byteLength gone) (insertion.newText.toList ++ gone) with
  | none => rfl
  | some parts =>
    have replaced := @applyTo?_front { edit with newText := edit.newText ++ String.ofList parts.2 }
      before gone start stop after done
    simp only [Option.map_some, Option.bind_some, replaced]
    simp

/-- The run. What has been done so far is behind the edits still to come, and they find the front of
the text as it is in the source. -/
theorem foldlM_lined {source front behind : List Char} (split : source = front ++ behind)
    {edits : List TextEdit} (lined : Lined source edits)
    (fits : ∀ edit ∈ edits, edit.stop ≤ Text.byteLength front) (done : List Char) :
    edits.foldlM (fun text edit => edit.applyTo? text) (front ++ done) =
      (settle? source edits).map fun settled => madeTogether settled front ++ done := by
  fun_induction settle? source edits generalizing front behind done with
  | case1 insertion edit rest undercut ih =>
    have stretches : edit.start < edit.stop := lined.stretches undercut
    have both := applyTo?_both split undercut (lined.inside edit (by simp)) (fits edit (by simp)) done
    rw [List.foldlM_cons]
    simp only [List.foldlM_cons, Option.bind_eq_bind, ← Option.bind_assoc, both]
    cases merged : undercut? source insertion edit with
    | none => rfl
    | some one =>
      obtain ⟨first, last⟩ := undercut?_extent merged
      have run := foldlM_cons_lined split (lined.tail.replace first last)
        (by rw [last]; exact fits edit (by simp)) (fun _ _ => .inl (by omega))
        (fun cut inFront => ih cut lined.tail.tail inFront) done
      rw [List.foldlM_cons] at run
      simp only [Option.bind_some, Option.bind_eq_bind] at run ⊢
      rw [run]
      cases settle? source rest <;> rfl
  | case2 first next rest free ih =>
    have run := foldlM_cons_lined split lined (fits first List.mem_cons_self) (lined.free free)
      (fun cut inFront => ih cut lined.tail inFront) done
    rw [run]
    cases settle? source (next :: rest) <;> rfl
  | case3 edits short =>
    rcases edits with _ | ⟨edit, _ | ⟨next, others⟩⟩
    · simp [madeTogether_nil]
    · have run := foldlM_cons_lined split lined (fits edit List.mem_cons_self) (by simp)
        (fun _ _ _ => by simp [settle?, madeTogether_nil]) done
      simpa [settle?] using run
    · exact (short _ _ _ rfl).elim

/-! The order in which edits are made, and the choice of edits. -/

section Order

variable (edits : List TextEdit)

theorem fromTheEnd_perm : (fromTheEnd edits).Perm edits := List.mergeSort_perm edits _

theorem startsLater_trans (a b c : TextEdit) (first : decide (b.start ≤ a.start) = true)
    (second : decide (c.start ≤ b.start) = true) : decide (c.start ≤ a.start) = true := by
  simp only [decide_eq_true_eq] at *
  omega

theorem startsLater_total (a b : TextEdit) :
    (decide (b.start ≤ a.start) || decide (a.start ≤ b.start)) = true := by
  simp only [Bool.or_eq_true, decide_eq_true_eq]
  omega

theorem fromTheEnd_sorted :
    (fromTheEnd edits).Pairwise fun later earlier => earlier.start ≤ later.start := by
  have sorted := List.pairwise_mergeSort startsLater_trans startsLater_total edits
  simp only [decide_eq_true_eq] at sorted
  exact sorted

/-- Edits with one start are made in the order in which they were taken. -/
theorem filter_fromTheEnd (offset : Nat) :
    (fromTheEnd edits).filter (·.start = offset) = edits.filter (·.start = offset) := by
  have level : (edits.filter (·.start = offset)).Pairwise fun a b =>
      decide (b.start ≤ a.start) = true := by
    apply List.pairwise_of_forall_mem_list
    intro a isA b isB
    have := (List.mem_filter.mp isA).2
    have := (List.mem_filter.mp isB).2
    simp only [decide_eq_true_eq] at *
    omega
  have kept : (edits.filter (·.start = offset)).Sublist (fromTheEnd edits) :=
    List.sublist_mergeSort startsLater_trans startsLater_total level List.filter_sublist
  have inside := kept.filter (·.start = offset)
  rw [List.filter_filter] at inside
  simp only [Bool.and_self] at inside
  exact (inside.eq_of_length ((fromTheEnd_perm edits).filter _).length_eq.symm).symm

theorem madeTogether_fromTheEnd (text : List Char) :
    madeTogether (fromTheEnd edits) text = madeTogether edits text := by
  have placed (offset : Nat) : newTextAt (fromTheEnd edits) offset = newTextAt edits offset := by
    simp only [newTextAt, filter_fromTheEnd]
  have covered (offset : Nat) : (fromTheEnd edits).any (·.span.covers offset) =
      edits.any (·.span.covers offset) := (fromTheEnd_perm edits).any_eq
  rw [madeTogether, madeTogether, placed]
  congr 1
  exact madeFrom_congr fun offset _ _ => ⟨placed offset, covered offset⟩

end Order

theorem settle?_of_free {edits : List TextEdit} (text : List Char)
    (free : edits.Pairwise fun first second => first.isUndercutBy second = false) :
    settle? text edits = some edits := by
  fun_induction settle? text edits with
  | case1 insertion edit rest undercut ih =>
    have := List.rel_of_pairwise_cons free List.mem_cons_self
    simp [undercut] at this
  | case2 first next rest apart ih => simp [ih free.of_cons]
  | case3 edits short => rfl

theorem free_fromTheEnd {edits : List TextEdit}
    (free : edits.Pairwise fun first second => first.isUndercutBy second = false) :
    (fromTheEnd edits).Pairwise fun first second => first.isUndercutBy second = false := by
  rw [List.pairwise_iff_forall_sublist] at free ⊢
  intro first second sublist
  rw [← Bool.not_eq_true]
  intro undercut
  have same : second.start = first.start := by
    simp only [isUndercutBy, Bool.and_eq_true, decide_eq_true_eq] at undercut
    exact undercut.2
  have level := sublist.filter (·.start = first.start)
  rw [filter_fromTheEnd] at level
  simp only [List.filter_cons, same, decide_true, if_true, List.filter_nil] at level
  have := free (level.trans List.filter_sublist)
  simp [undercut] at this

end TextEdit

namespace Fix

variable {fixes : List Fix}

/-- What holds of no edits, and stays with one more fix that overlaps nothing taken so far, holds of
the edits that are accepted. -/
theorem accept_induction {motive : List TextEdit → Prop} (start : motive [])
    (step : ∀ taken, motive taken → ∀ fix ∈ fixes,
      (∀ edit ∈ fix.edits, ∀ other ∈ taken, edit.overlaps other = false) →
        motive (taken ++ fix.edits)) : motive (accept fixes) := by
  unfold accept
  generalize [] = taken at start
  induction fixes generalizing taken with
  | nil => exact start
  | cons fix rest ih =>
    rw [List.foldl_cons]
    apply ih
    · exact fun taken holds other member => step taken holds other (List.mem_cons_of_mem _ member)
    · split
      · exact start
      · next clear =>
        apply step taken start fix List.mem_cons_self
        intro edit isNew other isTaken
        rw [← Bool.not_eq_true]
        intro overlap
        exact clear (List.any_eq_true.mpr ⟨edit, isNew, List.any_eq_true.mpr
          ⟨other, isTaken, overlap⟩⟩)

theorem accept_apart (each : ∀ fix ∈ fixes, fix.edits.Pairwise fun a b => a.overlaps b = false) :
    (accept fixes).Pairwise fun a b => a.overlaps b = false := by
  apply accept_induction .nil
  intro taken apart fix isFix clear
  refine List.pairwise_append.mpr ⟨apart, each fix isFix, ?_⟩
  intro first isTaken second isNew
  rw [TextEdit.overlaps_comm]
  exact clear second isNew first isTaken

theorem mem_accept : ∀ edit ∈ accept fixes, ∃ fix ∈ fixes, edit ∈ fix.edits := by
  refine @accept_induction fixes (fun taken => ∀ edit ∈ taken, ∃ fix ∈ fixes, edit ∈ fix.edits)
    nofun ?_
  intro taken known fix isFix _ edit member
  rcases List.mem_append.mp member with isTaken | isNew
  · exact known edit isTaken
  · exact ⟨fix, isFix, isNew⟩

end Fix

section Fixes

variable {source : String} {diagnostics : List Diagnostic}
  (inside : ∀ fix ∈ diagnostics.filterMap (·.fix), ∀ edit ∈ fix.edits,
    edit.span.Cuts source.toList)
  (apart : ∀ fix ∈ diagnostics.filterMap (·.fix),
    fix.edits.Pairwise fun first second => first.overlaps second = false)

include inside apart

theorem lined_accept : TextEdit.Lined source.toList
    (TextEdit.fromTheEnd (Fix.accept (diagnostics.filterMap (·.fix)))) where
  sorted := TextEdit.fromTheEnd_sorted _
  apart := by
    have symmetric {a b : TextEdit} (clear : a.overlaps b = false) : b.overlaps a = false := by
      rw [TextEdit.overlaps_comm, clear]
    exact ((TextEdit.fromTheEnd_perm _).pairwise_iff symmetric).mpr (Fix.accept_apart apart)
  inside := by
    intro edit member
    obtain ⟨fix, isFix, own⟩ := Fix.mem_accept edit ((TextEdit.fromTheEnd_perm _).mem_iff.mp member)
    exact inside fix isFix edit own

theorem applyFixes?_eq_settled :
    applyFixes? source diagnostics =
      (TextEdit.settle? source.toList
        (TextEdit.fromTheEnd (Fix.accept (diagnostics.filterMap (·.fix))))).map
        fun settled => String.ofList (TextEdit.madeTogether settled source.toList) := by
  have lined := lined_accept inside apart
  have fits : ∀ edit ∈ TextEdit.fromTheEnd (Fix.accept (diagnostics.filterMap (·.fix))),
      edit.stop ≤ Text.byteLength source.toList := by
    intro edit member
    obtain ⟨before, middle, after, split, _, stop⟩ := lined.inside edit member
    simp only [TextEdit.span] at stop
    rw [split, Text.byteLength_append, Text.byteLength_append]
    omega
  have run := TextEdit.foldlM_lined (List.append_nil source.toList).symm lined fits []
  rw [List.append_nil] at run
  rw [applyFixes?, Fix.applyAll?, TextEdit.applyAll?, run, Option.map_map]
  simp only [Function.comp_def, List.append_nil]

/-- Fixes go together. What the accepted edits come to is that each of them is made at once in the
text as it was, where an insertion counts as one with the edit that undercuts it. So if no edit
undercuts an insertion that was accepted before it, the accepted edits themselves are made at once:
what is outside of them stays in its order, what is inside goes, and all of their new text is at its
place. -/
theorem fixes_made_together :
    applyFixes? source diagnostics =
      (TextEdit.settle? source.toList
        (TextEdit.fromTheEnd (Fix.accept (diagnostics.filterMap (·.fix))))).map
        (fun settled => String.ofList (TextEdit.madeTogether settled source.toList)) ∧
    ((Fix.accept (diagnostics.filterMap (·.fix))).Pairwise
        (fun first second => first.isUndercutBy second = false) →
      applyFixes? source diagnostics = some (String.ofList
        (TextEdit.madeTogether (Fix.accept (diagnostics.filterMap (·.fix))) source.toList))) := by
  have settled := applyFixes?_eq_settled inside apart
  refine ⟨settled, fun free => ?_⟩
  rw [settled, TextEdit.settle?_of_free _ (TextEdit.free_fromTheEnd free), Option.map_some,
    TextEdit.madeTogether_fromTheEnd]

end Fixes

def Diagnostic.ofEdits (edits : List TextEdit) : Diagnostic :=
  ⟨"rule", "", .error, "", ⟨0, 0⟩, some ⟨"", edits⟩⟩

/-- A deletion with an insertion at each of its ends, of which the first was accepted after it, and
a fix that overlaps it and is left out. -/
theorem fixes_made_together_touching :
    applyFixes? "éabcdef" [.ofEdits [.delete 4 6, .insert 2 "X"], .ofEdits [.insert 4 "Y"],
      .ofEdits [.delete 5 7], .ofEdits [.insert 6 "Z"]] = some "éXabYZef" := by
  have made := (@fixes_made_together "éabcdef" [.ofEdits [.delete 4 6, .insert 2 "X"],
    .ofEdits [.insert 4 "Y"], .ofEdits [.delete 5 7], .ofEdits [.insert 6 "Z"]]
    (by decide +kernel) (by decide +kernel)).2 (by decide +kernel)
  rw [made]
  decide +kernel

/-- The same insertion at the start of a deletion, accepted first: the deletion takes the inserted
text and leaves a byte of its own stretch. -/
theorem undercut_insertion_lost :
    (∀ fix ∈ [Diagnostic.ofEdits [.insert 3 "X"], .ofEdits [.delete 3 5]].filterMap (·.fix),
      (∀ edit ∈ fix.edits, edit.span.Cuts "abcdef".toList) ∧
        fix.edits.Pairwise fun first second => first.overlaps second = false) ∧
    Fix.accept ([Diagnostic.ofEdits [.insert 3 "X"], .ofEdits [.delete 3 5]].filterMap (·.fix)) =
      [.insert 3 "X", .delete 3 5] ∧
    applyFixes? "abcdef" [.ofEdits [.insert 3 "X"], .ofEdits [.delete 3 5]] = some "abcef" ∧
    TextEdit.madeTogether [.insert 3 "X", .delete 3 5] "abcdef".toList = "abcXf".toList := by
  have order : TextEdit.fromTheEnd [.insert 3 "X", .delete 3 5] = [.insert 3 "X", .delete 3 5] :=
    List.mergeSort_of_pairwise (by decide +kernel)
  have accepted : Fix.accept ([Diagnostic.ofEdits [.insert 3 "X"], .ofEdits [.delete 3 5]].filterMap
      (·.fix)) = [.insert 3 "X", .delete 3 5] := by decide +kernel
  refine ⟨by decide +kernel, accepted, ?_, by decide +kernel⟩
  rw [applyFixes?_eq_settled (by decide +kernel) (by decide +kernel), accepted, order]
  decide +kernel

end ClientBoundary
