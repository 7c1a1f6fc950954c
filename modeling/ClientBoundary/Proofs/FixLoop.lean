import ClientBoundary.Proofs.SeverityLabel
import Mathlib.Logic.Relation

/-! What the passes of fixes come to. A module that lacks the directive gets it in the first pass,
and the second one finds nothing more to do. A module that has no use for the directive loses it
once in every pass, as often as the directive is repeated and as there are passes. So the two fixes
never undo each other. -/
namespace ClientBoundary

namespace Span

def covers (span : Span) (offset : Nat) : Bool := span.start ≤ offset && offset < span.stop

def length (span : Span) : Nat := span.stop - span.start

theorem map_length_shift (bytes : Nat) (spans : List Span) :
    (spans.map (.shift bytes)).map length = spans.map length := by
  rw [List.map_map]
  exact List.map_congr_left fun span _ => Nat.add_sub_add_right span.stop bytes span.start

end Span

namespace Text

/-- What a text that starts at an offset has outside of some spans, character by character. -/
def outside (spans : List Span) : Nat → List Char → List Char
  | _, [] => []
  | offset, c :: rest =>
    if spans.any (·.covers offset) then outside spans (offset + c.utf8Size) rest
    else c :: outside spans (offset + c.utf8Size) rest

theorem outside_append (spans : List Span) (offset : Nat) (first rest : List Char) :
    outside spans offset (first ++ rest) =
      outside spans offset first ++ outside spans (offset + byteLength first) rest := by
  induction first generalizing offset with
  | nil => simp [outside, byteLength]
  | cons c others ih =>
    simp only [List.cons_append, outside, ih, byteLength, Nat.add_assoc]
    split <;> rfl

theorem outside_nil (offset : Nat) (text : List Char) : outside [] offset text = text := by
  induction text generalizing offset with
  | nil => rfl
  | cons c rest ih => simp [outside, ih]

theorem outside_of_before {spans : List Span} {offset : Nat} {text : List Char}
    (before : ∀ span ∈ spans, offset + byteLength text ≤ span.start) :
    outside spans offset text = text := by
  induction text generalizing offset with
  | nil => rfl
  | cons c rest ih =>
    have positive : 0 < c.utf8Size := c.utf8Size_pos
    have uncovered : spans.any (·.covers offset) = false := by
      rw [List.any_eq_false]
      intro span member
      have := before span member
      simp only [byteLength] at this
      simp only [Span.covers, Bool.and_eq_true, decide_eq_true_eq]
      omega
    have later := @ih (offset + c.utf8Size) fun span member => by
      have := before span member
      simp only [byteLength] at this
      omega
    simp [outside, uncovered, later]

theorem outside_of_inside {spans : List Span} {span : Span} (member : span ∈ spans) {offset : Nat}
    {text : List Char} (start : span.start ≤ offset)
    (stop : offset + byteLength text ≤ span.stop) : outside spans offset text = [] := by
  induction text generalizing offset with
  | nil => rfl
  | cons c rest ih =>
    have positive : 0 < c.utf8Size := c.utf8Size_pos
    simp only [byteLength] at stop
    have covered : spans.any (·.covers offset) = true := by
      refine List.any_eq_true.mpr ⟨span, member, ?_⟩
      simp only [Span.covers, Bool.and_eq_true, decide_eq_true_eq]
      omega
    rw [outside, if_pos covered, ih (by omega) (by omega)]

/-- Behind a span that has ended, the others may be moved together with the text. -/
theorem outside_shift {ended : Span} (spans : List Span) {bytes offset : Nat} (text : List Char)
    (past : ended.stop ≤ offset + bytes) :
    outside (ended :: spans.map (.shift bytes)) (offset + bytes) text =
      outside spans offset text := by
  induction text generalizing offset with
  | nil => rfl
  | cons c rest ih =>
    have later := @ih (offset + c.utf8Size) (by omega)
    rw [Nat.add_right_comm] at later
    have gone : ended.covers (offset + bytes) = false := by
      simp only [Span.covers, Bool.and_eq_false_iff, decide_eq_false_iff_not]
      omega
    have moved (span : Span) : (span.shift bytes).covers (offset + bytes) = span.covers offset := by
      simp [Span.covers, Span.shift]
    simp only [outside, List.any_cons, gone, List.any_map, Function.comp_def, moved, later,
      Bool.false_or]

/-- To leave out a stretch and some spans behind it is to take out the stretch first, and then the
spans where they have moved to. -/
theorem outside_removed {before removed after : List Char} {span : Span} {spans : List Span}
    (start : byteLength before = span.start)
    (stop : byteLength before + byteLength removed = span.stop)
    (behind : ∀ other ∈ spans, byteLength before ≤ other.start) :
    outside (span :: spans.map (.shift (byteLength removed))) 0 (before ++ removed ++ after) =
      outside spans 0 (before ++ after) := by
  have late : ∀ other ∈ span :: spans.map (.shift (byteLength removed)),
      0 + byteLength before ≤ other.start := by
    intro other member
    rw [Nat.zero_add]
    rcases List.mem_cons.mp member with rfl | moved
    · exact Nat.le_of_eq start
    · obtain ⟨short, isShort, rfl⟩ := List.mem_map.mp moved
      exact Nat.le_add_right_of_le (behind short isShort)
  have keptAlone : outside spans 0 before = before := by
    refine outside_of_before fun other member => ?_
    rw [Nat.zero_add]
    exact behind other member
  have gone : outside (span :: spans.map (.shift (byteLength removed))) (byteLength before)
      removed = [] :=
    outside_of_inside List.mem_cons_self (Nat.le_of_eq start.symm) (Nat.le_of_eq stop)
  have rest := outside_shift spans after (Nat.le_of_eq stop.symm)
  simp only [outside_append, outside_of_before late, keptAlone, byteLength_append, Nat.zero_add, gone,
    rest, List.append_nil]

end Text

namespace UseClient

open Syntax

/-- The spans of the client directives that a program starts with, one right after the other. -/
def leadingDirectives (program : Node) : List Span :=
  (program.children.takeWhile (·.kind = .directive directiveText)).map (·.span)

theorem clientDirective?_eq_head? (program : Node) :
    clientDirective? program = (leadingDirectives program).head? := by
  refine Option.ext fun span => ?_
  rw [clientDirective?_eq_some_iff, LeadsWithDirective, leadingDirectives]
  cases program.children with
  | nil => simp
  | cons first rest =>
    by_cases leads : first.kind = .directive directiveText
    · simp [leads]
    · simp [leads]

def LosesDirective (fileName source text : String) : Prop :=
  ∃ module span, Module.read? fileName source = some module ∧
    clientDirective? module.tree = some span ∧ (removeDirective span).applyTo? source = some text

/-- The leading directive can be deleted from a file, and from whatever such deletions make of
it. -/
def StableUnderRemovals (fileName source : String) : Prop :=
  ∀ text, Relation.ReflTransGen (LosesDirective fileName) source text →
    StableUnderRemoval fileName text

theorem StableUnderRemovals.next {fileName source text : String}
    (stable : StableUnderRemovals fileName source) (loses : LosesDirective fileName source text) :
    StableUnderRemovals fileName text :=
  fun further reached => stable further (.head loses reached)

namespace ReadsAlike

variable {fileName : String} {before directive after : List Char} {span : Span}
  {program longer : Node} (alike : ReadsAlike fileName before directive after span program longer)

include alike

/-- One text is not the other: it has one statement more. -/
theorem changed : String.ofList (before ++ directive ++ after) ≠ String.ofList (before ++ after) := by
  intro same
  have long := alike.long
  rw [same, alike.short] at long
  cases long
  have lengths := congrArg List.length alike.led.children
  rw [List.length_cons, List.length_map] at lengths
  omega

theorem leadingDirectives_long :
    leadingDirectives (Module.ofProgram fileName
        (String.ofList (before ++ directive ++ after)) longer).tree =
      span :: (leadingDirectives (Module.ofProgram fileName
        (String.ofList (before ++ after)) program).tree).map (.shift (Text.byteLength directive)) := by
  rw [leadingDirectives, leadingDirectives, alike.children_long]
  simp only [List.takeWhile_cons, decide_true, if_true, List.map_cons, List.takeWhile_map,
    List.map_map, Function.comp_def, Node.shift_kind, Node.shift_span]

theorem leadingDirectives_behind :
    ∀ found ∈ leadingDirectives (Module.ofProgram fileName
      (String.ofList (before ++ after)) program).tree, Text.byteLength before ≤ found.start := by
  intro found member
  obtain ⟨item, taken, rfl⟩ := List.mem_map.mp member
  exact alike.behind item (List.takeWhile_subset _ taken) ⟨item, _⟩ (Node.mem_sites.mpr (.inl rfl))

end ReadsAlike

section Loop

variable {pragma fileName source : String} {severity : Severity} {module : Module}
  (read : Module.read? fileName source = some module)

include read

theorem lintModule_fixes (pragma : String) (severity : Severity) :
    ∃ result, Registry.lintModule [⟨rule pragma, severity⟩] source fileName = .ok result ∧
      result.fixes = (verdict module (constructsAlong pragma module module.visits)).map (·.fix) := by
  obtain ⟨result, linted, diagnostics⟩ := lintModule_eq_verdict pragma severity module read
  refine ⟨result, linted, ?_⟩
  rw [LintResult.fixes, diagnostics, List.filterMap_map, ← List.filterMap_eq_map]
  rfl

theorem fixWithin_of_verdict_nil
    (settled : verdict module (constructsAlong pragma module module.visits) = []) (passes : Nat) :
    Registry.fixWithin [⟨rule pragma, severity⟩] fileName passes source = .ok source := by
  obtain ⟨result, linted, fixes⟩ := lintModule_fixes read pragma severity
  rw [settled] at fixes
  exact Registry.fixWithin_of_no_fix linted fixes passes

theorem fixWithin_of_verdict {finding : Finding}
    (said : verdict module (constructsAlong pragma module module.visits) = [finding])
    {fixed : String} (applied : finding.fix.applyTo? source = some fixed) (changed : fixed ≠ source)
    (passes : Nat) :
    Registry.fixWithin [⟨rule pragma, severity⟩] fileName (passes + 1) source =
      Registry.fixWithin [⟨rule pragma, severity⟩] fileName passes fixed := by
  obtain ⟨result, linted, fixes⟩ := lintModule_fixes read pragma severity
  rw [said, List.map_singleton] at fixes
  refine Registry.fixWithin_of_fix linted (by simp [fixes]) ?_ changed passes
  rw [fixes, Fix.applyAll?_singleton, applied]

/-- One pass over a module without constructs: it loses its leading directive and still has no
constructs, and the directives that are left have moved to the front. -/
theorem fixWithin_loses (unneeded : constructsAlong pragma module module.visits = []) {span : Span}
    (directive : clientDirective? module.tree = some span)
    (stable : StableUnderRemoval fileName source) :
    ∃ before removed after shorter, source.toList = before ++ removed ++ after ∧
      Text.byteLength before = span.start ∧
      Text.byteLength before + Text.byteLength removed = span.stop ∧
      Module.read? fileName (String.ofList (before ++ after)) = some shorter ∧
      LosesDirective fileName source (String.ofList (before ++ after)) ∧
      constructsAlong pragma shorter shorter.visits = [] ∧
      leadingDirectives module.tree =
        span :: (leadingDirectives shorter.tree).map (.shift (Text.byteLength removed)) ∧
      (∀ found ∈ leadingDirectives shorter.tree, Text.byteLength before ≤ found.start) ∧
      ∀ passes, Registry.fixWithin [⟨rule pragma, severity⟩] fileName (passes + 1) source =
        Registry.fixWithin [⟨rule pragma, severity⟩] fileName passes
          (String.ofList (before ++ after)) := by
  have decided := verdict_of_no_construct module
  rw [directive, Option.map_some, Option.toList_some, ← unneeded] at decided
  obtain ⟨before, removed, after, program, longer, split, start, stop, alike⟩ :=
    stable module span read directive
  have applied := removeDirective_applyTo? split start stop
  have loses : LosesDirective fileName source (String.ofList (before ++ after)) :=
    ⟨module, span, read, directive, applied⟩
  obtain rfl : source = String.ofList (before ++ removed ++ after) := by
    rw [← split, String.ofList_toList]
  obtain rfl := Option.some.inj (read.symm.trans alike.read_long)
  have constructs := alike.constructs pragma
  dsimp only at constructs
  rw [unneeded, eq_comm, List.map_eq_nil_iff] at constructs
  exact ⟨before, removed, after, _, split, start, stop, alike.read_short, loses, constructs,
    alike.leadingDirectives_long, alike.leadingDirectives_behind,
    fixWithin_of_verdict read decided applied alike.changed.symm⟩

/-- All passes over a module without constructs: each removes one directive, as long as there is
one, and the bytes that are lost are those of the directives. -/
theorem fixWithin_removes (pragma : String) (severity : Severity)
    (unneeded : constructsAlong pragma module module.visits = [])
    (stable : StableUnderRemovals fileName source) (passes : Nat) :
    let removed := (leadingDirectives module.tree).take passes
    let rest := Text.outside removed 0 source.toList
    Registry.fixWithin [⟨rule pragma, severity⟩] fileName passes source =
        .ok (String.ofList rest) ∧
      Text.byteLength rest + (removed.map Span.length).sum = Text.byteLength source.toList := by
  induction passes generalizing source module with
  | zero =>
    simp only [List.take_zero, Text.outside_nil, String.ofList_toList]
    exact ⟨rfl, rfl⟩
  | succ passes ih =>
    cases directive : clientDirective? module.tree with
    | none =>
      have decided := verdict_of_no_construct module
      rw [directive, Option.map_none, Option.toList_none, ← unneeded] at decided
      rw [clientDirective?_eq_head?, List.head?_eq_none_iff] at directive
      simp only [directive, List.take_nil, Text.outside_nil, String.ofList_toList]
      exact ⟨fixWithin_of_verdict_nil read decided _, rfl⟩
    | some span =>
      obtain ⟨before, removed, after, shorter, split, start, stop, readShorter, loses, still, leading,
        behind, pass⟩ := fixWithin_loses read unneeded directive (stable source .refl)
      obtain ⟨later, bytes⟩ := ih readShorter still (stable.next loses)
      have same := @Text.outside_removed before removed after span
        ((leadingDirectives shorter.tree).take passes) start stop
        fun found member => behind found (List.mem_of_mem_take member)
      have own : span.length = Text.byteLength removed := by
        rw [Span.length]
        omega
      rw [String.toList_ofList] at later bytes
      dsimp only
      rw [split, leading, List.take_succ_cons, ← List.map_take, same, pass]
      refine ⟨later, ?_⟩
      rw [List.map_cons, List.sum_cons, Span.map_length_shift, own]
      simp only [Text.byteLength_append] at bytes ⊢
      omega

/-- In a module with a construct and without the directive, the first pass is the only one. -/
theorem fixWithin_inserts (pragma : String) (severity : Severity)
    (needed : constructsAlong pragma module module.visits ≠ [])
    (absent : clientDirective? module.tree = none) (stable : StableUnderInsertion fileName source)
    (passes : Nat) :
    ∃ before after, source.toList = before ++ after ∧
      Text.byteLength before = firstStatementStart module.tree ∧
      Registry.fixWithin [⟨rule pragma, severity⟩] fileName (passes + 1) source =
        .ok (String.ofList (before ++
          (insertedText source.toList (firstStatementStart module.tree)).toList ++ after)) := by
  obtain ⟨first, rest, found⟩ := List.exists_cons_of_ne_nil needed
  have decided : verdict module (constructsAlong pragma module module.visits) =
      [missingFinding module first] := by
    rw [found]
    simp only [verdict, absent]
  obtain ⟨before, after, span, program, longer, split, place, alike⟩ := stable module read
  have applied := insertDirective_applyTo? split
  obtain rfl : source = String.ofList (before ++ after) := by rw [← split, String.ofList_toList]
  obtain rfl := Option.some.inj (read.symm.trans alike.read_short)
  rw [place] at applied
  have long := alike.read_long
  have changed := alike.changed
  -- The constructs are still there, and now so is the directive.
  have constructs := alike.constructs pragma
  dsimp only at constructs
  have settled := verdict_of_directive alike.clientDirective?_long
    (constructs ▸ mt List.map_eq_nil_iff.mp needed)
  rw [place] at long changed settled
  refine ⟨before, after, split, place, ?_⟩
  rw [fixWithin_of_verdict read decided applied changed]
  exact fixWithin_of_verdict_nil long settled passes

theorem recorded_of_no_items (pragma : String) (empty : module.tree.children = []) :
    (module.tree.sites []).flatMap (recordedAt pragma module) = [] := by
  obtain ⟨program, parsed, rfl⟩ := Option.map_eq_some_iff.mp read
  have is := parse?_isProgram parsed
  have kind : (Module.ofProgram fileName source program).tree.kind = .program := by
    simp only [Module.ofProgram, Scope.analyze_eq is, is.kind]
  rw [Node.sites_eq, empty]
  simp [recordedAt, kind, ownConstructs]

/-- What the passes do to a file, exactly. The parser is taken to be stable under the two edits:
under the insertion at the first statement, and under the deletion of the leading directive, for the
file and for whatever such deletions make of it. Then a directive that is missing is inserted, once;
directives that are not needed are deleted from the front, ten at most; and otherwise nothing is
changed. -/
theorem fix_loop_exact {config : Config}
    (on : config.setting? "react-server-components/use-client" ≠ some .off)
    (insertion : module.tree.children ≠ [] → StableUnderInsertion fileName source)
    (removal : ∀ text, Relation.ReflTransGen (LosesDirective fileName) source text →
      StableUnderRemoval fileName text) :
    let constructs := (module.tree.sites []).flatMap (recordedAt config.libraryName module)
    let leading := leadingDirectives module.tree
    let outcome := config.registry.fixModule source fileName
    (constructs ≠ [] → leading = [] → ∃ before after, source.toList = before ++ after ∧
      Text.byteLength before = firstStatementStart module.tree ∧
      outcome = .ok (String.ofList (before ++
        (insertedText source.toList (firstStatementStart module.tree)).toList ++ after))) ∧
    (constructs ≠ [] → leading ≠ [] → outcome = .ok source) ∧
    (constructs = [] → leading = [] → outcome = .ok source) ∧
    ∀ k, constructs = [] → 1 ≤ k → leading.length = k →
      let removed := leading.take (min k 10)
      let rest := Text.outside removed 0 source.toList
      outcome = .ok (String.ofList rest) ∧
        Text.byteLength rest + (removed.map Span.length).sum = Text.byteLength source.toList := by
  intro constructs leading outcome
  obtain ⟨severity, registry⟩ := Config.registry_of_on on
  have recorded : constructsAlong config.libraryName module module.visits = constructs :=
    constructsAlong_visits _ module (Module.read?_wellScoped read)
  have head : clientDirective? module.tree = leading.head? := clientDirective?_eq_head? module.tree
  have loop : outcome = Registry.fixWithin [⟨rule config.libraryName, severity⟩] fileName 10 source :=
    congrArg (Registry.fixWithin · fileName 10 source) registry
  rw [loop]
  refine ⟨?_, ?_, ?_, ?_⟩
  · intro needed none
    have items : module.tree.children ≠ [] := fun empty =>
      needed (recorded_of_no_items read config.libraryName empty)
    rw [← recorded] at needed
    rw [none] at head
    exact fixWithin_inserts read _ severity needed head (insertion items) 9
  · intro needed leads
    rw [← recorded] at needed
    obtain ⟨first, rest, isFirst⟩ := List.exists_cons_of_ne_nil leads
    rw [isFirst] at head
    exact fixWithin_of_verdict_nil read (verdict_of_directive head needed) 10
  · intro unneeded none
    rw [← recorded] at unneeded
    rw [none] at head
    have settled := verdict_of_no_construct module
    rw [head, ← unneeded] at settled
    exact fixWithin_of_verdict_nil read settled 10
  · intro k unneeded _ length
    rw [← recorded] at unneeded
    have all : leading.take (min k 10) = leading.take 10 := by
      rw [← length, Nat.min_comm, List.take_eq_take_iff]
      omega
    rw [all]
    exact fixWithin_removes read _ severity unneeded removal 10

end Loop

section Removals

variable {fileName source : String}

theorem stableUnderRemovals_of_none
    (absent : (Module.read? fileName source).all (clientDirective? ·.tree = none) = true) :
    StableUnderRemovals fileName source := by
  have noDirective {module : Module} {span : Span}
      (read : Module.read? fileName source = some module)
      (directive : clientDirective? module.tree = some span) : False := by
    rw [read, Option.all_some, directive] at absent
    cases absent
  intro text reached
  rcases reached.cases_head with rfl | ⟨_, ⟨module, span, read, directive, _⟩, _⟩
  · exact fun module span read directive => (noDirective read directive).elim
  · exact (noDirective read directive).elim

theorem stableUnderRemovals_of_any {before directive after : List Char} {span : Span}
    (split : source.toList = before ++ directive ++ after)
    (leads : (Module.read? fileName source).all (clientDirective? ·.tree = some span) = true)
    (start : Text.byteLength before = span.start)
    (stop : Text.byteLength before + Text.byteLength directive = span.stop)
    (alike : ∃ program longer, ReadsAlike fileName before directive after span program longer)
    (rest : StableUnderRemovals fileName (String.ofList (before ++ after))) :
    StableUnderRemovals fileName source := by
  intro text reached
  rcases reached.cases_head with rfl | ⟨next, ⟨module, found, read, isFound, applied⟩, later⟩
  · exact stableUnderRemoval_of_any split leads start stop alike
  · rw [read, Option.all_some, decide_eq_true_eq, isFound] at leads
    cases leads
    rw [removeDirective_applyTo? split start stop] at applied
    cases applied
    exact rest text later

end Removals

/-- Two directives that nothing needs, behind a comment: both are gone in the end. -/
theorem fix_loop_exact_repeated :
    ∃ module,
      Module.read? "page.jsx" "//c\n'use client';\n'use client';\na" = some module ∧
      (module.tree.sites []).flatMap (recordedAt "React" module) = [] ∧
      leadingDirectives module.tree = [⟨4, 17⟩, ⟨18, 31⟩] ∧
      Registry.recommended.fixModule "//c\n'use client';\n'use client';\na" "page.jsx" =
        .ok "//c\n\n\na" := by
  obtain ⟨module, read, evaluated⟩ := (Option.any_eq_true _ _).mp (show
    (Module.read? "page.jsx" "//c\n'use client';\n'use client';\na").any (fun module =>
      ((module.tree.sites []).flatMap (recordedAt "React" module) = [] ∧
        leadingDirectives module.tree = [⟨4, 17⟩, ⟨18, 31⟩] : Bool)) = true by decide +kernel)
  obtain ⟨unneeded, leading⟩ := of_decide_eq_true evaluated
  have insertion : StableUnderInsertion "page.jsx" "//c\n'use client';\n'use client';\na" :=
    @stableUnderInsertion_of_any _ _ "//c\n".toList "'use client';\n'use client';\na".toList ⟨5, 18⟩
      (by decide +kernel) (by decide +kernel) (readsAlike_of_any (by decide +kernel))
  have second := @stableUnderRemovals_of_any "page.jsx"
    (String.ofList ("//c\n".toList ++ "\n'use client';\na".toList)) "//c\n\n".toList
    "'use client';".toList "\na".toList ⟨5, 18⟩ (by decide +kernel) (by decide +kernel)
    (by decide +kernel) (by decide +kernel) (readsAlike_of_any (by decide +kernel))
    (stableUnderRemovals_of_none (by decide +kernel))
  have removal := @stableUnderRemovals_of_any "page.jsx" "//c\n'use client';\n'use client';\na"
    "//c\n".toList "'use client';".toList "\n'use client';\na".toList ⟨4, 17⟩ (by decide +kernel)
    (by decide +kernel) (by decide +kernel) (by decide +kernel)
    (readsAlike_of_any (by decide +kernel)) second
  obtain ⟨_, _, _, removes⟩ := @fix_loop_exact _ _ module read {} (by decide) (fun _ => insertion)
    removal
  refine ⟨module, read, unneeded, leading, ?_⟩
  rw [leading] at removes
  exact (removes 2 unneeded (by decide) rfl).1.trans (congrArg Except.ok (by decide +kernel))

end UseClient

end ClientBoundary
