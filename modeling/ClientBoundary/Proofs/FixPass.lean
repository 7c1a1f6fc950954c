import ClientBoundary.Proofs.DirectiveFix
import ClientBoundary.Proofs.Independence

/-! One pass of fixes. Rules that know the component library under different names may speak of
different constructs, but of one module they all want the same: that the directive is put in front
of its first statement, or that it is deleted. So a pass makes one edit, which lies in the text if
the nodes of the tree do. -/
namespace ClientBoundary

/-- A span cuts a stretch out of a text: both of its ends are in the text and between characters. -/
def Span.Cuts (span : Span) (text : List Char) : Prop :=
  ∃ before inside after, text = before ++ inside ++ after ∧
    Text.byteLength before = span.start ∧
    Text.byteLength before + Text.byteLength inside = span.stop

namespace Span

theorem cuts_iff_slice? {span : Span} {text : List Char} :
    span.Cuts text ↔ (Text.slice? span.start span.stop text).isSome = true := by
  obtain ⟨start, stop⟩ := span
  constructor
  · rintro ⟨before, inside, after, rfl, rfl, rfl⟩
    have first := Text.slice?_append_left before (inside ++ after) 0 (Text.byteLength inside)
    have rest := Text.cut?_byteLength inside after
    rw [← List.append_assoc, Nat.add_zero] at first
    rw [first]
    simp [Text.slice?, Text.cut?, rest]
  · intro found
    unfold Text.slice? at found
    split at found
    · cases found
    · next ordered =>
      simp only [Option.pure_def, Option.bind_eq_bind] at found
      obtain ⟨inside, sliced⟩ := Option.isSome_iff_exists.mp found
      obtain ⟨parts, first, further⟩ := Option.bind_eq_some_iff.mp sliced
      obtain ⟨pieces, second, _⟩ := Option.bind_eq_some_iff.mp further
      obtain ⟨whole, size⟩ := Text.cut?_append first
      obtain ⟨rest, length⟩ := Text.cut?_append second
      refine ⟨parts.1, pieces.1, pieces.2, ?_, size, ?_⟩
      · rw [List.append_assoc, rest, whole]
      · simp only at ordered ⊢
        omega

instance (span : Span) (text : List Char) : Decidable (span.Cuts text) :=
  decidable_of_iff _ cuts_iff_slice?.symm

theorem Cuts.at_start {span : Span} {text : List Char} (cuts : span.Cuts text) :
    (⟨span.start, span.start⟩ : Span).Cuts text := by
  obtain ⟨before, inside, after, rfl, start, _⟩ := cuts
  exact ⟨before, [], inside ++ after, by simp, start, by simpa [Text.byteLength] using start⟩

theorem Cuts.start_le_stop {span : Span} {text : List Char} (cuts : span.Cuts text) :
    span.start ≤ span.stop := by
  obtain ⟨before, inside, after, _, start, stop⟩ := cuts
  omega

end Span

def TextEdit.span (edit : TextEdit) : Span := ⟨edit.start, edit.stop⟩

theorem TextEdit.overlaps_self (edit : TextEdit) : edit.overlaps edit = true := by
  simp [overlaps]

namespace Fix

variable {edit : TextEdit} {fixes : List Fix}

theorem foldl_accept_same (same : ∀ fix ∈ fixes, fix.edits = [edit]) :
    fixes.foldl (fun accepted fix =>
      if fix.edits.any fun edit => accepted.any (edit.overlaps ·) then accepted
      else accepted ++ fix.edits) [edit] = [edit] := by
  induction fixes with
  | nil => rfl
  | cons fix rest ih =>
    have edits := same fix List.mem_cons_self
    have again : (fix.edits.any fun other => [edit].any (other.overlaps ·)) = true := by
      simp [edits, TextEdit.overlaps_self]
    rw [List.foldl_cons, if_pos again]
    exact ih fun fix member => same fix (List.mem_cons_of_mem _ member)

theorem accept_same (any : fixes ≠ []) (same : ∀ fix ∈ fixes, fix.edits = [edit]) :
    accept fixes = [edit] := by
  obtain ⟨fix, rest, rfl⟩ := List.exists_cons_of_ne_nil any
  rw [accept, List.foldl_cons, if_neg (by simp), List.nil_append, same fix List.mem_cons_self]
  exact foldl_accept_same fun fix member => same fix (List.mem_cons_of_mem _ member)

theorem applyAll?_same (same : ∀ fix ∈ fixes, fix.edits = [edit]) {fix : Fix}
    (member : fix ∈ fixes) (source : String) : applyAll? fixes source = fix.applyTo? source := by
  rw [applyAll?, applyTo?, accept_same (List.ne_nil_of_mem member) same, same fix member]

theorem applyAll?_singleton (fix : Fix) (source : String) :
    applyAll? [fix] source = fix.applyTo? source := by
  simp [applyAll?, applyTo?, accept]

end Fix

theorem Fix.applyTo?_of_edits {fix : Fix} {edit : TextEdit} (edits : fix.edits = [edit])
    {source : String} {before removed after : List Char}
    (split : source.toList = before ++ removed ++ after)
    (start : Text.byteLength before = edit.start)
    (stop : Text.byteLength before + Text.byteLength removed = edit.stop) :
    fix.applyTo? source = some (String.ofList (before ++ edit.newText.toList ++ after)) := by
  obtain ⟨message, _⟩ := fix
  obtain ⟨_, _, newText⟩ := edit
  cases edits
  cases start
  cases stop
  have applied := Fix.applyTo?_single message ⟨Text.byteLength before,
    Text.byteLength before + Text.byteLength removed, newText⟩ source
  rw [split, TextEdit.applyTo?_append] at applied
  exact applied

theorem applyFixes?_nil (source : String) : applyFixes? source [] = some source := by
  simp [applyFixes?, Fix.applyAll?, Fix.accept, TextEdit.applyAll?, TextEdit.fromTheEnd]

/-- Diagnostics that all ask for the same edit are mended by any one of their fixes. -/
theorem applyFixes?_same {edit : TextEdit} {diagnostics : List Diagnostic}
    (same : ∀ diagnostic ∈ diagnostics, ∀ fix, diagnostic.fix = some fix → fix.edits = [edit])
    {diagnostic : Diagnostic} (member : diagnostic ∈ diagnostics) {fix : Fix}
    (isFix : diagnostic.fix = some fix) (source : String) :
    applyFixes? source diagnostics = fix.applyTo? source := by
  have each : ∀ fix ∈ diagnostics.filterMap (·.fix), fix.edits = [edit] := by
    intro other isOther
    obtain ⟨asking, asks, has⟩ := List.mem_filterMap.mp isOther
    exact same asking asks other has
  exact Fix.applyAll?_same each (List.mem_filterMap.mpr ⟨diagnostic, member, isFix⟩) source

def LintResult.fixes (result : LintResult) : List Fix := result.diagnostics.filterMap (·.fix)

theorem LintResult.hasFixes_eq_false_iff {result : LintResult} :
    result.hasFixes = false ↔ result.fixes = [] := by
  simp [hasFixes, fixes]

/-- A pass looks at nothing but the fixes. -/
theorem Registry.fixWithin_succ (registry : Registry) (fileName : String) (passes : Nat)
    (source : String) :
    registry.fixWithin fileName (passes + 1) source =
      ((registry.lintModule source fileName).map LintResult.fixes).bind fun fixes =>
        let fixed := (Fix.applyAll? fixes source).getD source
        if fixes = [] ∨ fixed = source then .ok source
        else registry.fixWithin fileName passes fixed := by
  rw [fixWithin, fixing]
  cases registry.lintModule source fileName with
  | error error => rfl
  | ok result =>
    have applied : applyFixes? source result.diagnostics = Fix.applyAll? result.fixes source := rfl
    have settled : (!result.hasFixes) = true ↔ result.fixes = [] := by
      rw [Bool.not_eq_true', LintResult.hasFixes_eq_false_iff]
    simp only [Except.map, Except.bind, applied, Bool.or_eq_true, settled, decide_eq_true_eq]
    split <;> rfl

section Passes

variable {registry : Registry} {fileName source : String} {result : LintResult}
  (linted : registry.lintModule source fileName = .ok result)

include linted

theorem Registry.fixWithin_of_no_fix (settled : result.fixes = []) (passes : Nat) :
    registry.fixWithin fileName passes source = .ok source := by
  cases passes with
  | zero => rfl
  | succ passes => simp [fixWithin_succ, linted, Except.map, Except.bind, settled]

theorem Registry.fixWithin_of_fix (fixable : result.fixes ≠ []) {fixed : String}
    (applied : Fix.applyAll? result.fixes source = some fixed) (changed : fixed ≠ source)
    (passes : Nat) :
    registry.fixWithin fileName (passes + 1) source =
      registry.fixWithin fileName passes fixed := by
  simp [fixWithin_succ, linted, Except.map, Except.bind, fixable, applied, changed]

end Passes

def Module.InBounds (module : Module) : Prop :=
  ∀ site ∈ module.tree.sites [], site.node.span.Cuts module.source.toList

instance (module : Module) : Decidable module.InBounds :=
  inferInstanceAs (Decidable (∀ site ∈ module.tree.sites [],
    site.node.span.Cuts module.source.toList))

namespace UseClient

open Syntax

def directiveEdit (module : Module) : TextEdit :=
  match clientDirective? module.tree with
  | none => .insert (firstStatementStart module.tree)
      (insertedText module.source.toList (firstStatementStart module.tree))
  | some directive => .delete directive.start directive.stop

section Verdict

variable {module : Module} {found : List Construct} {finding : Finding}
  (said : finding ∈ verdict module found)

include said

theorem verdict_fix : finding.fix.edits = [directiveEdit module] := by
  unfold verdict at said
  split at said
  · next directive =>
    obtain rfl := List.mem_singleton.mp said
    simp only [directiveEdit, directive]
    rfl
  · next directive =>
    obtain rfl := List.mem_singleton.mp said
    simp only [directiveEdit, directive]
    rfl
  · cases said

theorem verdict_span : (∃ construct ∈ found, construct.span = finding.span) ∨
    clientDirective? module.tree = some finding.span := by
  unfold verdict at said
  split at said
  · obtain rfl := List.mem_singleton.mp said
    exact .inl ⟨_, List.mem_cons_self, rfl⟩
  · next directive =>
    obtain rfl := List.mem_singleton.mp said
    exact .inr directive
  · cases said

end Verdict

section Spans

variable {pragma : String} {module : Module} {site : Site} {construct : Construct}

theorem part?_mem_sites (member : site ∈ module.tree.sites []) {role : Role} {part : Node}
    (isPart : site.node.part? role = some part) :
    ⟨part, site.node :: site.path⟩ ∈ module.tree.sites [] :=
  Node.child_mem_sites member (List.mem_of_find?_eq_some isPart)

theorem access_span (member : site ∈ module.tree.sites [])
    (own : construct ∈ ((site.part? .object).bind fun object =>
      (browserName? pragma module object).map
        (⟨.browserApi, ·, object.node.span⟩ : String → Construct)).toList) :
    ∃ other ∈ module.tree.sites [], other.node.span = construct.span := by
  obtain ⟨object, isPart, named⟩ := Option.bind_eq_some_iff.mp (Option.mem_toList.mp own)
  obtain ⟨part, found, rfl⟩ := Option.map_eq_some_iff.mp isPart
  obtain ⟨name, _, rfl⟩ := Option.map_eq_some_iff.mp named
  exact ⟨_, part?_mem_sites member found, rfl⟩

theorem attributeConstructs_span (member : site ∈ module.tree.sites [])
    (own : construct ∈ attributeConstructs module site) :
    ∃ other ∈ module.tree.sites [], other.node.span = construct.span := by
  unfold attributeConstructs at own
  split at own
  · next key container isKey isContainer =>
    split at own
    · rcases List.mem_append.mp own with name | value
      · split at name
        · obtain rfl := List.mem_singleton.mp name
          exact ⟨_, part?_mem_sites member isKey, rfl⟩
        · cases name
      · split at value
        · obtain rfl := List.mem_singleton.mp value
          exact ⟨site, member, rfl⟩
        · cases value
    · cases own
  · cases own

/-- What a node contributes has the span of the node or of one of its parts. -/
theorem ownConstructs_span (member : site ∈ module.tree.sites [])
    (own : construct ∈ ownConstructs pragma module site) :
    ∃ other ∈ module.tree.sites [], other.node.span = construct.span := by
  unfold ownConstructs at own
  split at own
  · obtain ⟨name, _, rfl⟩ := Option.map_eq_some_iff.mp (Option.mem_toList.mp own)
    exact ⟨site, member, rfl⟩
  · exact access_span member own
  · exact access_span member own
  · obtain ⟨callee, found, named⟩ := Option.bind_eq_some_iff.mp (Option.mem_toList.mp own)
    obtain ⟨name, _, rfl⟩ := Option.map_eq_some_iff.mp named
    exact ⟨_, part?_mem_sites member found, rfl⟩
  · exact attributeConstructs_span member own
  · split at own
    · obtain rfl := List.mem_singleton.mp own
      exact ⟨site, member, rfl⟩
    · cases own
  · cases own

theorem recordedAt_span (member : site ∈ module.tree.sites [])
    (recorded : construct ∈ recordedAt pragma module site) :
    ∃ other ∈ module.tree.sites [], other.node.span = construct.span := by
  unfold recordedAt at recorded
  split at recorded
  · obtain ⟨part, isPart, own⟩ := List.mem_flatMap.mp recorded
    exact ownConstructs_span (Node.child_mem_sites member (List.mem_of_mem_filter isPart)) own
  · cases recorded
  · exact ownConstructs_span member recorded

end Spans

section InBounds

variable {module : Module} (placed : module.InBounds)

include placed

theorem first_item_cuts {first : Node} {rest : List Node}
    (children : module.tree.children = first :: rest) : first.span.Cuts module.source.toList := by
  have member : first ∈ module.tree.children := by
    rw [children]
    exact List.mem_cons_self
  exact placed ⟨first, _⟩ (Node.child_mem_sites (Node.mem_sites.mpr (.inl rfl)) member)

theorem clientDirective?_cuts {span : Span} (directive : clientDirective? module.tree = some span) :
    span.Cuts module.source.toList := by
  obtain ⟨first, rest, children, _, rfl⟩ := clientDirective?_eq_some_iff.mp directive
  exact first_item_cuts placed children

theorem firstStatementStart_cuts :
    (⟨firstStatementStart module.tree, firstStatementStart module.tree⟩ : Span).Cuts
      module.source.toList := by
  cases children : module.tree.children with
  | nil =>
    simp only [firstStatementStart, children]
    exact ⟨[], [], module.source.toList, rfl, rfl, rfl⟩
  | cons first rest =>
    simp only [firstStatementStart, children]
    exact (first_item_cuts placed children).at_start

theorem directiveEdit_cuts : (directiveEdit module).span.Cuts module.source.toList := by
  cases directive : clientDirective? module.tree with
  | none =>
    simp only [directiveEdit, directive]
    exact firstStatementStart_cuts placed
  | some span =>
    simp only [directiveEdit, directive]
    exact clientDirective?_cuts placed directive

end InBounds

theorem inspect_eq_verdict (pragma : String) (severity : Severity) (module : Module) :
    (Registry.inspect [⟨rule pragma, severity⟩] module).diagnostics =
      (verdict module (constructsAlong pragma module module.visits)).map
        (·.entered info.name severity) := by
  obtain ⟨after, follows, diagnostics⟩ := follow_visits pragma severity module
  simpa only [Registry.inspect, List.map_cons, List.map_nil, follows] using diagnostics

theorem construct_cuts {pragma fileName source : String} {module : Module}
    (read : Module.read? fileName source = some module) (placed : module.InBounds)
    {construct : Construct} (found : construct ∈ constructsAlong pragma module module.visits) :
    construct.span.Cuts module.source.toList := by
  rw [constructsAlong_visits pragma module (Module.read?_wellScoped read)] at found
  obtain ⟨site, member, recorded⟩ := List.mem_flatMap.mp found
  obtain ⟨other, isSite, span⟩ := recordedAt_span member recorded
  rw [← span]
  exact placed other isSite

/-- Whatever a registry of such rules reports, it is in bounds and asks for the one edit. -/
theorem reported_in_bounds (entries : List (String × Severity)) {fileName source : String}
    {module : Module} (read : Module.read? fileName source = some module)
    (placed : module.InBounds) {diagnostic : Diagnostic}
    (reported : diagnostic ∈ (Registry.inspect
      (entries.map fun entry => ⟨rule entry.1, entry.2⟩) module).diagnostics) :
    diagnostic.span.Cuts module.source.toList ∧
      ∃ fix, diagnostic.fix = some fix ∧ fix.edits = [directiveEdit module] := by
  obtain ⟨_, member, alone⟩ := (Registry.mem_inspect_diagnostics _ module).mp reported
  obtain ⟨⟨pragma, severity⟩, _, rfl⟩ := List.mem_map.mp member
  rw [inspect_eq_verdict] at alone
  obtain ⟨finding, said, rfl⟩ := List.mem_map.mp alone
  refine ⟨?_, _, rfl, verdict_fix said⟩
  rcases verdict_span said with ⟨construct, found, span⟩ | directive
  · have cuts := construct_cuts read placed found
    rw [span] at cuts
    exact cuts
  · exact clientDirective?_cuts placed directive

/-- One pass makes one edit, and makes it well. Any number of rules, whatever they call the
component library and however loud they are, want the same edit of a module. It lies in the text,
and so does whatever is reported; and the text after all fixes is the text after any one of them. -/
theorem pass_makes_one_edit (entries : List (String × Severity)) {fileName source : String}
    {module : Module} (read : Module.read? fileName source = some module)
    (placed : module.InBounds) :
    ∃ result edit before removed after,
      Registry.lintModule (entries.map fun entry => ⟨rule entry.1, entry.2⟩) source fileName =
        .ok result ∧
      source.toList = before ++ removed ++ after ∧
      Text.byteLength before = edit.start ∧
      Text.byteLength before + Text.byteLength removed = edit.stop ∧
      (∀ diagnostic ∈ result.diagnostics, diagnostic.span.Cuts source.toList ∧
        ∃ fix, diagnostic.fix = some fix ∧ fix.edits = [edit] ∧
          applyFixes? source result.diagnostics = fix.applyTo? source ∧
          applyFixes? source result.diagnostics =
            some (String.ofList (before ++ edit.newText.toList ++ after))) ∧
      (result.diagnostics = [] → applyFixes? source result.diagnostics = some source) := by
  obtain ⟨before, removed, after, split, start, stop⟩ := directiveEdit_cuts placed
  obtain ⟨_, rfl⟩ := Module.read?_source read
  have same : ∀ diagnostic ∈ (Registry.inspect (entries.map fun entry => ⟨rule entry.1, entry.2⟩)
      module).diagnostics, ∀ fix, diagnostic.fix = some fix → fix.edits = [directiveEdit module] := by
    intro diagnostic reported fix isFix
    obtain ⟨_, _, isSame, edits⟩ := reported_in_bounds entries read placed reported
    cases isFix.symm.trans isSame
    exact edits
  refine ⟨_, directiveEdit module, before, removed, after, Registry.lintModule_of_read _ read, split,
    start, stop, ?_, ?_⟩
  · intro diagnostic reported
    obtain ⟨cuts, fix, isFix, edits⟩ := reported_in_bounds entries read placed reported
    have all := applyFixes?_same same reported isFix module.source
    exact ⟨cuts, fix, isFix, edits, all, all.trans (Fix.applyTo?_of_edits edits split start stop)⟩
  · intro none
    dsimp only at none ⊢
    rw [none, applyFixes?_nil]

/-- Two rules that speak of different constructs, behind a comment with a long character. -/
theorem pass_makes_one_edit_two_names :
    ∃ module result,
      Module.read? "page.jsx" "//é\nclass A extends P.Component\x7b\x7dwindow.a" = some module ∧
      module.InBounds ∧
      Registry.lintModule [⟨rule "React", .error⟩, ⟨rule "P", .warning⟩]
        "//é\nclass A extends P.Component\x7b\x7dwindow.a" "page.jsx" = .ok result ∧
      result.diagnostics.length = 2 ∧
      applyFixes? "//é\nclass A extends P.Component\x7b\x7dwindow.a" result.diagnostics =
        some "//é\n\n'use client';\n\nclass A extends P.Component\x7b\x7dwindow.a" := by
  obtain ⟨module, read, inBounds⟩ := (Option.any_eq_true _ _).mp (show
    (Module.read? "page.jsx" "//é\nclass A extends P.Component\x7b\x7dwindow.a").any
      (fun module => decide module.InBounds) = true by decide +kernel)
  have placed := of_decide_eq_true inBounds
  obtain ⟨result, _, _, _, _, linted, _, _, _, each, _⟩ :=
    pass_makes_one_edit [("React", .error), ("P", .warning)] read placed
  have evaluated : (Registry.lintModule [⟨rule "React", .error⟩, ⟨rule "P", .warning⟩]
      "//é\nclass A extends P.Component\x7b\x7dwindow.a" "page.jsx").toOption.any (fun result =>
        (result.diagnostics.length = 2 ∧ result.diagnostics.all (·.fix = some (insertDirective
          "//é\nclass A extends P.Component\x7b\x7dwindow.a" 5)) : Bool)) = true := by
    decide +kernel
  replace linted : Registry.lintModule [⟨rule "React", .error⟩, ⟨rule "P", .warning⟩]
    "//é\nclass A extends P.Component\x7b\x7dwindow.a" "page.jsx" = .ok result := linted
  rw [linted] at evaluated
  obtain ⟨two, asks⟩ := of_decide_eq_true evaluated
  obtain ⟨diagnostic, member⟩ := List.exists_mem_of_length_pos (show 0 < result.diagnostics.length by
    omega)
  obtain ⟨_, fix, isFix, _, all, _⟩ := each diagnostic member
  have inserts := of_decide_eq_true (List.all_eq_true.mp asks diagnostic member)
  cases isFix.symm.trans inserts
  have applied := @insertDirective_applyTo? "//é\nclass A extends P.Component\x7b\x7dwindow.a"
    "//é\n".toList "class A extends P.Component\x7b\x7dwindow.a".toList (by decide +kernel)
  refine ⟨module, result, read, placed, linted, two, all.trans (applied.trans ?_)⟩
  decide +kernel

end UseClient

end ClientBoundary
