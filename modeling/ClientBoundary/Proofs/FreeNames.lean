import ClientBoundary.Proofs.Detection
import ClientBoundary.Proofs.Independence
import Mathlib.Data.List.Forall2

/-! The free names of a module as a filter. Before a reference is tested by its own mark, its name
is looked up among the free names, which were gathered from the whole tree when the program was
entered. The tour that asks and the walk that gathers go through the tree each in its own way, but
whatever the tour comes upon is part of the tree, and the walk leaves no part out. So the filter can
be taken away, and every rule goes on to say what it said. -/
namespace ClientBoundary

namespace Syntax

/-! The tour stays in its tree. -/

section Tour

variable {node : Node} {path : List Node} {others : List Move}

theorem enter_mem_foldr {nodes : List Node}
    (each : ∀ child ∈ nodes, ∀ later, .enter node ∈ moves child later →
      .enter node ∈ later ∨ ∃ around, ⟨node, around⟩ ∈ child.sites path)
    (entered : .enter node ∈ nodes.foldr moves others) :
    .enter node ∈ others ∨ ∃ child ∈ nodes, ∃ around, ⟨node, around⟩ ∈ child.sites path := by
  induction nodes with
  | nil => exact .inl entered
  | cons child rest ih =>
    rcases each child List.mem_cons_self _ entered with later | here
    · rcases ih (fun child member => each child (List.mem_cons_of_mem _ member)) later with
        after | ⟨part, member, found⟩
      · exact .inl after
      · exact .inr ⟨part, List.mem_cons_of_mem _ member, found⟩
    · exact .inr ⟨child, List.mem_cons_self, here⟩

/-- What the tour of a tree enters is in the tree. Heads and the rest are toured apart, but nothing
is asked here about the order. -/
theorem mem_sites_of_enter {tree : Node} (path : List Node)
    (entered : .enter node ∈ moves tree others) :
    .enter node ∈ others ∨ ∃ around, ⟨node, around⟩ ∈ tree.sites path := by
  induction tree using Node.induction generalizing path others with
  | step kind span children role mark ih =>
    let tree : Node := ⟨kind, span, children, role, mark⟩
    have below {nodes : List Node} {others : List Move} (sub : nodes ⊆ children)
        (entered : .enter node ∈ nodes.foldr moves others) :
        .enter node ∈ others ∨ ∃ around, ⟨node, around⟩ ∈ tree.sites path := by
      rcases enter_mem_foldr (fun child member _ => ih child (sub member) (tree :: path)) entered with
        later | ⟨child, member, around, found⟩
      · exact .inl later
      · exact .inr ⟨around, Node.mem_sites.mpr (.inr ⟨child, sub member, found⟩)⟩
    have top {others : List Move} (entered : .enter node ∈ .enter tree :: others) :
        .enter node ∈ others ∨ ∃ around, ⟨node, around⟩ ∈ tree.sites path := by
      rcases List.mem_cons.mp entered with same | later
      · rw [Move.enter.inj same]
        exact .inr ⟨path, Node.mem_sites.mpr (.inl rfl)⟩
      · exact .inl later
    cases opens : tree.scope? with
    | none =>
      rw [moves_of_no_scope opens] at entered
      rcases top entered with inside | found
      · rcases below (List.Subset.refl _) inside with last | found
        · exact .inl (by simpa using last)
        · exact .inr found
      · exact .inr found
    | some id =>
      rw [moves_of_scope opens] at entered
      rcases top entered with heads | found
      · rcases below List.filter_sublist.subset heads with inside | found
        · rcases below List.filter_sublist.subset (by simpa using inside) with last | found
          · exact .inl (by simpa using last)
          · exact .inr found
        · exact .inr found
      · exact .inr found

end Tour

/-- The node that is asked about at an event: what is constructed, or the object that is
accessed. -/
def Event.target? : Event → Option Node
  | .construction node => node.part? .callee
  | .access object => some object
  | _ => none

theorem target_of_made {node target : Node} {event : Event} (made : Event.of? node = some event)
    (is : event.target? = some target) : target ∈ node.children := by
  unfold Event.of? at made
  split at made
  · cases made
    exact List.mem_of_find?_eq_some is
  · obtain ⟨object, found, rfl⟩ := Option.map_eq_some_iff.mp made
    cases is
    exact List.mem_of_find?_eq_some found
  · obtain ⟨object, found, rfl⟩ := Option.map_eq_some_iff.mp made
    cases is
    exact List.mem_of_find?_eq_some found
  · cases made
    cases is
  · cases made
    cases is
  · cases made
    cases is
  · cases made

/-- Whatever is asked about on the tour of a program is part of the program. -/
theorem target_mem_sites {program target : Node} {visit : Visit} (member : visit ∈ visits program)
    (is : visit.event.target? = some target) : ∃ path, ⟨target, path⟩ ∈ program.sites [] := by
  simp only [visits, List.cons_append, List.mem_cons, List.mem_append, List.not_mem_nil,
    or_false] at member
  rcases member with rfl | inner | rfl
  · cases is
  · obtain ⟨node, entered, made⟩ := enter_of_mem_visitsAlong inner
    rcases mem_sites_of_enter [] entered with never | ⟨path, site⟩
    · cases never
    · exact ⟨node :: path, Node.child_mem_sites site (target_of_made made is)⟩
  · cases is

end Syntax

open Syntax

namespace Listener

variable {module : Module}

/-- Two listeners say the same of a visit, under the same name and severity. -/
structure Agree (module : Module) (visit : Visit) (first second : Listener) : Prop where
  name : first.entry.rule.info.name = second.entry.rule.info.name
  severity : first.entry.severity = second.entry.severity
  findings : (first.entry.rule.react module visit first.state).2 =
    (second.entry.rule.react module visit second.state).2

/-- One visit: if listeners agree on it, in pairs, they leave the ledger alike. -/
theorem hearAll_agree {visit : Visit} {before after : Listener → Listener → Prop}
    (step : ∀ first second, before first second →
      Agree module visit first second ∧ after (first.next module visit) (second.next module visit))
    {firsts seconds : List Listener} (pairs : List.Forall₂ before firsts seconds) (ledger : Ledger) :
    (hearAll module visit firsts ledger).2 = (hearAll module visit seconds ledger).2 ∧
      List.Forall₂ after (hearAll module visit firsts ledger).1
        (hearAll module visit seconds ledger).1 := by
  induction pairs generalizing ledger with
  | nil => exact ⟨rfl, .nil⟩
  | @cons first second firsts seconds pair _ ih =>
    obtain ⟨agree, next⟩ := step first second pair
    have same : (first.hear module visit ledger).2 = (second.hear module visit ledger).2 := by
      simp only [hear, agree.name, agree.severity, agree.findings]
    obtain ⟨ledgers, listeners⟩ := ih (first.hear module visit ledger).2
    refine ⟨?_, ?_⟩
    · change (hearAll module visit firsts (first.hear module visit ledger).2).2 =
        (hearAll module visit seconds (second.hear module visit ledger).2).2
      rw [← same]
      exact ledgers
    · change List.Forall₂ after
        (first.next module visit :: (hearAll module visit firsts (first.hear module visit ledger).2).1)
        (second.next module visit ::
          (hearAll module visit seconds (second.hear module visit ledger).2).1)
      rw [← same]
      exact .cons next listeners

/-- All visits: if listeners agree on each of them as long as they are related, and stay related,
they leave the ledger alike. -/
theorem follow_agree {related : Listener → Listener → Prop} {visits : List Visit}
    (step : ∀ visit ∈ visits, ∀ first second, related first second →
      Agree module visit first second ∧ related (first.next module visit) (second.next module visit))
    {firsts seconds : List Listener} (pairs : List.Forall₂ related firsts seconds) (ledger : Ledger) :
    (follow module visits (firsts, ledger)).2 = (follow module visits (seconds, ledger)).2 := by
  induction visits generalizing firsts seconds ledger with
  | nil => rfl
  | cons visit rest ih =>
    obtain ⟨ledgers, listeners⟩ := hearAll_agree (step visit List.mem_cons_self) pairs ledger
    have later := ih (fun visit member => step visit (List.mem_cons_of_mem _ member)) listeners
      (hearAll module visit firsts ledger).2
    change (follow module rest (hearAll module visit firsts ledger)).2 =
      (follow module rest (hearAll module visit seconds ledger)).2
    rw [later, ledgers]

end Listener

namespace UseClient

/-! The rule without the filter. -/

/-- A name that only a browser provides, told by the mark of the reference alone. -/
def browserGlobalByMark? (pragma : String) (visit : Visit) (target : Node) (span : Span) :
    Option Construct :=
  match target.kind with
  | .identifier name _ =>
    if isBrowserOnly name && target.isFree && runsOnServer pragma visit
    then some ⟨.browserApi, name, span⟩ else none
  | _ => none

def constructsByMark (pragma : String) (module : Module) (visit : Visit) : List Construct :=
  match visit.event with
  | .construction node =>
    ((node.part? .callee).bind (browserGlobalByMark? pragma visit · node.span)).toList
  | .access object => (browserGlobalByMark? pragma visit object object.span).toList
  | .call node => (hookCall? pragma visit node).toList
  | .element opening => eventCallbacks module visit.scope opening
  | .classNode node => (classComponent? pragma visit node).toList
  | .enterProgram | .exitProgram => []

def reactByMark (pragma : String) (module : Module) (visit : Visit) (analysis : Analysis) :
    Analysis × List Finding :=
  match visit.event with
  | .enterProgram => (.ofProgram module.tree (module.freeNames 0), [])
  | .exitProgram => (analysis, analysis.reportRedundant)
  | _ => Analysis.findAll module.source (constructsByMark pragma module visit) analysis

def ruleByMark (pragma : String) : ClientBoundary.Rule :=
  .ofFindings info ({} : Analysis) (reactByMark pragma)

/-- One entry of a registry stands in for another: it is the same, or the rule without the
filter. -/
inductive StandsIn : RuleEntry → RuleEntry → Prop where
  | same (entry : RuleEntry) : StandsIn entry entry
  | byMark (pragma : String) (severity : Severity) :
      StandsIn ⟨rule pragma, severity⟩ ⟨ruleByMark pragma, severity⟩

/-- The listeners of such entries, in a state with a property. -/
inductive Paired (holds : Analysis → Prop) : Listener → Listener → Prop where
  | same (listener : Listener) : Paired holds listener listener
  | byMark (pragma : String) (severity : Severity) {analysis : Analysis} (known : holds analysis) :
      Paired holds ⟨⟨rule pragma, severity⟩, analysis⟩ ⟨⟨ruleByMark pragma, severity⟩, analysis⟩

theorem Analysis.findAll_freeNames (source : String) (constructs : List Construct)
    (analysis : Analysis) : (findAll source constructs analysis).1.freeNames = analysis.freeNames := by
  induction constructs generalizing analysis with
  | nil => rfl
  | cons construct rest ih =>
    have first : (analysis.find source construct).1.freeNames = analysis.freeNames := by
      by_cases quiet : (analysis.hasDirective || analysis.hasReported) = true
      · simp [find, reportMissing, quiet, record]
      · simp [find, reportMissing, quiet, record, markReported]
    exact (ih _).trans first

theorem react_freeNames (pragma : String) (module : Module) (visit : Visit) {analysis : Analysis}
    (known : analysis.freeNames = module.freeNames 0) :
    (react pragma module visit analysis).1.freeNames = module.freeNames 0 := by
  obtain ⟨event, ancestors, scope⟩ := visit
  cases event
  case enterProgram => rfl
  case exitProgram => exact known
  all_goals exact (Analysis.findAll_freeNames _ _ _).trans known

/-- Entering the program, the two forms of the rule start alike and take the same names. -/
theorem paired_enter (module : Module) (ancestors : List Node) (scope : Nat) (first second : Listener)
    (pair : Paired (fun _ => True) first second) :
    Listener.Agree module ⟨.enterProgram, ancestors, scope⟩ first second ∧
      Paired (fun analysis => analysis.freeNames = module.freeNames 0)
        (first.next module ⟨.enterProgram, ancestors, scope⟩)
        (second.next module ⟨.enterProgram, ancestors, scope⟩) := by
  cases pair with
  | same listener => exact ⟨⟨rfl, rfl, rfl⟩, .same _⟩
  | byMark pragma severity known => exact ⟨⟨rfl, rfl, rfl⟩, .byMark pragma severity rfl⟩

section Filter

variable {module : Module} (gathered : module.references = Scope.references 0 module.tree [])

include gathered

theorem mem_freeNames_of_free {site : Site} (member : site ∈ module.tree.sites []) {name : String}
    {use : Use} (identifier : site.node.kind = .identifier name use)
    (free : site.node.isFree = true) : name ∈ module.freeNames 0 := by
  rw [Module.freeNames, gathered]
  exact Scope.mem_freeNames member identifier free

theorem browserGlobal?_eq_byMark (pragma : String) {site : Site}
    (member : site ∈ module.tree.sites []) (visit : Visit) (span : Span) :
    browserGlobal? pragma (module.freeNames 0) visit site.node span =
      browserGlobalByMark? pragma visit site.node span := by
  cases kind : site.node.kind
  case identifier name use =>
    simp only [browserGlobal?, browserGlobalByMark?, kind]
    by_cases free : site.node.isFree = true
    · have named := mem_freeNames_of_free gathered member kind free
      simp [named]
    · simp [free]
  all_goals simp only [browserGlobal?, browserGlobalByMark?, kind]

theorem constructsAt_eq_byMark (pragma : String) {visit : Visit} (member : visit ∈ module.visits) :
    constructsAt pragma module (module.freeNames 0) visit = constructsByMark pragma module visit := by
  have asked {target : Node} (is : visit.event.target? = some target) (span : Span) :
      browserGlobal? pragma (module.freeNames 0) visit target span =
        browserGlobalByMark? pragma visit target span := by
    obtain ⟨path, site⟩ := target_mem_sites member is
    exact browserGlobal?_eq_byMark gathered pragma site visit span
  obtain ⟨event, ancestors, scope⟩ := visit
  cases event
  case construction node =>
    simp only [constructsAt, constructsByMark]
    cases found : node.part? .callee with
    | none => rfl
    | some callee => exact congrArg Option.toList (asked found node.span)
  case access object => exact congrArg Option.toList (asked rfl object.span)
  all_goals rfl

theorem react_eq_byMark (pragma : String) {visit : Visit} (member : visit ∈ module.visits)
    {analysis : Analysis} (known : analysis.freeNames = module.freeNames 0) :
    react pragma module visit analysis = reactByMark pragma module visit analysis := by
  have found := constructsAt_eq_byMark gathered pragma member
  rw [← known] at found
  obtain ⟨event, ancestors, scope⟩ := visit
  cases event
  case enterProgram => rfl
  case exitProgram => rfl
  all_goals exact congrArg (Analysis.findAll module.source · analysis) found

/-- From then on they agree on every visit and keep the names. -/
theorem paired_step (visit : Visit) (member : visit ∈ module.visits) (first second : Listener)
    (pair : Paired (fun analysis => analysis.freeNames = module.freeNames 0) first second) :
    Listener.Agree module visit first second ∧
      Paired (fun analysis => analysis.freeNames = module.freeNames 0)
        (first.next module visit) (second.next module visit) := by
  cases pair with
  | same listener => exact ⟨⟨rfl, rfl, rfl⟩, .same _⟩
  | @byMark pragma severity analysis known =>
    have same := react_eq_byMark gathered pragma member known
    refine ⟨⟨rfl, rfl, congrArg (fun said => said.2.map Remark.found) same⟩, ?_⟩
    change Paired _ ⟨⟨rule pragma, severity⟩, (react pragma module visit analysis).1⟩
      ⟨⟨ruleByMark pragma, severity⟩, (reactByMark pragma module visit analysis).1⟩
    rw [← same]
    exact .byMark pragma severity (react_freeNames pragma module visit known)

theorem inspect_byMark {registry others : Registry} (standIns : List.Forall₂ StandsIn registry others) :
    registry.inspect module = others.inspect module := by
  have start : List.Forall₂ (Paired fun _ => True) (registry.map .ofEntry) (others.map .ofEntry) := by
    rw [List.forall₂_map_left_iff, List.forall₂_map_right_iff]
    refine standIns.imp ?_
    intro entry other standsIn
    cases standsIn with
    | same => exact .same _
    | byMark pragma severity => exact .byMark pragma severity trivial
  obtain ⟨rest, visits⟩ : ∃ rest, module.visits = ⟨.enterProgram, [], 0⟩ :: rest := ⟨_, rfl⟩
  obtain ⟨ledgers, pairs⟩ := Listener.hearAll_agree (paired_enter module [] 0) start {}
  have inside : ∀ visit ∈ rest, visit ∈ module.visits := by
    intro visit member
    rw [visits]
    exact List.mem_cons_of_mem _ member
  have run := Listener.follow_agree
    (fun visit member => paired_step gathered visit (inside visit member)) pairs
  have later := run (Listener.hearAll module ⟨.enterProgram, [], 0⟩ (registry.map .ofEntry) {}).2
  unfold Registry.inspect
  rw [visits]
  change (Listener.follow module rest (Listener.hearAll module _ (registry.map .ofEntry) {})).2 =
    (Listener.follow module rest (Listener.hearAll module _ (others.map .ofEntry) {})).2
  rw [later, ledgers]

end Filter

/-- When the rule asks about a node, the program has been entered. -/
theorem follow_until_asked (pragma : String) (severity : Severity) {module : Module}
    {seen rest : List Visit} {visit : Visit} {target : Node}
    (split : module.visits = seen ++ visit :: rest) (asked : visit.event.target? = some target) :
    ∃ found ledger, Listener.follow module seen ([.ofEntry ⟨rule pragma, severity⟩], {}) =
      ([⟨⟨rule pragma, severity⟩, .having module found⟩], ledger) := by
  obtain ⟨inner, whole, isInner, _⟩ := visits_eq_inner pragma module
  have same : seen ++ visit :: rest = ⟨.enterProgram, [], 0⟩ :: (inner ++ [⟨.exitProgram, [], 0⟩]) :=
    split.symm.trans whole
  cases seen with
  | nil =>
    obtain ⟨rfl, _⟩ := List.cons.inj same
    cases asked
  | cons first begun =>
    obtain ⟨rfl, tail⟩ := List.cons.inj same
    have others : begun ++ visit :: rest = inner ++ [⟨.exitProgram, [], 0⟩] := tail
    have length := congrArg List.length others
    simp only [List.length_append, List.length_cons, List.length_nil] at length
    have begins : begun <+: inner :=
      List.prefix_of_prefix_length_le ⟨_, others⟩ (List.prefix_append ..) (by omega)
    obtain ⟨ledger, follows, _⟩ := follow_entered pragma severity module begun
      (fun visit member => isInner visit (begins.subset member)) [] 0
    exact ⟨_, ledger, follows⟩

/-- The filter changes nothing. The program is any tree. Whenever the rule asks about a node on its
tour, its state has the names that the module had on entering; if the node is a free reference, its
name is among them, so the answer is that of the mark alone. This holds of every node of the tree.
And whichever rules are registered, leaving the filter out of any of them leaves all that is found
as it is. -/
theorem filter_changes_nothing (pragma : String) (severity : Severity) (fileName source : String)
    (program : Node) :
    let module := Module.ofProgram fileName source program
    (∀ seen visit rest target, module.visits = seen ++ visit :: rest →
      visit.event.target? = some target →
      ∃ analysis ledger,
        Listener.follow module seen ([.ofEntry ⟨rule pragma, severity⟩], {}) =
          ([⟨⟨rule pragma, severity⟩, analysis⟩], ledger) ∧
        analysis.freeNames = module.freeNames 0 ∧
        (∀ name use, target.kind = .identifier name use → target.isFree = true →
          name ∈ analysis.freeNames) ∧
        ∀ span, browserGlobal? pragma analysis.freeNames visit target span =
          browserGlobalByMark? pragma visit target span) ∧
    (∀ site ∈ module.tree.sites [], ∀ visit span,
      browserGlobal? pragma (module.freeNames 0) visit site.node span =
        browserGlobalByMark? pragma visit site.node span) ∧
    ∀ registry others : Registry, List.Forall₂ StandsIn registry others →
      registry.inspect module = others.inspect module := by
  intro module
  have gathered : module.references = Scope.references 0 module.tree [] := rfl
  refine ⟨?_, ?_, ?_⟩
  · intro seen visit rest target split asked
    have member : visit ∈ module.visits := by simp [split]
    obtain ⟨path, site⟩ := target_mem_sites member asked
    obtain ⟨found, ledger, follows⟩ := follow_until_asked pragma severity split asked
    refine ⟨_, ledger, follows, rfl, ?_, ?_⟩
    · intro name use identifier free
      exact mem_freeNames_of_free gathered site identifier free
    · exact browserGlobal?_eq_byMark gathered pragma site visit
  · intro site member visit span
    exact browserGlobal?_eq_byMark gathered pragma member visit span
  · intro registry others standIns
    exact inspect_byMark gathered standIns

/-- A browser name that is accessed at the top and is a parameter further down. -/
theorem filter_changes_nothing_browser_name :
    ∃ program, parse? "page.jsx" "window.a;f=window=>window.b" = some program ∧
      let module := Module.ofProgram "page.jsx" "window.a;f=window=>window.b" program
      (∃ seen visit rest target analysis ledger, module.visits = seen ++ visit :: rest ∧
        visit.event.target? = some target ∧ target.isFree = true ∧
        Listener.follow module seen ([.ofEntry ⟨rule "React", .error⟩], {}) =
          ([⟨⟨rule "React", .error⟩, analysis⟩], ledger) ∧
        "window" ∈ analysis.freeNames) ∧
      Registry.inspect [⟨rule "React", .error⟩] module =
        Registry.inspect [⟨ruleByMark "React", .error⟩] module := by
  obtain ⟨program, parsed, evaluated⟩ := (Option.any_eq_true _ _).mp (show
    (parse? "page.jsx" "window.a;f=window=>window.b").any (fun program =>
      (Module.ofProgram "page.jsx" "window.a;f=window=>window.b" program).visits.any fun visit =>
        visit.event.target?.any fun target =>
          target.kind = .identifier "window" .value ∧ target.isFree = true) = true
      by decide +kernel)
  obtain ⟨visit, member, asks⟩ := List.any_eq_true.mp evaluated
  obtain ⟨target, asked, holds⟩ := (Option.any_eq_true _ _).mp asks
  obtain ⟨identifier, free⟩ := of_decide_eq_true holds
  obtain ⟨seen, rest, split⟩ := List.append_of_mem member
  obtain ⟨asking, _, inspecting⟩ := filter_changes_nothing "React" .error "page.jsx"
    "window.a;f=window=>window.b" program
  obtain ⟨analysis, ledger, follows, _, named, _⟩ := asking seen visit rest target split asked
  refine ⟨program, parsed, ⟨seen, visit, rest, target, analysis, ledger, split, asked, free, follows,
    named "window" .value identifier free⟩, ?_⟩
  exact inspecting _ _ (.cons (.byMark "React" .error) .nil)

end UseClient

end ClientBoundary
