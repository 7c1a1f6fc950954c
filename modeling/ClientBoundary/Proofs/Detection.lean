import ClientBoundary.Proofs.Scopes
import ClientBoundary.Proofs.Verdict
import Mathlib.Data.List.Basic

/-! What the rule records, told by the path of each node alone. A node contributes by what it is and
by the nodes on its path from the root; the tour with its stacks comes upon exactly these
contributions. They are recorded in the order of the tree, but for the attributes of an element,
which come together where the element opens. -/
namespace ClientBoundary

namespace Syntax

def Site.part? (site : Site) (role : Role) : Option Site :=
  (site.node.part? role).map (⟨·, site.node :: site.path⟩)

theorem program?_isProgram {dialect : Dialect} {text : List Char} {program : Node}
    (parsed : program? dialect text = some program) : Scope.IsProgram program := by
  unfold program? at parsed
  simp only [Option.bind_eq_bind, Option.bind_eq_some_iff] at parsed
  obtain ⟨_, _, _, _, built⟩ := parsed
  split at built
  · cases built
    refine ⟨rfl, fun item member => ?_⟩
    obtain ⟨_, _, rfl⟩ := List.mem_map.mp member
    exact nofun
  · cases built

theorem parse?_isProgram {fileName source : String} {program : Node}
    (parsed : parse? fileName source = some program) : Scope.IsProgram program := by
  unfold parse? at parsed
  simp only [Option.bind_eq_bind, Option.bind_eq_some_iff] at parsed
  obtain ⟨first, read, again⟩ := parsed
  split at again
  · exact program?_isProgram again
  · cases again
    exact program?_isProgram read

end Syntax

open Syntax

/-- What is known of the scopes of a module at each of its sites. -/
structure Module.WellScoped (module : Module) : Prop where
  analyzed : module.tree.Throughout (Scope.Analyzed module.scopes 0) []
  nests : ∀ site ∈ module.tree.sites [], module.scopes.Nests site.scopes
  outermost : ∀ site ∈ module.tree.sites [], site.scope = 0 ↔ site.scopes.length ≤ 1
  inside : ∀ site ∈ module.tree.sites [], site.node.kind ≠ .program → site.scopes ≠ []
  references : module.references = Scope.references 0 module.tree []

theorem Module.WellScoped.at_site {module : Module} (known : module.WellScoped) {site : Site}
    (member : site ∈ module.tree.sites []) :
    Scope.Analyzed module.scopes 0 site.scopes site.node :=
  Node.Throughout.at_site (show Node.Throughout _ (scopesOnPath _ []) _ from known.analyzed) member

theorem Module.ofProgram_wellScoped (fileName source : String) {program : Node}
    (is : Scope.IsProgram program) : (Module.ofProgram fileName source program).WellScoped where
  analyzed := Scope.analyze_spec is
  nests _ member := Scope.nests_at_site is member
  outermost _ member := Scope.scope_eq_zero_iff is member
  inside _ member := Scope.scopes_ne_nil is member
  references := rfl

theorem Module.read?_wellScoped {fileName source : String} {module : Module}
    (read : Module.read? fileName source = some module) : module.WellScoped := by
  obtain ⟨program, parsed, rfl⟩ := Option.map_eq_some_iff.mp read
  exact Module.ofProgram_wellScoped fileName source (parse?_isProgram parsed)

namespace UseClient

/-- Some node on a path is a component with respect to the path above it. -/
def InComponent (pragma : String) (path : List Node) : Prop :=
  ∃ component above, component :: above <:+ path ∧
    Component.isComponent pragma component above = true

theorem inComponent_cons {pragma : String} {node : Node} {path : List Node} :
    InComponent pragma (node :: path) ↔
      Component.isComponent pragma node path = true ∨ InComponent pragma path := by
  constructor
  · rintro ⟨component, above, suffix, is⟩
    rcases List.suffix_cons_iff.mp suffix with same | further
    · obtain ⟨rfl, rfl⟩ := List.cons.inj same
      exact .inl is
    · exact .inr ⟨component, above, further, is⟩
  · rintro (is | ⟨component, above, suffix, is⟩)
    · exact ⟨node, path, List.suffix_refl _, is⟩
    · exact ⟨component, above, suffix.trans (List.suffix_cons node path), is⟩

/-- The search for the innermost component finds one exactly if there is any. -/
theorem enclosing?_isSome_iff (pragma : String) (path : List Node) :
    (Component.enclosing? pragma path).isSome = true ↔ InComponent pragma path := by
  induction path with
  | nil =>
    simp [Component.enclosing?, InComponent]
  | cons node outer ih =>
    rw [inComponent_cons, ← ih, Component.enclosing?]
    split
    · next is => simp [is]
    · next not => simp [not]

instance (pragma : String) (path : List Node) : Decidable (InComponent pragma path) :=
  decidable_of_iff _ (enclosing?_isSome_iff pragma path)

/-- Hooks are named `use` and a capital letter, and all but one need the client. -/
def IsHookName (name : String) : Prop :=
  name ≠ "useId" ∧
    ∃ letter rest, name.toList = ['u', 's', 'e'] ++ letter :: rest ∧ letter.isUpper = true

theorem isClientHook_iff (name : String) : isClientHook name = true ↔ IsHookName name := by
  unfold isClientHook IsHookName
  constructor
  · intro holds
    split at holds
    · next letter rest spelled =>
      have both : letter.isUpper = true ∧ name ≠ "useId" := by simpa using holds
      exact ⟨both.2, letter, rest, spelled, both.1⟩
    · cases holds
  · rintro ⟨other, letter, rest, spelled, upper⟩
    simp [spelled, upper, other]

instance (name : String) : Decidable (IsHookName name) :=
  decidable_of_iff _ (isClientHook_iff name)

section Constructs

variable (pragma : String) (module : Module)

/-- The name of a reference to what only a browser provides: no scope on its path declares the name,
and it stands in no scope but that of the module, or in a component. -/
def browserName? (target : Site) : Option String :=
  match target.node.kind with
  | .identifier name use =>
    if Scope.resolves module.scopes target.scopes name use = false ∧ isBrowserOnly name = true ∧
        (target.scopes.length ≤ 1 ∨ InComponent pragma target.path)
    then some name else none
  | _ => none

def calledName? (callee : Node) : Option String :=
  match callee.kind with
  | .identifier name _ => some name
  | .staticMember property => some property
  | _ => none

/-- A function literal, or a name that the current scope or the one right around it binds to a
function. -/
def givesFunction (scopes : List Nat) (value : Node) : Bool :=
  match value.kind with
  | .function _ _ | .arrow _ => true
  | .identifier name _ =>
    (module.scopes.firstBinding (scopes.take 2) name).any fun found => found.2.kind.isFunction
  | _ => false

/-- What an attribute contributes: one construct for a name that is that of an event, and one for a
function in its braces. -/
def attributeConstructs (site : Site) : List Construct :=
  match site.node.part? .key, site.node.part? .value with
  | some key, some container =>
    if container.kind = .jsxContainer then
      (if module.textAt key.span ∈ eventNames
        then [⟨.eventCallback, module.textAt key.span, key.span⟩] else []) ++
      (if (container.part? .value).any (givesFunction module site.scopes ·.withoutParentheses)
        then [⟨.eventCallback, module.textAt key.span, site.node.span⟩] else [])
    else []
  | _, _ => []

def ownConstructs (site : Site) : List Construct :=
  match site.node.kind with
  | .new =>
    (((site.part? .callee).bind (browserName? pragma module)).map
      (⟨.browserApi, ·, site.node.span⟩)).toList
  | .staticMember _ | .computedMember =>
    ((site.part? .object).bind fun object =>
      (browserName? pragma module object).map (⟨.browserApi, ·, object.node.span⟩)).toList
  | .call =>
    ((site.node.part? .callee).bind fun callee =>
      ((calledName? callee).filter fun name => IsHookName name ∧ InComponent pragma site.path).map
        (⟨.hook, ·, callee.span⟩)).toList
  | .jsxAttribute => attributeConstructs module site
  | .classNode true name =>
    if Component.isComponent pragma site.node site.path = true
    then [⟨.classComponent, name.getD "unknown", site.node.span⟩] else []
  | _ => []

/-- What is recorded at a node. An element speaks for its attributes, one after the other, before
anything inside of them has its turn; all other nodes speak for themselves. -/
def recordedAt (site : Site) : List Construct :=
  match site.node.kind with
  | .jsxOpening => (site.node.children.filter (·.kind = .jsxAttribute)).flatMap fun part =>
      ownConstructs pragma module ⟨part, site.node :: site.path⟩
  | .jsxAttribute => []
  | _ => ownConstructs pragma module site

/-- The tour tests a reference by its mark and by the free names of the module, and the two places
by the stacks; on the path of the reference this is the same. -/
theorem browserGlobal?_eq_map {site : Site} (known : module.WellScoped)
    (member : site ∈ module.tree.sites []) {target : Node} (part : target ∈ site.node.children)
    (opens : Scope.opensScope site.node.kind = false)
    (plain : Component.isComponent pragma site.node site.path = false) (event : Event)
    (span : Span) :
    browserGlobal? pragma (module.freeNames 0) ⟨event, site.path, site.scope⟩ target span =
      (browserName? pragma module ⟨target, site.node :: site.path⟩).map
        (⟨.browserApi, ·, span⟩) := by
  have below := Node.child_mem_sites member part
  have scopes := Scope.scopes_of_part (known.at_site member) opens target
  cases kind : target.kind
  case identifier name use =>
    have free := (known.at_site below).free name use kind
    have named : target.isFree = true → (module.freeNames 0).contains name = true := by
      intro isFree
      rw [List.contains_iff_mem, Module.freeNames, known.references]
      exact Scope.mem_freeNames below kind isFree
    have runs : runsOnServer pragma ⟨event, site.path, site.scope⟩ = true ↔
        site.scopes.length ≤ 1 ∨ InComponent pragma (site.node :: site.path) := by
      rw [inComponent_cons, plain, ← enclosing?_isSome_iff, ← known.outermost site member]
      simp [runsOnServer]
    simp only [browserGlobal?, browserName?, kind, scopes]
    split
    · next holds =>
      simp only [Bool.and_eq_true] at holds
      rw [if_pos ⟨scopes ▸ free.mp holds.1.2, holds.1.1.2, runs.mp holds.2⟩, Option.map_some]
    · next fails =>
      rw [if_neg, Option.map_none]
      rintro ⟨unresolved, browserOnly, place⟩
      have isFree := free.mpr (scopes ▸ unresolved)
      simp only [Bool.and_eq_true] at fails
      exact fails ⟨⟨⟨named isFree, browserOnly⟩, isFree⟩, runs.mpr place⟩
  all_goals simp only [browserGlobal?, browserName?, kind, Option.map_none]

theorem hookCall?_eq_filter (event : Event) (scope : Nat) (site : Site) :
    hookCall? pragma ⟨event, site.path, scope⟩ site.node =
      (site.node.part? .callee).bind fun callee =>
        ((calledName? callee).filter fun name => IsHookName name ∧ InComponent pragma site.path).map
          (⟨.hook, ·, callee.span⟩) := by
  unfold hookCall?
  cases site.node.part? .callee with
  | none => rfl
  | some callee =>
    have named (name : String) :
        (if isClientHook name && (Component.enclosing? pragma site.path).isSome
          then some (⟨.hook, name, callee.span⟩ : Construct) else none) =
        ((some name).filter fun name => IsHookName name ∧ InComponent pragma site.path).map
          (⟨.hook, ·, callee.span⟩) := by
      simp only [Option.filter_some, Bool.and_eq_true, decide_eq_true_eq, isClientHook_iff,
        enclosing?_isSome_iff]
      split <;> rfl
    simp only [Option.bind_eq_bind, Option.bind_some, calledName?]
    cases callee.kind
    case identifier name _ => exact named name
    case staticMember property => exact named property
    all_goals rfl

/-- Seen from the innermost scope of a site, a value is a function exactly if it is one for the
scopes on the path. -/
theorem passesFunction_eq {site : Site} (known : module.WellScoped)
    (member : site ∈ module.tree.sites []) (below : site.node.kind ≠ .program) (value : Node) :
    passesFunction module site.scope value =
      givesFunction module site.scopes value.withoutParentheses := by
  have nests := known.nests site member
  cases scopes : site.scopes with
  | nil => exact absurd scopes (known.inside site member below)
  | cons scope outer =>
    have innermost : site.scope = scope := by rw [Site.scope, scopes]; rfl
    rw [scopes] at nests
    unfold passesFunction givesFunction
    dsimp only
    split
    · next name use identifier =>
      rw [identifier, innermost, Scope.Table.visibleFrom_eq_take nests]
    · next different =>
      unfold Scope.isFunctionLiteral
      split <;> simp_all

theorem attributeCallbacks_eq {site : Site} (known : module.WellScoped)
    (member : site ∈ module.tree.sites []) (opening : site.node.kind = .jsxOpening)
    {part : Node} (is : part.kind = .jsxAttribute) :
    attributeCallbacks module site.scope part =
      ownConstructs pragma module ⟨part, site.node :: site.path⟩ := by
  have scopes := Scope.scopes_of_part (known.at_site member) (by rw [opening]; rfl) part
  have passes : passesFunction module site.scope = fun value =>
      givesFunction module (Site.scopes ⟨part, site.node :: site.path⟩) value.withoutParentheses := by
    funext value
    rw [scopes]
    exact passesFunction_eq module known member (by rw [opening]; exact nofun) value
  simp only [attributeCallbacks, ownConstructs, attributeConstructs, is, passes, isEventName,
    List.contains_iff_mem]
  cases part.part? .key with
  | none => rfl
  | some key =>
    cases part.part? .value with
    | none => rfl
    | some container => rfl

theorem attributeCallbacks_of_other (scope : Nat) {part : Node} (other : part.kind ≠ .jsxAttribute) :
    attributeCallbacks module scope part = [] := by
  unfold attributeCallbacks
  split
  · next is _ _ => exact absurd is other
  · rfl

theorem eventCallbacks_eq {site : Site} (known : module.WellScoped)
    (member : site ∈ module.tree.sites []) (opening : site.node.kind = .jsxOpening) :
    eventCallbacks module site.scope site.node =
      (site.node.children.filter (·.kind = .jsxAttribute)).flatMap fun part =>
        ownConstructs pragma module ⟨part, site.node :: site.path⟩ := by
  unfold eventCallbacks
  induction site.node.children with
  | nil => rfl
  | cons part rest ih =>
    by_cases is : part.kind = .jsxAttribute
    · simp only [List.flatMap_cons, ih, List.filter_cons, is, decide_true, if_true,
        attributeCallbacks_eq pragma module known member opening is]
    · simp only [List.flatMap_cons, ih, List.filter_cons, is, decide_false,
        attributeCallbacks_of_other module site.scope is, List.nil_append, Bool.false_eq_true,
        if_false]

def foundAt (site : Site) : List Construct :=
  (site.visit?.map (constructsAt pragma module (module.freeNames 0))).getD []

theorem foundAt_new {site : Site} (known : module.WellScoped)
    (member : site ∈ module.tree.sites []) (kind : site.node.kind = .new) :
    foundAt pragma module site = ownConstructs pragma module site := by
  simp only [foundAt, Site.visit?, Event.of?, kind, constructsAt, ownConstructs, Option.map_some,
    Option.getD_some, Site.part?]
  cases found : site.node.part? .callee with
  | none => rfl
  | some callee =>
    rw [Option.bind_some, browserGlobal?_eq_map pragma module known member
      (List.mem_of_find?_eq_some found) (by rw [kind]; rfl) (by simp [Component.isComponent, kind])]
    rfl

theorem foundAt_member {site : Site} (known : module.WellScoped)
    (member : site ∈ module.tree.sites [])
    (kind : (∃ property, site.node.kind = .staticMember property) ∨
      site.node.kind = .computedMember) :
    foundAt pragma module site = ownConstructs pragma module site := by
  have opens : Scope.opensScope site.node.kind = false := by
    rcases kind with ⟨property, kind⟩ | kind <;> rw [kind] <;> rfl
  have plain : Component.isComponent pragma site.node site.path = false := by
    rcases kind with ⟨property, kind⟩ | kind <;> simp only [Component.isComponent, kind]
  have event : Event.of? site.node = (site.node.part? .object).map .access := by
    rcases kind with ⟨property, kind⟩ | kind <;> simp only [Event.of?, kind]
  have own : ownConstructs pragma module site = ((site.part? .object).bind fun object =>
      (browserName? pragma module object).map (⟨.browserApi, ·, object.node.span⟩)).toList := by
    rcases kind with ⟨property, kind⟩ | kind <;> simp only [ownConstructs, kind]
  rw [own, foundAt, Site.visit?, event]
  unfold Site.part?
  cases found : site.node.part? .object with
  | none => rfl
  | some object =>
    have global := browserGlobal?_eq_map pragma module known member
      (List.mem_of_find?_eq_some found) opens plain (.access object) object.span
    simp only [Option.map_some, Option.getD_some, constructsAt, global, Option.bind_some]

/-- Every visit comes upon what its site is to record, and sites without a visit have nothing. -/
theorem foundAt_eq_recordedAt {site : Site} (known : module.WellScoped)
    (member : site ∈ module.tree.sites []) :
    foundAt pragma module site = recordedAt pragma module site := by
  cases kind : site.node.kind
  case new =>
    simp only [foundAt_new pragma module known member kind, recordedAt, kind]
  case staticMember property =>
    simp only [foundAt_member pragma module known member (.inl ⟨property, kind⟩), recordedAt, kind]
  case computedMember =>
    simp only [foundAt_member pragma module known member (.inr kind), recordedAt, kind]
  case call =>
    simp only [foundAt, Site.visit?, Event.of?, kind, constructsAt, recordedAt, ownConstructs,
      Option.map_some, Option.getD_some, hookCall?_eq_filter]
  case jsxOpening =>
    simp only [foundAt, Site.visit?, Event.of?, kind, constructsAt, recordedAt, Option.map_some,
      Option.getD_some, eventCallbacks_eq pragma module known member kind]
  case classNode declares name =>
    simp only [foundAt, Site.visit?, Event.of?, kind, constructsAt, recordedAt, ownConstructs,
      classComponent?, Option.map_some, Option.getD_some]
    cases declares
    · rfl
    · dsimp only
      split <;> rfl
  all_goals simp only [foundAt, Site.visit?, Event.of?, kind, recordedAt, ownConstructs,
    Option.map_none, Option.getD_none]

/-- The constructs on the tour of a module are those of its sites. -/
theorem constructsAlong_visits (known : module.WellScoped) :
    constructsAlong pragma module module.visits =
      (module.tree.sites []).flatMap (recordedAt pragma module) := by
  have ordered := known.analyzed.mono fun _ _ here => here.headsFirst
  have inner : constructsAlong pragma module module.visits =
      ((module.tree.sites []).filterMap Site.visit?).flatMap
        (constructsAt pragma module (module.freeNames 0)) := by
    simp [constructsAlong, Module.visits, visits_eq_sites ordered, constructsAt]
  rw [inner, List.filterMap_eq_flatMap_toList, List.flatMap_assoc]
  refine List.flatMap_congr fun site member => ?_
  rw [← foundAt_eq_recordedAt pragma module known member, foundAt]
  cases site.visit? with
  | none => rfl
  | some visit => simp

/-- What the rule has recorded at the end of the tour is what the nodes of the tree contribute by
their own paths, in the order of the tree, the attributes of an element together where the element
opens. -/
theorem constructs_recorded_by_path (severity : Severity) {fileName source : String}
    (read : Module.read? fileName source = some module) :
    ∃ analysis ledger,
      Listener.follow module module.visits ([.ofEntry ⟨rule pragma, severity⟩], {}) =
        ([⟨⟨rule pragma, severity⟩, analysis⟩], ledger) ∧
      analysis.constructs = (module.tree.sites []).flatMap (recordedAt pragma module) := by
  obtain ⟨after, follows, _⟩ := follow_visits pragma severity module
  exact ⟨_, after, follows, constructsAlong_visits pragma module (Module.read?_wellScoped read)⟩

end Constructs

/-- A component with a hook, an attribute for an event and a browser name inside of the
attribute. -/
theorem constructs_recorded_by_path_component :
    ∃ module analysis ledger,
      Module.read? "page.jsx" "A=()=>\x7buseB();return <a onClick=\x7bwindow.c\x7d/>\x7d" =
        some module ∧
      Listener.follow module module.visits ([.ofEntry ⟨rule "React", .error⟩], {}) =
        ([⟨⟨rule "React", .error⟩, analysis⟩], ledger) ∧
      analysis.constructs.map (·.name) = ["useB", "onClick", "window"] := by
  obtain ⟨module, read, names⟩ := (Option.any_eq_true _ _).mp (show
    (Module.read? "page.jsx" "A=()=>\x7buseB();return <a onClick=\x7bwindow.c\x7d/>\x7d").any
      (fun module => ((module.tree.sites []).flatMap (recordedAt "React" module)).map (·.name) =
        ["useB", "onClick", "window"]) = true by decide +kernel)
  obtain ⟨analysis, ledger, follows, constructs⟩ :=
    constructs_recorded_by_path "React" module .error read
  refine ⟨module, analysis, ledger, read, follows, ?_⟩
  rw [constructs]
  exact of_decide_eq_true names

/-- Attribute by attribute the record is not in the order of the tree: a later attribute comes
before what stands in the braces of an earlier one. -/
theorem attributes_recorded_before_values :
    ∃ module analysis ledger,
      Module.read? "page.jsx" "x=<a b=\x7bwindow.c\x7d onClick=\x7bd\x7d/>" = some module ∧
      Listener.follow module module.visits ([.ofEntry ⟨rule "React", .error⟩], {}) =
        ([⟨⟨rule "React", .error⟩, analysis⟩], ledger) ∧
      analysis.constructs.map (·.name) = ["onClick", "window"] ∧
      ((module.tree.sites []).flatMap (ownConstructs "React" module)).map (·.name) =
        ["window", "onClick"] ∧
      analysis.constructs ≠ (module.tree.sites []).flatMap (ownConstructs "React" module) := by
  obtain ⟨module, read, names⟩ := (Option.any_eq_true _ _).mp (show
    (Module.read? "page.jsx" "x=<a b=\x7bwindow.c\x7d onClick=\x7bd\x7d/>").any (fun module =>
      ((constructsAlong "React" module module.visits).map (·.name) = ["onClick", "window"] ∧
      ((module.tree.sites []).flatMap (ownConstructs "React" module)).map (·.name) =
        ["window", "onClick"] : Bool)) = true by decide +kernel)
  obtain ⟨recorded, own⟩ := of_decide_eq_true names
  obtain ⟨ledger, follows, _⟩ := follow_visits "React" .error module
  refine ⟨module, _, ledger, read, follows, recorded, own, ?_⟩
  intro same
  have swapped := recorded.symm.trans ((congrArg (List.map (·.name)) same).trans own)
  exact absurd swapped (by decide)

end UseClient

end ClientBoundary
