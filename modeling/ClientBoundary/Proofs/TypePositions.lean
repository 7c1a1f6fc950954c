import ClientBoundary.Proofs.StatementTrees
import ClientBoundary.Proofs.TypeErasureScopes

/-! What types contribute. A program without its types contributes the same constructs in the same
order, as long as no attribute passes on a name that a type declares, and nothing inside of an
interface contributes anything: other types hold nothing but types and names. -/
namespace ClientBoundary

open Syntax

namespace Syntax

/-- The names that types declare, or something inside of them. -/
def Node.typeNames (program : Node) : List String :=
  (program.sites []).filterMap fun site =>
    if site.isCode then none else Scope.declaredName? site.node.kind

theorem Node.hidesTypes_typeNames {program : Node} {site : Site} (member : site ∈ program.sites []) :
    Scope.HidesTypes program.typeNames site.node := by
  intro child isChild isType
  have names : ∀ below ∈ child.sites (site.node :: site.path),
      Scope.DeclaresOnly program.typeNames below.node := by
    intro below inside name declares
    have isBelow := Node.sites_trans (Node.child_mem_sites member isChild) inside
    refine List.mem_filterMap.mpr ⟨below, isBelow, ?_⟩
    rw [Node.isCode_of_below_type isType inside]
    exact declares
  exact Node.everywhere_of_sites names

theorem Node.withoutTypes_isProgram {program : Node} (is : Scope.IsProgram program) :
    Scope.IsProgram program.withoutTypes := by
  have parts (node : Node) : node.withoutTypes.kind = node.kind ∧
      node.withoutTypes.role = node.role := by
    cases node
    exact ⟨rfl, rfl⟩
  refine ⟨by rw [(parts program).1, is.kind], fun item member => ?_⟩
  rw [Node.withoutTypes_children] at member
  obtain ⟨same, isCode, rfl⟩ := List.mem_map.mp member
  rw [(parts same).2]
  exact is.items same (List.mem_of_mem_filter isCode)

/-- The name that an attribute passes on, if there is just a name in its braces. -/
def Node.passedName? (node : Node) : Option String :=
  (node.part? .value).bind fun container =>
    if container.kind = .jsxContainer then
      (container.part? .value).bind (·.withoutParentheses.identifier?)
    else none

def Site.inInterface (site : Site) : Bool := site.path.any (·.kind.isInterface)

theorem Site.isCode_of_inInterface {site : Site} (inside : site.inInterface = true) :
    site.isCode = false := by
  obtain ⟨around, passed, is⟩ := List.any_eq_true.mp inside
  rw [← Bool.not_eq_true, Site.isCode_iff]
  rintro ⟨_, outer⟩
  have code := outer around passed
  unfold Node.isCode at code
  cases kind : around.kind <;> simp [kind, Kind.isInterface, Kind.isTypeOnly] at is code

/-- Inside of other types there are only types and names. -/
theorem Node.type_or_name_of_mem_sites {node : Node} (all : node.Everywhere Node.TypesInPlace)
    (isType : node.isCode = false) (other : node.kind.isInterface = false) {path : List Node}
    {site : Site} (member : site ∈ node.sites path) :
    site.node.isCode = false ∨ site.node.identifier?.isSome = true := by
  induction all generalizing path with
  | @mk node here inside ih =>
    rcases Node.mem_sites.mp member with rfl | ⟨child, isChild, deeper⟩
    · exact .inl isType
    · rcases here.pure isType other child isChild with ⟨childType, childOther⟩ | isName
      · exact ih child isChild childType childOther deeper
      · have leaf := (inside child isChild).here.leaf isName
        rw [Node.sites_eq, leaf] at deeper
        obtain rfl := List.mem_singleton.mp deeper
        exact .inr isName

end Syntax

/-- References to some names, at the same place of two modules, are free in both or in neither. -/
def Module.ResolveAlike (names : List String) (module other : Module) : Prop :=
  ∀ reference ∈ module.references, ∀ same ∈ other.references, same.name = reference.name →
    same.offset = reference.offset → reference.name ∈ names → same.isFree = reference.isFree

instance (names : List String) (module other : Module) :
    Decidable (module.ResolveAlike names other) :=
  inferInstanceAs (Decidable (∀ reference ∈ module.references, ∀ same ∈ other.references,
    same.name = reference.name → same.offset = reference.offset → reference.name ∈ names →
      same.isFree = reference.isFree))

theorem flatMap_eq_of_forall₂ {Item Other Found : Type} {relates : Item → Other → Prop}
    {items : List Item} {others : List Other} (related : List.Forall₂ relates items others)
    {collect : Item → List Found} {collectOther : Other → List Found}
    (same : ∀ item ∈ items, ∀ other ∈ others, relates item other →
      collectOther other = collect item) :
    others.flatMap collectOther = items.flatMap collect := by
  induction related with
  | nil => rfl
  | @cons item other items others here _ ih =>
    rw [List.flatMap_cons, List.flatMap_cons, same item List.mem_cons_self other List.mem_cons_self here,
      ih fun item member other memberToo =>
        same item (List.mem_cons_of_mem _ member) other (List.mem_cons_of_mem _ memberToo)]

namespace UseClient

open Scope (Stands ScopedAlike)

theorem inComponent_erased (pragma : String) {relates : Node → Node → Prop} {path others : List Node}
    (outer : PathErased relates path others) :
    InComponent pragma others ↔ InComponent pragma path := by
  induction outer with
  | nil => rfl
  | cons both outer ih =>
    rw [inComponent_cons, inComponent_cons, Component.isComponent_erased pragma both.1 outer, ih]

/-- Two modules that are the same without types, but for some names. -/
structure Erased (hidden : List String) (ids : List Nat) (module plain : Module) : Prop where
  source : plain.source = module.source
  keeps : module.scopes.Keeps hidden ids plain.scopes
  tree : Node.Erased (ScopedAlike ids) module.tree plain.tree
  known : module.WellScoped
  plainKnown : plain.WellScoped
  resolve : module.ResolveAlike hidden plain

structure Counterparts (ids : List Nat) (module plain : Module) (site same : Site) : Prop where
  erased : Site.Erased (ScopedAlike ids) site same
  member : site ∈ module.tree.sites []
  memberToo : same ∈ plain.tree.sites []

theorem Counterparts.child {ids : List Nat} {module plain : Module} {site same : Site}
    (sites : Counterparts ids module plain site same) {child other : Node}
    (erased : Node.Erased (ScopedAlike ids) child other) (isChild : child ∈ site.node.children)
    (isOther : other ∈ same.node.children) (code : child.isCode = true) :
    Counterparts ids module plain ⟨child, site.node :: site.path⟩ ⟨other, same.node :: same.path⟩ where
  erased := ⟨erased, .cons ⟨sites.erased.node, child, isChild, code⟩ sites.erased.path⟩
  member := Node.child_mem_sites sites.member isChild
  memberToo := Node.child_mem_sites sites.memberToo isOther

theorem Counterparts.part? {ids : List Nat} {module plain : Module} {site same : Site}
    (sites : Counterparts ids module plain site same) {role : Role}
    (never : site.node.kind.holdsTypeAs role = false) :
    (site.part? role = none ∧ same.part? role = none) ∨
      ∃ part other, site.part? role = some part ∧ same.part? role = some other ∧
        Counterparts ids module plain part other := by
  unfold Site.part?
  rcases sites.erased.node.part? never with ⟨one, two⟩ | ⟨part, other, one, two, erased⟩
  · rw [one, two]
    exact .inl ⟨rfl, rfl⟩
  · rw [one, two]
    have isPart := List.mem_of_find?_eq_some one
    have plays : part.role = role := by simpa using List.find?_some one
    have code := sites.erased.node.inPlace.code isPart (plays ▸ never)
    exact .inr ⟨_, _, rfl, rfl, sites.child erased isPart (List.mem_of_find?_eq_some two) code⟩

section Constructs

variable (pragma : String) {hidden : List String} {ids : List Nat} {module plain : Module}
  (alike : Erased hidden ids module plain) {site same : Site}

include alike

/-- A name that is not hidden resolves alike since its declarations are the same, any other one by
assumption. -/
theorem resolves_erased (sites : Counterparts ids module plain site same) {name : String} {use : Use}
    (is : site.node.kind = .identifier name use) :
    Scope.resolves plain.scopes same.scopes name use = false ↔
      Scope.resolves module.scopes site.scopes name use = false := by
  have isToo : same.node.kind = .identifier name use := by rw [sites.erased.node.kind, is]
  by_cases known : name ∈ hidden
  · have one : ⟨name, site.node.span.start, site.node.isFree, site.scope⟩ ∈ module.references := by
      rw [alike.known.references, Scope.mem_references]
      exact ⟨site, sites.member, by simp only [Scope.reference?, is]⟩
    have two : ⟨name, same.node.span.start, same.node.isFree, same.scope⟩ ∈ plain.references := by
      rw [alike.plainKnown.references, Scope.mem_references]
      exact ⟨same, sites.memberToo, by simp only [Scope.reference?, isToo]⟩
    have free : same.node.isFree = site.node.isFree := alike.resolve _ one _ two rfl
      (congrArg Span.start sites.erased.node.span) known
    rw [← (alike.plainKnown.at_site sites.memberToo).free name use isToo, free,
      (alike.known.at_site sites.member).free name use is]
  · rw [alike.keeps.resolves (Scope.scopes_erased sites.erased) known use]

theorem browserName?_erased (sites : Counterparts ids module plain site same) :
    browserName? pragma plain same = browserName? pragma module site := by
  unfold browserName?
  rw [sites.erased.node.kind]
  cases is : site.node.kind
  case identifier name use =>
    simp only [resolves_erased alike sites is, inComponent_erased pragma sites.erased.path,
      (Scope.scopes_erased sites.erased).length_eq]
  all_goals rfl

theorem givesFunction_erased {scopes others : List Nat}
    (along : List.Forall₂ (Stands ids) scopes others) {relates : Node → Node → Prop}
    {value other : Node} (erased : Node.Erased relates value other)
    (apart : ∀ name ∈ value.identifier?, name ∉ hidden) :
    givesFunction plain others other = givesFunction module scopes value := by
  unfold givesFunction
  rw [erased.kind]
  cases is : value.kind
  case identifier name use =>
    have found := alike.keeps.firstBinding (List.forall₂_take 2 along)
      (apart name (by simp [Node.identifier?, is]))
    have functions := congrArg (Option.any (·.kind.isFunction)) found
    simp only [Option.any_map] at functions
    exact functions.symm
  all_goals rfl

theorem attributeConstructs_erased (sites : Counterparts ids module plain site same)
    (is : site.node.kind = .jsxAttribute)
    (apart : ∀ name ∈ site.node.passedName?, name ∉ hidden) :
    attributeConstructs plain same = attributeConstructs module site := by
  have text (span : Span) : plain.textAt span = module.textAt span := by
    rw [Module.textAt, Module.textAt, alike.source]
  have node := sites.erased.node
  have along := Scope.scopes_erased sites.erased
  have keyParts : Node.PartErased (ScopedAlike ids) .key site.node same.node :=
    node.part? (by rw [is]; rfl)
  have valueParts : Node.PartErased (ScopedAlike ids) .value site.node same.node :=
    node.part? (by rw [is]; rfl)
  unfold attributeConstructs
  unfold Node.passedName? at apart
  rcases keyParts with ⟨one, two⟩ | ⟨key, keyToo, one, two, keys⟩
  · rw [one, two]
  · rw [one, two]
    rcases valueParts with ⟨one, two⟩ | ⟨container, containerToo, one, two, containers⟩
    · rw [one, two]
    · rw [one, Option.bind_some] at apart
      rw [one, two]
      dsimp only
      rw [containers.kind, keys.span, node.span, text]
      split
      · next braces =>
        rw [if_pos braces] at apart
        have values : Node.PartErased (ScopedAlike ids) .value container containerToo :=
          containers.part? (by rw [braces]; rfl)
        have passes : (containerToo.part? .value).any
              (givesFunction plain same.scopes ·.withoutParentheses) =
            (container.part? .value).any (givesFunction module site.scopes ·.withoutParentheses) := by
          rcases values with ⟨one, two⟩ | ⟨value, valueToo, one, two, erased⟩
          · rw [one, two]
            rfl
          · rw [one, two, Option.any_some, Option.any_some]
            rw [one, Option.bind_some] at apart
            exact givesFunction_erased alike along erased.withoutParentheses apart
        rw [passes]
      · rfl

/-- What a node contributes does not depend on types. -/
theorem ownConstructs_erased (sites : Counterparts ids module plain site same)
    (apart : site.node.kind = .jsxAttribute → ∀ name ∈ site.node.passedName?, name ∉ hidden) :
    ownConstructs pragma plain same = ownConstructs pragma module site := by
  have node := sites.erased.node
  have access (never : site.node.kind.holdsTypeAs .object = false) :
      ((same.part? .object).bind fun object => (browserName? pragma plain object).map
          (⟨.browserApi, ·, object.node.span⟩ : String → Construct)).toList =
        ((site.part? .object).bind fun object => (browserName? pragma module object).map
          (⟨.browserApi, ·, object.node.span⟩ : String → Construct)).toList := by
    rcases sites.part? never with ⟨one, two⟩ | ⟨object, objectToo, one, two, objects⟩
    · rw [one, two]
      rfl
    · rw [one, two, Option.bind_some, Option.bind_some, browserName?_erased pragma alike objects,
        objects.erased.node.span]
  unfold ownConstructs
  rw [node.kind, node.span]
  cases is : site.node.kind
  case new =>
    dsimp only
    rcases sites.part? (by rw [is]; rfl : site.node.kind.holdsTypeAs .callee = false) with
      ⟨one, two⟩ | ⟨callee, calleeToo, one, two, callees⟩
    · rw [one, two]
      rfl
    · rw [one, two, Option.bind_some, Option.bind_some, browserName?_erased pragma alike callees]
  case staticMember property => exact access (by rw [is]; rfl)
  case computedMember => exact access (by rw [is]; rfl)
  case call =>
    dsimp only
    rcases node.part? (by rw [is]; rfl : site.node.kind.holdsTypeAs .callee = false) with
      ⟨one, two⟩ | ⟨callee, calleeToo, one, two, callees⟩
    · rw [one, two]
      rfl
    · rw [one, two, Option.bind_some, Option.bind_some]
      have called : calledName? calleeToo = calledName? callee := by
        rw [calledName?, calledName?, callees.kind]
      simp only [called, callees.span, inComponent_erased pragma sites.erased.path]
  case jsxAttribute => exact attributeConstructs_erased alike sites is (apart is)
  case classNode declares name =>
    cases declares
    · rfl
    · dsimp only
      rw [Component.isComponent_erased pragma node sites.erased.path]
  all_goals rfl

theorem recordedAt_erased (sites : Counterparts ids module plain site same)
    (apart : ∀ site ∈ module.tree.sites [], site.isCode = true → site.node.kind = .jsxAttribute →
      ∀ name ∈ site.node.passedName?, name ∉ hidden)
    (code : site.isCode = true) :
    recordedAt pragma plain same = recordedAt pragma module site := by
  have node := sites.erased.node
  have own := ownConstructs_erased pragma alike sites (apart site sites.member code)
  unfold recordedAt
  rw [node.kind]
  split
  · have attributes : site.node.children.filter (·.kind = .jsxAttribute) =
        site.node.code.filter (·.kind = .jsxAttribute) := by
      rw [Node.code, List.filter_filter]
      refine List.filter_congr fun part _ => ?_
      by_cases is : part.kind = .jsxAttribute
      · simp [is, Node.isCode, Kind.isTypeOnly]
      · simp [is]
    rw [attributes]
    refine flatMap_eq_of_forall₂ (List.rel_filter (R := Node.Erased (ScopedAlike ids))
      (fun _ _ erased => by simp [erased.kind]) node.children) fun part member other memberToo erased => ?_
    obtain ⟨isPart, partCode⟩ := List.mem_filter.mp (List.mem_of_mem_filter member)
    have parts := sites.child erased isPart (List.mem_of_mem_filter memberToo) partCode
    refine ownConstructs_erased pragma alike parts (apart _ parts.member ?_)
    obtain ⟨here, outer⟩ := Site.isCode_iff.mp code
    exact Site.isCode_iff.mpr ⟨partCode, List.forall_mem_cons.mpr ⟨here, outer⟩⟩
  · rfl
  · exact own

theorem recorded_erased (code : module.tree.isCode = true)
    (apart : ∀ site ∈ module.tree.sites [], site.isCode = true → site.node.kind = .jsxAttribute →
      ∀ name ∈ site.node.passedName?, name ∉ hidden) :
    (plain.tree.sites []).flatMap (recordedAt pragma plain) =
      ((module.tree.sites []).filter Site.isCode).flatMap (recordedAt pragma module) := by
  have outer : PathErased (ScopedAlike ids) [] [] := .nil
  refine flatMap_eq_of_forall₂ (alike.tree.sites code outer (by simp)) ?_
  intro site member same memberToo erased
  obtain ⟨isSite, isCode⟩ := List.mem_filter.mp member
  exact recordedAt_erased pragma alike ⟨erased, isSite, memberToo⟩ apart isCode

end Constructs

/-- Nothing is recorded for a type itself or for a name, so also nothing inside of a type that is no
interface. -/
theorem recordedAt_of_type (pragma : String) (module : Module) {node : Node}
    (all : node.Everywhere Node.TypesInPlace) {path : List Node}
    (outside : ∀ around ∈ path, around.isCode = true) {site : Site} (member : site ∈ node.sites path)
    (isType : site.isCode = false) (noInterface : site.inInterface = false) :
    recordedAt pragma module site = [] := by
  have silent {site : Site} (silent : site.node.isCode = false ∨ site.node.identifier?.isSome = true) :
      recordedAt pragma module site = [] := by
    unfold Node.isCode Node.identifier? at silent
    unfold recordedAt ownConstructs
    cases kind : site.node.kind <;> first | rfl | (rw [kind] at silent; rcases silent with no | no <;> cases no)
  induction all generalizing path with
  | @mk node here inside ih =>
    cases code : node.isCode with
    | true =>
      rcases Node.mem_sites.mp member with rfl | ⟨child, isChild, deeper⟩
      · rw [Site.isCode_iff.mpr ⟨code, outside⟩] at isType
        cases isType
      · exact ih child isChild (List.forall_mem_cons.mpr ⟨code, outside⟩) deeper
    | false =>
      cases interface : node.kind.isInterface with
      | false => exact silent (Node.type_or_name_of_mem_sites (.mk here inside) code interface member)
      | true =>
        rcases Node.mem_sites.mp member with rfl | ⟨child, _, deeper⟩
        · exact silent (.inl code)
        · have passed := (Node.suffix_of_mem_sites deeper).subset List.mem_cons_self
          rw [Site.inInterface, List.any_eq_false] at noInterface
          exact absurd interface (noInterface node passed)

/-- What is recorded outside of types is all that is recorded, exactly if nothing is inside of an
interface. -/
theorem recorded_outside_types_iff (pragma : String) {module : Module}
    (all : module.tree.Everywhere Node.TypesInPlace) :
    (module.tree.sites []).flatMap (recordedAt pragma module) =
        ((module.tree.sites []).filter Site.isCode).flatMap (recordedAt pragma module) ↔
      ∀ site ∈ module.tree.sites [], site.inInterface = true → recordedAt pragma module site = [] := by
  rw [eq_comm, flatMap_filter_eq_iff]
  constructor
  · intro silent site member inside
    exact silent site member (Site.isCode_of_inInterface inside)
  · intro silent site member isType
    cases inside : site.inInterface with
    | true => exact silent site member inside
    | false => exact recordedAt_of_type pragma module all (by simp) member isType inside

/-- What is recorded along the visits of a program and of the program without its types, for any
tree in which types stand where they may. -/
theorem constructsAlong_withoutTypes (pragma : String) {fileName source : String} {program : Node}
    (is : Scope.IsProgram program) (inPlace : program.Everywhere Node.TypesInPlace) {module plain : Module}
    (made : Module.ofProgram fileName source program = module)
    (madePlain : Module.ofProgram fileName source program.withoutTypes = plain)
    (resolve : module.ResolveAlike program.typeNames plain)
    (apart : ∀ site ∈ module.tree.sites [], site.isCode = true → site.node.kind = .jsxAttribute →
      ∀ name ∈ site.node.passedName?, name ∉ program.typeNames) :
    constructsAlong pragma plain plain.visits =
        ((module.tree.sites []).filter Site.isCode).flatMap (recordedAt pragma module) ∧
      (constructsAlong pragma module module.visits = constructsAlong pragma plain plain.visits ↔
        ∀ site ∈ module.tree.sites [], site.inInterface = true → recordedAt pragma module site = []) := by
  subst made madePlain
  have isPlain := Node.withoutTypes_isProgram is
  have hides : program.Everywhere (Scope.HidesTypes program.typeNames) :=
    Node.everywhere_of_sites fun site member => Node.hidesTypes_typeNames member
  obtain ⟨ids, keeps, erased⟩ := Scope.analyze_erased is isPlain
    (Node.erased_withoutTypes inPlace hides)
  have known := Module.ofProgram_wellScoped fileName source is
  have plainKnown := Module.ofProgram_wellScoped fileName source isPlain
  have alike : Erased program.typeNames ids (Module.ofProgram fileName source program)
      (Module.ofProgram fileName source program.withoutTypes) :=
    ⟨rfl, keeps, erased, known, plainKnown, resolve⟩
  have code : (Module.ofProgram fileName source program).tree.isCode = true := by
    rw [Module.ofProgram, Node.isCode, Scope.analyze_eq is, is.kind]
    rfl
  have others := (constructsAlong_visits pragma _ plainKnown).trans
    (recorded_erased pragma alike code apart)
  refine ⟨others, ?_⟩
  rw [constructsAlong_visits pragma _ known, others]
  exact recorded_outside_types_iff pragma (Scope.analyze_typesInPlace inPlace)

/-- Without its types, a program contributes what it does outside of them, in the same order, and
that is all it does exactly if nothing inside of an interface contributes anything. References to
names that types declare are assumed to resolve alike, and no attribute may pass on such a name, for
it is looked up among types, too. -/
theorem constructs_without_types (pragma : String) (severity : Severity) {fileName source : String}
    {program : Node} (parsed : Syntax.parse? fileName source = some program) {module plain : Module}
    (made : Module.ofProgram fileName source program = module)
    (madePlain : Module.ofProgram fileName source program.withoutTypes = plain)
    (resolve : module.ResolveAlike program.typeNames plain)
    (apart : ∀ site ∈ module.tree.sites [], site.isCode = true → site.node.kind = .jsxAttribute →
      ∀ name ∈ site.node.passedName?, name ∉ program.typeNames) :
    ∃ analysis ledger other otherLedger,
      Listener.follow module module.visits ([.ofEntry ⟨rule pragma, severity⟩], {}) =
        ([⟨⟨rule pragma, severity⟩, analysis⟩], ledger) ∧
      Listener.follow plain plain.visits ([.ofEntry ⟨rule pragma, severity⟩], {}) =
        ([⟨⟨rule pragma, severity⟩, other⟩], otherLedger) ∧
      other.constructs =
        ((module.tree.sites []).filter Site.isCode).flatMap (recordedAt pragma module) ∧
      (analysis.constructs = other.constructs ↔
        ∀ site ∈ module.tree.sites [], site.inInterface = true →
          recordedAt pragma module site = []) := by
  obtain ⟨others, same⟩ := constructsAlong_withoutTypes pragma (parse?_isProgram parsed)
    (parse?_typesInPlace parsed) made madePlain resolve apart
  obtain ⟨ledger, follows, _⟩ := follow_visits pragma severity module
  obtain ⟨otherLedger, followsToo, _⟩ := follow_visits pragma severity plain
  exact ⟨_, ledger, _, otherLedger, follows, followsToo, others, same⟩

/-- A component with an interface, a type parameter, type annotations and a type argument. -/
theorem constructs_without_types_component :
    let source := "interface I {} function C<T>(p: I){const x: T = useB<I>();return <a b={x} onClick={window.c}/>}"
    ∃ program module plain analysis ledger other otherLedger,
      Syntax.parse? "page.tsx" source = some program ∧
      Module.ofProgram "page.tsx" source program = module ∧
      Module.ofProgram "page.tsx" source program.withoutTypes = plain ∧
      program.typeNames = ["I", "T"] ∧ plain.scopes.size < module.scopes.size ∧
      Listener.follow module module.visits ([.ofEntry ⟨rule "React", .error⟩], {}) =
        ([⟨⟨rule "React", .error⟩, analysis⟩], ledger) ∧
      Listener.follow plain plain.visits ([.ofEntry ⟨rule "React", .error⟩], {}) =
        ([⟨⟨rule "React", .error⟩, other⟩], otherLedger) ∧
      analysis.constructs = other.constructs ∧
      other.constructs.map (·.name) = ["useB", "onClick", "window"] := by
  intro source
  obtain ⟨program, parsed, holds⟩ := (Option.any_eq_true _ _).mp (show
    (Syntax.parse? "page.tsx" source).any (fun program =>
      let module := Module.ofProgram "page.tsx" source program
      let plain := Module.ofProgram "page.tsx" source program.withoutTypes
      decide (program.typeNames = ["I", "T"] ∧ plain.scopes.size < module.scopes.size ∧
        module.ResolveAlike program.typeNames plain ∧
        (∀ site ∈ module.tree.sites [], site.isCode = true → site.node.kind = .jsxAttribute →
          ∀ name ∈ site.node.passedName?, name ∉ program.typeNames) ∧
        (∀ site ∈ module.tree.sites [], site.inInterface = true →
          recordedAt "React" module site = []) ∧
        (((module.tree.sites []).filter Site.isCode).flatMap (recordedAt "React" module)).map (·.name) =
          ["useB", "onClick", "window"])) = true by decide +kernel)
  obtain ⟨typeNames, sizes, resolve, apart, silent, names⟩ := of_decide_eq_true holds
  obtain ⟨analysis, ledger, other, otherLedger, follows, followsToo, recorded, same⟩ :=
    constructs_without_types "React" .error parsed rfl rfl resolve apart
  exact ⟨program, _, _, analysis, ledger, other, otherLedger, parsed, rfl, rfl, typeNames, sizes, follows,
    followsToo, same.mpr silent, by rw [recorded]; exact names⟩

/-- What is recorded for a source, and what would be without its types, though its references
resolve alike. -/
def RecordsWithTypes (fileName source : String) (constructs others : List Construct) : Prop :=
  ∃ program module plain analysis ledger other otherLedger,
    Syntax.parse? fileName source = some program ∧
    Module.ofProgram fileName source program = module ∧
    Module.ofProgram fileName source program.withoutTypes = plain ∧
    module.ResolveAlike program.typeNames plain ∧
    Listener.follow module module.visits ([.ofEntry ⟨rule "React", .error⟩], {}) =
      ([⟨⟨rule "React", .error⟩, analysis⟩], ledger) ∧
    Listener.follow plain plain.visits ([.ofEntry ⟨rule "React", .error⟩], {}) =
      ([⟨⟨rule "React", .error⟩, other⟩], otherLedger) ∧
    analysis.constructs = constructs ∧ other.constructs = others

theorem recordsWithTypes_of_any {fileName source : String} {constructs others : List Construct}
    (holds : (Syntax.parse? fileName source).any (fun program =>
      let module := Module.ofProgram fileName source program
      let plain := Module.ofProgram fileName source program.withoutTypes
      decide (module.ResolveAlike program.typeNames plain ∧
        constructsAlong "React" module module.visits = constructs ∧
        constructsAlong "React" plain plain.visits = others)) = true) :
    RecordsWithTypes fileName source constructs others := by
  obtain ⟨program, parsed, found⟩ := (Option.any_eq_true _ _).mp holds
  obtain ⟨resolve, constructs, others⟩ := of_decide_eq_true found
  obtain ⟨ledger, follows, _⟩ :=
    follow_visits "React" .error (Module.ofProgram fileName source program)
  obtain ⟨otherLedger, followsToo, _⟩ :=
    follow_visits "React" .error (Module.ofProgram fileName source program.withoutTypes)
  exact ⟨program, _, _, _, ledger, _, otherLedger, parsed, rfl, rfl, resolve, follows, followsToo,
    constructs, others⟩

/-- An interface can name what it extends by an expression, and that is recorded. An interface that
has the name of a function hides it, so that the function is not recorded where an attribute passes
it on. -/
theorem interfaces_recorded_and_hiding :
    RecordsWithTypes "a.tsx" "function C() { interface I extends window.A {} return <a />; }"
      [⟨.browserApi, "window", ⟨35, 41⟩⟩] [] ∧
    RecordsWithTypes "t.tsx" "interface cb {} function cb() {} const x = <A r={cb} />;"
      [] [⟨.eventCallback, "r", ⟨46, 52⟩⟩] :=
  ⟨recordsWithTypes_of_any (by decide +kernel), recordsWithTypes_of_any (by decide +kernel)⟩

end UseClient

end ClientBoundary
