import Mathlib.Data.List.Pairwise
import ClientBoundary.Proofs.Detection
import ClientBoundary.Proofs.Parentheses

/-! A function and what holds it. A holder knows a function by its span. If no function has the span
of another node that stands where a value stands, the holder finds the function itself, and never
one that is below the same holder in another place: in a default value, a computed key, a pattern or
a later argument. -/
namespace ClientBoundary

namespace Syntax

/-- What is right around a site of a tree is a site of the tree, unless the site is its top. -/
theorem Node.parent_mem_sites {site : Site} {path : List Node} {node parent : Node}
    {outer : List Node} (member : site ∈ node.sites path) (around : site.path = parent :: outer) :
    site.path = path ∨ ⟨parent, outer⟩ ∈ node.sites path := by
  induction node using Node.induction generalizing path with
  | step kind span children role mark ih =>
    rcases Node.mem_sites.mp member with rfl | ⟨child, isChild, deeper⟩
    · exact .inl rfl
    · right
      rcases ih child isChild deeper with same | further
      · rw [around] at same
        cases same
        exact Node.mem_sites.mpr (.inl rfl)
      · exact Node.mem_sites.mpr (.inr ⟨child, isChild, further⟩)

def Node.core (path : List Node) : Node → Site
  | ⟨.parenthesized, span, [inner], role, mark⟩ =>
    inner.core (⟨.parenthesized, span, [inner], role, mark⟩ :: path)
  | node => ⟨node, path⟩

def Site.core (site : Site) : Site := site.node.core site.path

theorem Node.core_node (path : List Node) (node : Node) :
    (node.core path).node = node.withoutParentheses := by
  fun_induction Node.core path node with
  | case1 path span inner role mark ih => exact ih
  | case2 path node different =>
    unfold Node.withoutParentheses
    split
    · exact (different _ _ _ _ rfl).elim
    · rfl

theorem Node.core_mem_sites (path : List Node) (node : Node) : node.core path ∈ node.sites path := by
  fun_induction Node.core path node with
  | case1 path span inner role mark ih =>
    exact Node.mem_sites.mpr (.inr ⟨inner, List.mem_singleton_self inner, ih⟩)
  | case2 path node different => exact Node.mem_sites.mpr (.inl rfl)

theorem Node.core_cases (path : List Node) (node : Node) :
    node.core path = ⟨node, path⟩ ∨
      ∃ outer ∈ (node.core path).path.head?, outer.kind = .parenthesized := by
  fun_induction Node.core path node with
  | case1 path span inner role mark ih =>
    right
    rcases ih with same | inside
    · rw [same]
      exact ⟨_, rfl, rfl⟩
    · exact inside
  | case2 path node different => exact .inl rfl

end Syntax

namespace Component

open Syntax

/-- The part of a holder that may be a function it holds. -/
def valueRole? : Kind → Option Role
  | .declarator => some .init
  | .assignment _ => some .right
  | .call => some .argument
  | .exportDefault | .method | .property _ | .field => some .value
  | _ => none

/-- A site stands where a value stands: as that part of a holder, or in parentheses. -/
def standsAsValue (site : Site) : Bool :=
  site.path.head?.any fun parent =>
    parent.kind = .parenthesized || valueRole? parent.kind = some site.node.role

/-- Two sites that spans tell apart, as far as functions and values go. -/
def Distinct (first second : Site) : Prop :=
  first.node.span = second.node.span →
    (isFunction first.node.kind = true → standsAsValue second = false) ∧
    (isFunction second.node.kind = true → standsAsValue first = false)

instance : Std.Symm Distinct where
  symm _ _ apart same := ⟨(apart same.symm).2, (apart same.symm).1⟩

instance (first second : Site) : Decidable (Distinct first second) :=
  inferInstanceAs (Decidable (first.node.span = second.node.span → _))

/-- No function has the span of another node that stands where a value stands. -/
def SpansIdentify (program : Node) : Prop := (program.sites []).Pairwise Distinct

instance (program : Node) : Decidable (SpansIdentify program) :=
  inferInstanceAs (Decidable ((program.sites []).Pairwise Distinct))

def nearest? : List Node → Option Site
  | [] => none
  | node :: outer => if isHolderKind node.kind then some ⟨node, outer⟩ else nearest? outer

/-- What the site of a holder is to a function that it holds. -/
inductive Holds (nearest function : Site) : Holder → Prop where
  | declared {target : Node} {name : String} (is : nearest.node.kind = .declarator)
      (isTarget : nearest.node.part? .target = some target) (named : target.kind = .binding name)
      (value : (nearest.part? .init).map Site.core = some function) :
      Holds nearest function (.named name)
  | assigned {plain : Bool} {target : Node} {name : String}
      (is : nearest.node.kind = .assignment plain)
      (isTarget : nearest.node.part? .target = some target)
      (named : (∃ use, target.kind = .identifier name use) ∨ target.kind = .staticMember name)
      (value : (nearest.part? .right).map Site.core = some function) :
      Holds nearest function (.named name)
  | wrapped {callee : Node} (is : nearest.node.kind = .call)
      (isCallee : nearest.node.part? .callee = some callee)
      (argument : nearest.part? .argument = some function) :
      Holds nearest function (.wrapper callee)
  | exported (is : nearest.node.kind = .exportDefault)
      (value : nearest.part? .value = some function) : Holds nearest function .defaultExport
  | ofMethod (is : nearest.node.kind = .method) (value : nearest.part? .value = some function) :
      Holds nearest function .method
  | ofProperty (is : (∃ isMethod, nearest.node.kind = .property isMethod) ∨
        nearest.node.kind = .field)
      (value : (nearest.part? .value).map Site.core = some function) :
      Holds nearest function .method

def HeldAs (function : Site) (holder : Holder) : Prop :=
  ∃ nearest, nearest? function.path = some nearest ∧ Holds nearest function holder

theorem find?_isHolderKind_eq (path : List Node) :
    path.find? (isHolderKind ·.kind) = (nearest? path).map (·.node) := by
  induction path with
  | nil => rfl
  | cons node outer ih =>
    rw [List.find?_cons, nearest?]
    cases isHolderKind node.kind with
    | true => rfl
    | false => exact ih

theorem boundName?_eq_some_iff {pattern : Node} {name : String} :
    boundName? pattern = some name ↔ pattern.kind = .binding name := by
  unfold boundName?
  split <;> simp_all

theorem targetName?_eq_some_iff {target : Node} {name : String} :
    targetName? target = some name ↔
      (∃ use, target.kind = .identifier name use) ∨ target.kind = .staticMember name := by
  unfold targetName?
  split <;> simp_all

theorem partSpan?_eq_map (nearest : Site) (role : Role) :
    partSpan? nearest.node role = (nearest.part? role).map (·.node.span) := by
  rw [Site.part?, Option.map_map]
  rfl

theorem innerSpan?_eq_map (nearest : Site) (role : Role) :
    innerSpan? nearest.node role = ((nearest.part? role).map Site.core).map (·.node.span) := by
  simp only [innerSpan?, Site.part?, Option.map_map, Function.comp_def, Site.core, Node.core_node]

section Identity

variable {program : Node}

theorem nearest?_mem_sites {site nearest : Site} (member : site ∈ program.sites [])
    (found : nearest? site.path = some nearest) : nearest ∈ program.sites [] := by
  obtain ⟨node, path⟩ := site
  induction path generalizing node with
  | nil => cases found
  | cons parent outer ih =>
    have around : ⟨parent, outer⟩ ∈ program.sites [] :=
      (Node.parent_mem_sites member rfl).resolve_left nofun
    rw [nearest?] at found
    split at found
    · cases found
      exact around
    · exact ih parent around found

section Part

variable {nearest : Site} (isSite : nearest ∈ program.sites []) {role : Role}
  (looks : valueRole? nearest.node.kind = some role)

include isSite looks

theorem part_stands (part : Site) (isPart : nearest.part? role = some part) :
    part ∈ program.sites [] ∧ standsAsValue part = true := by
  obtain ⟨node, found, rfl⟩ := Option.map_eq_some_iff.mp isPart
  have plays : node.role = role := by simpa using List.find?_some found
  refine ⟨Node.child_mem_sites isSite (List.mem_of_find?_eq_some found), ?_⟩
  simp [standsAsValue, looks, plays]

theorem core_stands (core : Site) (isCore : (nearest.part? role).map Site.core = some core) :
    core ∈ program.sites [] ∧ standsAsValue core = true := by
  obtain ⟨part, isPart, rfl⟩ := Option.map_eq_some_iff.mp isCore
  obtain ⟨member, stands⟩ := part_stands isSite looks part isPart
  refine ⟨Node.sites_trans member (Node.core_mem_sites _ _), ?_⟩
  rcases Node.core_cases part.path part.node with bare | ⟨outer, isOuter, kind⟩
  · rw [Site.core, bare]
    exact stands
  · simp [standsAsValue, Site.core, Option.mem_def.mp isOuter, kind]

end Part

variable {site : Site} (identify : SpansIdentify program) (member : site ∈ program.sites [])
  (is : isFunction site.node.kind = true)

include identify member is

/-- What stands where a value stands and has the span of a function is the function. -/
theorem SpansIdentify.eq {other : Site} (isSite : other ∈ program.sites [])
    (stands : standsAsValue other = true) (same : other.node.span = site.node.span) :
    other = site := by
  refine Classical.byContradiction fun different => ?_
  have apart : Distinct other site := List.Pairwise.forall identify isSite member different
  rw [(apart same).2 is] at stands
  cases stands

theorem map_span_eq_iff {found : Option Site}
    (stands : ∀ value, found = some value → value ∈ program.sites [] ∧ standsAsValue value = true) :
    found.map (·.node.span) = some site.node.span ↔ found = some site := by
  constructor
  · intro same
    obtain ⟨value, rfl, sameSpan⟩ := Option.map_eq_some_iff.mp same
    rw [identify.eq member is (stands value rfl).1 (stands value rfl).2 sameSpan]
  · rintro rfl
    rfl

variable {nearest : Site} (isSite : nearest ∈ program.sites [])

include isSite

/-- A node of a holder kind makes something of the span of a function only by holding the
function. -/
theorem at?_eq_some_iff {holder : Holder} :
    Holder.at? site.node.span nearest.node = some holder ↔ Holds nearest site holder := by
  have whole {role : Role} (looks : valueRole? nearest.node.kind = some role) :
      partSpan? nearest.node role = some site.node.span ↔ nearest.part? role = some site := by
    rw [partSpan?_eq_map]
    exact map_span_eq_iff identify member is (part_stands isSite looks)
  have inner {role : Role} (looks : valueRole? nearest.node.kind = some role) :
      innerSpan? nearest.node role = some site.node.span ↔
        (nearest.part? role).map Site.core = some site := by
    rw [innerSpan?_eq_map]
    exact map_span_eq_iff identify member is (core_stands isSite looks)
  constructor
  · intro found
    unfold Holder.at? at found
    cases kind : nearest.node.kind <;> rw [kind] at found whole inner
    case declarator =>
      obtain ⟨same, named⟩ := Option.ite_none_right_eq_some.mp found
      obtain ⟨name, bound, rfl⟩ := Option.map_eq_some_iff.mp named
      obtain ⟨target, isTarget, isName⟩ := Option.bind_eq_some_iff.mp bound
      exact .declared kind isTarget (boundName?_eq_some_iff.mp isName) ((inner rfl).mp same)
    case assignment plain =>
      obtain ⟨same, named⟩ := Option.ite_none_right_eq_some.mp found
      obtain ⟨name, bound, rfl⟩ := Option.map_eq_some_iff.mp named
      obtain ⟨target, isTarget, isName⟩ := Option.bind_eq_some_iff.mp bound
      exact .assigned kind isTarget (targetName?_eq_some_iff.mp isName) ((inner rfl).mp same)
    case call =>
      obtain ⟨same, wraps⟩ := Option.ite_none_right_eq_some.mp found
      obtain ⟨callee, isCallee, rfl⟩ := Option.map_eq_some_iff.mp wraps
      exact .wrapped kind isCallee ((whole rfl).mp same)
    case exportDefault =>
      obtain ⟨same, exports⟩ := Option.ite_none_right_eq_some.mp found
      cases exports
      exact .exported kind ((whole rfl).mp same)
    case method =>
      obtain ⟨same, isMethod⟩ := Option.ite_none_right_eq_some.mp found
      cases isMethod
      exact .ofMethod kind ((whole rfl).mp same)
    case property isMethod =>
      obtain ⟨same, isValue⟩ := Option.ite_none_right_eq_some.mp found
      cases isValue
      exact .ofProperty (.inl ⟨isMethod, kind⟩) ((inner rfl).mp same)
    case field =>
      obtain ⟨same, isValue⟩ := Option.ite_none_right_eq_some.mp found
      cases isValue
      exact .ofProperty (.inr kind) ((inner rfl).mp same)
    all_goals cases found
  · intro held
    cases held with
    | declared kind isTarget named value =>
      rw [kind] at inner
      simp [Holder.at?, kind, (inner rfl).mpr value, isTarget, boundName?_eq_some_iff.mpr named]
    | assigned kind isTarget named value =>
      rw [kind] at inner
      simp [Holder.at?, kind, (inner rfl).mpr value, isTarget, targetName?_eq_some_iff.mpr named]
    | wrapped kind isCallee argument =>
      rw [kind] at whole
      simp [Holder.at?, kind, (whole rfl).mpr argument, isCallee]
    | exported kind value =>
      rw [kind] at whole
      simp [Holder.at?, kind, (whole rfl).mpr value]
    | ofMethod kind value =>
      rw [kind] at whole
      simp [Holder.at?, kind, (whole rfl).mpr value]
    | ofProperty kinds value =>
      rcases kinds with ⟨isMethod, kind⟩ | kind <;> rw [kind] at inner <;>
        simp [Holder.at?, kind, (inner rfl).mpr value]

omit isSite

theorem of?_eq_some_iff (holder : Holder) :
    Holder.of? site.node.span site.path = some holder ↔ HeldAs site holder := by
  rw [Holder.of?, find?_isHolderKind_eq, HeldAs]
  cases found : nearest? site.path with
  | none => simp
  | some nearest =>
    simpa using at?_eq_some_iff identify member is (nearest?_mem_sites member found)

end Identity

theorem accepts_iff (pragma : String) (ownName : Option String) (found : Option Holder) :
    Holder.accepts pragma ownName found = true ↔
      (∃ name, found = some (.named name) ∧ isComponentName (ownName.getD name) = true) ∨
      (∃ callee, found = some (.wrapper callee) ∧
        (namesFrom pragma isWrapperName callee = true ∨ ownName.any isComponentName = true)) ∨
      found = some .defaultExport ∨
      found = none ∧ ownName.any isComponentName = true := by
  rcases found with _ | holder
  · simp [Holder.accepts]
  · cases holder <;> simp [Holder.accepts]

/-- Holders know functions by identity. Where no function has the span of another node that stands
where a value stands, what holds a function is decided by the nearest node of a holder kind and is
there exactly if that node holds the function itself. The function is then a component exactly if it
shows something and is bound to a name, wrapped or exported like one, or nothing holds it and it has
such a name itself. -/
theorem held_by_identity (pragma : String) {program : Node} (identify : SpansIdentify program)
    {site : Site} (member : site ∈ program.sites []) (is : isFunction site.node.kind = true) :
    (∀ path, (nearest? path).map (·.node) = (nearest? site.path).map (·.node) →
      Holder.of? site.node.span path = Holder.of? site.node.span site.path) ∧
    (∀ holder, Holder.of? site.node.span site.path = some holder ↔ HeldAs site holder) ∧
    (isComponent pragma site.node site.path = true ↔
      functionReturnsOutput site.node = true ∧
        ((∃ name, HeldAs site (.named name) ∧
          isComponentName ((ownName? site.node).getD name) = true) ∨
        (∃ callee, HeldAs site (.wrapper callee) ∧
          (namesFrom pragma isWrapperName callee = true ∨
            (ownName? site.node).any isComponentName = true)) ∨
        HeldAs site .defaultExport ∨
        (∀ holder, ¬HeldAs site holder) ∧ (ownName? site.node).any isComponentName = true)) := by
  have held := of?_eq_some_iff identify member is
  refine ⟨?_, held, ?_⟩
  · intro path same
    simp only [Holder.of?, find?_isHolderKind_eq, same]
  · have free : Holder.of? site.node.span site.path = none ↔ ∀ holder, ¬HeldAs site holder := by
      simp only [Option.eq_none_iff_forall_ne_some, ne_eq, held]
    simp only [isComponent_of_function is, Bool.and_eq_true, accepts_iff, held, free]

/-- The first function in `memo(()=>null,()=>null)`. -/
def firstArgument : Node := nullArrow 5 .argument

def secondArgument : Node := { nullArrow 14 .argument with mark := .scope 2 }

/-- The place of an argument in `memo(()=>null,()=>null)`, given the arguments around it. -/
def argumentPlace (before after : List Node) : Place := [
  ⟨.call, ⟨0, 23⟩, ⟨.identifier "memo" .value, ⟨0, 4⟩, [], .callee, .free⟩ :: before, after, .item,
    .plain⟩,
  ⟨.expressionStatement, ⟨0, 23⟩, [], [], .item, .plain⟩,
  ⟨.program, ⟨0, 23⟩, [], [], .item, .scope 0⟩]

theorem held_by_identity_arguments :
    let program := (argumentPlace [] [secondArgument]).fill firstArgument
    let first : Site := ⟨firstArgument, (argumentPlace [] [secondArgument]).path firstArgument⟩
    let second : Site := ⟨secondArgument, (argumentPlace [firstArgument] []).path secondArgument⟩
    (Module.read? "page.jsx" "memo(()=>null,()=>null)").map (·.tree) = some program ∧
    SpansIdentify program ∧ first ∈ program.sites [] ∧ second ∈ program.sites [] ∧
    nearest? second.path = nearest? first.path ∧
    (∃ callee, HeldAs first (.wrapper callee)) ∧ (∀ holder, ¬HeldAs second holder) ∧
    isComponent "React" first.node first.path = true ∧
    isComponent "React" second.node second.path = false := by
  intro program first second
  have identify : SpansIdentify program := by decide +kernel
  have isFirst : first ∈ program.sites [] := Place.mem_sites _ _
  have isSecond : second ∈ program.sites [] := (argumentPlace [firstArgument] []).mem_sites _
  have atFirst := held_by_identity "React" identify isFirst rfl
  have atSecond := held_by_identity "React" identify isSecond rfl
  have held : HeldAs first (.wrapper ⟨.identifier "memo" .value, ⟨0, 4⟩, [], .callee, .free⟩) :=
    (atFirst.2.1 _).mp rfl
  have free : ∀ holder, ¬HeldAs second holder := fun holder held =>
    nomatch (atSecond.2.1 holder).mpr held
  refine ⟨by decide +kernel, identify, isFirst, isSecond, rfl, ⟨_, held⟩, free, ?_, ?_⟩
  · exact atFirst.2.2.mpr ⟨by decide, .inr (.inl ⟨_, held, .inl (by decide)⟩)⟩
  · refine Bool.eq_false_iff.mpr fun component => ?_
    rcases (atSecond.2.2.mp component).2 with ⟨_, held, _⟩ | ⟨_, held, _⟩ | held | ⟨_, named⟩
    · exact free _ held
    · exact free _ held
    · exact free _ held
    · cases named

/-- The function in `o={a:(function R(){return null})}`. -/
def namedFunction : Node :=
  ⟨.function false (some "R"), ⟨6, 31⟩, [⟨.parameters, ⟨16, 18⟩, [], .item, .plain⟩,
    ⟨.functionBody, ⟨18, 31⟩, [⟨.returnStatement, ⟨19, 30⟩,
      [⟨.null, ⟨26, 30⟩, [], .argument, .plain⟩], .item, .plain⟩], .body, .plain⟩],
    .value, .scope 1⟩

def propertyPlace : Place := [
  ⟨.property false, ⟨3, 32⟩, [⟨.propertyName "a", ⟨3, 4⟩, [], .key, .plain⟩], [], .item, .plain⟩,
  ⟨.object false, ⟨2, 33⟩, [], [], .right, .plain⟩,
  ⟨.assignment true, ⟨0, 33⟩, [⟨.identifier "o" .value, ⟨0, 1⟩, [], .target, .free⟩], [], .item,
    .plain⟩,
  ⟨.expressionStatement, ⟨0, 33⟩, [], [], .item, .plain⟩,
  ⟨.program, ⟨0, 33⟩, [], [], .item, .scope 0⟩]

/-- A function in parentheses is not itself the value of its property, and still held as one: it is
no component, whatever its own name. -/
theorem property_holds_through_parentheses :
    let value := namedFunction.parenthesize ⟨5, 32⟩
    let program := propertyPlace.fill value
    let site : Site := ⟨namedFunction.inRole .item, value :: propertyPlace.path value⟩
    (Module.read? "page.jsx" "o=\x7ba:(function R()\x7breturn null\x7d)\x7d").map (·.tree) =
      some program ∧
    SpansIdentify program ∧ site ∈ program.sites [] ∧
    (nearest? site.path).map (·.node.kind) = some (.property false) ∧
    (nearest? site.path).bind (·.part? .value) ≠ some site ∧
    Holder.of? site.node.span site.path = some .method ∧
    functionReturnsOutput site.node = true ∧ (ownName? site.node).any isComponentName = true ∧
    isComponent "React" site.node site.path = false := by
  intro value program site
  have isSite : site ∈ program.sites [] :=
    Node.child_mem_sites (propertyPlace.mem_sites value) List.mem_cons_self
  refine ⟨by decide +kernel, by decide +kernel, isSite, rfl, ?_, rfl, ?_⟩
  · intro same
    exact nomatch congrArg (fun found => found.map (·.node.kind)) same
  · decide +kernel

end Component

end ClientBoundary
