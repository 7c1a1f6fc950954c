import ClientBoundary.Module
import ClientBoundary.Proofs.Relocation

/-! Parentheses around a function. A function in a tree is put into parentheses where it stands, and
all else stays. A holder that takes parentheses off before it looks for the function finds it as
before. A call looks for its first argument, and a default export for its value, without taking them
off; there the function is lost, and only a name of its own can still make it a component. -/
namespace ClientBoundary

namespace Syntax

/-- A node with a gap in the place of one of its children. -/
structure Gap where
  kind : Kind
  span : Span
  before : List Node
  after : List Node
  role : Role
  mark : Mark

def Gap.fill (gap : Gap) (child : Node) : Node :=
  ⟨gap.kind, gap.span, gap.before ++ child :: gap.after, gap.role, gap.mark⟩

/-- A place in a tree: the nodes around it with the gaps that lead there, innermost first. -/
abbrev Place := List Gap

namespace Place

def fill : Place → Node → Node
  | [], node => node
  | gap :: outer, node => fill outer (gap.fill node)

def path : Place → Node → List Node
  | [], _ => []
  | gap :: outer, node => gap.fill node :: path outer (gap.fill node)

/-- In the place, a node is the part of a parent of some kind that plays a role. -/
def IsPart (place : Place) (node : Node) (kind : Kind) (role : Role) : Prop :=
  ∃ gap outer, place = gap :: outer ∧ gap.kind = kind ∧ node.role = role ∧
    ∀ sibling ∈ gap.before, sibling.role ≠ role

theorem mem_sites (place : Place) (node : Node) :
    ⟨node, place.path node⟩ ∈ (place.fill node).sites [] := by
  induction place generalizing node with
  | nil => exact Node.mem_sites.mpr (.inl rfl)
  | cons gap outer ih =>
    have member : node ∈ (gap.fill node).children := by simp [Gap.fill]
    exact Node.child_mem_sites (ih (gap.fill node)) member

end Place

def Node.parenthesize (outer : Span) (node : Node) : Node :=
  ⟨.parenthesized, outer, [node.inRole .item], node.role, .plain⟩

section Gap

variable (gap : Gap) {role : Role}

theorem Gap.part?_of_role {child : Node} (same : child.role = role)
    (first : ∀ sibling ∈ gap.before, sibling.role ≠ role) :
    (gap.fill child).part? role = some child := by
  have none : gap.before.find? (·.role = role) = none := by simpa using first
  simp [Node.part?, Gap.fill, List.find?_append, none, same]

/-- What is read off a part does not change with the child, if the child is not that part or still
gives the same. -/
theorem Gap.part?_map {Read : Type} {child other : Node} (read : Node → Read)
    (sameRole : other.role = child.role)
    (same : child.role = role → (∀ sibling ∈ gap.before, sibling.role ≠ role) →
      read other = read child) :
    ((gap.fill other).part? role).map read = ((gap.fill child).part? role).map read := by
  simp only [Node.part?, Gap.fill, List.find?_append]
  cases found : gap.before.find? (·.role = role) with
  | some sibling => rfl
  | none =>
    have first : ∀ sibling ∈ gap.before, sibling.role ≠ role := by simpa using found
    by_cases plays : child.role = role
    · simp [sameRole, plays, same plays first]
    · simp [sameRole, plays]

theorem Gap.part?_bind {Read : Type} {child other : Node} (read : Node → Option Read)
    (sameRole : other.role = child.role) (same : read other = read child) :
    ((gap.fill other).part? role).bind read = ((gap.fill child).part? role).bind read := by
  have maps := congrArg (fun found => found.bind id)
    (@Gap.part?_map gap role _ _ _ read sameRole fun _ _ => same)
  simpa only [Option.bind_map, Function.comp_def, id] using maps

end Gap

end Syntax

namespace Component

open Syntax

/-- The part that a holder of some kind looks for without taking parentheses off. -/
def wholePart? : Kind → Option Role
  | .call => some .argument
  | .exportDefault | .method => some .value
  | _ => none

def isFunctionExpression : Kind → Bool
  | .function false _ | .arrow _ => true
  | _ => false

/-- Two nodes that a holder cannot tell apart by what it reads off its parts, but for the span of a
part as a whole. -/
structure Alike (node other : Node) : Prop where
  role : other.role = node.role
  core : other.withoutParentheses.span = node.withoutParentheses.span
  bound : boundName? other = boundName? node
  target : targetName? other = targetName? node
  identifier : other.identifier? = node.identifier?
  named : ∀ pragma test, namesFrom pragma test other = namesFrom pragma test node

theorem withoutParentheses_of_kind {node : Node} (other : node.kind ≠ .parenthesized) :
    node.withoutParentheses = node := by
  unfold Node.withoutParentheses
  split
  · exact absurd rfl other
  · rfl

theorem Alike.fill {node other : Node} (alike : Alike node other) (gap : Gap) :
    Alike (gap.fill node) (gap.fill other) where
  role := rfl
  core := by
    obtain ⟨kind, span, before, after, role, mark⟩ := gap
    by_cases paren : kind = .parenthesized
    · subst paren
      rcases before with _ | ⟨first, rest⟩
      · rcases after with _ | ⟨next, others⟩
        · exact alike.core
        · rfl
      · cases rest <;> rfl
    · rw [withoutParentheses_of_kind paren, withoutParentheses_of_kind paren]
      rfl
  bound := rfl
  target := rfl
  identifier := rfl
  named := by
    intro pragma test
    have object := @Gap.part?_bind gap .object _ _ _ Node.identifier? alike.role alike.identifier
    simp only [namesFrom, object]
    rfl

theorem Alike.parenthesize {function : Node} (expression : isFunctionExpression function.kind = true)
    (outer : Span) : Alike function (function.parenthesize outer) := by
  obtain ⟨kind, span, children, role, mark⟩ := function
  cases kind
  case function declares name => exact ⟨rfl, rfl, rfl, rfl, rfl, fun _ _ => rfl⟩
  case arrow isExpression => exact ⟨rfl, rfl, rfl, rfl, rfl, fun _ _ => rfl⟩
  all_goals cases expression

section Path

variable {gap : Gap} (span : Span) (further : Place) (node : Node)

theorem of?_path_of_holder (holds : isHolderKind gap.kind = true) :
    Holder.of? span (Place.path (gap :: further) node) = Holder.at? span (gap.fill node) := by
  rw [Holder.of?, Place.path, List.find?_cons, show (gap.fill node).kind = gap.kind from rfl, holds,
    Option.bind_some]

theorem of?_path_of_other (holds : isHolderKind gap.kind = false) :
    Holder.of? span (Place.path (gap :: further) node) =
      Holder.of? span (further.path (gap.fill node)) := by
  rw [Holder.of?, Place.path, List.find?_cons, show (gap.fill node).kind = gap.kind from rfl, holds,
    Holder.of?]

end Path

theorem accepts_wrapper (pragma : String) (ownName : Option String) (callee : Option Node) :
    Holder.accepts pragma ownName (callee.map .wrapper) =
      (callee.any (namesFrom pragma isWrapperName) || ownName.any isComponentName) := by
  cases callee <;> simp [Holder.accepts]

section Holder

variable {node other : Node} (alike : Alike node other) (pragma : String) (ownName : Option String)
  (span : Span)

include alike

theorem innerSpan?_fill (gap : Gap) (role : Role) :
    innerSpan? (gap.fill other) role = innerSpan? (gap.fill node) role :=
  gap.part?_map _ alike.role fun _ _ => alike.core

/-- A holder comes to the same for two such children, if it does not see a difference where it looks
at the span of a part as a whole. -/
theorem accepts_at?_fill (gap : Gap)
    (whole : ∀ role, wholePart? gap.kind = some role →
      (partSpan? (gap.fill other) role = some span ↔ partSpan? (gap.fill node) role = some span)) :
    Holder.accepts pragma ownName (Holder.at? span (gap.fill other)) =
      Holder.accepts pragma ownName (Holder.at? span (gap.fill node)) := by
  have kind : ∀ child, (gap.fill child).kind = gap.kind := fun _ => rfl
  have bound := @Gap.part?_bind gap .target _ _ _ boundName? alike.role alike.bound
  have target := @Gap.part?_bind gap .target _ _ _ targetName? alike.role alike.target
  simp only [Holder.at?, kind, innerSpan?_fill alike, bound, target]
  cases is : gap.kind
  case call =>
    have argument := whole .argument (by rw [is]; rfl)
    have callee := congrArg (fun found => found.any id) (@Gap.part?_map gap .callee _ _ _
      (namesFrom pragma isWrapperName) alike.role fun _ _ => alike.named pragma isWrapperName)
    simp only [Option.any_map, id] at callee
    simp only [argument]
    split
    · rw [accepts_wrapper, accepts_wrapper, callee]
    · rfl
  case exportDefault => simp only [whole .value (by rw [is]; rfl)]
  case method => simp only [whole .value (by rw [is]; rfl)]
  all_goals rfl

/-- A holder further out cannot tell two such nodes with one span apart. -/
theorem accepts_of?_path (sameSpan : other.span = node.span) (place : Place) :
    Holder.accepts pragma ownName (Holder.of? span (place.path other)) =
      Holder.accepts pragma ownName (Holder.of? span (place.path node)) := by
  induction place generalizing node other with
  | nil => rfl
  | cons gap further ih =>
    cases holds : isHolderKind gap.kind with
    | true =>
      rw [of?_path_of_holder span further other holds, of?_path_of_holder span further node holds]
      apply accepts_at?_fill alike
      intro role _
      have spans := @Gap.part?_map gap role _ _ _ (·.span) alike.role fun _ _ => sameSpan
      rw [partSpan?, partSpan?, spans]
    | false =>
      rw [of?_path_of_other span further other holds, of?_path_of_other span further node holds]
      exact ih (alike.fill gap) rfl

end Holder

def ownName? (function : Node) : Option String :=
  match function.kind with
  | .function _ name => name
  | _ => none

def isFunction : Kind → Bool
  | .function _ _ | .arrow _ => true
  | _ => false

theorem isFunction_of_expression {kind : Kind} (expression : isFunctionExpression kind = true) :
    isFunction kind = true := by
  cases kind
  case function declares name => rfl
  case arrow isExpression => rfl
  all_goals cases expression

theorem isComponent_of_function {function : Node} (is : isFunction function.kind = true)
    (pragma : String) (path : List Node) :
    isComponent pragma function path = (functionReturnsOutput function &&
      Holder.accepts pragma (ownName? function) (Holder.of? function.span path)) := by
  obtain ⟨kind, span, children, role, mark⟩ := function
  cases kind
  case function declares name => rfl
  case arrow isExpression => rfl
  all_goals cases is

section Verdict

variable {function : Node} (outer : Span)

/-- Nothing changes for a function that its holder does not look for as a whole. -/
theorem accepts_parenthesize (expression : isFunctionExpression function.kind = true)
    (pragma : String) (ownName : Option String) {place : Place}
    (apart : ∀ kind role, wholePart? kind = some role → ¬place.IsPart function kind role) :
    Holder.accepts pragma ownName
        (Holder.of? function.span (place.path (function.parenthesize outer))) =
      Holder.accepts pragma ownName (Holder.of? function.span (place.path function)) := by
  have alike := Alike.parenthesize expression outer
  cases place with
  | nil => rfl
  | cons gap further =>
    cases holds : isHolderKind gap.kind with
    | true =>
      rw [of?_path_of_holder _ _ _ holds, of?_path_of_holder _ _ _ holds]
      apply accepts_at?_fill alike
      intro role whole
      have spans := @Gap.part?_map gap role _ _ _ (·.span) alike.role fun plays first =>
        absurd ⟨gap, further, rfl, rfl, plays, first⟩ (apart gap.kind role whole)
      rw [partSpan?, partSpan?, spans]
    | false =>
      rw [of?_path_of_other _ _ _ holds, of?_path_of_other _ _ _ holds]
      exact accepts_of?_path (alike.fill gap) pragma ownName function.span rfl further

theorem isHolderKind_of_whole {kind : Kind} {role : Role} (whole : wholePart? kind = some role) :
    isHolderKind kind = true := by
  cases kind
  case call => rfl
  case exportDefault => rfl
  case method => rfl
  all_goals cases whole

theorem at?_eq_none_of_whole {span : Span} {nearest : Node} {role : Role}
    (whole : wholePart? nearest.kind = some role) (other : partSpan? nearest role ≠ some span) :
    Holder.at? span nearest = none := by
  unfold Holder.at?
  cases is : nearest.kind <;> rw [is] at whole
  case call => cases whole; exact if_neg other
  case exportDefault => cases whole; exact if_neg other
  case method => cases whole; exact if_neg other
  all_goals cases whole

/-- A holder that looks for the function as a whole does not find it in parentheses. -/
theorem of?_parenthesize_of_whole (larger : outer ≠ function.span) {place : Place} {kind : Kind}
    {role : Role} (whole : wholePart? kind = some role) (part : place.IsPart function kind role) :
    Holder.of? function.span (place.path (function.parenthesize outer)) = none := by
  obtain ⟨gap, further, rfl, rfl, plays, first⟩ := part
  rw [of?_path_of_holder _ _ _ (isHolderKind_of_whole whole)]
  apply at?_eq_none_of_whole whole
  have found : (gap.fill (function.parenthesize outer)).part? role =
      some (function.parenthesize outer) := gap.part?_of_role plays first
  rw [partSpan?, found]
  intro same
  exact larger (Option.some.inj same)

theorem partSpan?_fill {gap : Gap} {role : Role} (plays : function.role = role)
    (first : ∀ sibling ∈ gap.before, sibling.role ≠ role) :
    partSpan? (gap.fill function) role = some function.span := by
  rw [partSpan?, gap.part?_of_role plays first]
  rfl

theorem of?_of_argument {place : Place} (part : place.IsPart function .call .argument) :
    Holder.of? function.span (place.path function) =
      ((place.path function).head?.bind (·.part? .callee)).map .wrapper := by
  obtain ⟨gap, further, rfl, is, plays, first⟩ := part
  have found := partSpan?_fill plays first
  rw [of?_path_of_holder _ _ _ (by rw [is]; rfl), Holder.at?,
    show (gap.fill function).kind = .call from is]
  simp only [found, if_true]
  rfl

theorem of?_of_default {place : Place} (part : place.IsPart function .exportDefault .value) :
    Holder.of? function.span (place.path function) = some .defaultExport := by
  obtain ⟨gap, further, rfl, is, plays, first⟩ := part
  have found := partSpan?_fill plays first
  rw [of?_path_of_holder _ _ _ (by rw [is]; rfl), Holder.at?,
    show (gap.fill function).kind = .exportDefault from is]
  simp only [found, if_true]

end Verdict

/-- Parentheses around a function expression. Where the function is neither the first argument of a
call nor a default export, it is a component with them exactly if it is one without. As a first
argument and as a default export it then has to be named like a component itself, though without
parentheses a wrapper around it, or the export, would do. -/
theorem parenthesized_verdict (pragma : String) (place : Place) {function : Node} {outer : Span}
    (expression : isFunctionExpression function.kind = true)
    (value : ¬place.IsPart function .method .value) (larger : outer ≠ function.span) :
    let inner : Site := ⟨function.inRole .item,
      function.parenthesize outer :: place.path (function.parenthesize outer)⟩
    let shows := functionReturnsOutput function
    let named := (ownName? function).any isComponentName
    ⟨function, place.path function⟩ ∈ (place.fill function).sites [] ∧
    inner ∈ (place.fill (function.parenthesize outer)).sites [] ∧
    (¬place.IsPart function .call .argument → ¬place.IsPart function .exportDefault .value →
      isComponent pragma inner.node inner.path =
        isComponent pragma function (place.path function)) ∧
    (place.IsPart function .call .argument →
      isComponent pragma function (place.path function) =
        (shows && (((place.path function).head?.bind (·.part? .callee)).any
          (namesFrom pragma isWrapperName) || named)) ∧
      isComponent pragma inner.node inner.path = (shows && named)) ∧
    (place.IsPart function .exportDefault .value →
      isComponent pragma function (place.path function) = shows ∧
      isComponent pragma inner.node inner.path = (shows && named)) := by
  intro inner shows named
  have without : isComponent pragma function (place.path function) =
      (shows && Holder.accepts pragma (ownName? function)
        (Holder.of? function.span (place.path function))) :=
    isComponent_of_function (isFunction_of_expression expression) pragma _
  have within : isComponent pragma inner.node inner.path =
      (shows && Holder.accepts pragma (ownName? function)
        (Holder.of? function.span (place.path (function.parenthesize outer)))) :=
    @isComponent_of_function (function.inRole .item) (isFunction_of_expression expression) pragma _
  refine ⟨place.mem_sites function, ?_, ?_, ?_, ?_⟩
  · exact Node.child_mem_sites (place.mem_sites (function.parenthesize outer)) List.mem_cons_self
  · intro notArgument notDefault
    have apart : ∀ kind role, wholePart? kind = some role → ¬place.IsPart function kind role := by
      intro kind role whole
      cases kind
      case call => cases whole; exact notArgument
      case exportDefault => cases whole; exact notDefault
      case method => cases whole; exact value
      all_goals cases whole
    rw [within, without, accepts_parenthesize outer expression pragma _ apart]
  · intro part
    have lost := @of?_parenthesize_of_whole _ outer larger _ .call _ rfl part
    rw [without, within, lost, of?_of_argument part, accepts_wrapper]
    exact ⟨rfl, rfl⟩
  · intro part
    have lost := @of?_parenthesize_of_whole _ outer larger _ .exportDefault _ rfl part
    rw [without, within, lost, of?_of_default part]
    exact ⟨Bool.and_true shows, rfl⟩

/-- The function `()=>null` at an offset. -/
def nullArrow (start : Nat) (role : Role) : Node :=
  ⟨.arrow true, ⟨start, start + 8⟩, [⟨.parameters, ⟨start, start + 2⟩, [], .item, .plain⟩,
    ⟨.null, ⟨start + 4, start + 8⟩, [], .body, .plain⟩], role, .scope 1⟩

/-- The place of the function in `const A=(()=>null)`. -/
def declaredPlace : Place := [
  ⟨.declarator, ⟨6, 18⟩, [⟨.binding "A", ⟨6, 7⟩, [], .target, .plain⟩], [], .item, .plain⟩,
  ⟨.variables .constWord, ⟨0, 18⟩, [], [], .item, .plain⟩,
  ⟨.program, ⟨0, 18⟩, [], [], .item, .scope 0⟩]

theorem parenthesized_verdict_declared :
    (Module.read? "page.jsx" "const A=(()=>null)").map (·.tree) =
      some (declaredPlace.fill ((nullArrow 9 .init).parenthesize ⟨8, 18⟩)) ∧
    isComponent "React" (nullArrow 9 .item) ((nullArrow 9 .init).parenthesize ⟨8, 18⟩ ::
      declaredPlace.path ((nullArrow 9 .init).parenthesize ⟨8, 18⟩)) = true := by
  have elsewhere (kind : Kind) (role : Role) (other : kind ≠ .declarator) :
      ¬declaredPlace.IsPart (nullArrow 9 .init) kind role := by
    rintro ⟨gap, further, same, is, _⟩
    cases same
    exact other is.symm
  have kept := (@parenthesized_verdict "React" declaredPlace (nullArrow 9 .init) ⟨8, 18⟩ rfl
    (elsewhere .method .value nofun) (by decide)).2.2.1 (elsewhere .call .argument nofun)
    (elsewhere .exportDefault .value nofun)
  exact ⟨by decide +kernel, kept.trans (by decide +kernel)⟩

/-- The place of the function in `export default(()=>null)`. -/
def exportedPlace : Place := [⟨.exportDefault, ⟨0, 24⟩, [], [], .item, .plain⟩,
  ⟨.program, ⟨0, 24⟩, [], [], .item, .scope 0⟩]

/-- A function that is exported in parentheses is a component only without them. -/
theorem parenthesized_export_lost :
    (Module.read? "page.jsx" "export default(()=>null)").map (·.tree) =
      some (exportedPlace.fill ((nullArrow 15 .value).parenthesize ⟨14, 24⟩)) ∧
    isComponent "React" (nullArrow 15 .item) ((nullArrow 15 .value).parenthesize ⟨14, 24⟩ ::
      exportedPlace.path ((nullArrow 15 .value).parenthesize ⟨14, 24⟩)) = false ∧
    isComponent "React" (nullArrow 15 .value) (exportedPlace.path (nullArrow 15 .value)) = true := by
  decide +kernel

end Component

end ClientBoundary
