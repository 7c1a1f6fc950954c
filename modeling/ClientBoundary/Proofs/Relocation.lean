import ClientBoundary.Component
import ClientBoundary.Proofs.Tour
import Mathlib.Data.List.Basic

/-! Trees moved further back in the text. Whether a node is a component is the same before and
after, though a function is found in its holder by its span: all spans move by the same number of
bytes, so equal spans stay equal and different ones stay different. -/
namespace ClientBoundary

def Span.shift (bytes : Nat) (span : Span) : Span := ⟨span.start + bytes, span.stop + bytes⟩

theorem Span.shift_inj {bytes : Nat} {first second : Span} :
    first.shift bytes = second.shift bytes ↔ first = second := by
  obtain ⟨start, stop⟩ := first
  obtain ⟨otherStart, otherStop⟩ := second
  simp [Span.shift]

theorem Span.map_shift_inj {bytes : Nat} {found : Option Span} {span : Span} :
    found.map (Span.shift bytes) = some (span.shift bytes) ↔ found = some span := by
  cases found with
  | none => simp
  | some other => simp [Span.shift_inj]

namespace Syntax

mutual

def Node.decEq : (first second : Node) → Decidable (first = second)
  | ⟨kind, span, children, role, mark⟩, ⟨otherKind, otherSpan, otherChildren, otherRole, otherMark⟩ =>
    match Node.decEqAll children otherChildren with
    | isTrue same =>
      decidable_of_iff (kind = otherKind ∧ span = otherSpan ∧ role = otherRole ∧ mark = otherMark)
        (by simp [same])
    | isFalse different => isFalse fun same => different (Node.mk.inj same).2.2.1

def Node.decEqAll : (first second : List Node) → Decidable (first = second)
  | [], [] => isTrue rfl
  | [], _ :: _ => isFalse nofun
  | _ :: _, [] => isFalse nofun
  | node :: rest, other :: others =>
    match Node.decEq node other, Node.decEqAll rest others with
    | isTrue one, isTrue all => isTrue (by rw [one, all])
    | isFalse different, _ => isFalse fun same => different (List.cons.inj same).1
    | _, isFalse different => isFalse fun same => different (List.cons.inj same).2

end

instance : DecidableEq Node := Node.decEq

mutual

def Node.shift (bytes : Nat) : Node → Node
  | ⟨kind, span, children, role, mark⟩ =>
    ⟨kind, span.shift bytes, Node.shiftAll bytes children, role, mark⟩

def Node.shiftAll (bytes : Nat) : List Node → List Node
  | [] => []
  | node :: rest => node.shift bytes :: Node.shiftAll bytes rest

end

namespace Node

variable (bytes : Nat)

theorem shiftAll_eq_map (nodes : List Node) :
    Node.shiftAll bytes nodes = nodes.map (Node.shift bytes) := by
  induction nodes with
  | nil => rfl
  | cons node rest ih => simp only [Node.shiftAll, List.map_cons, ih]

theorem shift_mk (kind : Kind) (span : Span) (children : List Node) (role : Role) (mark : Mark) :
    Node.shift bytes ⟨kind, span, children, role, mark⟩ =
      ⟨kind, span.shift bytes, children.map (Node.shift bytes), role, mark⟩ := by
  rw [Node.shift, shiftAll_eq_map]

@[simp] theorem shift_kind (node : Node) : (node.shift bytes).kind = node.kind := by
  cases node; rfl

@[simp] theorem shift_span (node : Node) : (node.shift bytes).span = node.span.shift bytes := by
  cases node; rfl

@[simp] theorem shift_children (node : Node) :
    (node.shift bytes).children = node.children.map (Node.shift bytes) := by
  cases node; rw [shift_mk]

@[simp] theorem shift_role (node : Node) : (node.shift bytes).role = node.role := by
  cases node; rfl

@[simp] theorem shift_mark (node : Node) : (node.shift bytes).mark = node.mark := by
  cases node; rfl

@[simp] theorem shift_scope? (node : Node) : (node.shift bytes).scope? = node.scope? := by
  simp only [Node.scope?, shift_mark]

@[simp] theorem shift_part? (node : Node) (role : Role) :
    (node.shift bytes).part? role = (node.part? role).map (Node.shift bytes) := by
  simp only [Node.part?, shift_children, List.find?_map, Function.comp_def, shift_role]

@[simp] theorem shift_identifier? (node : Node) :
    (node.shift bytes).identifier? = node.identifier? := by
  simp only [Node.identifier?, shift_kind]

@[simp] theorem shift_withoutParentheses (node : Node) :
    (node.shift bytes).withoutParentheses = node.withoutParentheses.shift bytes := by
  fun_induction Node.withoutParentheses node with
  | case1 span inner role mark ih => rw [← ih, shift_mk]; rfl
  | case2 node different =>
    obtain ⟨kind, span, children, role, mark⟩ := node
    rw [shift_mk]
    unfold Node.withoutParentheses
    split
    · next same =>
      obtain ⟨rfl, _, one, _, _⟩ := Node.mk.inj same
      obtain ⟨only, rfl, _⟩ := List.map_eq_singleton_iff.mp one
      exact (different _ _ _ _ rfl).elim
    · rfl

end Node

/-- Two paths to corresponding nodes: the roots are programs with the same scope, and all else on
the one is moved back on the other. -/
inductive PathMoved (bytes : Nat) : List Node → List Node → Prop where
  | root {program other : Node} (kind : program.kind = .program) (otherKind : other.kind = .program)
      (scope : other.scope? = program.scope?) : PathMoved bytes [program] [other]
  | step (node : Node) {path other : List Node} (outer : PathMoved bytes path other) :
      PathMoved bytes (node :: path) (node.shift bytes :: other)

namespace PathMoved

variable {bytes : Nat} {path other : List Node}

theorem scopes (moved : PathMoved bytes path other) (role : Role) :
    scopesOnPath role other = scopesOnPath role path := by
  induction moved generalizing role with
  | root _ _ scope => simp only [scopesOnPath, Node.scopesInside, scope]
  | step node _ ih =>
    simp only [scopesOnPath, Node.scopesInside, Node.shift_scope?, Node.shift_role, ih]

/-- The nearest node of some kinds is the same one, if programs are not among the kinds. -/
theorem find?_kind (moved : PathMoved bytes path other) (test : Kind → Bool)
    (inner : test .program = false) :
    other.find? (test ·.kind) = (path.find? (test ·.kind)).map (Node.shift bytes) := by
  induction moved with
  | root kind otherKind _ => simp [kind, otherKind, inner]
  | step node _ ih =>
    rw [List.find?_cons, List.find?_cons, Node.shift_kind, ih]
    split <;> rfl

end PathMoved

structure Site.Moved (bytes : Nat) (site other : Site) : Prop where
  node : other.node = site.node.shift bytes
  path : PathMoved bytes site.path other.path

theorem Site.Moved.scopes {bytes : Nat} {site other : Site} (moved : site.Moved bytes other) :
    other.scopes = site.scopes := by
  rw [Site.scopes, Site.scopes, moved.path.scopes, moved.node, Node.shift_role]

theorem Site.Moved.part {bytes : Nat} {site other : Site} (moved : site.Moved bytes other)
    (part : Node) :
    Site.Moved bytes ⟨part, site.node :: site.path⟩
      ⟨part.shift bytes, other.node :: other.path⟩ := by
  refine ⟨rfl, ?_⟩
  rw [moved.node]
  exact .step site.node moved.path

/-- What is collected from the sites of a tree moves with the tree, if it does so at each site. -/
theorem flatMap_sites_moved {Found : Type} {bytes : Nat} {collect collectMoved : Site → List Found}
    {move : Found → Found} {node : Node} {path other : List Node}
    (moved : PathMoved bytes path other)
    (each : ∀ site ∈ node.sites path, ∀ further, site.Moved bytes further →
      collectMoved further = (collect site).map move) :
    ((node.shift bytes).sites other).flatMap collectMoved =
      ((node.sites path).flatMap collect).map move := by
  induction node using Node.induction generalizing path other with
  | step kind span children role mark ih =>
    let node : Node := ⟨kind, span, children, role, mark⟩
    have below : ∀ child ∈ children,
        ((child.shift bytes).sites (node.shift bytes :: other)).flatMap collectMoved =
          ((child.sites (node :: path)).flatMap collect).map move := by
      intro child member
      refine ih child member (.step node moved) fun site inside => each site ?_
      exact Node.mem_sites.mpr (.inr ⟨child, member, inside⟩)
    have here := each ⟨node, path⟩ (Node.mem_sites.mpr (.inl rfl)) ⟨node.shift bytes, other⟩
      ⟨rfl, moved⟩
    rw [Node.sites_eq, Node.sites_eq path node, Node.shift_children, List.flatMap_cons,
      List.flatMap_cons, List.map_append, here, List.flatMap_assoc, List.flatMap_assoc,
      List.map_flatMap, List.flatMap_map]
    exact congrArg _ (List.flatMap_congr below)

end Syntax

namespace Component

open Syntax

section Tree

variable (bytes : Nat)

/-! What is looked at inside of a node. -/

theorem endsInElement_shift {nodes : List Node}
    (each : ∀ node ∈ nodes, isElement (node.shift bytes) = isElement node) :
    endsInElement (nodes.map (Node.shift bytes)) = endsInElement nodes := by
  induction nodes with
  | nil => rfl
  | cons node rest ih =>
    cases rest with
    | nil => simpa [endsInElement] using each node
    | cons next others =>
      simpa [endsInElement] using ih fun node member => each node (List.mem_cons_of_mem _ member)

theorem isElement_shift (node : Node) : isElement (node.shift bytes) = isElement node := by
  induction node using Node.induction with
  | step kind span children role mark ih =>
    rw [Node.shift_mk]
    cases kind
    case parenthesized =>
      rcases children with _ | ⟨only, _ | _⟩
      case cons.nil => simpa [isElement] using ih only List.mem_cons_self
      all_goals rfl
    case conditional =>
      rcases children with _ | ⟨_, _ | ⟨consequent, _ | ⟨alternate, _ | _⟩⟩⟩
      case cons.cons.cons.nil => simp [isElement, ih]
      all_goals rfl
    case logical coalesces =>
      rcases children with _ | ⟨_, _ | ⟨right, _ | _⟩⟩
      case cons.cons.nil => simp [isElement, ih]
      all_goals rfl
    case sequence => simpa [isElement] using endsInElement_shift bytes ih
    all_goals rfl

theorem isRenderOutput_shift (node : Node) :
    isRenderOutput (node.shift bytes) = isRenderOutput node := by
  simp [isRenderOutput, isElement_shift]

theorem someReturnsOutput_shift {nodes : List Node}
    (each : ∀ node ∈ nodes, returnsOutput (node.shift bytes) = returnsOutput node) :
    someReturnsOutput (nodes.map (Node.shift bytes)) = someReturnsOutput nodes := by
  induction nodes with
  | nil => rfl
  | cons node rest ih =>
    simp only [List.map_cons, someReturnsOutput, each node List.mem_cons_self,
      ih fun node member => each node (List.mem_cons_of_mem _ member)]

theorem returnsOutput_shift (node : Node) :
    returnsOutput (node.shift bytes) = returnsOutput node := by
  induction node using Node.induction with
  | step kind span children role mark ih =>
    have inside := someReturnsOutput_shift bytes ih
    rw [Node.shift_mk]
    cases kind
    case returnStatement =>
      rcases children with _ | ⟨argument, _ | _⟩
      case cons.nil => simpa [returnsOutput] using isRenderOutput_shift bytes argument
      all_goals rfl
    all_goals first
      | rfl
      | exact inside

theorem functionReturnsOutput_shift (function : Node) :
    functionReturnsOutput (function.shift bytes) = functionReturnsOutput function := by
  simp only [functionReturnsOutput, Node.shift_kind, Node.shift_part?]
  cases function.part? .body with
  | none => rfl
  | some body =>
    have block : someReturnsOutput (body.shift bytes).children =
        someReturnsOutput body.children := by
      rw [Node.shift_children]
      exact someReturnsOutput_shift bytes fun node _ => returnsOutput_shift bytes node
    cases function.kind
    case arrow isExpression =>
      cases isExpression
      · exact block
      · exact isRenderOutput_shift bytes body
    all_goals exact block

theorem boundName?_shift (pattern : Node) :
    boundName? (pattern.shift bytes) = boundName? pattern := by
  simp only [boundName?, Node.shift_kind]

theorem targetName?_shift (target : Node) :
    targetName? (target.shift bytes) = targetName? target := by
  simp only [targetName?, Node.shift_kind]

theorem namesFrom_shift (pragma : String) (test : String → Bool) (expression : Node) :
    namesFrom pragma test (expression.shift bytes) = namesFrom pragma test expression := by
  simp only [namesFrom, Node.shift_kind, Node.shift_part?, Option.bind_map, Function.comp_def,
    Node.shift_identifier?]

theorem isClassComponent_shift (pragma : String) (node : Node) :
    isClassComponent pragma (node.shift bytes) = isClassComponent pragma node := by
  simp only [isClassComponent, Node.shift_part?, Option.any_map, Node.shift_withoutParentheses,
    namesFrom_shift]

theorem partSpan?_shift (node : Node) (role : Role) :
    partSpan? (node.shift bytes) role = (partSpan? node role).map (Span.shift bytes) := by
  simp only [partSpan?, Node.shift_part?, Option.map_map, Function.comp_def, Node.shift_span]

theorem innerSpan?_shift (node : Node) (role : Role) :
    innerSpan? (node.shift bytes) role = (innerSpan? node role).map (Span.shift bytes) := by
  simp only [innerSpan?, Node.shift_part?, Option.map_map, Function.comp_def,
    Node.shift_withoutParentheses, Node.shift_span]

end Tree

/-! What is looked at on the path. -/

def Holder.shift (bytes : Nat) : Holder → Holder
  | .wrapper callee => .wrapper (callee.shift bytes)
  | holder => holder

/-- The holder looks for the function by its span, which has moved with it. -/
theorem Holder.of?_moved {bytes : Nat} {path other : List Node} (moved : PathMoved bytes path other)
    (span : Span) :
    Holder.of? (span.shift bytes) other = (Holder.of? span path).map (Holder.shift bytes) := by
  have nearest := moved.find?_kind isHolderKind rfl
  have bound (node : Node) : ((node.shift bytes).part? .target).bind boundName? =
      (node.part? .target).bind boundName? := by
    rw [Node.shift_part?, Option.bind_map]
    exact congrArg _ (funext fun pattern => boundName?_shift bytes pattern)
  have named (node : Node) : ((node.shift bytes).part? .target).bind targetName? =
      (node.part? .target).bind targetName? := by
    rw [Node.shift_part?, Option.bind_map]
    exact congrArg _ (funext fun target => targetName?_shift bytes target)
  unfold Holder.of?
  rw [nearest]
  cases path.find? (isHolderKind ·.kind) with
  | none => rfl
  | some node =>
    simp only [Option.map_some, Option.bind_some, Holder.at?, Node.shift_kind, innerSpan?_shift,
      partSpan?_shift, Span.map_shift_inj, bound, named]
    have given (cond : Prop) [Decidable cond] (name : Option String) :
        (if cond then name.map Holder.named else none) =
          (if cond then name.map Holder.named else none).map (Holder.shift bytes) := by
      split
      · cases name <;> rfl
      · rfl
    cases node.kind
    case declarator => exact given _ _
    case assignment plain => exact given _ _
    case call =>
      dsimp only
      rw [Node.shift_part?]
      split
      · cases node.part? .callee <;> rfl
      · rfl
    case exportDefault => dsimp only; split <;> rfl
    case method => dsimp only; split <;> rfl
    case property isMethod => dsimp only; split <;> rfl
    case field => dsimp only; split <;> rfl
    all_goals rfl

section Path

variable (pragma : String) {bytes : Nat} {path other : List Node}

theorem isFunctionComponent_moved (moved : PathMoved bytes path other) (ownName : Option String)
    (function : Node) :
    isFunctionComponent pragma ownName (function.shift bytes) other =
      isFunctionComponent pragma ownName function path := by
  simp only [isFunctionComponent, functionReturnsOutput_shift, Node.shift_span,
    Holder.of?_moved moved]
  cases Holder.of? function.span path with
  | none => rfl
  | some holder =>
    cases holder with
    | wrapper callee => simp only [Option.map_some, Holder.shift, Holder.accepts, namesFrom_shift]
    | named name => rfl
    | defaultExport => rfl
    | method => rfl

/-- Whether a node is a component does not depend on where in the text it stands. -/
theorem isComponent_moved (moved : PathMoved bytes path other) (node : Node) :
    isComponent pragma (node.shift bytes) other = isComponent pragma node path := by
  simp only [isComponent, Node.shift_kind, isClassComponent_shift,
    isFunctionComponent_moved pragma moved]

end Path

end Component

end ClientBoundary
