import ClientBoundary.Component
import ClientBoundary.Module
import ClientBoundary.Proofs.Tour

/-! What a function returns, told by where its return statements stand. A statement belongs to a
function if the statements around it, up to the body of the function, all hold statements; functions
and classes do not. A function shows something if such a statement returns `null` or an expression
with an element where its value comes from. The search for it enters all statements that hold
others, but for `with`. -/
namespace ClientBoundary

namespace Syntax

/-- Whatever is around a tree is around each of its sites. -/
theorem Node.suffix_of_mem_sites {site : Site} {path : List Node} {node : Node}
    (member : site ∈ node.sites path) : path <:+ site.path := by
  induction node using Node.induction generalizing path with
  | step kind span children role mark ih =>
    rcases Node.mem_sites.mp member with rfl | ⟨child, inside, deeper⟩
    · exact List.suffix_refl path
    · exact (List.suffix_cons _ path).trans (ih child inside deeper)

end Syntax

namespace Component

open Syntax

/-- The places where the value of an expression may come from. -/
inductive Tail : Node → Node → Prop where
  | here (node : Node) : Tail node node
  | parenthesized {span : Span} {inner last : Node} {role : Role} {mark : Mark}
      (inside : Tail inner last) : Tail ⟨.parenthesized, span, [inner], role, mark⟩ last
  | consequent {span : Span} {test consequent alternate last : Node} {role : Role} {mark : Mark}
      (inside : Tail consequent last) :
      Tail ⟨.conditional, span, [test, consequent, alternate], role, mark⟩ last
  | alternate {span : Span} {test consequent alternate last : Node} {role : Role} {mark : Mark}
      (inside : Tail alternate last) :
      Tail ⟨.conditional, span, [test, consequent, alternate], role, mark⟩ last
  | right {coalesces : Bool} {span : Span} {left right last : Node} {role : Role} {mark : Mark}
      (inside : Tail right last) : Tail ⟨.logical coalesces, span, [left, right], role, mark⟩ last
  | item {span : Span} {items : List Node} {final last : Node} {role : Role} {mark : Mark}
      (isLast : items.getLast? = some final) (inside : Tail final last) :
      Tail ⟨.sequence, span, items, role, mark⟩ last

/-- The expression is `null`, or an element stands where its value comes from. -/
def ShowsOutput (expression : Node) : Prop :=
  expression.withoutParentheses.kind = .null ∨
    ∃ last, Tail expression last ∧ (last.kind = .jsxElement ∨ last.kind = .jsxFragment)

/-- The statements, and the parts of statements, that hold statements. -/
def holdsStatements : Kind → Bool
  | .block | .ifStatement | .switchStatement | .switchCase | .tryStatement | .catchClause
  | .labeledStatement | .forStatement | .forInStatement | .forOfStatement | .whileStatement
  | .doWhileStatement | .withStatement => true
  | _ => false

def ReturnsShown (statement : Node) : Prop :=
  statement.kind = .returnStatement ∧
    ∃ argument, statement.children = [argument] ∧ ShowsOutput argument

/-- Some statement in the body of a function returns what can be shown, and all that is around it
has one of some kinds. -/
def BodyReturns (through : Kind → Bool) (body : Node) : Prop :=
  ∃ statement ∈ body.children, ∃ site ∈ statement.sites [],
    (∀ outer ∈ site.path, through outer.kind = true) ∧ ReturnsShown site.node

theorem endsInElement_eq (items : List Node) :
    endsInElement items = items.getLast?.any isElement := by
  induction items with
  | nil => rfl
  | cons first rest ih =>
    cases rest with
    | nil => rfl
    | cons second others =>
      rw [endsInElement, ih, List.getLast?_cons_cons]
      intro none
      cases none

theorem Tail.isElement {expression last : Node} (tail : Tail expression last)
    (element : isElement last = true) : isElement expression = true := by
  induction tail with
  | here node => exact element
  | parenthesized inside ih => exact ih element
  | consequent inside ih => simp [Component.isElement, ih element]
  | alternate inside ih => simp [Component.isElement, ih element]
  | right inside ih => exact ih element
  | item isLast inside ih => simp [Component.isElement, endsInElement_eq, isLast, ih element]

/-- What is found stands where the value comes from: one case for each kind of expression that hands
its value on. -/
theorem exists_tail_of_isElement {expression : Node} (element : isElement expression = true) :
    ∃ last, Tail expression last ∧ (last.kind = .jsxElement ∨ last.kind = .jsxFragment) := by
  induction expression using Node.induction with
  | step kind span children role mark ih =>
    cases kind
    case jsxElement => exact ⟨_, .here _, .inl rfl⟩
    case jsxFragment => exact ⟨_, .here _, .inr rfl⟩
    case parenthesized =>
      rcases children with _ | ⟨inner, _ | _⟩
      case cons.nil =>
        obtain ⟨last, tail, shown⟩ := ih inner List.mem_cons_self element
        exact ⟨last, .parenthesized tail, shown⟩
      all_goals cases element
    case conditional =>
      rcases children with _ | ⟨test, _ | ⟨consequent, _ | ⟨alternate, _ | _⟩⟩⟩
      case cons.cons.cons.nil =>
        simp only [isElement, Bool.or_eq_true] at element
        rcases element with first | second
        · obtain ⟨last, tail, shown⟩ := ih consequent (by simp) first
          exact ⟨last, .consequent tail, shown⟩
        · obtain ⟨last, tail, shown⟩ := ih alternate (by simp) second
          exact ⟨last, .alternate tail, shown⟩
      all_goals cases element
    case logical coalesces =>
      rcases children with _ | ⟨left, _ | ⟨right, _ | _⟩⟩
      case cons.cons.nil =>
        obtain ⟨last, tail, shown⟩ := ih right (by simp) element
        exact ⟨last, .right tail, shown⟩
      all_goals cases element
    case sequence =>
      simp only [isElement, endsInElement_eq, Option.any_eq_true] at element
      obtain ⟨final, isLast, found⟩ := element
      obtain ⟨last, tail, shown⟩ := ih final (List.mem_of_getLast? isLast) found
      exact ⟨last, .item isLast tail, shown⟩
    all_goals cases element

theorem isElement_iff (expression : Node) :
    isElement expression = true ↔
      ∃ last, Tail expression last ∧ (last.kind = .jsxElement ∨ last.kind = .jsxFragment) := by
  constructor
  · exact exists_tail_of_isElement
  · rintro ⟨last, tail, shown⟩
    apply tail.isElement
    obtain ⟨kind, span, children, role, mark⟩ := last
    rcases shown with rfl | rfl <;> rfl

theorem isRenderOutput_iff (expression : Node) :
    isRenderOutput expression = true ↔ ShowsOutput expression := by
  simp only [isRenderOutput, ShowsOutput, Bool.or_eq_true, isElement_iff, decide_eq_true_eq]
  exact or_comm

instance (expression : Node) : Decidable (ShowsOutput expression) :=
  decidable_of_iff _ (isRenderOutput_iff expression)

theorem someReturnsOutput_iff (statements : List Node) :
    someReturnsOutput statements = true ↔
      ∃ statement ∈ statements, returnsOutput statement = true := by
  induction statements with
  | nil => simp [someReturnsOutput]
  | cons first rest ih => simp [someReturnsOutput, ih]

def isEntered (kind : Kind) : Bool := holdsStatements kind && kind ≠ .withStatement

/-- The search enters a statement, looks at what it returns, or passes it by. -/
theorem returnsOutput_of_isEntered {statement : Node} (entered : isEntered statement.kind = true) :
    returnsOutput statement = someReturnsOutput statement.children := by
  obtain ⟨kind, span, children, role, mark⟩ := statement
  cases kind
  -- The kinds that are passed by go first; each of the others has its own line in the search.
  all_goals try exact nomatch (show false = true from entered)
  all_goals rfl

theorem returnsOutput_of_not_isEntered {statement : Node}
    (passed : isEntered statement.kind = false) :
    returnsOutput statement = true ↔ ReturnsShown statement := by
  obtain ⟨kind, span, children, role, mark⟩ := statement
  cases kind
  case returnStatement =>
    rcases children with _ | ⟨argument, _ | _⟩
    case cons.nil => simp [returnsOutput, ReturnsShown, isRenderOutput_iff]
    all_goals simp [returnsOutput, ReturnsShown]
  all_goals try exact nomatch (show true = false from passed)
  all_goals simp [returnsOutput, ReturnsShown]

/-- The search comes upon a statement exactly if all that is around it is entered. -/
theorem returnsOutput_iff {statement : Node} {path : List Node}
    (around : ∀ outer ∈ path, isEntered outer.kind = true) :
    returnsOutput statement = true ↔
      ∃ site ∈ statement.sites path,
        (∀ outer ∈ site.path, isEntered outer.kind = true) ∧ ReturnsShown site.node := by
  induction statement using Node.induction generalizing path with
  | step kind span children role mark ih =>
    let statement : Node := ⟨kind, span, children, role, mark⟩
    cases entered : isEntered kind with
    | true =>
      have inner : ∀ outer ∈ statement :: path, isEntered outer.kind = true := by
        intro outer member
        rcases List.mem_cons.mp member with rfl | further
        · exact entered
        · exact around outer further
      have other : ¬ReturnsShown statement := by
        rintro ⟨returns, _⟩
        rw [show kind = .returnStatement from returns] at entered
        cases entered
      have search : returnsOutput statement = someReturnsOutput children :=
        returnsOutput_of_isEntered entered
      rw [search, someReturnsOutput_iff]
      constructor
      · rintro ⟨child, member, returns⟩
        obtain ⟨site, below, holds⟩ := (ih child member inner).mp returns
        exact ⟨site, Node.mem_sites.mpr (.inr ⟨child, member, below⟩), holds⟩
      · rintro ⟨site, isSite, holds⟩
        rcases Node.mem_sites.mp isSite with rfl | ⟨child, member, below⟩
        · exact absurd holds.2 other
        · exact ⟨child, member, (ih child member inner).mpr ⟨site, below, holds⟩⟩
    | false =>
      have search : returnsOutput statement = true ↔ ReturnsShown statement :=
        returnsOutput_of_not_isEntered entered
      rw [search]
      constructor
      · intro returns
        exact ⟨⟨statement, path⟩, Node.mem_sites.mpr (.inl rfl), around, returns⟩
      · rintro ⟨site, isSite, entering, returns⟩
        rcases Node.mem_sites.mp isSite with rfl | ⟨child, _, below⟩
        · exact returns
        · have member : statement ∈ site.path :=
            (Node.suffix_of_mem_sites below).subset List.mem_cons_self
          have := entering statement member
          rw [show isEntered statement.kind = false from entered] at this
          cases this

theorem someReturnsOutput_children_iff (body : Node) :
    someReturnsOutput body.children = true ↔ BodyReturns isEntered body := by
  simp only [someReturnsOutput_iff, BodyReturns]
  constructor
  · rintro ⟨statement, member, returns⟩
    exact ⟨statement, member, (returnsOutput_iff (by simp)).mp returns⟩
  · rintro ⟨statement, member, found⟩
    exact ⟨statement, member, (returnsOutput_iff (by simp)).mpr found⟩

instance (statement : Node) : Decidable (ReturnsShown statement) :=
  decidable_of_iff (statement.kind = .returnStatement ∧ returnsOutput statement = true) (by
    constructor
    · rintro ⟨kind, returns⟩
      exact (returnsOutput_of_not_isEntered (by rw [kind]; rfl)).mp returns
    · intro returns
      refine ⟨returns.1, (returnsOutput_of_not_isEntered ?_).mpr returns⟩
      rw [returns.1]
      rfl)

instance (through : Kind → Bool) (body : Node) : Decidable (BodyReturns through body) :=
  inferInstanceAs (Decidable (∃ statement ∈ body.children, ∃ site ∈ statement.sites [],
    (∀ outer ∈ site.path, through outer.kind = true) ∧ ReturnsShown site.node))

theorem functionReturnsOutput_iff (function : Node) :
    functionReturnsOutput function = true ↔ ∃ body, function.part? .body = some body ∧
      if function.kind = .arrow true then ShowsOutput body else BodyReturns isEntered body := by
  unfold functionReturnsOutput
  cases found : function.part? .body with
  | none => simp
  | some body =>
    by_cases isExpression : function.kind = .arrow true
    · simp [isExpression, isRenderOutput_iff]
    · simp [isExpression, someReturnsOutput_children_iff]

/-- What a function shows, told by its return statements. An arrow function without braces shows
something exactly if its expression does. Any other function does exactly if one of its own
statements returns what can be shown and no `with` is around that statement; nothing else hides a
statement. -/
theorem returned_output_iff (function : Node) :
    (functionReturnsOutput function = true ↔ ∃ body, function.part? .body = some body ∧
      if function.kind = .arrow true then ShowsOutput body else BodyReturns isEntered body) ∧
    (functionReturnsOutput function = false → function.kind ≠ .arrow true →
      ∀ body, function.part? .body = some body →
        ∀ statement ∈ body.children, ∀ site ∈ statement.sites [],
          (∀ outer ∈ site.path, holdsStatements outer.kind = true) → ReturnsShown site.node →
            ∃ outer ∈ site.path, outer.kind = .withStatement) := by
  refine ⟨functionReturnsOutput_iff function, ?_⟩
  intro silent block body isBody statement member site isSite around returns
  refine Classical.byContradiction fun free => ?_
  have entered : ∀ outer ∈ site.path, isEntered outer.kind = true := by
    intro outer isOuter
    have other : outer.kind ≠ .withStatement := fun same => free ⟨outer, isOuter, same⟩
    simp [isEntered, around outer isOuter, other]
  have shows : functionReturnsOutput function = true := by
    refine (functionReturnsOutput_iff function).mpr ⟨body, isBody, ?_⟩
    rw [if_neg block]
    exact ⟨statement, member, site, isSite, entered, returns⟩
  rw [silent] at shows
  cases shows

/-- A return statement inside of `with` is missed, so that its function is no component. -/
theorem return_within_with_missed :
    ∃ module function body,
      Module.read? "page.cjs" "function A()\x7bwith(b)\x7breturn <c/>\x7d\x7d" = some module ∧
      function ∈ module.tree.children ∧ function.part? .body = some body ∧
      BodyReturns holdsStatements body ∧ functionReturnsOutput function = false ∧
      isComponent "React" function [module.tree] = false := by
  obtain ⟨module, read, evaluated⟩ := (Option.any_eq_true _ _).mp (show
    (Module.read? "page.cjs" "function A()\x7bwith(b)\x7breturn <c/>\x7d\x7d").any (fun module =>
      module.tree.children.any fun function => (function.part? .body).any fun body =>
        decide (BodyReturns holdsStatements body) && !functionReturnsOutput function &&
          !isComponent "React" function [module.tree]) = true by decide +kernel)
  obtain ⟨function, member, found⟩ := List.any_eq_true.mp evaluated
  obtain ⟨body, isBody, holds⟩ := (Option.any_eq_true _ _).mp found
  simp only [Bool.and_eq_true, decide_eq_true_eq, Bool.not_eq_true'] at holds
  exact ⟨module, function, body, read, member, isBody, holds.1.1, holds.1.2, holds.2⟩

end Component

end ClientBoundary
