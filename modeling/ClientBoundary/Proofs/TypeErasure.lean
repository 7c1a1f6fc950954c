import ClientBoundary.Proofs.ReturnedOutput
import Mathlib.Data.List.Find
import Mathlib.Data.List.Flatten
import Mathlib.Data.List.Forall2

/-! Trees without type-only syntax. Types stand beside what runs and never in its place, so that a
tree and the same tree without them are alike in all that components are told by, and the sites of
the second are the sites of the first that are outside of types, in the same order. -/
namespace ClientBoundary

namespace Syntax

/-- What says something about types and nothing else. -/
def Kind.isTypeOnly : Kind → Bool
  | .type | .typeArguments | .typeParameters | .typeParameter _ | .typeAlias _ | .interface _
  | .implements => true
  | _ => false

def Kind.isInterface : Kind → Bool
  | .interface _ => true
  | _ => false

/-- Whether type-only syntax may play a part in a node. Operands of expressions and the parts by
which functions, calls and the like are known are no such parts; a statement can be a type as a
whole. -/
def Kind.holdsTypeAs : Kind → Role → Bool
  | .parenthesized, _ | .conditional, _ | .logical _, _ | .sequence, _ | .returnStatement, _
  | .catchClause, _ => false
  | .exportDefault, .value => true
  | .function _ _, .body | .arrow _, .body => false
  | _, .item | _, .body | _, .consequent | _, .alternate => true
  | _, _ => false

theorem Kind.holdsTypeAs_head (kind : Kind) : kind.holdsTypeAs .head = false := by
  cases kind <;> rfl

namespace Node

def isCode (node : Node) : Bool := !node.kind.isTypeOnly

def code (node : Node) : List Node := node.children.filter isCode

mutual

/-- A tree from which all type-only syntax has been removed. -/
def withoutTypes : Node → Node
  | ⟨kind, span, children, role, mark⟩ => ⟨kind, span, withoutTypesOfAll children, role, mark⟩

def withoutTypesOfAll : List Node → List Node
  | [] => []
  | node :: rest =>
    if node.isCode then node.withoutTypes :: withoutTypesOfAll rest else withoutTypesOfAll rest

end

theorem withoutTypesOfAll_eq_map (nodes : List Node) :
    withoutTypesOfAll nodes = (nodes.filter isCode).map withoutTypes := by
  induction nodes with
  | nil => rfl
  | cons node rest ih => by_cases code : node.isCode <;> simp [withoutTypesOfAll, code, ih]

theorem withoutTypes_children (node : Node) : node.withoutTypes.children = node.code.map withoutTypes := by
  cases node
  exact withoutTypesOfAll_eq_map _

inductive Everywhere (holds : Node → Prop) : Node → Prop where
  | mk {node : Node} (here : holds node) (inside : ∀ child ∈ node.children, child.Everywhere holds) :
      node.Everywhere holds

theorem Everywhere.here {holds : Node → Prop} {node : Node} (all : node.Everywhere holds) :
    holds node := by
  cases all; assumption

theorem Everywhere.imp {holds weaker : Node → Prop} (implies : ∀ node, holds node → weaker node)
    {node : Node} (all : node.Everywhere holds) : node.Everywhere weaker := by
  induction all with
  | mk here _ ih => exact .mk (implies _ here) ih

theorem Everywhere.inside {holds : Node → Prop} {node : Node} (all : node.Everywhere holds) :
    ∀ child ∈ node.children, child.Everywhere holds := by
  cases all; assumption

theorem everywhere_of_sites {holds : Node → Prop} {node : Node} {path : List Node}
    (each : ∀ site ∈ node.sites path, holds site.node) : node.Everywhere holds := by
  induction node using Node.induction generalizing path with
  | step kind span children role mark ih =>
    refine .mk (each _ (Node.mem_sites.mpr (.inl rfl))) fun child member => ?_
    exact ih child member fun site inside =>
      each site (Node.mem_sites.mpr (.inr ⟨child, member, inside⟩))

theorem Everywhere.at_site {holds : Node → Prop} {node : Node} (all : node.Everywhere holds)
    {path : List Node} {site : Site} (member : site ∈ node.sites path) :
    site.node.Everywhere holds := by
  induction all generalizing path with
  | @mk node here inside ih =>
    rcases Node.mem_sites.mp member with rfl | ⟨child, isChild, deeper⟩
    · exact .mk here inside
    · exact ih child isChild deeper

/-- Types stand where they may. A default export is a type as a whole or not at all, and what is no
interface holds only types and names inside. -/
structure TypesInPlace (node : Node) : Prop where
  aside : ∀ child ∈ node.children, child.isCode = false → node.kind.holdsTypeAs child.role = true
  whole : node.kind = .exportDefault → ∀ child ∈ node.children, child.isCode = false →
    ∀ other ∈ node.children, other.isCode = false
  pure : node.isCode = false → node.kind.isInterface = false → ∀ child ∈ node.children,
    (child.isCode = false ∧ child.kind.isInterface = false) ∨ child.identifier?.isSome = true
  leaf : node.identifier?.isSome = true → node.children = []

/-- What plays a part that types do not play is code. -/
theorem TypesInPlace.code {node child : Node} (inPlace : node.TypesInPlace)
    (isChild : child ∈ node.children) (never : node.kind.holdsTypeAs child.role = false) :
    child.isCode = true := by
  by_contra isType
  have held := inPlace.aside child isChild (Bool.eq_false_iff.mpr isType)
  rw [never] at held
  cases held

/-- Where types stand is told by the kinds and parts of a node and its children. -/
theorem TypesInPlace.of_children {node other : Node} (inPlace : node.TypesInPlace)
    (kind : other.kind = node.kind)
    (children : ∀ child ∈ other.children, ∃ same ∈ node.children,
      child.kind = same.kind ∧ child.role = same.role) : other.TypesInPlace := by
  have code {child same : Node} (alike : child.kind = same.kind) : child.isCode = same.isCode := by
    rw [isCode, isCode, alike]
  have name {child same : Node} (alike : child.kind = same.kind) :
      child.identifier? = same.identifier? := by
    rw [identifier?, identifier?, alike]
  constructor
  · intro child member isType
    obtain ⟨same, isSame, alike, role⟩ := children child member
    rw [kind, role]
    exact inPlace.aside same isSame (by rw [← code alike, isType])
  · intro exports child member isType third isThird
    obtain ⟨same, isSame, alike, _⟩ := children child member
    obtain ⟨sameThird, isSameThird, alikeThird, _⟩ := children third isThird
    rw [code alikeThird]
    exact inPlace.whole (kind ▸ exports) same isSame (by rw [← code alike, isType]) _ isSameThird
  · intro isType noInterface child member
    obtain ⟨same, isSame, alike, _⟩ := children child member
    rw [code alike, alike, name alike]
    exact inPlace.pure (by rw [← code kind, isType]) (kind ▸ noInterface) same isSame
  · intro isName
    have none := inPlace.leaf (by rw [← name kind, isName])
    cases found : other.children with
    | nil => rfl
    | cons child rest =>
      obtain ⟨same, isSame, _⟩ := children child (by rw [found]; exact List.mem_cons_self)
      rw [none] at isSame
      cases isSame

/-- A tree and another one that is the same without types, up to the marks; of each pair of nodes a
relation of its own is known. -/
inductive Erased (relates : Node → Node → Prop) : Node → Node → Prop where
  | mk {node plain : Node} (here : relates node plain) (kind : plain.kind = node.kind)
      (span : plain.span = node.span) (role : plain.role = node.role) (inPlace : node.TypesInPlace)
      (children : List.Forall₂ (Erased relates) node.code plain.children) : Erased relates node plain

/-- A part is missing from both of two nodes, or there in both and the same without types. -/
def PartErased (relates : Node → Node → Prop) (role : Role) (node plain : Node) : Prop :=
  (node.part? role = none ∧ plain.part? role = none) ∨
    ∃ part other, node.part? role = some part ∧ plain.part? role = some other ∧
      Erased relates part other

/-- What is read off a part is the same if it does not depend on types. -/
theorem PartErased.congr {relates : Node → Node → Prop} {role : Role} {node plain : Node}
    (parts : PartErased relates role node plain) {Found : Type} (read : Option Node → Found)
    (same : ∀ part other, Erased relates part other → read (some other) = read (some part)) :
    read (plain.part? role) = read (node.part? role) := by
  rcases parts with ⟨one, two⟩ | ⟨part, other, one, two, related⟩
  · rw [one, two]
  · rw [one, two]
    exact same part other related

end Node

namespace Node.Erased

variable {relates : Node → Node → Prop} {node plain : Node}

theorem here (erased : Erased relates node plain) : relates node plain := by
  cases erased; assumption

theorem kind (erased : Erased relates node plain) : plain.kind = node.kind := by
  cases erased; assumption

theorem span (erased : Erased relates node plain) : plain.span = node.span := by
  cases erased; assumption

theorem role (erased : Erased relates node plain) : plain.role = node.role := by
  cases erased; assumption

theorem inPlace (erased : Erased relates node plain) : node.TypesInPlace := by
  cases erased; assumption

theorem children (erased : Erased relates node plain) :
    List.Forall₂ (Erased relates) node.code plain.children := by
  cases erased; assumption

/-- Induction over two trees at once, along what is code in the first. -/
theorem induct {motive : Node → Node → Prop}
    (step : ∀ {node plain}, Erased relates node plain →
      List.Forall₂ motive node.code plain.children → motive node plain)
    (erased : Erased relates node plain) : motive node plain := by
  induction node using Node.induction generalizing plain with
  | step kind span children role mark ih =>
    have below := (List.forall₂_and_left _ _).mpr
      ⟨fun child member => (List.mem_of_mem_filter member : child ∈ children), erased.children⟩
    exact step erased (below.imp fun child _ both => ih child both.1 both.2)

theorem identifier? (erased : Erased relates node plain) : plain.identifier? = node.identifier? := by
  rw [Node.identifier?, Node.identifier?, erased.kind]

theorem mono {others : Node → Node → Prop}
    (implies : ∀ node plain, relates node plain → others node plain)
    (erased : Erased relates node plain) : Erased others node plain :=
  erased.induct fun erased below =>
    .mk (implies _ _ erased.here) erased.kind erased.span erased.role erased.inPlace below

/-! What is looked at inside of a node. -/

/-- Where types may not stand at all, the children correspond one by one. -/
theorem operands (erased : Erased relates node plain)
    (never : ∀ role, node.kind.holdsTypeAs role = false) :
    List.Forall₂ (Erased relates) node.children plain.children := by
  have all : node.code = node.children :=
    List.filter_eq_self.mpr fun child member => erased.inPlace.code member (never child.role)
  rw [← all]
  exact erased.children

theorem part?_of_code (erased : Erased relates node plain) {role : Role}
    (code : ∀ child ∈ node.children, child.role = role → child.isCode = true) :
    PartErased relates role node plain := by
  have found : node.part? role = node.code.find? (·.role = role) := by
    rw [part?, Node.code, List.find?_filter]
    refine List.find?_congr fun child member => ?_
    by_cases plays : child.role = role
    · simp [plays, code child member plays]
    · simp [plays]
  unfold PartErased
  rw [found, part?]
  have related := erased.children
  generalize node.code = parts, plain.children = others at related
  induction related with
  | nil => exact .inl ⟨rfl, rfl⟩
  | cons first _ ih =>
    rw [List.find?_cons, List.find?_cons, first.role]
    split
    · exact .inr ⟨_, _, rfl, rfl, first⟩
    · exact ih

theorem part? (erased : Erased relates node plain) {role : Role}
    (never : node.kind.holdsTypeAs role = false) :
    PartErased relates role node plain :=
  erased.part?_of_code fun _ member plays => erased.inPlace.code member (plays ▸ never)

theorem withoutParentheses (erased : Erased relates node plain) :
    Erased relates node.withoutParentheses plain.withoutParentheses := by
  induction node using Node.induction generalizing plain with
  | step kind span children role mark ih =>
    obtain ⟨otherKind, _, others, _, _⟩ := plain
    obtain rfl : kind = otherKind := erased.kind.symm
    cases kind
    case parenthesized =>
      have operands : List.Forall₂ (Erased relates) children others := erased.operands fun _ => rfl
      rcases operands with _ | ⟨inner, _ | ⟨_, _⟩⟩
      case cons.nil =>
        have deeper := ih _ List.mem_cons_self inner
        exact deeper
      all_goals exact erased
    all_goals exact erased

end Node.Erased

/-- A tree without its types, node by node. -/
theorem Node.erased_withoutTypes {relates : Node → Node → Prop} {node : Node}
    (inPlace : node.Everywhere Node.TypesInPlace)
    (related : node.Everywhere fun node => relates node node.withoutTypes) :
    Node.Erased relates node node.withoutTypes := by
  induction node using Node.induction with
  | step kind span children role mark ih =>
    refine .mk related.here rfl rfl rfl inPlace.here ?_
    rw [Node.withoutTypes_children, List.forall₂_map_right_iff, List.forall₂_same]
    intro child member
    have isChild := List.mem_of_mem_filter member
    exact ih child isChild (inPlace.inside child isChild) (related.inside child isChild)

/-! Sites. -/

/-- Two paths that are the same without types. Each node on the first holds code, such as the next
one further in. -/
def PathErased (relates : Node → Node → Prop) : (path others : List Node) → Prop :=
  List.Forall₂ fun node plain =>
    Node.Erased relates node plain ∧ ∃ child ∈ node.children, child.isCode = true

structure Site.Erased (relates : Node → Node → Prop) (site plain : Site) : Prop where
  node : Node.Erased relates site.node plain.node
  path : PathErased relates site.path plain.path

def Site.isCode (site : Site) : Bool := (site.node :: site.path).all Node.isCode

theorem Site.isCode_iff {site : Site} :
    site.isCode = true ↔ site.node.isCode = true ∧ ∀ outer ∈ site.path, outer.isCode = true := by
  simp [Site.isCode]

theorem Node.isCode_of_below_type {node : Node} (isType : node.isCode = false) {path : List Node}
    {site : Site} (member : site ∈ node.sites path) : site.isCode = false := by
  rw [← Bool.not_eq_true, Site.isCode_iff]
  rintro ⟨here, outer⟩
  rcases Node.mem_sites.mp member with rfl | ⟨child, _, deeper⟩
  · rw [isType] at here
    cases here
  · have passed := (Node.suffix_of_mem_sites deeper).subset List.mem_cons_self
    rw [outer node passed] at isType
    cases isType

theorem flatMap_filter_eq_iff {Item Found : Type} {test : Item → Bool} {collect : Item → List Found}
    {items : List Item} :
    (items.filter test).flatMap collect = items.flatMap collect ↔
      ∀ item ∈ items, test item = false → collect item = [] := by
  have fewer (items : List Item) :
      ((items.filter test).flatMap collect).length ≤ (items.flatMap collect).length :=
    (List.filter_sublist.flatMap collect).length_le
  induction items with
  | nil => simp
  | cons item rest ih =>
    cases passes : test item with
    | false =>
      rw [List.filter_cons_of_neg (by simp [passes]), List.flatMap_cons]
      constructor
      · intro same
        have short : collect item = [] := by
          have lengths := congrArg List.length same
          have atMost := fewer rest
          rw [List.length_append] at lengths
          exact List.length_eq_zero_iff.mp (by omega)
        rw [short, List.nil_append] at same
        exact List.forall_mem_cons.mpr ⟨fun _ => short, ih.mp same⟩
      · intro none
        rw [none item List.mem_cons_self passes, List.nil_append,
          ih.mpr fun item member => none item (List.mem_cons_of_mem _ member)]
    | true =>
      rw [List.filter_cons_of_pos passes, List.flatMap_cons, List.flatMap_cons,
        List.append_cancel_left_eq]
      exact ih.trans (by simp [passes])

/-- The sites of a tree without types are those of the tree outside of types, in order. -/
theorem Node.Erased.sites {relates : Node → Node → Prop} {node plain : Node}
    (erased : Node.Erased relates node plain) (code : node.isCode = true) {path others : List Node}
    (outer : PathErased relates path others) (outside : ∀ around ∈ path, around.isCode = true) :
    List.Forall₂ (Site.Erased relates) ((node.sites path).filter Site.isCode) (plain.sites others) := by
  refine Node.Erased.induct (motive := fun node plain => node.isCode = true → ∀ path others,
    PathErased relates path others → (∀ around ∈ path, around.isCode = true) →
    List.Forall₂ (Site.Erased relates) ((node.sites path).filter Site.isCode) (plain.sites others))
    (fun {node plain} erased below code path others outer outside => ?_) erased code path others
    outer outside
  have none : ∀ child ∈ node.children, child.isCode = false →
      (child.sites (node :: path)).filter Site.isCode = [] := fun child _ isType =>
    List.filter_eq_nil_iff.mpr fun site inside => by
      rw [Node.isCode_of_below_type isType inside]
      exact Bool.false_ne_true
  have here : Site.isCode ⟨node, path⟩ = true := Site.isCode_iff.mpr ⟨code, outside⟩
  rw [Node.sites_eq, Node.sites_eq others, List.filter_cons_of_pos here, List.filter_flatMap,
    ← flatMap_filter_eq_iff.mpr none]
  refine .cons ⟨erased, outer⟩ ?_
  have members := (List.forall₂_and_left _ _).mpr
    ⟨fun child (member : child ∈ node.code) => member, below⟩
  refine List.rel_flatMap members fun child other both => ?_
  obtain ⟨isChild, isCode⟩ := List.mem_filter.mp both.1
  refine both.2 isCode _ _ (.cons ⟨erased, child, isChild, isCode⟩ outer) fun around member => ?_
  rcases List.mem_cons.mp member with rfl | further
  · exact code
  · exact outside around further

end Syntax

namespace Component

open Syntax

section Tree

variable {relates : Node → Node → Prop} {node plain : Node}

theorem endsInElement_erased {nodes others : List Node}
    (each : List.Forall₂ (fun node plain => isElement plain = isElement node) nodes others) :
    endsInElement others = endsInElement nodes := by
  induction each with
  | nil => rfl
  | @cons node plain rest more same each ih =>
    cases each with
    | nil => simpa [endsInElement] using same
    | cons => simpa [endsInElement] using ih

theorem isElement_erased (erased : Node.Erased relates node plain) :
    isElement plain = isElement node := by
  induction node using Node.induction generalizing plain with
  | step kind span children role mark ih =>
    obtain ⟨otherKind, _, others, _, _⟩ := plain
    obtain rfl : kind = otherKind := erased.kind.symm
    have same (never : ∀ role, kind.holdsTypeAs role = false) :
        List.Forall₂ (fun node plain => isElement plain = isElement node) children others := by
      have operands := (List.forall₂_and_left _ _).mpr
        ⟨fun child (member : child ∈ children) => member, erased.operands never⟩
      exact operands.imp fun child _ both => ih child both.1 both.2
    cases kind
    case parenthesized =>
      rcases same fun _ => rfl with _ | ⟨inner, _ | ⟨_, _⟩⟩
      case cons.nil => simpa [isElement] using inner
      all_goals rfl
    case conditional =>
      rcases same fun _ => rfl with
        _ | ⟨_, _ | ⟨consequent, _ | ⟨alternate, _ | ⟨_, _⟩⟩⟩⟩
      case cons.cons.cons.nil => simp [isElement, consequent, alternate]
      all_goals rfl
    case logical coalesces =>
      rcases same fun _ => rfl with _ | ⟨_, _ | ⟨right, _ | ⟨_, _⟩⟩⟩
      case cons.cons.nil => simpa [isElement] using right
      all_goals rfl
    case sequence => simpa [isElement] using endsInElement_erased (same fun _ => rfl)
    all_goals rfl

theorem isRenderOutput_erased (erased : Node.Erased relates node plain) :
    isRenderOutput plain = isRenderOutput node := by
  rw [isRenderOutput, isRenderOutput, isElement_erased erased, erased.withoutParentheses.kind]

theorem returnsOutput_of_type (isType : node.isCode = false) : returnsOutput node = false := by
  obtain ⟨kind, span, children, role, mark⟩ := node
  cases kind <;> first | rfl | cases isType

theorem someReturnsOutput_erased {nodes others : List Node}
    (each : List.Forall₂ (fun node plain => returnsOutput plain = returnsOutput node)
      (nodes.filter Node.isCode) others) :
    someReturnsOutput others = someReturnsOutput nodes := by
  induction nodes generalizing others with
  | nil => cases each; rfl
  | cons node rest ih =>
    cases code : node.isCode with
    | false =>
      rw [List.filter_cons_of_neg (by simp [code])] at each
      rw [ih each, someReturnsOutput, returnsOutput_of_type code, Bool.false_or]
    | true =>
      rw [List.filter_cons_of_pos code] at each
      obtain ⟨plain, more, same, later, rfl⟩ := List.forall₂_cons_left_iff.mp each
      rw [someReturnsOutput, someReturnsOutput, same, ih later]

theorem returnsOutput_erased (erased : Node.Erased relates node plain) :
    returnsOutput plain = returnsOutput node := by
  refine Node.Erased.induct (motive := fun node plain => returnsOutput plain = returnsOutput node)
    (fun {node plain} erased below => ?_) erased
  have inside := someReturnsOutput_erased below
  obtain ⟨kind, span, children, role, mark⟩ := node
  obtain ⟨otherKind, _, others, _, _⟩ := plain
  obtain rfl : kind = otherKind := erased.kind.symm
  cases kind
  case returnStatement =>
    have operands : List.Forall₂ (Node.Erased relates) children others :=
      erased.operands fun _ => rfl
    rcases operands with _ | ⟨argument, _ | ⟨_, _⟩⟩
    case cons.nil => simpa [returnsOutput] using isRenderOutput_erased argument
    all_goals rfl
  all_goals first
    | rfl
    | exact inside

theorem functionReturnsOutput_erased (erased : Node.Erased relates node plain)
    (function : (∃ declares name, node.kind = .function declares name) ∨
      ∃ isExpression, node.kind = .arrow isExpression) :
    functionReturnsOutput plain = functionReturnsOutput node := by
  have never : node.kind.holdsTypeAs .body = false := by
    rcases function with ⟨_, _, kind⟩ | ⟨_, kind⟩ <;> rw [kind] <;> rfl
  unfold functionReturnsOutput
  rw [erased.kind]
  rcases erased.part? never with ⟨one, two⟩ | ⟨body, other, one, two, related⟩
  · rw [one, two]
  · have block : someReturnsOutput other.children = someReturnsOutput body.children :=
      someReturnsOutput_erased (related.children.imp fun _ _ => returnsOutput_erased)
    rw [one, two]
    rcases function with ⟨_, _, kind⟩ | ⟨isExpression, kind⟩
    · rw [kind]
      exact block
    · rw [kind]
      cases isExpression
      · exact block
      · exact isRenderOutput_erased related

theorem namesFrom_erased (pragma : String) (test : String → Bool)
    (erased : Node.Erased relates node plain) :
    namesFrom pragma test plain = namesFrom pragma test node := by
  unfold namesFrom
  rw [erased.kind]
  cases kind : node.kind
  case staticMember property =>
    have object := erased.part? (by rw [kind]; rfl : node.kind.holdsTypeAs .object = false)
    have named := object.congr (Option.bind · Node.identifier?) fun part other related =>
      related.identifier?
    dsimp only at named ⊢
    rw [named]
  all_goals rfl

theorem isClassComponent_erased (pragma : String) (erased : Node.Erased relates node plain)
    (never : node.kind.holdsTypeAs .superClass = false) :
    isClassComponent pragma plain = isClassComponent pragma node :=
  (erased.part? never).congr
    (Option.any fun base : Node => namesFrom pragma isComponentBase base.withoutParentheses)
    fun _ _ related => namesFrom_erased pragma isComponentBase related.withoutParentheses

/-- A node that holds code makes the same of a function without types. -/
theorem accepts_at?_erased (pragma : String) (ownName : Option String) (span : Span)
    (erased : Node.Erased relates node plain) (holds : ∃ child ∈ node.children, child.isCode = true) :
    Holder.accepts pragma ownName (Holder.at? span plain) =
      Holder.accepts pragma ownName (Holder.at? span node) := by
  have outer {role : Role} (parts : Node.PartErased relates role node plain) :
      partSpan? plain role = partSpan? node role :=
    parts.congr (Option.map Node.span) fun _ _ related => congrArg some related.span
  have inner {role : Role} (parts : Node.PartErased relates role node plain) :
      innerSpan? plain role = innerSpan? node role :=
    parts.congr (Option.map fun part : Node => part.withoutParentheses.span) fun _ _ related =>
      congrArg some related.withoutParentheses.span
  have bound (parts : Node.PartErased relates .target node plain) :
      (plain.part? .target).bind boundName? = (node.part? .target).bind boundName? :=
    parts.congr (Option.bind · boundName?) fun _ _ related => by
      simp only [Option.bind_some, boundName?, related.kind]
  have assigned (parts : Node.PartErased relates .target node plain) :
      (plain.part? .target).bind targetName? = (node.part? .target).bind targetName? :=
    parts.congr (Option.bind · targetName?) fun _ _ related => by
      simp only [Option.bind_some, targetName?, related.kind]
  unfold Holder.at?
  rw [erased.kind]
  cases kind : node.kind
  case declarator =>
    dsimp only
    rw [inner (erased.part? (by rw [kind]; rfl)), bound (erased.part? (by rw [kind]; rfl))]
  case assignment plainly =>
    dsimp only
    rw [inner (erased.part? (by rw [kind]; rfl)), assigned (erased.part? (by rw [kind]; rfl))]
  case call =>
    have callee : Node.PartErased relates .callee node plain := erased.part? (by rw [kind]; rfl)
    dsimp only
    rw [outer (erased.part? (by rw [kind]; rfl))]
    split
    · exact callee.congr (fun callee => Holder.accepts pragma ownName (callee.map .wrapper))
        fun _ _ related => by
          simp only [Option.map_some, Holder.accepts, namesFrom_erased pragma isWrapperName related]
    · rfl
  case exportDefault =>
    have allCode : ∀ child ∈ node.children, child.role = .value → child.isCode = true := by
      obtain ⟨code, isChild, isCode⟩ := holds
      intro child member _
      by_contra isType
      have none := erased.inPlace.whole kind child member (Bool.eq_false_iff.mpr isType) code isChild
      rw [isCode] at none
      cases none
    dsimp only
    rw [outer (erased.part?_of_code allCode)]
  case method =>
    dsimp only
    rw [outer (erased.part? (by rw [kind]; rfl))]
  case property isMethod =>
    dsimp only
    rw [inner (erased.part? (by rw [kind]; rfl))]
  case field =>
    dsimp only
    rw [inner (erased.part? (by rw [kind]; rfl))]
  all_goals rfl

end Tree

section Path

variable {relates : Node → Node → Prop} {path others : List Node}

theorem accepts_of?_erased (pragma : String) (ownName : Option String) (span : Span)
    (outer : PathErased relates path others) :
    Holder.accepts pragma ownName (Holder.of? span others) =
      Holder.accepts pragma ownName (Holder.of? span path) := by
  unfold Holder.of?
  induction outer with
  | nil => rfl
  | @cons node plain _ _ both _ ih =>
    rw [List.find?_cons, List.find?_cons, both.1.kind]
    split
    · exact accepts_at?_erased pragma ownName span both.1 both.2
    · exact ih

/-- Whether a node is a component does not depend on types in it or around it. -/
theorem isComponent_erased (pragma : String) {node plain : Node}
    (erased : Node.Erased relates node plain) (outer : PathErased relates path others) :
    isComponent pragma plain others = isComponent pragma node path := by
  unfold isComponent
  rw [erased.kind]
  cases kind : node.kind
  case classNode declares name =>
    exact isClassComponent_erased pragma erased (by rw [kind]; rfl)
  case function declares name =>
    dsimp only [isFunctionComponent]
    rw [functionReturnsOutput_erased erased (.inl ⟨declares, name, kind⟩), erased.span,
      accepts_of?_erased pragma name node.span outer]
  case arrow isExpression =>
    dsimp only [isFunctionComponent]
    rw [functionReturnsOutput_erased erased (.inr ⟨isExpression, kind⟩), erased.span,
      accepts_of?_erased pragma none node.span outer]
  all_goals rfl

end Path

end Component

end ClientBoundary
