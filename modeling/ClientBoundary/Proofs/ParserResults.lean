import ClientBoundary.Proofs.TypeErasure
import ClientBoundary.Syntax.Module

/-! What a parser can give. Nothing is said of the texts that it reads or of where it stops: a
property of results passes through the ways in which parsers are put together, and so does the
property of a tree that its types stand where they may. Whether a node has it is told by its kind
and its parts. -/
namespace ClientBoundary.Syntax

namespace Parser

variable {α β γ : Type} {holds : α → Prop} {gives : β → Prop}

/-- Whatever a parser gives has a property. -/
def Gives (holds : α → Prop) (parser : Parser α) : Prop :=
  ∀ context state result after, parser context state = some (result, after) → holds result

namespace Gives

theorem pure {value : α} (here : holds value) : Gives holds (pure value : Parser α) := by
  intro context state result after run
  cases run
  exact here

theorem failure : Gives holds (failure : Parser α) := by
  intro context state result after run
  cases run

theorem bind {first : Parser α} {next : α → Parser β} (given : Gives holds first)
    (further : ∀ value, holds value → Gives gives (next value)) : Gives gives (first >>= next) := by
  intro context state result after run
  obtain ⟨⟨value, between⟩, read, rest⟩ := Option.bind_eq_some_iff.mp run
  exact further value (given context state value between read) context between result after rest

theorem skip {first : Parser α} {next : α → Parser β} (further : ∀ value, Gives gives (next value)) :
    Gives gives (first >>= next) :=
  bind (fun _ _ _ _ _ => trivial : Gives (fun _ => True) first) fun value _ => further value

theorem imp {parser : Parser α} {weaker : α → Prop} (given : Gives holds parser)
    (implies : ∀ value, holds value → weaker value) : Gives weaker parser :=
  fun context state result after run => implies result (given context state result after run)

theorem orElse {first second : Parser α} (given : Gives holds first) (other : Gives holds second) :
    Gives holds (first <|> second) := by
  intro context state result after run
  change (first context state <|> second context state) = some (result, after) at run
  cases read : first context state with
  | none =>
    rw [read] at run
    exact other context state result after run
  | some pair =>
    rw [read] at run
    cases run
    exact given context state result after read

theorem within {parser : Parser α} (given : Gives holds parser) (change : Context → Context) :
    Gives holds (within change parser) :=
  fun context => given (change context)

theorem bracketed {parser : Parser α} (given : Gives holds parser) :
    Gives holds (bracketed parser) :=
  given.within _

theorem some {parser : Parser α} (given : Gives holds parser) :
    Gives (fun found => ∀ value ∈ found, holds value) (Option.some <$> parser) :=
  given.bind fun value here => .pure (by simpa using here)

theorem none :
    Gives (fun found => ∀ value ∈ found, holds value) (Pure.pure Option.none : Parser (Option α)) :=
  .pure (by simp)

theorem attempt {parser : Parser α} (given : Gives holds parser) :
    Gives (fun found => ∀ value ∈ found, holds value) (attempt parser) :=
  given.some.orElse .none

theorem iterate {I : α → Prop} {start : α} {step : α → Parser (Option α)} (here : I start)
    (steps : ∀ value, I value → Gives (fun next => ∀ value ∈ next, I value) (step value)) :
    Gives I (iterate start step) := by
  refine .skip fun context => ?_
  induction context.bound generalizing start with
  | zero => exact .failure
  | succ bound ih =>
    refine (steps start here).bind fun next further => ?_
    cases next with
    | none => exact .pure here
    | some value => exact ih (further value rfl)

theorem many {P : α → Prop} {item : Parser (Option α)}
    (given : Gives (fun found => ∀ value ∈ found, P value) item) :
    Gives (fun items => ∀ value ∈ items, P value) (many item) := by
  refine .bind (.iterate (I := fun items => ∀ value ∈ items, P value) (by simp) ?_)
    fun items known => .pure (by simpa using known)
  refine fun items known => given.bind fun found here => ?_
  cases found with
  | none => exact .none
  | some value => exact .pure (by simpa using ⟨here value rfl, known⟩)

theorem foldrM {I : β → Prop} {items : List α} {step : α → β → Parser β} {start : β}
    (here : I start) (steps : ∀ item value, I value → Gives I (step item value)) :
    Gives I (items.foldrM step start) := by
  rw [List.foldrM]
  induction items.reverse generalizing start with
  | nil => exact .pure here
  | cons item rest ih => exact (steps item start here).bind fun value known => ih known

/-! Branches that come together again. -/

section Branches

variable {condition : Prop} [Decidable condition]

theorem pureBind {value : α} {next : α → Parser β} (further : Gives gives (next value)) :
    Gives gives (Pure.pure value >>= next) := further

theorem ite {first second : Parser α} (one : Gives holds first) (two : Gives holds second) :
    Gives holds (if condition then first else second) := by
  split
  · exact one
  · exact two

theorem when {step : Parser α} {rest : Parser β} (further : Gives gives rest) :
    Gives gives (if condition then step >>= fun _ => rest else rest) := by
  split
  · exact .skip fun _ => further
  · exact further

theorem both {first second : Parser α} {next : α → Parser β} (one : Gives holds first)
    (two : Gives holds second) (further : ∀ value, holds value → Gives gives (next value)) :
    Gives gives (if condition then first >>= next else second >>= next) := by
  split
  · exact one.bind further
  · exact two.bind further

theorem either {first second : Parser α} {next : α → Parser β}
    (further : ∀ value, Gives gives (next value)) :
    Gives gives (if condition then first >>= next else second >>= next) := by
  split
  · exact .skip further
  · exact .skip further

theorem optional {part : Parser α} {make : α → β} {usual : β → Prop} {next : List β → Parser γ}
    {whole : γ → Prop} (given : Gives holds part) (made : ∀ value, holds value → usual (make value))
    (further : ∀ values, (∀ value ∈ values, usual value) → Gives whole (next values)) :
    Gives whole (if condition then part >>= fun value => Pure.pure [make value] >>= next
      else Pure.pure [] >>= next) := by
  split
  · exact given.bind fun value here => .pureBind (further _ (by simpa using made value here))
  · exact .pureBind (further _ (by simp))

theorem optionalElse {part : Parser α} {make : α → β} {usual : β → Prop} {next : List β → Parser γ}
    {whole : γ → Prop} (given : Gives holds part) (made : ∀ value, holds value → usual (make value))
    (further : ∀ values, (∀ value ∈ values, usual value) → Gives whole (next values)) :
    Gives whole (if condition then Pure.pure [] >>= next
      else part >>= fun value => Pure.pure [make value] >>= next) := by
  split
  · exact .pureBind (further _ (by simp))
  · exact given.bind fun value here => .pureBind (further _ (by simpa using made value here))

end Branches

theorem commaList {P : α → Prop} {closes : Parser Bool} {item : Parser α} (given : Gives P item) :
    Gives (fun list => ∀ value ∈ list.1, P value) (commaList closes item) := by
  refine .bind (.iterate (I := fun list => ∀ value ∈ list.1, P value) (by simp) ?_)
    fun (items, more) known => .pure (by simpa using known)
  refine fun (items, more) known => .skip fun ends => ?_
  split
  · exact .none
  · refine given.bind fun value here => .skip fun lexeme => .when (.pure ?_)
    simpa using ⟨here, known⟩

end Gives

end Parser

/-- Kinds of nodes that are known by their parts alone. -/
def Kind.isUsual : Kind → Bool
  | .exportDefault | .instantiation | .identifier _ _ => false
  | kind => !kind.isTypeOnly

namespace Node

/-- Types stand where they may, and what is given type arguments is no type itself. -/
structure Formed (node : Node) : Prop where
  inPlace : node.TypesInPlace
  operand : node.kind = .instantiation → ∀ child ∈ node.children.head?, child.isCode = true
  arguments : node.kind = .instantiation → ∀ child ∈ node.children, child.isCode = false →
    child.role = .item

structure CodeTree (node : Node) : Prop where
  code : node.isCode = true
  formed : node.Everywhere Formed

structure TypeTree (node : Node) : Prop where
  type : node.isCode = false
  unnamed : node.kind.isInterface = false
  item : node.role = .item
  formed : node.Everywhere Formed

/-- Code, or a type that is an item of what is around it. -/
structure ItemTree (node : Node) : Prop where
  item : node.isCode = false → node.role = .item
  formed : node.Everywhere Formed

/-- A tree that can be a part of a kind of node. -/
structure Fits (kind : Kind) (node : Node) : Prop where
  aside : node.isCode = false → kind.holdsTypeAs node.role = true
  formed : node.Everywhere Formed

def Parts (kind : Kind) (nodes : List Node) : Prop := ∀ node ∈ nodes, node.Fits kind

theorem Everywhere.inRole {node : Node} (all : node.Everywhere Formed) (role : Role) :
    (node.inRole role).Everywhere Formed :=
  have ⟨⟨aside, whole, pure, leaf⟩, operand, arguments⟩ := all.here
  .mk ⟨⟨aside, whole, pure, leaf⟩, operand, arguments⟩ all.inside

section Parts

variable {kind : Kind} {node : Node} {nodes others : List Node}

theorem CodeTree.inRole (tree : node.CodeTree) (role : Role) : (node.inRole role).CodeTree :=
  ⟨tree.code, tree.formed.inRole role⟩

theorem CodeTree.fits (tree : node.CodeTree) : node.Fits kind :=
  ⟨fun type => (Bool.false_ne_true (type.symm.trans tree.code)).elim, tree.formed⟩

theorem CodeTree.item (tree : node.CodeTree) : node.ItemTree :=
  ⟨fun type => (Bool.false_ne_true (type.symm.trans tree.code)).elim, tree.formed⟩

theorem ItemTree.fits (tree : node.ItemTree) (holds : kind.holdsTypeAs .item = true) :
    node.Fits kind :=
  ⟨fun type => by rwa [tree.item type], tree.formed⟩

theorem ItemTree.fitsIn (tree : node.ItemTree) {role : Role} (holds : kind.holdsTypeAs role = true) :
    (node.inRole role).Fits kind :=
  ⟨fun _ => holds, tree.formed.inRole role⟩

theorem Parts.nil : Parts kind [] := nofun

theorem Parts.cons (first : node.Fits kind) (rest : Parts kind nodes) :
    Parts kind (node :: nodes) :=
  List.forall_mem_cons.mpr ⟨first, rest⟩

theorem Parts.one (only : node.Fits kind) : Parts kind [node] := .cons only .nil

theorem Parts.append (first : Parts kind nodes) (rest : Parts kind others) :
    Parts kind (nodes ++ others) :=
  List.forall_mem_append.mpr ⟨first, rest⟩

theorem Parts.code (all : ∀ node ∈ nodes, node.CodeTree) : Parts kind nodes :=
  fun node member => (all node member).fits

theorem Parts.items (all : ∀ node ∈ nodes, node.ItemTree) (holds : kind.holdsTypeAs .item = true) :
    Parts kind nodes :=
  fun node member => (all node member).fits holds

theorem Parts.found {found : List (Option Node)} (all : ∀ place ∈ found, ∀ node ∈ place, node.CodeTree) :
    Parts kind (found.filterMap id) := by
  refine .code fun node member => ?_
  obtain ⟨place, listed, here⟩ := List.mem_filterMap.mp member
  exact all place listed node here

theorem TypeTree.toItem (tree : node.TypeTree) : node.ItemTree := ⟨fun _ => tree.item, tree.formed⟩

theorem Parts.types (all : ∀ node ∈ nodes, node.TypeTree) (holds : kind.holdsTypeAs .item = true) :
    Parts kind nodes :=
  .items (fun node member => (all node member).toItem) holds

end Parts

/-- A node of a usual kind, or an interface, is well formed if its parts fit. -/
theorem formed_of_parts {node : Node} (usual : node.kind.isUsual = true ∨ node.kind.isInterface = true)
    (parts : Parts node.kind node.children) : node.Everywhere Formed := by
  have plain : node.kind ≠ .instantiation := by
    intro is
    simp [is, Kind.isUsual, Kind.isInterface] at usual
  refine .mk ⟨⟨fun child member => (parts child member).aside, ?_, ?_, ?_⟩,
    fun is => absurd is plain, fun is => absurd is plain⟩ fun child member => (parts child member).formed
  · intro exports
    simp [exports, Kind.isUsual, Kind.isInterface] at usual
  · intro type unnamed
    rw [isCode] at type
    cases is : node.kind <;> simp_all [Kind.isUsual, Kind.isTypeOnly, Kind.isInterface]
  · intro name
    rw [identifier?] at name
    split at name
    · next is => simp [is, Kind.isUsual, Kind.isInterface] at usual
    · cases name

theorem codeTree_of_parts {node : Node} (usual : node.kind.isUsual = true)
    (parts : Parts node.kind node.children) : node.CodeTree := by
  refine ⟨?_, formed_of_parts (.inl usual) parts⟩
  rw [isCode]
  cases is : node.kind <;> simp_all [Kind.isUsual, Kind.isTypeOnly]

theorem codeTree_of_childless {node : Node} (code : node.kind.isTypeOnly = false)
    (childless : node.children = []) : node.CodeTree := by
  refine ⟨by rw [isCode, code]; rfl, .mk ⟨⟨?_, ?_, ?_, fun _ => childless⟩, ?_, ?_⟩ ?_⟩
  all_goals simp [childless]

theorem CodeTree.operands {node expression arguments : Node} (tree : node.CodeTree)
    (is : node.kind = .instantiation) (children : node.children = [expression, arguments]) :
    expression.CodeTree ∧ arguments.ItemTree := by
  obtain ⟨_, operand, items⟩ := tree.formed.here
  have inside := tree.formed.inside
  rw [children] at operand items inside
  exact ⟨⟨operand is expression rfl, inside _ (by simp)⟩, ⟨items is _ (by simp), inside _ (by simp)⟩⟩

theorem codeTree_instantiation {node : Node} (is : node.kind = .instantiation)
    (formed : ∀ child ∈ node.children, child.ItemTree)
    (operand : ∀ child ∈ node.children.head?, child.isCode = true) : node.CodeTree := by
  have parts : Parts .instantiation node.children := .items formed rfl
  refine ⟨by rw [isCode, is]; rfl, .mk ⟨⟨?_, ?_, ?_, ?_⟩, fun _ => operand, ?_⟩ ?_⟩
  · rw [is]
    exact fun child member => (parts child member).aside
  · simp [is]
  · simp [isCode, is, Kind.isTypeOnly]
  · simp [identifier?, is]
  · exact fun _ child member => (formed child member).item
  · exact fun child member => (formed child member).formed

/-- A default export of code, or of a type as a whole. -/
theorem codeTree_exportDefault {span : Span} {value : Node} (formed : value.Everywhere Formed) :
    CodeTree { kind := .exportDefault, span, children := [value.inRole .value] } := by
  refine ⟨rfl, .mk ⟨⟨?_, ?_, nofun, nofun⟩, nofun, nofun⟩ ?_⟩
  · simp [inRole, Kind.holdsTypeAs]
  · simp
  · simpa using formed.inRole .value

/-- A node that only says something about types, with types and names for its parts. -/
theorem typeTree_of_parts {node : Node} (type : node.kind.isTypeOnly = true)
    (unnamed : node.kind.isInterface = false) (item : node.role = .item)
    (parts : ∀ child ∈ node.children, child.TypeTree ∨
      child.CodeTree ∧ child.identifier?.isSome = true) : node.TypeTree := by
  have isType : node.isCode = false := by rw [isCode, type]; rfl
  have holds : node.kind.holdsTypeAs .item = true := by
    cases is : node.kind <;> simp_all [Kind.isTypeOnly, Kind.holdsTypeAs]
  have plain : node.kind ≠ .instantiation := by
    intro instantiates
    rw [instantiates] at type
    cases type
  refine ⟨isType, unnamed, item, .mk ⟨⟨?_, ?_, ?_, ?_⟩, fun is => absurd is plain,
    fun is => absurd is plain⟩ ?_⟩
  · intro child member childType
    rcases parts child member with tree | ⟨tree, _⟩
    · rwa [tree.item]
    · exact tree.fits.aside childType
  · intro exports
    rw [exports] at type
    cases type
  · intro _ _ child member
    exact (parts child member).imp (fun tree => ⟨tree.type, tree.unnamed⟩) (·.2)
  · intro name
    rw [identifier?] at name
    split at name
    · next is =>
      rw [is] at type
      cases type
    · cases name
  · intro child member
    exact (parts child member).elim (·.formed) (·.1.formed)

end Node

namespace Parser.Gives

open Node

theorem item {parser : Parser Node} (given : Gives CodeTree parser) : Gives ItemTree parser :=
  given.imp fun _ tree => tree.item

theorem finish {start : Nat} {kind : Kind} {children : List Node} (usual : kind.isUsual = true)
    (parts : Parts kind children) : Gives CodeTree (finish start kind children) :=
  .skip fun _ => .pure (codeTree_of_parts usual parts)

theorem leaf {kind : Kind} (code : kind.isTypeOnly = false) : Gives CodeTree (leaf kind) :=
  .skip fun _ => .skip fun _ => .pure (codeTree_of_childless code rfl)

theorem finishChildless {start : Nat} {kind : Kind} :
    Gives (fun node => node.kind = kind ∧ node.children = []) (Parser.finish start kind) :=
  .skip fun _ => .pure ⟨rfl, rfl⟩

theorem finishName {start : Nat} {name : String} {use : Use} :
    Gives (fun node => node.CodeTree ∧ node.identifier?.isSome = true)
      (Parser.finish start (.identifier name use)) :=
  .skip fun _ => .pure ⟨codeTree_of_childless rfl rfl, rfl⟩

theorem finishInstantiation {start : Nat} {expression arguments : Node} (tree : expression.CodeTree)
    (types : arguments.TypeTree) :
    Gives CodeTree (Parser.finish start .instantiation [expression, arguments]) :=
  .skip fun _ => .pure (codeTree_instantiation rfl (by simpa using ⟨tree.item, types.toItem⟩)
    (by simpa using tree.code))

theorem finishInterface {start : Nat} {name : String} {children : List Node}
    (parts : Parts (.interface name) children) :
    Gives ItemTree (Parser.finish start (.interface name) children) :=
  .skip fun _ => .pure ⟨fun _ => rfl, formed_of_parts (.inr rfl) parts⟩

theorem finishDefault {start : Nat} {value : Node} (formed : value.Everywhere Formed) :
    Gives CodeTree (Parser.finish start .exportDefault [value.inRole .value]) :=
  .skip fun _ => .pure (codeTree_exportDefault formed)

theorem finishType {start : Nat} {kind : Kind} {children : List Node} (type : kind.isTypeOnly = true)
    (unnamed : kind.isInterface = false)
    (parts : ∀ child ∈ children, child.TypeTree ∨ child.CodeTree ∧ child.identifier?.isSome = true) :
    Gives TypeTree (Parser.finish start kind children) :=
  .skip fun _ => .pure (typeTree_of_parts type unnamed rfl parts)

end Parser.Gives

/-- The trees that a place of the grammar stands for. -/
def Goal.Result : Goal → Node → Prop
  | .type => Node.TypeTree
  | .statement _ => Node.ItemTree
  | _ => Node.CodeTree

def Grammar.Sound (g : Grammar) : Prop := ∀ goal, Parser.Gives goal.Result (g goal)

namespace Grammar.Sound

variable {g : Grammar} (sound : g.Sound)

include sound

theorem type : Parser.Gives Node.TypeTree (g .type) := sound .type

theorem statement (alone : Bool) : Parser.Gives Node.ItemTree (g (.statement alone)) :=
  sound (.statement alone)

theorem assignment : Parser.Gives Node.CodeTree (Parser.assignment g) := sound (.assignment true)

theorem expression : Parser.Gives Node.CodeTree (g .expression) := sound .expression

theorem pattern : Parser.Gives Node.CodeTree (g .pattern) := sound .pattern

end Grammar.Sound

end ClientBoundary.Syntax
