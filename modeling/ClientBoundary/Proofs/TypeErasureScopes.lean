import ClientBoundary.Proofs.HiddenNames

/-! Scopes of a tree without its types. Types open scopes, too, so that the scopes of the other
nodes have other numbers without them. But these are linked as before, and each of them declares as
before every name that no type declares. -/
namespace ClientBoundary.Scope

open Syntax

structure Place.Stands (ids : List Nat) (place plain : Place) : Prop where
  scope : Scope.Stands ids place.scope plain.scope
  kind : place.kind = plain.kind
  isVar : place.isVar = plain.isVar
  inCatch : place.inCatch = plain.inCatch

theorem Place.Stands.append {ids : List Nat} {place plain : Place} (stands : place.Stands ids plain)
    (more : List Nat) : place.Stands (ids ++ more) plain :=
  ⟨stands.scope.append more, stands.kind, stands.isVar, stands.inCatch⟩

section Steps

variable {hidden : List String} {ids : List Nat} {table small : Table} {place plain : Place}
  (keeps : table.Keeps hidden ids small) (stands : place.Stands ids plain)

include keeps stands

theorem declareIn_keeps (binding : Binding) :
    (declareIn place binding table).Keeps hidden ids (declareIn plain binding small) := by
  unfold declareIn
  rw [stands.isVar]
  by_cases known : binding.name ∈ hidden
  · split
    · exact keeps.of_unseen (Table.unseen_declareVariable table _ known)
        (keeps.rooted.of_grows (Table.grows_declareVariable ..) (Table.size_declareVariable ..))
        (Table.unseen_declareVariable small _ known) (Table.size_declareVariable ..)
    · exact keeps.of_unseen (Table.unseen_declare table _ known)
        (keeps.rooted.of_grows (Table.grows_declare ..) (Table.size_update ..))
        (Table.unseen_declare small _ known) (Table.size_update ..)
  · split
    · exact keeps.declareVariable stands.scope known
    · exact keeps.declare stands.scope known

theorem declareOuter_keeps (kind : Kind) :
    (declareOuter place kind table).Keeps hidden ids (declareOuter plain kind small) := by
  have same : outerBinding? place kind = outerBinding? plain kind := by
    unfold outerBinding?
    rw [stands.kind]
  unfold declareOuter
  rw [same]
  split
  · exact declareIn_keeps keeps stands _
  · exact keeps

theorem handOver_keeps (kind : Kind) :
    (handOver place kind table).Keeps hidden ids (handOver plain kind small) := by
  unfold handOver takesOver
  rw [stands.inCatch]
  split
  · refine keeps.update stands.scope (fun _ => rfl) fun frame other same => ?_
    have holds := congrArg Frame.holdsVariables same
    have passed := congrArg Frame.passed same
    simp only [Frame.shown] at holds passed ⊢
    rw [holds, passed]
  · exact keeps

theorem takenOver_shown (kind : Kind) :
    (takenOver place kind table).filter (·.name ∉ hidden) =
      (takenOver plain kind small).filter (·.name ∉ hidden) := by
  obtain ⟨frame, other, found, foundToo, same⟩ := keeps.frames stands.scope
  unfold takenOver
  rw [stands.inCatch]
  split
  · rw [found, foundToo]
    exact congrArg Frame.bindings same
  · rfl

/-- A scope that opens in both tables is the next one in each. -/
theorem openScope_keeps {node other : Node} (kind : other.kind = node.kind) :
    (openScope place node table).Keeps hidden (ids ++ [table.size])
      (openScope plain other small) := by
  have there := keeps.scope_lt stands.scope
  have thereToo := keeps.other_lt stands.scope
  have rooted := keeps.rooted.openScope there node
  have plainRooted := keeps.plainRooted.openScope thereToo other
  have handed := handOver_keeps keeps stands node.kind
  have size : (handOver place node.kind table).size = table.size := by
    unfold handOver
    split
    · exact Table.size_update ..
    · rfl
  have begun : table.isEmpty = false :=
    Array.isEmpty_eq_false_iff.mpr (Array.ne_empty_of_size_pos (by omega))
  have begunToo : small.isEmpty = false :=
    Array.isEmpty_eq_false_iff.mpr (Array.ne_empty_of_size_pos (by omega))
  rw [openScope_eq_push, begun] at rooted ⊢
  rw [openScope_eq_push, begunToo, kind] at plainRooted ⊢
  rw [← size]
  refine handed.push ?_ (.some stands.scope) rooted plainRooted
  simp only [Frame.shown, List.filter_append, takenOver_shown keeps stands]

end Steps

/-! The first pass. -/

theorem bind_kind (place : Place) (node : Node) (table : Table) :
    (bind place node table).1.kind = node.kind := by
  cases opens : opensScope node.kind
  · rw [bind_of_no_scope place node table opens]
  · rw [bind_of_scope place node table opens]

theorem bind_isCode (place : Place) (node : Node) (table : Table) :
    (bind place node table).1.isCode = node.isCode := by
  rw [Node.isCode, Node.isCode, bind_kind]

theorem mem_bindAll {place : Place} {nodes : List Node} {table : Table} {bound : Node}
    (member : bound ∈ (bindAll place nodes table).1) :
    ∃ node ∈ nodes, ∃ before, bound = (bind place node before).1 := by
  induction nodes generalizing table with
  | nil => cases member
  | cons node rest ih =>
    rcases List.mem_cons.mp member with rfl | later
    · exact ⟨node, List.mem_cons_self, table, rfl⟩
    · obtain ⟨same, inside, bound⟩ := ih later
      exact ⟨same, List.mem_cons_of_mem _ inside, bound⟩

/-- What is below a node that has been bound was below it before. -/
theorem mem_bind_children {place : Place} {node : Node} {table : Table} {bound : Node}
    (member : bound ∈ (bind place node table).1.children) :
    ∃ child ∈ node.children, ∃ inner before, bound = (bind inner child before).1 := by
  cases opens : opensScope node.kind
  · rw [bind_of_no_scope place node table opens] at member
    obtain ⟨child, isChild, before, same⟩ := mem_bindAll member
    exact ⟨child, isChild, _, before, same⟩
  · rw [bind_of_scope place node table opens] at member
    rcases List.mem_append.mp member with inHeads | inRest
    · obtain ⟨child, isHead, before, same⟩ := mem_bindAll inHeads
      exact ⟨child, List.mem_of_mem_filter isHead, _, before, same⟩
    · obtain ⟨child, isOther, before, same⟩ := mem_bindAll inRest
      exact ⟨child, List.mem_of_mem_filter isOther, _, before, same⟩

theorem bind_typesInPlace {node : Node} (inPlace : node.TypesInPlace) (place : Place) (table : Table) :
    (bind place node table).1.TypesInPlace := by
  refine inPlace.of_children (bind_kind place node table) fun bound member => ?_
  obtain ⟨child, isChild, inner, before, rfl⟩ := mem_bind_children member
  exact ⟨child, isChild, bind_kind .., bind_role ..⟩

theorem resolve_typesInPlace {node : Node} (inPlace : node.TypesInPlace) (table : Table)
    (around : List Nat) : (resolve table around node).TypesInPlace := by
  refine inPlace.of_children (resolve_kind table around node) fun child member => ?_
  rw [resolve_children] at member
  obtain ⟨same, isSame, rfl⟩ := List.mem_map.mp member
  exact ⟨same, isSame, resolve_kind .., resolve_role ..⟩

theorem analyze_typesInPlace {program : Node} (all : program.Everywhere Node.TypesInPlace) :
    (analyze program).1.Everywhere Node.TypesInPlace := by
  have bound (node : Node) (all : node.Everywhere Node.TypesInPlace) (place : Place) (table : Table) :
      (bind place node table).1.Everywhere Node.TypesInPlace := by
    induction all generalizing place table with
    | mk here inside ih =>
      refine .mk (bind_typesInPlace here place table) fun child member => ?_
      obtain ⟨child, isChild, inner, before, rfl⟩ := mem_bind_children member
      exact ih child isChild inner before
  have resolved (table : Table) (node : Node) (all : node.Everywhere Node.TypesInPlace)
      (around : List Nat) : (resolve table around node).Everywhere Node.TypesInPlace := by
    induction all generalizing around with
    | mk here inside ih =>
      refine .mk (resolve_typesInPlace here table around) fun child member => ?_
      rw [resolve_children] at member
      obtain ⟨child, isChild, rfl⟩ := List.mem_map.mp member
      exact ih child isChild _
  exact resolved _ _ (bound program all _ _) []

theorem declaratorKind_erased {relates : Node → Node → Prop} {node plain : Node}
    (erased : Node.Erased relates node plain) (is : node.kind = .declarator) :
    declaratorKind plain = declaratorKind node := by
  have target : Node.PartErased relates .target node plain := erased.part? (by rw [is]; rfl)
  have init : Node.PartErased relates .init node plain := erased.part? (by rw [is]; rfl)
  have isFunction := init.congr (Option.any (isFunctionLiteral ·.withoutParentheses))
    fun part other related => by
      simp only [Option.any_some, isFunctionLiteral, related.withoutParentheses.kind]
  unfold declaratorKind
  dsimp only at isFunction ⊢
  rw [isFunction]
  rcases target with ⟨one, two⟩ | ⟨part, other, one, two, related⟩
  · rw [one, two]
  · rw [one, two, Option.any_some, Option.any_some, related.kind]

theorem innerPlace_stands {ids : List Nat} {place plain : Place} (stands : place.Stands ids plain)
    {relates : Node → Node → Prop} {node other : Node} (erased : Node.Erased relates node other) :
    (innerPlace place node).Stands ids (innerPlace plain other) := by
  obtain ⟨scope, kind, isVar, _⟩ := stands
  unfold innerPlace
  rw [erased.kind]
  cases is : node.kind
  case declarator => exact ⟨scope, (declaratorKind_erased erased is).symm, isVar, rfl⟩
  case «variables» keyword => exact ⟨scope, kind, rfl, rfl⟩
  case parameter => exact ⟨scope, rfl, rfl, rfl⟩
  case restParameter => exact ⟨scope, rfl, rfl, rfl⟩
  case catchParameter => exact ⟨scope, rfl, rfl, rfl⟩
  all_goals exact ⟨scope, kind, isVar, rfl⟩

/-- Inside of a scope that has just been opened on both sides. -/
theorem Table.Keeps.inner_stands {hidden : List String} {ids : List Nat} {table small : Table}
    (keeps : table.Keeps hidden ids small) :
    Place.Stands (ids ++ [table.size]) { scope := table.size } { scope := small.size } := by
  refine ⟨?_, rfl, rfl, rfl⟩
  change (ids ++ [table.size])[small.size]? = some table.size
  rw [← keeps.size]
  exact List.getElem?_concat_length

/-- What the first pass leaves at two nodes that are the same without types: they open the same
scope, if any, and references have no mark yet. -/
structure BoundAlike (ids : List Nat) (node plain : Node) : Prop where
  scope : Option.Rel (Stands ids) node.scope? plain.scope?
  unmarked : ∀ name use, node.kind = .identifier name use → node.mark = .plain ∧ plain.mark = .plain

theorem BoundAlike.append {ids : List Nat} {node plain : Node} (alike : BoundAlike ids node plain)
    (more : List Nat) : BoundAlike (ids ++ more) node plain :=
  ⟨Stands.append_option alike.scope more, alike.unmarked⟩

/-- Types right below a node declare only hidden names. -/
def HidesTypes (hidden : List String) (node : Node) : Prop :=
  ∀ child ∈ node.children, child.isCode = false → child.Everywhere (DeclaresOnly hidden)

/-- Binding two nodes keeps the tables together and leaves trees that are the same without types. -/
def BindsErased (hidden : List String) (node other : Node) : Prop :=
  ∀ (ids : List Nat) (place plain : Place) (table small : Table), place.Stands ids plain →
    table.Keeps hidden ids small →
    ∃ more, (bind place node table).2.Keeps hidden (ids ++ more) (bind plain other small).2 ∧
      Node.Erased (BoundAlike (ids ++ more)) (bind place node table).1 (bind plain other small).1

theorem bindAll_erased {hidden : List String} {nodes others : List Node}
    (each : List.Forall₂ (BindsErased hidden) (nodes.filter Node.isCode) others)
    (types : ∀ node ∈ nodes, node.isCode = false → node.Everywhere (DeclaresOnly hidden))
    {ids : List Nat} {place plain : Place} {table small : Table} (stands : place.Stands ids plain)
    (noCatch : ∀ node ∈ nodes, node.isCode = false → place.inCatch = false)
    (keeps : table.Keeps hidden ids small) :
    ∃ more,
      (bindAll place nodes table).2.Keeps hidden (ids ++ more) (bindAll plain others small).2 ∧
      List.Forall₂ (Node.Erased (BoundAlike (ids ++ more)))
        ((bindAll place nodes table).1.filter Node.isCode) (bindAll plain others small).1 := by
  induction nodes generalizing others ids table small with
  | nil =>
    cases each
    exact ⟨[], by rwa [List.append_nil], .nil⟩
  | cons node rest ih =>
    have typesLater := fun node member => types node (List.mem_cons_of_mem _ member)
    have noCatchLater := fun node member => noCatch node (List.mem_cons_of_mem _ member)
    cases code : node.isCode with
    | false =>
      rw [List.filter_cons_of_neg (by simp [code])] at each
      have outside := noCatch node List.mem_cons_self code
      have unseen := bind_unseen (types node List.mem_cons_self code) place table table.size
        (Nat.le_refl _) (by rw [outside]; exact nofun)
      have rooted := bind_rooted node place table (keeps.scope_lt stands.scope) keeps.rooted
      obtain ⟨more, after, erased⟩ := ih each typesLater stands noCatchLater
        (keeps.of_unseen unseen rooted (.refl small) rfl)
      refine ⟨more, after, ?_⟩
      rw [bindAll, List.filter_cons_of_neg (by simp [bind_isCode, code])]
      exact erased
    | true =>
      rw [List.filter_cons_of_pos code] at each
      obtain ⟨other, more, first, later, rfl⟩ := List.forall₂_cons_left_iff.mp each
      obtain ⟨here, between, bound⟩ := first ids place plain table small stands keeps
      obtain ⟨further, after, erased⟩ := ih later typesLater (stands.append here) noCatchLater between
      refine ⟨here ++ further, ?_, ?_⟩
      · rw [← List.append_assoc]
        exact after
      · rw [bindAll, List.filter_cons_of_pos (by simp [bind_isCode, code]), ← List.append_assoc]
        exact .cons (bound.mono fun _ _ alike => alike.append further) erased

/-- The children in some parts of a node, bound on both sides. -/
theorem bindAll_filter_erased {hidden : List String} {node other : Node}
    (erased : Node.Erased (fun node _ => HidesTypes hidden node) node other)
    (below : List.Forall₂ (BindsErased hidden) node.code other.children) (among : Role → Bool)
    {ids : List Nat} {place plain : Place} {table small : Table} (stands : place.Stands ids plain)
    (noCatch : ∀ child ∈ node.children, among child.role → child.isCode = false →
      place.inCatch = false)
    (keeps : table.Keeps hidden ids small) :
    ∃ more,
      (bindAll place (node.children.filter (among ·.role)) table).2.Keeps hidden (ids ++ more)
        (bindAll plain (other.children.filter (among ·.role)) small).2 ∧
      List.Forall₂ (Node.Erased (BoundAlike (ids ++ more)))
        ((bindAll place (node.children.filter (among ·.role)) table).1.filter Node.isCode)
        (bindAll plain (other.children.filter (among ·.role)) small).1 := by
  have both := below.mp (fun _ _ binds (child : Node.Erased _ _ _) => And.intro binds child.role)
    erased.children
  have filtered := List.rel_filter (R := fun child plain => BindsErased hidden child plain ∧
    plain.role = child.role) (p := (among ·.role)) (q := (among ·.role))
    (fun _ _ related => by dsimp only; rw [related.2]) both
  rw [Node.code, List.filter_comm] at filtered
  refine bindAll_erased (filtered.imp fun _ _ related => related.1) ?_ stands ?_ keeps
  · exact fun child member => erased.here child (List.mem_of_mem_filter member)
  · intro child member
    obtain ⟨isChild, isAmong⟩ := List.mem_filter.mp member
    exact noCatch child isChild isAmong

theorem bind_erased {hidden : List String} {node other : Node}
    (erased : Node.Erased (fun node _ => HidesTypes hidden node) node other) :
    BindsErased hidden node other := by
  refine Node.Erased.induct (motive := BindsErased hidden) (fun {node other} erased below => ?_) erased
  intro ids place plain table small stands keeps
  have declared := declareOuter_keeps keeps stands node.kind
  cases opens : opensScope node.kind with
  | false =>
    have opensOther : opensScope other.kind = false := by rw [erased.kind, opens]
    have noCatch := innerPlace_inCatch_of_no_scope place opens
    obtain ⟨more, after, inside⟩ := bindAll_erased below erased.here
      (innerPlace_stands stands erased) (fun _ _ _ => noCatch) declared
    have inPlace := bind_typesInPlace erased.inPlace place table
    rw [bind_of_no_scope place node table opens] at inPlace ⊢
    rw [bind_of_no_scope plain other small opensOther, erased.kind]
    exact ⟨more, after,
      .mk ⟨.none, fun _ _ _ => ⟨rfl, rfl⟩⟩ rfl erased.span erased.role inPlace inside⟩
  | true =>
    have opensOther : opensScope other.kind = true := by rw [erased.kind, opens]
    -- No head is a type, and a catch clause holds none at all.
    have headsRun : ∀ child ∈ node.children, child.role = .head → child.isCode = true :=
      fun child member isHead => erased.inPlace.code member (by rw [isHead, Kind.holdsTypeAs_head])
    have caught : node.kind = .catchClause → ∀ child ∈ node.children, child.isCode = true :=
      fun catches child member => erased.inPlace.code member (by rw [catches]; rfl)
    obtain ⟨first, afterHeads, heads⟩ := bindAll_filter_erased erased below (· = .head) stands
      (fun child member isHead isType => by
        rw [headsRun child member (of_decide_eq_true isHead)] at isType
        cases isType) declared
    have opened := openScope_keeps afterHeads (stands.append first) erased.kind
    obtain ⟨later, afterRest, rest⟩ := bindAll_filter_erased erased below (· ≠ .head)
      (innerPlace_stands afterHeads.inner_stands erased)
      (fun child member _ isType => by
        rw [innerPlace_inCatch, decide_eq_false_iff_not]
        intro catches
        rw [caught catches child member] at isType
        cases isType) opened
    have inPlace := bind_typesInPlace erased.inPlace place table
    rw [bind_of_scope place node table opens] at inPlace ⊢
    rw [bind_of_scope plain other small opensOther, erased.kind]
    refine ⟨first ++ ([(bindAll place (node.children.filter (·.role = .head))
      (declareOuter place node.kind table)).2.size] ++ later), ?_, ?_⟩ <;>
      rw [← List.append_assoc, ← List.append_assoc]
    · exact afterRest
    · refine .mk ⟨.some (afterHeads.inner_stands.scope.append later), ?_⟩ rfl erased.span erased.role
        inPlace ?_
      · intro name use is
        have isName : node.kind = .identifier name use := is
        rw [isName] at opens
        cases opens
      · rw [Node.code, List.filter_append]
        refine List.rel_append (heads.imp fun _ _ erased => ?_) rest
        exact erased.mono fun _ _ alike => (alike.append _).append later

/-! The second pass, and both. -/

def ScopedAlike (ids : List Nat) (node plain : Node) : Prop :=
  Option.Rel (Stands ids) node.scope? plain.scope?

theorem resolve_erased {ids : List Nat} {node plain : Node} (table small : Table)
    (erased : Node.Erased (BoundAlike ids) node plain) (around others : List Nat) :
    Node.Erased (ScopedAlike ids) (resolve table around node) (resolve small others plain) := by
  refine Node.Erased.induct (motive := fun node plain => ∀ around others,
    Node.Erased (ScopedAlike ids) (resolve table around node) (resolve small others plain))
    (fun {node plain} erased below around others => ?_) erased around others
  have unmarked := erased.here.unmarked
  have unmarkedToo : ∀ name use, plain.kind = .identifier name use → plain.mark = .plain :=
    fun name use is => (unmarked name use (erased.kind ▸ is)).2
  refine .mk ?_ ?_ ?_ ?_ (resolve_typesInPlace erased.inPlace table around) ?_
  · unfold ScopedAlike
    rw [resolve_scope? table around fun name use is => (unmarked name use is).1,
      resolve_scope? small others unmarkedToo]
    exact erased.here.scope
  · rw [resolve_kind, resolve_kind, erased.kind]
  · have spans (table : Table) (scopes : List Nat) (node : Node) :
        (resolve table scopes node).span = node.span := by
      cases node; rfl
    rw [spans, spans, erased.span]
  · rw [resolve_role, resolve_role, erased.role]
  · have code (child : Node) (scopes : List Nat) :
        (resolve table scopes child).isCode = child.isCode := by
      rw [Node.isCode, Node.isCode, resolve_kind]
    rw [Node.code, resolve_children, resolve_children, List.filter_map, List.forall₂_map_left_iff,
      List.forall₂_map_right_iff]
    simp only [Function.comp_def, code]
    exact below.imp fun child other resolved => resolved _ _

theorem openScope_first_keeps (hidden : List String) {program plain : Node}
    (kind : plain.kind = program.kind) :
    (openScope { scope := 0 } program #[]).Keeps hidden [0] (openScope { scope := 0 } plain #[]) := by
  have empty : Table.Keeps hidden [] #[] #[] := by
    refine ⟨rfl, .nil, ⟨rfl, nofun⟩, ⟨rfl, nofun⟩, ?_, ?_⟩ <;> intro _ _ stands <;> cases stands
  have shown : Frame.shown hidden ⟨program.span, none, holdsVariables program.kind,
      (innerBinding? program.kind).toList, []⟩ = Frame.shown hidden ⟨plain.span, none,
      holdsVariables plain.kind, (innerBinding? plain.kind).toList, []⟩ := by
    rw [kind]
    rfl
  exact empty.push shown .none (openScope_first_rooted program) (openScope_first_rooted plain)

/-- The scopes of a program and of the same program without types: its own are kept in order, and
they declare the same, but for names that types declare. -/
theorem analyze_erased {hidden : List String} {program plain : Node} (is : IsProgram program)
    (isPlain : IsProgram plain)
    (erased : Node.Erased (fun node _ => HidesTypes hidden node) program plain) :
    ∃ ids, (analyze program).2.Keeps hidden ids (analyze plain).2 ∧
      Node.Erased (ScopedAlike ids) (analyze program).1 (analyze plain).1 := by
  have first : Place.Stands [0] { scope := 0 } { scope := 0 } := ⟨rfl, rfl, rfl, rfl⟩
  have noCatch : (innerPlace { scope := 0 } program).inCatch = false := by
    rw [innerPlace_inCatch, is.kind]
    rfl
  obtain ⟨more, keeps, items⟩ := bindAll_erased
    (erased.children.imp fun _ _ child => bind_erased child) erased.here
    (innerPlace_stands first erased) (fun _ _ _ => noCatch) (openScope_first_keeps hidden erased.kind)
  have bound : Node.Erased (BoundAlike ([0] ++ more)) (bind { scope := 0 } program #[]).1
      (bind { scope := 0 } plain #[]).1 := by
    have inPlace := bind_typesInPlace erased.inPlace { scope := 0 } #[]
    rw [bind_program is] at inPlace ⊢
    rw [bind_program isPlain]
    refine .mk ⟨.some (first.scope.append more), ?_⟩ erased.kind erased.span erased.role inPlace items
    intro name use isName
    cases is.kind.symm.trans isName
  refine ⟨[0] ++ more, ?_, resolve_erased _ _ bound [] []⟩
  unfold analyze
  rw [bind_program is, bind_program isPlain]
  exact keeps

theorem scopesOnPath_erased {ids : List Nat} {path others : List Node} (role : Role)
    (outer : PathErased (ScopedAlike ids) path others) :
    List.Forall₂ (Stands ids) (scopesOnPath role path) (scopesOnPath role others) := by
  induction outer generalizing role with
  | nil => exact .nil
  | @cons node plain _ _ both _ ih =>
    rw [scopesOnPath, scopesOnPath, Node.scopesInside, Node.scopesInside, both.1.role]
    refine List.rel_append ?_ (ih node.role)
    have scope := both.1.here
    unfold ScopedAlike at scope
    split
    · exact .nil
    · generalize node.scope? = one, plain.scope? = two at scope
      cases scope with
      | none => exact .nil
      | some stands => exact .cons stands .nil

theorem scopes_erased {ids : List Nat} {site plain : Site}
    (erased : Site.Erased (ScopedAlike ids) site plain) :
    List.Forall₂ (Stands ids) site.scopes plain.scopes := by
  rw [Site.scopes, Site.scopes, erased.node.role]
  exact scopesOnPath_erased _ erased.path

end ClientBoundary.Scope
