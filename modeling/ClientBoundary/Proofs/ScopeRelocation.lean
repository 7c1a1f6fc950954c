import ClientBoundary.Proofs.Relocation
import ClientBoundary.Proofs.Scopes

/-! Scope analysis of a program that has been moved back in the text behind one more directive. The
scopes are the same but for where their owners stand, each name is declared in the same scope as the
same thing, and the marks on the tree are the same. -/
namespace ClientBoundary.Scope

open Syntax

def Frame.bare (frame : Frame) : Frame := { frame with owner := default }

theorem Frame.bare_declare (frame : Frame) (binding : Binding) :
    (frame.declare binding).bare = frame.bare.declare binding := by
  have found : frame.bare.find? binding.name = frame.find? binding.name := rfl
  have passed : frame.bare.passed = frame.passed := rfl
  unfold Frame.declare
  rw [found, passed]
  split
  · rfl
  · split <;> rfl

namespace Table

def bare (table : Table) : Table := table.map Frame.bare

theorem bare_getElem? (table : Table) (scope : Nat) :
    table.bare[scope]? = (table[scope]?).map Frame.bare := Array.getElem?_map

theorem bare_size (table : Table) : table.bare.size = table.size := Array.size_map

theorem bare_push (table : Table) (frame : Frame) :
    bare (table.push frame) = table.bare.push frame.bare := Array.map_push

theorem bare_update (table : Table) (scope : Nat) {change : Frame → Frame}
    (blind : ∀ frame, (change frame).bare = change frame.bare) :
    (table.update scope change).bare = table.bare.update scope change := by
  apply Array.ext_getElem?
  intro other
  simp only [bare, update, Array.getElem?_map, Array.getElem?_modify]
  split
  · cases table[other]? with
    | none => rfl
    | some frame => exact congrArg some (blind frame)
  · rfl

theorem bare_bindingIn (table : Table) (scope : Nat) (name : String) :
    table.bare.bindingIn scope name = table.bindingIn scope name := by
  rw [bindingIn, bare_getElem?, Option.bind_map]
  rfl

theorem bindingIn_of_bare {table changed : Table} (same : changed.bare = table.bare) (scope : Nat)
    (name : String) : changed.bindingIn scope name = table.bindingIn scope name := by
  rw [← bare_bindingIn changed, same, bare_bindingIn]

theorem bare_parent? (table : Table) (scope : Nat) : table.bare.parent? scope = table.parent? scope := by
  rw [parent?, bare_getElem?, Option.bind_map]
  rfl

theorem bare_chainWithin (table : Table) (steps scope : Nat) :
    table.bare.chainWithin steps scope = table.chainWithin steps scope := by
  induction steps generalizing scope with
  | zero => rfl
  | succ steps ih => simp only [chainWithin, bare_parent?, ih]

theorem bare_passage (table : Table) (scopes : List Nat) :
    table.bare.passage scopes = table.passage scopes := by
  induction scopes with
  | nil => rfl
  | cons scope outer ih =>
    simp only [passage, bare_getElem?, Option.any_map, ih]
    rfl

theorem bare_declare (table : Table) (scope : Nat) (binding : Binding) :
    (table.declare scope binding).bare = table.bare.declare scope binding :=
  bare_update table scope fun frame => frame.bare_declare binding

theorem bare_foldl_pass (name : String) (scopes : List Nat) (table : Table) :
    (scopes.foldl (fun table scope => table.update scope (·.pass name)) table).bare =
      scopes.foldl (fun table scope => table.update scope (·.pass name)) table.bare := by
  induction scopes generalizing table with
  | nil => rfl
  | cons scope rest ih =>
    have passed : (table.update scope (·.pass name)).bare =
        table.bare.update scope (·.pass name) := bare_update table scope fun _ => rfl
    rw [List.foldl_cons, List.foldl_cons, ih, passed]

theorem bare_declareVariable (table : Table) (scope : Nat) (binding : Binding) :
    (table.declareVariable scope binding).bare = table.bare.declareVariable scope binding := by
  unfold declareVariable chain
  rw [bare_chainWithin, bare_passage]
  rcases table.passage (table.chainWithin (scope + 1) scope) with ⟨passed, _ | target⟩
  · rfl
  · have seen (scope : Nat) : ((table.bare[scope]?).any fun frame =>
          (frame.find? binding.name).isSome || frame.passed.contains binding.name) =
        (table[scope]?).any fun frame =>
          (frame.find? binding.name).isSome || frame.passed.contains binding.name := by
      rw [bare_getElem?, Option.any_map]
      rfl
    dsimp only
    rw [bare_foldl_pass]
    congr 1
    simp only [seen]
    cases passed.find? fun scope => (table[scope]?).any fun frame =>
        (frame.find? binding.name).isSome || frame.passed.contains binding.name with
    | none => exact bare_declare table target binding
    | some scope =>
      dsimp only
      rw [bare_bindingIn]
      cases table.bindingIn scope binding.name with
      | none => rfl
      | some inner =>
        have removed : (table.update scope (·.remove binding.name)).bare =
            table.bare.update scope (·.remove binding.name) := bare_update table scope fun _ => rfl
        dsimp only
        rw [← removed, bare_bindingIn]
        split
        · rfl
        · exact bare_declare _ target inner

end Table

theorem bare_declareOuter (place : Place) (kind : Kind) (table : Table) :
    (declareOuter place kind table).bare = declareOuter place kind table.bare := by
  unfold declareOuter
  split
  · unfold declareIn
    split
    · exact Table.bare_declareVariable ..
    · exact Table.bare_declare ..
  · rfl

theorem bare_takenOver (place : Place) (kind : Kind) (table : Table) :
    takenOver place kind table.bare = takenOver place kind table := by
  unfold takenOver
  rw [Table.bare_getElem?, Option.map_map]
  rfl

/-- Of the node that opens a scope, the scope keeps the kind and the place only. -/
theorem bare_openScope {place : Place} {node other : Node} {table changed : Table}
    (kind : other.kind = node.kind) (same : changed.bare = table.bare) :
    (openScope place other changed).bare = (openScope place node table).bare := by
  have taken : takenOver place other.kind changed = takenOver place node.kind table := by
    rw [kind, ← bare_takenOver, same, bare_takenOver]
  have emptied (table : Table) :
      (table.update place.scope fun frame => { frame with bindings := [] }).bare =
        table.bare.update place.scope fun frame => { frame with bindings := [] } :=
    Table.bare_update table place.scope fun _ => rfl
  have pushed {before later : Table} (alike : later.bare = before.bare) (bindings : List Binding) :
      Table.bare (later.push
        { owner := other.span, parent := if later.isEmpty then none else some place.scope,
          holdsVariables := holdsVariables node.kind, bindings }) =
      Table.bare (before.push
        { owner := node.span, parent := if before.isEmpty then none else some place.scope,
          holdsVariables := holdsVariables node.kind, bindings }) := by
    have size : later.isEmpty = before.isEmpty := by
      rw [Array.isEmpty, Array.isEmpty, ← Table.bare_size later, alike, Table.bare_size]
    rw [Table.bare_push, Table.bare_push, alike, size]
    rfl
  unfold openScope
  rw [taken, kind]
  generalize takenOver place node.kind table = bindings
  dsimp only
  split
  · exact pushed same _
  · exact pushed (by rw [emptied, emptied, same]) _

theorem declaratorKind_shift (bytes : Nat) (declarator : Node) :
    declaratorKind (declarator.shift bytes) = declaratorKind declarator := by
  have literal (node : Node) : isFunctionLiteral (node.shift bytes) = isFunctionLiteral node := by
    simp only [isFunctionLiteral, Node.shift_kind]
  simp only [declaratorKind, Node.shift_part?, Option.any_map, Node.shift_kind,
    Node.shift_withoutParentheses, literal]

theorem innerPlace_shift (bytes : Nat) (place : Place) (node : Node) :
    innerPlace place (node.shift bytes) = innerPlace place node := by
  simp only [innerPlace, Node.shift_kind, declaratorKind_shift]

/-- The first pass on a node that has been moved back, in a table that differs in owners only. -/
def BindsAlike (bytes : Nat) (node : Node) : Prop :=
  ∀ (place : Place) (table changed : Table), changed.bare = table.bare →
    (bind place (node.shift bytes) changed).1 = (bind place node table).1.shift bytes ∧
    (bind place (node.shift bytes) changed).2.bare = (bind place node table).2.bare

theorem bindAll_shift {bytes : Nat} {nodes : List Node}
    (each : ∀ node ∈ nodes, BindsAlike bytes node) (place : Place) {table changed : Table}
    (same : changed.bare = table.bare) :
    (bindAll place (nodes.map (Node.shift bytes)) changed).1 =
      (bindAll place nodes table).1.map (Node.shift bytes) ∧
    (bindAll place (nodes.map (Node.shift bytes)) changed).2.bare =
      (bindAll place nodes table).2.bare := by
  induction nodes generalizing table changed with
  | nil => exact ⟨rfl, same⟩
  | cons node rest ih =>
    obtain ⟨first, after⟩ := each node List.mem_cons_self place table changed same
    obtain ⟨others, final⟩ :=
      ih (fun node member => each node (List.mem_cons_of_mem _ member)) after
    refine ⟨?_, final⟩
    simp only [List.map_cons, bindAll, first, others]

theorem bind_shift (bytes : Nat) (node : Node) : BindsAlike bytes node := by
  induction node using Node.induction with
  | step kind span children role mark ih =>
    intro place table changed same
    let node : Node := ⟨kind, span, children, role, mark⟩
    have outer : (declareOuter place kind changed).bare = (declareOuter place kind table).bare := by
      rw [bare_declareOuter, bare_declareOuter, same]
    cases opens : opensScope kind with
    | false =>
      obtain ⟨parts, after⟩ := bindAll_shift ih (innerPlace place node) outer
      rw [bind_of_no_scope place node table opens,
        bind_of_no_scope place (node.shift bytes) changed (by rw [Node.shift_kind]; exact opens)]
      simp only [Node.shift_kind, Node.shift_span, Node.shift_role, Node.shift_children,
        innerPlace_shift, Node.shift_mk]
      exact ⟨by rw [parts], after⟩
    | true =>
      have headsOf : (children.map (Node.shift bytes)).filter (·.role = .head) =
          (children.filter (·.role = .head)).map (Node.shift bytes) := by
        simp only [List.filter_map, Function.comp_def, Node.shift_role]
      have restOf : (children.map (Node.shift bytes)).filter (·.role ≠ .head) =
          (children.filter (·.role ≠ .head)).map (Node.shift bytes) := by
        simp only [List.filter_map, Function.comp_def, Node.shift_role]
      obtain ⟨heads, afterHeads⟩ := bindAll_shift
        (fun node member => ih node (List.mem_of_mem_filter member)) place outer
      rw [← headsOf] at heads afterHeads
      rw [bind_of_scope place node table opens,
        bind_of_scope place (node.shift bytes) changed (by rw [Node.shift_kind]; exact opens)]
      simp only [Node.shift_kind, Node.shift_span, Node.shift_role, Node.shift_children,
        innerPlace_shift, Node.shift_mk]
      generalize bindAll place (children.filter (·.role = .head)) (declareOuter place kind table) =
        bound at heads afterHeads ⊢
      generalize bindAll place ((children.map (Node.shift bytes)).filter (·.role = .head))
        (declareOuter place kind changed) = boundMoved at heads afterHeads ⊢
      -- The scope has the same number, so what is inside of it is bound in the same place.
      have size : boundMoved.2.size = bound.2.size := by
        rw [← Table.bare_size boundMoved.2, afterHeads, Table.bare_size]
      have opened := @bare_openScope place node (node.shift bytes) bound.2 boundMoved.2
        (Node.shift_kind bytes node) afterHeads
      obtain ⟨rest, afterRest⟩ := bindAll_shift
        (fun node member => ih node (List.mem_of_mem_filter member))
        (innerPlace { scope := bound.2.size } node) opened
      rw [← restOf] at rest afterRest
      rw [size]
      exact ⟨by rw [heads, rest, List.map_append], afterRest⟩

theorem resolves_of_bare {table changed : Table} (same : changed.bare = table.bare)
    (scopes : List Nat) (name : String) (use : Use) :
    resolves changed scopes name use = resolves table scopes name use := by
  simp only [resolves, Table.bindingIn_of_bare same]

theorem resolve_shift {bytes : Nat} {table changed : Table} (same : changed.bare = table.bare)
    (scopes : List Nat) (node : Node) :
    resolve changed scopes (node.shift bytes) = (resolve table scopes node).shift bytes := by
  induction node using Node.induction generalizing scopes with
  | step kind span children role mark ih =>
    simp only [Node.shift_mk, resolve, resolveAll_eq_map, resolves_of_bare same, List.map_map,
      Node.mk.injEq, true_and, and_true]
    refine List.map_congr_left fun child member => ?_
    rw [Function.comp_apply, Function.comp_apply, Node.shift_role, ih child member]

/-- A directive declares nothing and opens no scope. -/
theorem bind_directive (place : Place) (value : String) (span : Span) (role : Role) (mark : Mark)
    (table : Table) :
    bind place ⟨.directive value, span, [], role, mark⟩ table =
      (⟨.directive value, span, [], role, .plain⟩, table) := rfl

/-- One more directive in front of a program, and all else moved back. -/
structure LedBy (directive : Node) (bytes : Nat) (program longer : Node) : Prop where
  kind : ∃ value, directive.kind = .directive value
  leaf : directive.children = []
  children : longer.children = directive :: program.children.map (Node.shift bytes)

theorem analyze_led {directive program longer : Node} {bytes : Nat} (is : IsProgram program)
    (isLonger : IsProgram longer) (led : LedBy directive bytes program longer) :
    (analyze longer).1.children =
      { directive with mark := .plain } :: (analyze program).1.children.map (Node.shift bytes) ∧
    (analyze longer).2.bare = (analyze program).2.bare := by
  obtain ⟨kind, span, children, role, mark⟩ := directive
  obtain ⟨⟨value, rfl⟩, rfl, below⟩ := led
  have place : innerPlace { scope := 0 } longer = innerPlace { scope := 0 } program := by
    simp only [innerPlace, is.kind, isLonger.kind]
  have opened : (openScope { scope := 0 } longer #[]).bare =
      (openScope { scope := 0 } program #[]).bare :=
    bare_openScope (by rw [is.kind, isLonger.kind]) rfl
  obtain ⟨items, tables⟩ := bindAll_shift (fun node _ => bind_shift bytes node)
    (innerPlace { scope := 0 } program) opened
  have bound : bindItems longer = (⟨.directive value, span, [], role, .plain⟩ ::
      (bindItems program).1.map (Node.shift bytes), (bindItems longer).2) ∧
      (bindItems longer).2.bare = (bindItems program).2.bare := by
    simp only [bindItems, below, bindAll, place, bind_directive]
    exact ⟨by rw [items], tables⟩
  rw [analyze_eq is, analyze_eq isLonger, bound.1]
  refine ⟨?_, bound.2⟩
  simp only [List.map_cons, List.map_map]
  refine congrArg₂ List.cons rfl (List.map_congr_left fun item _ => ?_)
  exact resolve_shift bound.2 [0] item

end ClientBoundary.Scope
