import ClientBoundary.Module
import ClientBoundary.Proofs.Tour

/-! What scope analysis makes of a program. Scopes are numbered in the order in which they open, the
table links each one to the next on the path, and a reference is marked free exactly if no scope on
its path declares what it means. -/
namespace ClientBoundary.Scope

open Syntax

theorem Frame.declare_parent (frame : Frame) (binding : Binding) :
    (frame.declare binding).parent = frame.parent := by
  unfold Frame.declare
  split
  · rfl
  · split <;> rfl

namespace Table

/-- A later state of a table: scopes are added to it, and those that were there stay where they
are. -/
structure Grows (table later : Table) : Prop where
  size : table.size ≤ later.size
  parent : ∀ scope < table.size, later.parent? scope = table.parent? scope

theorem Grows.refl (table : Table) : Grows table table := ⟨Nat.le_refl _, fun _ _ => rfl⟩

theorem Grows.trans {first second third : Table} (one : Grows first second)
    (two : Grows second third) : Grows first third where
  size := Nat.le_trans one.size two.size
  parent scope inside :=
    (two.parent scope (Nat.lt_of_lt_of_le inside one.size)).trans (one.parent scope inside)

theorem size_update (table : Table) (scope : Nat) (change : Frame → Frame) :
    (table.update scope change).size = table.size := Array.size_modify

theorem parent?_update (table : Table) (scope : Nat) {change : Frame → Frame}
    (keeps : ∀ frame, (change frame).parent = frame.parent) (other : Nat) :
    (table.update scope change).parent? other = table.parent? other := by
  simp only [parent?, update, Array.getElem?_modify]
  split
  · cases table[other]? with
    | none => rfl
    | some frame => exact keeps frame
  · rfl

theorem grows_update (table : Table) (scope : Nat) {change : Frame → Frame}
    (keeps : ∀ frame, (change frame).parent = frame.parent) :
    Grows table (table.update scope change) where
  size := Nat.le_of_eq (size_update table scope change).symm
  parent other _ := parent?_update table scope keeps other

theorem grows_declare (table : Table) (scope : Nat) (binding : Binding) :
    Grows table (table.declare scope binding) :=
  grows_update table scope fun frame => frame.declare_parent binding

theorem grows_foldl_pass (scopes : List Nat) (name : String) (table : Table) :
    Grows table (scopes.foldl (fun table scope => table.update scope (·.pass name)) table) := by
  induction scopes generalizing table with
  | nil => exact .refl table
  | cons scope rest ih =>
    have first : Grows table (table.update scope (·.pass name)) :=
      grows_update table scope fun _ => rfl
    exact first.trans (ih _)

theorem grows_declareVariable (table : Table) (scope : Nat) (binding : Binding) :
    Grows table (table.declareVariable scope binding) := by
  unfold declareVariable
  split
  · exact .refl table
  · refine Grows.trans ?_ (grows_foldl_pass _ _ _)
    split
    · exact grows_declare ..
    · next met _ =>
      split
      · exact .refl table
      · have removed : Grows table (table.update met (·.remove binding.name)) :=
          grows_update table met fun _ => rfl
        dsimp only
        split
        · exact removed
        · exact removed.trans (grows_declare ..)

theorem grows_push (table : Table) (opened : Frame) : Grows table (table.push opened) where
  size := by simp
  parent scope inside := by simp [parent?, Array.getElem?_push, Nat.ne_of_lt inside]

theorem parent?_push (table : Table) (opened : Frame) :
    parent? (table.push opened) table.size = opened.parent := by
  simp [parent?]

/-- Opening a scope adds one, with the number that comes next. -/
theorem openScope_spec (place : Place) (node : Node) (table : Table) :
    (openScope place node table).size = table.size + 1 ∧
    Grows table (openScope place node table) ∧
    parent? (openScope place node table) table.size =
      if table.size = 0 then none else some place.scope := by
  obtain ⟨before, opened, eq, size, grows, parent⟩ : ∃ before opened,
      openScope place node table = before.push opened ∧ before.size = table.size ∧
      Grows table before ∧ opened.parent = if before.isEmpty then none else some place.scope := by
    unfold openScope
    generalize takenOver place node.kind table = taken
    dsimp only
    split
    · exact ⟨_, _, rfl, rfl, .refl table, rfl⟩
    · have emptied : Grows table (table.update place.scope fun frame =>
          { frame with bindings := [] }) := grows_update table place.scope fun _ => rfl
      exact ⟨_, _, rfl, size_update .., emptied, rfl⟩
  rw [eq]
  refine ⟨by rw [Array.size_push, size], grows.trans (grows_push before opened), ?_⟩
  rw [← size, parent?_push, parent]
  simp

end Table

/-! The first pass. -/

theorem grows_declareOuter (place : Place) (kind : Kind) (table : Table) :
    table.Grows (declareOuter place kind table) := by
  unfold declareOuter
  split
  · unfold declareIn
    split
    · exact Table.grows_declareVariable ..
    · exact Table.grows_declare ..
  · exact .refl table

theorem bindHeads_eq_bindAll (place : Place) (nodes : List Node) (table : Table) :
    bindHeads place nodes table = bindAll place (nodes.filter (·.role = .head)) table := by
  induction nodes generalizing table with
  | nil => simp [bindHeads, bindAll]
  | cons node rest ih =>
    by_cases head : node.role = .head <;> simp [bindHeads, bindAll, head, ih]

theorem bindRest_eq_bindAll (place : Place) (nodes : List Node) (table : Table) :
    bindRest place nodes table = bindAll place (nodes.filter (·.role ≠ .head)) table := by
  induction nodes generalizing table with
  | nil => simp [bindRest, bindAll]
  | cons node rest ih =>
    by_cases head : node.role = .head <;> simp [bindRest, bindAll, head, ih]

section Bind

variable (place : Place) (node : Node) (table : Table)

theorem bind_of_no_scope (opens : opensScope node.kind = false) :
    bind place node table =
      let inside := bindAll (innerPlace place node) node.children
        (declareOuter place node.kind table)
      (⟨node.kind, node.span, inside.1, node.role, .plain⟩, inside.2) := by
  cases node
  simp only [bind, opens, Bool.false_eq_true, if_false]

theorem bind_of_scope (opens : opensScope node.kind = true) :
    bind place node table =
      let heads := bindAll place (node.children.filter (·.role = .head))
        (declareOuter place node.kind table)
      let rest := bindAll (innerPlace { scope := heads.2.size } node)
        (node.children.filter (·.role ≠ .head)) (openScope place node heads.2)
      (⟨node.kind, node.span, heads.1 ++ rest.1, node.role, .scope heads.2.size⟩, rest.2) := by
  cases node
  simp only [bind, opens, if_true, bindHeads_eq_bindAll, bindRest_eq_bindAll]

theorem bind_role : (bind place node table).1.role = node.role := by
  cases opens : opensScope node.kind
  · rw [bind_of_no_scope place node table opens]
  · rw [bind_of_scope place node table opens]

theorem innerPlace_scope : (innerPlace place node).scope = place.scope := by
  unfold innerPlace
  dsimp only
  split <;> rfl

end Bind

theorem bindAll_role {holds : Role → Prop} {nodes : List Node}
    (each : ∀ node ∈ nodes, holds node.role) (place : Place) (table : Table) :
    ∀ node ∈ (bindAll place nodes table).1, holds node.role := by
  induction nodes generalizing table with
  | nil => simp [bindAll]
  | cons node rest ih =>
    intro bound member
    rcases List.mem_cons.mp member with rfl | later
    · rw [bind_role]
      exact each node List.mem_cons_self
    · exact ih (fun node member => each node (List.mem_cons_of_mem _ member)) _ bound later

/-- What the first pass leaves at a node, given the final table and the scopes around the node.
Numbers count up from some least one, the table knows which scope is around, and references have no
mark yet. -/
structure Bound (final : Table) (least : Nat) (around : List Nat) (node : Node) : Prop where
  headsFirst : node.HeadsFirst
  opens : ∀ id, node.scope? = some id → opensScope node.kind = true
  numbered : ∀ id, node.scope? = some id → least ≤ id
  linked : ∀ id, node.scope? = some id → final.parent? id = around.head?
  unmarked : ∀ name use, node.kind = .identifier name use → node.mark = .plain

/-- What binding a node does, in a place with some scopes around it. -/
def BindsWell (node : Node) : Prop :=
  ∀ (place : Place) (table : Table) (around : List Nat), 0 < table.size →
    around.head? = some place.scope →
    table.Grows (bind place node table).2 ∧
    ∀ final, (bind place node table).2.Grows final → ∀ least ≤ table.size,
      (bind place node table).1.Throughout (Bound final least) around

theorem bindAll_spec (nodes : List Node) (each : ∀ node ∈ nodes, BindsWell node) (place : Place)
    (table : Table) (around : List Nat) (begun : 0 < table.size)
    (innermost : around.head? = some place.scope) :
    table.Grows (bindAll place nodes table).2 ∧
    ∀ final, (bindAll place nodes table).2.Grows final → ∀ least ≤ table.size,
      ∀ node ∈ (bindAll place nodes table).1, node.Throughout (Bound final least) around := by
  induction nodes generalizing table with
  | nil => exact ⟨.refl table, by simp [bindAll]⟩
  | cons node rest ih =>
    obtain ⟨grows, bound⟩ := each node List.mem_cons_self place table around begun innermost
    obtain ⟨growsOn, others⟩ :=
      ih (fun node member => each node (List.mem_cons_of_mem _ member))
        (bind place node table).2 (Nat.lt_of_lt_of_le begun grows.size)
    refine ⟨grows.trans growsOn, ?_⟩
    intro final later least small other member
    rcases List.mem_cons.mp member with rfl | member
    · exact bound final (growsOn.trans later) least small
    · exact others final later least (Nat.le_trans small grows.size) other member

/-- Parts that have been bound apart, heads first, are in the order of the tour. -/
theorem headsFirst_append {heads rest : List Node} {node : Node}
    (children : node.children = heads ++ rest) (first : ∀ head ∈ heads, head.role = .head)
    (others : ∀ part ∈ rest, part.role ≠ .head) : node.HeadsFirst := by
  intro _
  rw [children, List.filter_append, List.filter_append,
    List.filter_eq_self.mpr (by simpa using first), List.filter_eq_nil_iff.mpr (by simpa using others),
    List.filter_eq_nil_iff.mpr (by simpa using first), List.filter_eq_self.mpr (by simpa using others)]
  simp

theorem bind_spec (node : Node) : BindsWell node := by
  induction node using Node.induction with
  | step kind span children role mark ih =>
    intro place table around begun innermost
    have outer := grows_declareOuter place kind table
    have begunOuter := Nat.lt_of_lt_of_le begun outer.size
    cases opens : opensScope kind with
    | false =>
      rw [bind_of_no_scope place _ table opens]
      obtain ⟨grows, inside⟩ := bindAll_spec children ih
        (innerPlace place ⟨kind, span, children, role, mark⟩) _ around begunOuter
        (by rw [innerPlace_scope, innermost])
      refine ⟨outer.trans grows, fun final later least small => .mk ⟨nofun, nofun, nofun, nofun, ?_⟩ ?_⟩
      · exact fun _ _ _ => rfl
      · intro child member
        rw [Node.scopesInside_of_no_scope rfl]
        exact inside final later least (Nat.le_trans small outer.size) child member
    | true =>
      let node : Node := ⟨kind, span, children, role, mark⟩
      rw [bind_of_scope place node table opens]
      -- The heads are bound in the place of the node itself.
      obtain ⟨growsHeads, heads⟩ := bindAll_spec (children.filter (·.role = .head))
        (fun node member => ih node (List.mem_filter.mp member).1) place _ around begunOuter
        innermost
      have headRoles := @bindAll_role (· = .head) (children.filter (·.role = .head)) (by simp) place
        (declareOuter place kind table)
      generalize bindAll place (children.filter (·.role = .head)) (declareOuter place kind table) =
        bound at headRoles growsHeads heads ⊢
      -- The rest is bound inside of the scope that opens then.
      obtain ⟨size, growsOpen, parent⟩ := Table.openScope_spec place node bound.2
      obtain ⟨growsRest, rest⟩ := bindAll_spec (children.filter (·.role ≠ .head))
        (fun node member => ih node (List.mem_filter.mp member).1)
        (innerPlace { scope := bound.2.size } node) (openScope place node bound.2)
        (bound.2.size :: around) (by omega) (by rw [innerPlace_scope]; rfl)
      have restRoles := @bindAll_role (· ≠ .head) (children.filter (·.role ≠ .head)) (by simp)
        (innerPlace { scope := bound.2.size } node) (openScope place node bound.2)
      have growsBound := outer.trans growsHeads
      have positive : bound.2.size ≠ 0 := by
        have := growsBound.size
        omega
      refine ⟨growsBound.trans (growsOpen.trans growsRest), fun final later least small =>
        .mk ⟨headsFirst_append rfl headRoles restRoles, fun _ _ => opens, ?_, ?_, ?_⟩ ?_⟩
      · rintro id ⟨⟩
        exact Nat.le_trans small growsBound.size
      · rintro id ⟨⟩
        rw [(growsRest.trans later).parent _ (by omega), parent, if_neg positive, innermost]
      · intro name use identifier
        simp only [node] at identifier
        rw [identifier] at opens
        cases opens
      · intro child member
        rcases List.mem_append.mp member with head | other
        · rw [headRoles child head, Node.scopesInside_head]
          exact heads final (growsOpen.trans (growsRest.trans later)) least
            (Nat.le_trans small outer.size) child head
        · rw [Node.scopesInside_of_scope rfl (restRoles child other)]
          exact rest final later least
            (Nat.le_trans small (Nat.le_trans growsBound.size growsOpen.size)) child other

/-- A program as the parser gives it: the root is one, and all of its statements are inside of its
scope. -/
structure IsProgram (program : Node) : Prop where
  kind : program.kind = .program
  items : ∀ item ∈ program.children, item.role ≠ .head

/-- The statements of a program, bound one after the other in the scope that it opens. -/
def bindItems (program : Node) : List Node × Table :=
  bindAll (innerPlace { scope := 0 } program) program.children
    (openScope { scope := 0 } program #[])

theorem bind_program {program : Node} (is : IsProgram program) :
    bind { scope := 0 } program #[] =
      (⟨program.kind, program.span, (bindItems program).1, program.role, .scope 0⟩,
        (bindItems program).2) := by
  have noHeads : program.children.filter (·.role = .head) = [] :=
    List.filter_eq_nil_iff.mpr (by simpa using is.items)
  have allItems : program.children.filter (·.role ≠ .head) = program.children :=
    List.filter_eq_self.mpr (by simpa using is.items)
  have opens : opensScope program.kind = true := by rw [is.kind]; rfl
  have undeclared : declareOuter { scope := 0 } program.kind #[] = #[] := by rw [is.kind]; rfl
  rw [bind_of_scope _ _ _ opens, noHeads, allItems, undeclared]
  rfl

/-- The program itself opens scope 0, which has none around it, and every other scope is inside of
it. -/
theorem bindItems_spec {program : Node} (is : IsProgram program) :
    (bindItems program).2.parent? 0 = none ∧
    (∀ item ∈ (bindItems program).1, item.role ≠ .head) ∧
    ∀ item ∈ (bindItems program).1, item.Throughout (Bound (bindItems program).2 1) [0] := by
  obtain ⟨size, _, parent⟩ := Table.openScope_spec { scope := 0 } program #[]
  obtain ⟨grows, bound⟩ := bindAll_spec program.children (fun node _ => bind_spec node)
    (innerPlace { scope := 0 } program) (openScope { scope := 0 } program #[]) [0]
    (by simp [size]) (by rw [innerPlace_scope]; rfl)
  refine ⟨?_, @bindAll_role (· ≠ .head) _ is.items _ _, bound _ (.refl _) 1 (by simp [size])⟩
  exact (grows.parent 0 (by simp [size])).trans parent

/-! The second pass. -/

theorem resolveAll_eq_map (table : Table) (outer inner : List Nat) (nodes : List Node) :
    resolveAll table outer inner nodes =
      nodes.map fun node => resolve table (if node.role = .head then outer else inner) node := by
  induction nodes with
  | nil => rfl
  | cons node rest ih => simp only [resolveAll, List.map_cons, ih]

/-- Looking up goes down the tree with the scopes around each node. -/
theorem resolve_children (table : Table) (around : List Nat) (node : Node) :
    (resolve table around node).children = node.children.map fun child =>
      resolve table (node.scopesInside child.role around) child := by
  obtain ⟨kind, span, children, role, mark⟩ := node
  simp only [resolve, resolveAll_eq_map]
  apply List.map_congr_left
  intro child _
  by_cases head : child.role = .head
  · simp [head, Node.scopesInside]
  · cases mark <;> simp [head, Node.scopesInside, Node.scope?]

theorem resolve_kind (table : Table) (around : List Nat) (node : Node) :
    (resolve table around node).kind = node.kind := by
  cases node; rfl

theorem resolve_role (table : Table) (around : List Nat) (node : Node) :
    (resolve table around node).role = node.role := by
  cases node; rfl

theorem resolve_mark (table : Table) (around : List Nat) (node : Node) :
    (resolve table around node).mark = match node.kind with
      | .identifier name use => if resolves table around name use then node.mark else .free
      | _ => node.mark := by
  cases node; rfl

theorem resolve_scope? (table : Table) (around : List Nat) {node : Node}
    (unmarked : ∀ name use, node.kind = .identifier name use → node.mark = .plain) :
    (resolve table around node).scope? = node.scope? := by
  have mark := resolve_mark table around node
  split at mark
  · next name use identifier =>
    rw [unmarked name use identifier] at mark
    simp only [Node.scope?, mark, unmarked name use identifier]
    cases resolves table around name use <;> rfl
  · simp only [Node.scope?, mark]

/-- What both passes leave at a node. -/
structure Analyzed (table : Table) (least : Nat) (around : List Nat) (node : Node) : Prop where
  headsFirst : node.HeadsFirst
  opens : ∀ id, node.scope? = some id → opensScope node.kind = true
  numbered : ∀ id, node.scope? = some id → least ≤ id
  linked : ∀ id, node.scope? = some id → table.parent? id = around.head?
  /-- A reference is free if no scope around it declares what it means. -/
  free : ∀ name use, node.kind = .identifier name use →
    (node.isFree = true ↔ resolves table around name use = false)

theorem resolve_spec {table : Table} {least : Nat} {around : List Nat} {node : Node}
    (bound : node.Throughout (Bound table least) around) :
    (resolve table around node).Throughout (Analyzed table least) around := by
  induction bound with
  | @mk around node here inside ih =>
    have opens := resolve_scope? table around here.unmarked
    have within (role : Role) : (resolve table around node).scopesInside role around =
        node.scopesInside role around := by
      simp only [Node.scopesInside, opens]
    refine .mk ⟨?_, ?_, ?_, ?_, ?_⟩ ?_
    · intro isOpen
      rw [opens] at isOpen
      rw [resolve_children, List.filter_map, List.filter_map]
      simp only [Function.comp_def, resolve_role, ← List.map_append, here.headsFirst isOpen]
    · rw [opens, resolve_kind]; exact here.opens
    · rw [opens]; exact here.numbered
    · rw [opens]; exact here.linked
    · intro name use identifier
      rw [resolve_kind] at identifier
      simp only [Node.isFree, resolve_mark, identifier, here.unmarked name use identifier]
      cases resolves table around name use <;> simp
    · intro child member
      rw [resolve_children] at member
      obtain ⟨part, isPart, rfl⟩ := List.mem_map.mp member
      rw [resolve_role, within]
      exact ih part isPart

/-! Whole programs. -/

section Program

variable {program : Node} (is : IsProgram program)

include is

theorem analyze_eq :
    analyze program =
      (⟨program.kind, program.span,
        (bindItems program).1.map (resolve (bindItems program).2 [0]), program.role, .scope 0⟩,
        (bindItems program).2) := by
  obtain ⟨_, items, _⟩ := bindItems_spec is
  have inside : ∀ item ∈ (bindItems program).1,
      resolve (bindItems program).2 (if item.role = .head then [] else [0]) item =
        resolve (bindItems program).2 [0] item := by
    intro item member
    rw [if_neg (items item member)]
  simp only [analyze, bind_program is, resolve, resolveAll_eq_map, is.kind]
  rw [List.map_congr_left inside]

theorem analyze_mark : (analyze program).1.scope? = some 0 := by
  rw [analyze_eq is]; rfl

theorem analyze_items : ∀ item ∈ (analyze program).1.children, item.role ≠ .head := by
  obtain ⟨_, items, _⟩ := bindItems_spec is
  rw [analyze_eq is]
  intro item member
  obtain ⟨part, isPart, rfl⟩ := List.mem_map.mp member
  rw [resolve_role]
  exact items part isPart

/-- Below the program itself, scopes have numbers from 1 on. -/
theorem analyze_items_spec : ∀ item ∈ (analyze program).1.children,
    item.Throughout (Analyzed (analyze program).2 1) [0] := by
  obtain ⟨_, _, bound⟩ := bindItems_spec is
  rw [analyze_eq is]
  intro item member
  obtain ⟨part, isPart, rfl⟩ := List.mem_map.mp member
  exact resolve_spec (bound part isPart)

theorem analyze_spec : (analyze program).1.Throughout (Analyzed (analyze program).2 0) [] := by
  have opens := analyze_mark is
  have items := analyze_items is
  have parent : (analyze program).2.parent? 0 = none := by
    rw [analyze_eq is]
    exact (bindItems_spec is).1
  have kind : (analyze program).1.kind = .program := by rw [analyze_eq is]; exact is.kind
  refine .mk ⟨headsFirst_append (List.nil_append _).symm (by simp) items, ?_, by simp, ?_, ?_⟩ ?_
  · exact fun _ _ => by rw [kind]; rfl
  · rintro id same
    rw [opens] at same
    cases same
    exact parent
  · intro name use identifier
    rw [kind] at identifier
    cases identifier
  · intro item member
    rw [Node.scopesInside_of_scope opens (items item member)]
    exact (analyze_items_spec is item member).mono fun _ _ here =>
      ⟨here.headsFirst, here.opens, fun _ _ => Nat.zero_le _, here.linked, here.free⟩

end Program

/-! Sites of an analyzed program. -/

/-- Scopes each of which is the parent of the one before, out to the module itself. -/
def Table.Nests (table : Table) : List Nat → Prop
  | [] => True
  | scope :: outer => table.parent? scope = outer.head? ∧ table.Nests outer

/-- Seen from a scope, a name is looked up in the two innermost scopes of the path. -/
theorem Table.visibleFrom_eq_take {table : Table} {scope : Nat} {outer : List Nat}
    (nests : table.Nests (scope :: outer)) (name : String) :
    table.visibleFrom scope name = table.firstBinding ((scope :: outer).take 2) name := by
  unfold Table.visibleFrom
  rw [nests.1]
  cases outer <;> rfl

theorem nests_scopesInside {table : Table} {around : List Nat} {node : Node} (role : Role)
    (linked : ∀ id, node.scope? = some id → table.parent? id = around.head?)
    (nests : table.Nests around) : table.Nests (node.scopesInside role around) := by
  by_cases head : role = .head
  · rw [head, Node.scopesInside_head]
    exact nests
  · cases opens : node.scope? with
    | none =>
      rw [Node.scopesInside_of_no_scope opens]
      exact nests
    | some id =>
      rw [Node.scopesInside_of_scope opens head]
      exact ⟨linked id opens, nests⟩

theorem nests_of_site {table : Table} {least : Nat} {node : Node} {path : List Node}
    (analyzed : node.Throughout (Analyzed table least) (scopesOnPath node.role path))
    (nests : table.Nests (scopesOnPath node.role path)) {site : Site}
    (member : site ∈ node.sites path) : table.Nests site.scopes := by
  induction node using Node.induction generalizing path with
  | step kind span children role mark ih =>
    rcases Node.mem_sites.mp member with rfl | ⟨child, inside, deeper⟩
    · exact nests
    · exact ih child inside (analyzed.step inside)
        (nests_scopesInside child.role analyzed.here.linked nests) deeper

/-- What a site adds to the scopes around its tree has numbers of that tree. -/
theorem scopes_of_site {table : Table} {least : Nat} {node : Node} {path : List Node}
    (analyzed : node.Throughout (Analyzed table least) (scopesOnPath node.role path))
    {site : Site} (member : site ∈ node.sites path) :
    ∃ inner, site.scopes = inner ++ scopesOnPath node.role path ∧ ∀ id ∈ inner, least ≤ id := by
  induction node using Node.induction generalizing path with
  | step kind span children role mark ih =>
    rcases Node.mem_sites.mp member with rfl | ⟨child, inside, deeper⟩
    · exact ⟨[], rfl, by simp⟩
    · obtain ⟨inner, scopes, numbers⟩ := ih child inside (analyzed.step inside) deeper
      refine ⟨inner ++ if child.role = .head then [] else
        (⟨kind, span, children, role, mark⟩ : Node).scope?.toList, ?_, ?_⟩
      · rw [scopes, List.append_assoc]
        rfl
      · intro id number
        rcases List.mem_append.mp number with deep | own
        · exact numbers id deep
        · split at own
          · cases own
          · exact analyzed.here.numbered id (by simpa using own)

section Program

variable {program : Node} (is : IsProgram program)

include is

theorem nests_at_site {site : Site} (member : site ∈ (analyze program).1.sites []) :
    (analyze program).2.Nests site.scopes :=
  nests_of_site (show Node.Throughout _ (scopesOnPath _ []) _ from analyze_spec is) trivial member

/-- Below the program itself, its scope comes last on every path, and only there. -/
theorem scopes_below {site : Site} (member : site ∈ (analyze program).1.sites []) :
    site = ⟨(analyze program).1, []⟩ ∨
      ∃ inner, site.scopes = inner ++ [0] ∧ ∀ id ∈ inner, 1 ≤ id := by
  rcases Node.mem_sites.mp member with rfl | ⟨item, inside, deeper⟩
  · exact .inl rfl
  · have base : scopesOnPath item.role [(analyze program).1] = [0] :=
      Node.scopesInside_of_scope (analyze_mark is) (analyze_items is item inside) []
    have below := scopes_of_site (base ▸ analyze_items_spec is item inside) deeper
    rw [base] at below
    exact .inr below

/-- The innermost scope is that of the module exactly if no other one has been entered. -/
theorem scope_eq_zero_iff {site : Site} (member : site ∈ (analyze program).1.sites []) :
    site.scope = 0 ↔ site.scopes.length ≤ 1 := by
  rcases scopes_below is member with rfl | ⟨inner, scopes, numbers⟩
  · simp [Site.scope, Site.scopes, scopesOnPath]
  · rw [Site.scope, scopes]
    cases inner with
    | nil => simp
    | cons id rest =>
      have positive := numbers id List.mem_cons_self
      simp only [List.cons_append, List.head?_cons, Option.getD_some, List.length_cons,
        List.length_append]
      omega

theorem scopes_ne_nil {site : Site} (member : site ∈ (analyze program).1.sites [])
    (below : site.node.kind ≠ .program) : site.scopes ≠ [] := by
  rcases scopes_below is member with rfl | ⟨inner, scopes, _⟩
  · exact absurd (by rw [analyze_eq is]; exact is.kind) below
  · simp [scopes]

end Program

/-! References. -/

def reference? (site : Site) : Option Reference :=
  match site.node.kind with
  | .identifier name _ => some ⟨name, site.node.span.start, site.node.isFree, site.scope⟩
  | _ => none

theorem reference?_eq_none {site : Site}
    (different : ∀ name use, site.node.kind = .identifier name use → False) :
    reference? site = none := by
  unfold reference?
  split
  · next identifier => exact absurd identifier (different _ _)
  · rfl

theorem referencesOfAll_eq_foldr (outer inner : Nat) (nodes : List Node)
    (others : List Reference) :
    referencesOfAll outer inner nodes others =
      nodes.foldr (fun node => references (if node.role = .head then outer else inner) node)
        others := by
  induction nodes with
  | nil => rfl
  | cons node rest ih => simp only [referencesOfAll, List.foldr_cons, ih]

theorem scope_of_part (node : Node) (path : List Node) (part : Node) :
    Site.scope ⟨part, node :: path⟩ = if part.role = .head then Site.scope ⟨node, path⟩
      else node.scope?.getD (Site.scope ⟨node, path⟩) := by
  simp only [Site.scope, Site.scopes, scopesOnPath, Node.scopesInside]
  by_cases head : part.role = .head
  · simp [head]
  · cases node.scope? <;> simp [head]

/-- A node refers before its parts do, each from its own innermost scope. -/
theorem references_eq_children (node : Node) (path : List Node) (others : List Reference) :
    references (Site.scope ⟨node, path⟩) node others =
      (reference? ⟨node, path⟩).toList ++
        node.children.foldr (fun child => references (Site.scope ⟨child, node :: path⟩) child)
          others := by
  obtain ⟨kind, span, children, role, mark⟩ := node
  simp only [scope_of_part]
  cases mark
  all_goals
    simp only [references, referencesOfAll_eq_foldr, Node.scope?, Option.getD_none, Option.getD_some]
    split
    · rfl
    · next different =>
      rw [reference?_eq_none different]
      rfl

theorem references_eq_sites (node : Node) (path : List Node) (others : List Reference) :
    references (Site.scope ⟨node, path⟩) node others =
      (node.sites path).filterMap reference? ++ others := by
  induction node using Node.induction generalizing path others with
  | step kind span children role mark ih =>
    let node : Node := ⟨kind, span, children, role, mark⟩
    have below : ∀ nodes ⊆ children,
        nodes.foldr (fun child => references (Site.scope ⟨child, node :: path⟩) child) others =
          (nodes.flatMap (Node.sites (node :: path))).filterMap reference? ++ others := by
      intro nodes sub
      induction nodes with
      | nil => rfl
      | cons child rest later =>
        obtain ⟨inside, further⟩ := List.cons_subset.mp sub
        rw [List.foldr_cons, later further, ih child inside, List.flatMap_cons,
          List.filterMap_append, List.append_assoc]
    rw [references_eq_children node path, below children (List.Subset.refl _), Node.sites_eq,
      List.filterMap_cons]
    cases reference? ⟨node, path⟩ <;> rfl

theorem scopes_of_part {table : Table} {least : Nat} {site : Site}
    (analyzed : Analyzed table least site.scopes site.node)
    (opens : opensScope site.node.kind = false) (part : Node) :
    Site.scopes ⟨part, site.node :: site.path⟩ = site.scopes := by
  refine Node.scopesInside_of_no_scope ?_ part.role site.scopes
  cases scope : site.node.scope? with
  | none => rfl
  | some id =>
    rw [analyzed.opens id scope] at opens
    cases opens

theorem mem_freeNames {tree : Node} {table : Table} {site : Site} (member : site ∈ tree.sites [])
    {name : String} {use : Use} (identifier : site.node.kind = .identifier name use)
    (free : site.node.isFree = true) :
    name ∈ freeNames table (references 0 tree []) 0 := by
  have whole := references_eq_sites tree [] []
  rw [List.append_nil] at whole
  have found : (⟨name, site.node.span.start, true, site.scope⟩ : Reference) ∈
      references 0 tree [] := by
    rw [show (0 : Nat) = Site.scope ⟨tree, []⟩ from rfl, whole]
    refine List.mem_filterMap.mpr ⟨site, member, ?_⟩
    simp only [reference?, identifier, free]
  exact List.mem_map.mpr ⟨_, List.mem_filter.mpr ⟨found, rfl⟩, rfl⟩

end ClientBoundary.Scope
