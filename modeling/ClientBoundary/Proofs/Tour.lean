import ClientBoundary.Syntax.Tour

/-! The tour of a tree told without stacks. A site is a node with its path from the root; the scopes
around it are those that the nodes on the path open. Following the tour with the two stacks makes
exactly the visits of the sites, in the order of the tree. -/
namespace ClientBoundary.Syntax

/-- Induction over trees: a property holds of a node if it holds of each of its children. -/
theorem Node.induction {motive : Node → Prop}
    (step : ∀ kind span children role mark, (∀ child ∈ children, motive child) →
      motive ⟨kind, span, children, role, mark⟩) (node : Node) : motive node := by
  refine @Node.rec motive (fun nodes => ∀ child ∈ nodes, motive child) step ?_ ?_ node
  · simp
  · intro first rest atFirst atRest child member
    rcases List.mem_cons.mp member with rfl | later
    · exact atFirst
    · exact atRest child later

/-- A node and the nodes around it, innermost first. -/
structure Site where
  node : Node
  path : List Node

mutual

/-- All sites of a tree that stands at the end of a path, a node before what is below it. -/
def Node.sites (path : List Node) : Node → List Site
  | ⟨kind, span, children, role, mark⟩ =>
    let node : Node := ⟨kind, span, children, role, mark⟩
    ⟨node, path⟩ :: Node.sitesOfAll (node :: path) children

def Node.sitesOfAll (path : List Node) : List Node → List Site
  | [] => []
  | node :: rest => node.sites path ++ Node.sitesOfAll path rest

end

/-- The scopes around a part of a node, given those around the node. What plays the part of a head
stands outside of the scope that its parent opens. -/
def Node.scopesInside (node : Node) (role : Role) (around : List Nat) : List Nat :=
  (if role = .head then [] else node.scope?.toList) ++ around

/-- The scopes entered on a path, innermost first. -/
def scopesOnPath (role : Role) : List Node → List Nat
  | [] => []
  | parent :: outer => parent.scopesInside role (scopesOnPath parent.role outer)

namespace Site

def scopes (site : Site) : List Nat := scopesOnPath site.node.role site.path

def scope (site : Site) : Nat := site.scopes.head?.getD 0

def visit? (site : Site) : Option Visit :=
  (Event.of? site.node).map (⟨·, site.path, site.scope⟩)

end Site

theorem Node.sitesOfAll_eq_flatMap (path : List Node) (nodes : List Node) :
    Node.sitesOfAll path nodes = nodes.flatMap (Node.sites path) := by
  induction nodes with
  | nil => rfl
  | cons node rest ih => simp only [Node.sitesOfAll, List.flatMap_cons, ih]

theorem Node.sites_eq (path : List Node) (node : Node) :
    node.sites path = ⟨node, path⟩ :: node.children.flatMap (Node.sites (node :: path)) := by
  cases node
  simp only [Node.sites, Node.sitesOfAll_eq_flatMap]

theorem Node.scopesInside_head (node : Node) (around : List Nat) :
    node.scopesInside .head around = around := rfl

theorem Node.scopesInside_of_scope {node : Node} {id : Nat} (opens : node.scope? = some id)
    {role : Role} (other : role ≠ .head) (around : List Nat) :
    node.scopesInside role around = id :: around := by
  simp [Node.scopesInside, other, opens]

theorem Node.scopesInside_of_no_scope {node : Node} (opens : node.scope? = none) (role : Role)
    (around : List Nat) : node.scopesInside role around = around := by
  simp [Node.scopesInside, opens]

theorem Node.mem_sites {site : Site} {path : List Node} {node : Node} :
    site ∈ node.sites path ↔
      site = ⟨node, path⟩ ∨ ∃ child ∈ node.children, site ∈ child.sites (node :: path) := by
  rw [Node.sites_eq]
  simp only [List.mem_cons, List.mem_flatMap]

theorem Node.child_mem_sites {path : List Node} {node : Node} {site : Site}
    (member : site ∈ node.sites path) {child : Node} (below : child ∈ site.node.children) :
    ⟨child, site.node :: site.path⟩ ∈ node.sites path := by
  induction node using Node.induction generalizing path with
  | step kind span children role mark ih =>
    rcases Node.mem_sites.mp member with rfl | ⟨top, inside, deeper⟩
    · exact Node.mem_sites.mpr (.inr ⟨child, below, Node.mem_sites.mpr (.inl rfl)⟩)
    · exact Node.mem_sites.mpr (.inr ⟨top, inside, ih top inside deeper⟩)

theorem Node.sites_trans {path : List Node} {node : Node} {site below : Site}
    (member : site ∈ node.sites path) (inside : below ∈ site.node.sites site.path) :
    below ∈ node.sites path := by
  induction node using Node.induction generalizing path with
  | step kind span children role mark ih =>
    rcases Node.mem_sites.mp member with rfl | ⟨top, isTop, deeper⟩
    · exact inside
    · exact Node.mem_sites.mpr (.inr ⟨top, isTop, ih top isTop deeper⟩)

/-- A property of every node of a tree and the scopes around it. -/
inductive Node.Throughout (holds : List Nat → Node → Prop) : List Nat → Node → Prop where
  | mk {around : List Nat} {node : Node} (here : holds around node)
      (inside : ∀ child ∈ node.children,
        Node.Throughout holds (node.scopesInside child.role around) child) :
      Node.Throughout holds around node

namespace Node.Throughout

variable {holds : List Nat → Node → Prop} {around : List Nat} {node : Node}

theorem here (all : node.Throughout holds around) : holds around node := by
  cases all; assumption

theorem inside (all : node.Throughout holds around) :
    ∀ child ∈ node.children, child.Throughout holds (node.scopesInside child.role around) := by
  cases all; assumption

theorem mono {other : List Nat → Node → Prop}
    (implies : ∀ around node, holds around node → other around node)
    (all : node.Throughout holds around) : node.Throughout other around := by
  induction all with
  | mk here _ ih => exact .mk (implies _ _ here) ih

theorem step {path : List Node} (all : node.Throughout holds (scopesOnPath node.role path))
    {child : Node} (member : child ∈ node.children) :
    child.Throughout holds (scopesOnPath child.role (node :: path)) := all.inside child member

theorem at_site {path : List Node} (all : node.Throughout holds (scopesOnPath node.role path))
    {site : Site} (member : site ∈ node.sites path) : holds site.scopes site.node := by
  induction node using Node.induction generalizing path with
  | step kind span children role mark ih =>
    rcases Node.mem_sites.mp member with rfl | ⟨child, inside, deeper⟩
    · exact all.here
    · exact ih child inside (all.step inside) deeper

end Node.Throughout

/-- Heads come before the parts inside of the scope, so that the order of the tour is the order of
the children. -/
def Node.HeadsFirst (node : Node) : Prop :=
  node.scope?.isSome →
    node.children.filter (·.role = .head) ++ node.children.filter (·.role ≠ .head) = node.children

theorem allMoves_eq_foldr (nodes : List Node) (others : List Move) :
    allMoves nodes others = nodes.foldr moves others := by
  induction nodes with
  | nil => rfl
  | cons node rest ih => simp only [allMoves, List.foldr_cons, ih]

theorem headMoves_eq_foldr (nodes : List Node) (others : List Move) :
    headMoves nodes others = (nodes.filter (·.role = .head)).foldr moves others := by
  induction nodes with
  | nil => rfl
  | cons node rest ih =>
    by_cases head : node.role = .head <;> simp [headMoves, head, ih]

theorem restMoves_eq_foldr (nodes : List Node) (others : List Move) :
    restMoves nodes others = (nodes.filter (·.role ≠ .head)).foldr moves others := by
  induction nodes with
  | nil => rfl
  | cons node rest ih =>
    by_cases head : node.role = .head <;> simp [restMoves, head, ih]

theorem moves_of_scope {node : Node} {id : Nat} (opens : node.scope? = some id)
    (others : List Move) :
    moves node others = .enter node :: (node.children.filter (·.role = .head)).foldr moves
      (.openScope id :: (node.children.filter (·.role ≠ .head)).foldr moves
        (.closeScope :: .leave :: others)) := by
  obtain ⟨kind, span, children, role, mark⟩ := node
  cases mark <;> simp_all [moves, Node.scope?, headMoves_eq_foldr, restMoves_eq_foldr]

theorem moves_of_no_scope {node : Node} (opens : node.scope? = none) (others : List Move) :
    moves node others = .enter node :: node.children.foldr moves (.leave :: others) := by
  obtain ⟨kind, span, children, role, mark⟩ := node
  cases mark <;> simp_all [moves, Node.scope?, allMoves_eq_foldr]

section Surroundings

variable (around : Surroundings)

theorem visitsAlong_enter (node : Node) (others : List Move)
    (known : around.scopes = scopesOnPath node.role around.nodes) :
    visitsAlong around (.enter node :: others) =
      (Site.visit? ⟨node, around.nodes⟩).toList ++
        visitsAlong { around with nodes := node :: around.nodes } others := by
  have scope : around.scope = Site.scope ⟨node, around.nodes⟩ := by
    simp only [Surroundings.scope, Site.scope, Site.scopes, known]
  simp only [visitsAlong, Surroundings.visit?, Surroundings.move, Site.visit?, scope]
  cases Event.of? node <;> rfl

theorem visitsAlong_openScope (id : Nat) (others : List Move) :
    visitsAlong around (.openScope id :: others) =
      visitsAlong { around with scopes := id :: around.scopes } others := rfl

theorem visitsAlong_closeScope (others : List Move) :
    visitsAlong around (.closeScope :: others) =
      visitsAlong { around with scopes := around.scopes.tail } others := rfl

theorem visitsAlong_leave (others : List Move) :
    visitsAlong around (.leave :: others) =
      visitsAlong { around with nodes := around.nodes.tail } others := rfl

/-- Several trees one after the other, if the tour makes the right visits in each. The stacks are as
before after each of them, so what follows is visited as if nothing had been. -/
theorem visitsAlong_foldr (nodes : List Node) (others : List Move)
    (each : ∀ node ∈ nodes, ∀ others, visitsAlong around (moves node others) =
      (node.sites around.nodes).filterMap Site.visit? ++ visitsAlong around others) :
    visitsAlong around (nodes.foldr moves others) =
      (nodes.flatMap (Node.sites around.nodes)).filterMap Site.visit? ++
        visitsAlong around others := by
  induction nodes with
  | nil => simp
  | cons node rest ih =>
    have tail := ih fun node member => each node (List.mem_cons_of_mem _ member)
    simp only [List.foldr_cons, List.flatMap_cons, List.filterMap_append, List.append_assoc]
    rw [each node List.mem_cons_self, tail]

end Surroundings

theorem filterMap_visit?_sites (path : List Node) (node : Node) :
    (node.sites path).filterMap Site.visit? = (Site.visit? ⟨node, path⟩).toList ++
      (node.children.flatMap (Node.sites (node :: path))).filterMap Site.visit? := by
  rw [Node.sites_eq, List.filterMap_cons]
  cases Site.visit? ⟨node, path⟩ <;> rfl

/-- The tour of a tree makes the visits of its sites and leaves the stacks as they were. -/
theorem visitsAlong_moves {node : Node} (around : Surroundings)
    (ordered : node.Throughout (fun _ => Node.HeadsFirst) around.scopes)
    (known : around.scopes = scopesOnPath node.role around.nodes) (others : List Move) :
    visitsAlong around (moves node others) =
      (node.sites around.nodes).filterMap Site.visit? ++ visitsAlong around others := by
  induction node using Node.induction generalizing around others with
  | step kind span children role mark ih =>
    let node : Node := ⟨kind, span, children, role, mark⟩
    have below (scopes : List Nat) (nodes : List Node) (sub : nodes ⊆ children)
        (fits : ∀ child ∈ nodes, scopes = node.scopesInside child.role around.scopes)
        (others : List Move) :=
      visitsAlong_foldr ⟨node :: around.nodes, scopes⟩ nodes others fun child member =>
        have fit := fits child member
        ih child (sub member) _ (fit ▸ ordered.inside child (sub member)) (by rw [fit, known]; rfl)
    cases opens : node.scope? with
    | none =>
      have fits : ∀ child ∈ children,
          around.scopes = node.scopesInside child.role around.scopes := fun child _ =>
        (Node.scopesInside_of_no_scope opens child.role around.scopes).symm
      rw [moves_of_no_scope opens, visitsAlong_enter around node _ known,
        below _ _ (List.Subset.refl _) fits, visitsAlong_leave, filterMap_visit?_sites,
        List.append_assoc]
      rfl
    | some id =>
      -- Heads are visited in the scopes around the node, the rest inside of the scope it opens.
      have outside : ∀ child ∈ children.filter (·.role = .head),
          around.scopes = node.scopesInside child.role around.scopes := by
        intro child member
        have head : child.role = .head := by simpa using (List.mem_filter.mp member).2
        rw [head, Node.scopesInside_head]
      have inside : ∀ child ∈ children.filter (·.role ≠ .head),
          id :: around.scopes = node.scopesInside child.role around.scopes := by
        intro child member
        have other : child.role ≠ .head := by simpa using (List.mem_filter.mp member).2
        rw [Node.scopesInside_of_scope opens other]
      have order : children.filter (·.role = .head) ++ children.filter (·.role ≠ .head) =
          children := ordered.here (by rw [opens]; rfl)
      rw [moves_of_scope opens, visitsAlong_enter around node _ known,
        below _ _ List.filter_sublist.subset outside, visitsAlong_openScope,
        below _ _ List.filter_sublist.subset inside, visitsAlong_closeScope,
        visitsAlong_leave, filterMap_visit?_sites]
      simp only [List.append_assoc, List.tail_cons]
      rw [← List.append_assoc (List.filterMap _ _), ← List.filterMap_append,
        ← List.flatMap_append, order]

/-- A program is visited site by site, between an event before and one after. -/
theorem visits_eq_sites {program : Node}
    (ordered : program.Throughout (fun _ => Node.HeadsFirst) []) :
    visits program = ⟨.enterProgram, [], 0⟩ :: (program.sites []).filterMap Site.visit? ++
      [⟨.exitProgram, [], 0⟩] := by
  have tour := visitsAlong_moves {} ordered rfl []
  simp only [visits, tour, visitsAlong, List.append_nil]

end ClientBoundary.Syntax
