import ClientBoundary.Proofs.Detection

/-! Scopes inside of scopes. The links of the table lead from each scope out to the one of the
module, so a walk along them ends, and from the scope of a reference it passes exactly the scopes on
the path of the reference. So the free names of a scope are those of all references at or below it
in the tree. -/
namespace ClientBoundary

/-- Whether a reference can be to a value: a type, or the name in front of its dots, is none. -/
def Syntax.Use.isForValue : Use → Bool
  | .value | .valueOrType => true
  | .type | .qualifier => false

namespace Scope

open Syntax

namespace Table

theorem Grows.parent?_eq {table later : Table} (grows : table.Grows later)
    (size : later.size = table.size) (scope : Nat) :
    later.parent? scope = table.parent? scope := by
  by_cases inside : scope < table.size
  · exact grows.parent scope inside
  · have outside : ¬ scope < later.size := by omega
    simp [parent?, Array.getElem?_eq_none (Nat.le_of_not_lt inside),
      Array.getElem?_eq_none (Nat.le_of_not_lt outside)]

theorem size_foldl_pass (scopes : List Nat) (name : String) (table : Table) :
    (scopes.foldl (fun table scope => table.update scope (·.pass name)) table).size = table.size := by
  induction scopes generalizing table with
  | nil => rfl
  | cons scope rest ih => rw [List.foldl_cons, ih, size_update]

theorem size_declareVariable (table : Table) (scope : Nat) (binding : Binding) :
    (table.declareVariable scope binding).size = table.size := by
  unfold declareVariable
  split
  · rfl
  · rw [size_foldl_pass]
    split
    · exact size_update ..
    · split
      · rfl
      · dsimp only
        split
        · exact size_update ..
        · exact (size_update ..).trans (size_update ..)

end Table

theorem size_declareOuter (place : Place) (kind : Kind) (table : Table) :
    (declareOuter place kind table).size = table.size := by
  unfold declareOuter
  split
  · unfold declareIn
    split
    · exact Table.size_declareVariable ..
    · exact Table.size_update ..
  · rfl

/-- The module has no scope around it, and every other scope has one that opened before it. -/
structure Table.Rooted (table : Table) : Prop where
  root : table.parent? 0 = none
  inner : ∀ scope < table.size, 0 < scope → ∃ outer < scope, table.parent? scope = some outer

namespace Table.Rooted

variable {table : Table}

theorem parent_lt (rooted : table.Rooted) {scope outer : Nat}
    (around : table.parent? scope = some outer) : outer < scope := by
  have inside : scope < table.size := by
    by_contra outside
    simp [parent?, Array.getElem?_eq_none (Nat.le_of_not_lt outside)] at around
  rcases Nat.eq_zero_or_pos scope with rfl | positive
  · rw [rooted.root] at around
    cases around
  · obtain ⟨other, less, same⟩ := rooted.inner scope inside positive
    rw [around] at same
    cases same
    exact less

theorem of_grows {later : Table} (rooted : table.Rooted) (grows : table.Grows later)
    (size : later.size = table.size) : later.Rooted where
  root := by rw [grows.parent?_eq size, rooted.root]
  inner scope inside positive := by
    rw [grows.parent?_eq size]
    exact rooted.inner scope (by omega) positive

theorem declareOuter (rooted : table.Rooted) (place : Place) (kind : Kind) :
    (declareOuter place kind table).Rooted :=
  rooted.of_grows (grows_declareOuter place kind table) (size_declareOuter place kind table)

theorem openScope (rooted : table.Rooted) {place : Place} (there : place.scope < table.size)
    (node : Node) : (openScope place node table).Rooted := by
  obtain ⟨size, grows, parent⟩ := Table.openScope_spec place node table
  constructor
  · rw [grows.parent 0 (by omega), rooted.root]
  · intro scope inside positive
    rcases Nat.lt_or_ge scope table.size with before | new
    · rw [grows.parent scope before]
      exact rooted.inner scope before positive
    · obtain rfl : scope = table.size := by omega
      rw [parent, if_neg (by omega)]
      exact ⟨place.scope, there, rfl⟩

end Table.Rooted

theorem size_le_bindAll (place : Place) (nodes : List Node) {table : Table}
    (begun : 0 < table.size) : table.size ≤ (bindAll place nodes table).2.size :=
  (bindAll_spec nodes (fun node _ => bind_spec node) place table [place.scope] begun rfl).1.size

def StaysRooted (node : Node) : Prop :=
  ∀ (place : Place) (table : Table), place.scope < table.size → table.Rooted →
    (bind place node table).2.Rooted

theorem bindAll_rooted (nodes : List Node) (each : ∀ node ∈ nodes, StaysRooted node)
    (place : Place) {table : Table} (there : place.scope < table.size) (rooted : table.Rooted) :
    (bindAll place nodes table).2.Rooted := by
  induction nodes generalizing table with
  | nil => exact rooted
  | cons node rest ih =>
    have grows := (bind_spec node place table [place.scope] (Nat.zero_lt_of_lt there) rfl).1
    have first := each node List.mem_cons_self place table there rooted
    exact ih (fun node member => each node (List.mem_cons_of_mem _ member))
      (Nat.lt_of_lt_of_le there grows.size) first

theorem bind_rooted (node : Node) : StaysRooted node := by
  induction node using Node.induction with
  | step kind span children role mark ih =>
    intro place table there rooted
    have outer := rooted.declareOuter place kind
    rw [← size_declareOuter place kind table] at there
    cases opens : opensScope kind with
    | false =>
      rw [bind_of_no_scope place _ table opens]
      exact bindAll_rooted children ih _ (by rwa [innerPlace_scope]) outer
    | true =>
      let node : Node := ⟨kind, span, children, role, mark⟩
      rw [bind_of_scope place node table opens]
      have heads := bindAll_rooted (children.filter (·.role = .head))
        (fun node member => ih node (List.mem_of_mem_filter member)) place there outer
      have more := size_le_bindAll place (children.filter (·.role = .head))
        (Nat.zero_lt_of_lt there)
      generalize bindAll place (children.filter (·.role = .head)) (declareOuter place kind table) =
        bound at heads more
      have size := (Table.openScope_spec place node bound.2).1
      exact bindAll_rooted _ (fun node member => ih node (List.mem_of_mem_filter member)) _
        (by rw [innerPlace_scope, size]; exact Nat.lt_succ_self bound.2.size)
        (heads.openScope (by omega) node)

theorem openScope_first_rooted (program : Node) : (openScope { scope := 0 } program #[]).Rooted := by
  obtain ⟨size, _, parent⟩ := Table.openScope_spec { scope := 0 } program #[]
  refine ⟨parent, fun scope inside positive => ?_⟩
  simp only [size, List.size_toArray, List.length_nil] at inside
  omega

theorem analyze_rooted {program : Node} (is : IsProgram program) : (analyze program).2.Rooted := by
  have size := (Table.openScope_spec { scope := 0 } program #[]).1
  rw [analyze_eq is]
  exact bindAll_rooted _ (fun node _ => bind_rooted node) _
    (by rw [innerPlace_scope, size]; exact Nat.zero_lt_one) (openScope_first_rooted program)

/-! Walks along the links. -/

/-- A scope, the one around it, and so on, to one that has none around it. -/
inductive Table.Walk (table : Table) : Nat → List Nat → Prop where
  | last {scope : Nat} (outermost : table.parent? scope = none) : Walk table scope [scope]
  | next {scope outer : Nat} {rest : List Nat} (around : table.parent? scope = some outer)
      (further : Walk table outer rest) : Walk table scope (scope :: rest)

namespace Table

variable {table : Table}

theorem Walk.eq {scope : Nat} {walk other : List Nat} (one : table.Walk scope walk)
    (two : table.Walk scope other) : walk = other := by
  induction one generalizing other with
  | last outermost =>
    cases two with
    | last => rfl
    | next around => rw [outermost] at around; cases around
  | next around _ ih =>
    cases two with
    | last outermost => rw [around] at outermost; cases outermost
    | next aroundToo further =>
      rw [around] at aroundToo
      cases aroundToo
      rw [ih further]

theorem Nests.walk {scope : Nat} {outer : List Nat} (nests : table.Nests (scope :: outer)) :
    table.Walk scope (scope :: outer) := by
  induction outer generalizing scope with
  | nil => exact .last nests.1
  | cons next rest ih => exact .next nests.1 (ih nests.2)

/-- Each step out comes to a smaller number, so a bound on the number of steps is none. -/
theorem Rooted.walk_chainWithin (rooted : table.Rooted) {steps scope : Nat} (enough : scope < steps) :
    table.Walk scope (table.chainWithin steps scope) := by
  induction steps generalizing scope with
  | zero => omega
  | succ steps ih =>
    unfold chainWithin
    cases around : table.parent? scope with
    | none => exact .last around
    | some outer =>
      have less := rooted.parent_lt around
      exact .next around (ih (by omega))

theorem Rooted.walk_chain (rooted : table.Rooted) (scope : Nat) :
    table.Walk scope (table.chain scope) := rooted.walk_chainWithin (Nat.lt_succ_self scope)

/-- A walk that starts at a scope of the table comes to the module. -/
theorem Rooted.getLast?_walk (rooted : table.Rooted) {scope : Nat} {walk : List Nat}
    (walks : table.Walk scope walk) (inside : scope < table.size) : walk.getLast? = some 0 := by
  induction walks with
  | @last scope outermost =>
    rcases Nat.eq_zero_or_pos scope with rfl | positive
    · rfl
    · obtain ⟨outer, _, around⟩ := rooted.inner scope inside positive
      rw [outermost] at around
      cases around
  | @next scope outer rest around further ih =>
    have less := rooted.parent_lt around
    have deeper := ih (by omega)
    cases rest with
    | nil => cases deeper
    | cons first others => rwa [List.getLast?_cons_cons]

end Table

section Program

variable {program : Node} (is : IsProgram program)

include is

/-- From any scope on the path of a site, the walk passes what is further out on the path. -/
theorem chain_eq_of_split {site : Site} (member : site ∈ (analyze program).1.sites [])
    {inner outer : List Nat} {scope : Nat} (split : site.scopes = inner ++ scope :: outer) :
    (analyze program).2.chain scope = scope :: outer := by
  have nests := nests_at_site is member
  rw [split] at nests
  have rest : (analyze program).2.Nests (scope :: outer) := by
    clear split
    induction inner with
    | nil => exact nests
    | cons first others ih => exact ih nests.2
  exact ((analyze_rooted is).walk_chain scope).eq rest.walk

/-- The walk from a reference passes exactly the scopes on its path. -/
theorem chain_scope {site : Site} (member : site ∈ (analyze program).1.sites [])
    (below : site.node.kind ≠ .program) : (analyze program).2.chain site.scope = site.scopes := by
  obtain ⟨scope, outer, split⟩ := List.exists_cons_of_ne_nil (scopes_ne_nil is member below)
  have innermost : site.scope = scope := by rw [Site.scope, split]; rfl
  rw [innermost, split]
  exact chain_eq_of_split is member (show site.scopes = [] ++ scope :: outer from split)

theorem analyzed_at_site {site : Site} (member : site ∈ (analyze program).1.sites []) :
    Analyzed (analyze program).2 0 site.scopes site.node :=
  Node.Throughout.at_site (show Node.Throughout _ (scopesOnPath _ []) _ from analyze_spec is) member

theorem root_mem_scopes {site : Site} (member : site ∈ (analyze program).1.sites [])
    (below : site.node.kind ≠ .program) : 0 ∈ site.scopes := by
  rcases scopes_below is member with rfl | ⟨inner, scopes, _⟩
  · exact absurd (by rw [analyze_eq is]; exact is.kind) below
  · simp [scopes]

end Program

/-! Free names. -/

/-- A site refers by a name to what no scope around it declares. -/
def IsFreeAt (table : Table) (name : String) (use : Use) (site : Site) : Prop :=
  site.node.kind = .identifier name use ∧ resolves table site.scopes name use = false

theorem IsFreeAt.below {table : Table} {name : String} {use : Use} {site : Site}
    (free : IsFreeAt table name use site) : site.node.kind ≠ .program := by
  rw [free.1]
  exact nofun

theorem mem_references {tree : Node} {reference : Reference} :
    reference ∈ references 0 tree [] ↔ ∃ site ∈ tree.sites [], reference? site = some reference := by
  have whole := references_eq_sites tree [] []
  rw [List.append_nil] at whole
  rw [show (0 : Nat) = Site.scope ⟨tree, []⟩ from rfl, whole, List.mem_filterMap]

section FreeNames

variable {program : Node} (is : IsProgram program)

include is

/-- A reference is free exactly if no scope on its path declares what it means, and it is inside of
exactly these scopes. -/
theorem mem_freeNames_iff (scope : Nat) (name : String) :
    name ∈ freeNames (analyze program).2 (references 0 (analyze program).1 []) scope ↔
      ∃ site ∈ (analyze program).1.sites [], ∃ use,
        IsFreeAt (analyze program).2 name use site ∧ scope ∈ site.scopes := by
  simp only [freeNames, List.mem_map, List.mem_filter, mem_references, Bool.and_eq_true,
    Bool.or_eq_true, decide_eq_true_eq, List.contains_iff_mem]
  constructor
  · rintro ⟨reference, ⟨⟨site, member, refers⟩, free, inside⟩, rfl⟩
    unfold reference? at refers
    split at refers
    · next name use identifier =>
      cases refers
      have below : site.node.kind ≠ .program := by rw [identifier]; exact nofun
      have known := analyzed_at_site is member
      refine ⟨site, member, use, ⟨identifier, (known.free name use identifier).mp free⟩, ?_⟩
      rcases inside with rfl | passed
      · exact root_mem_scopes is member below
      · rwa [chain_scope is member below] at passed
    · cases refers
  · rintro ⟨site, member, use, free, inside⟩
    have known := analyzed_at_site is member
    refine ⟨⟨name, site.node.span.start, site.node.isFree, site.scope⟩,
      ⟨⟨site, member, by simp only [reference?, free.1]⟩, (known.free name use free.1).mpr free.2,
        .inr ?_⟩, rfl⟩
    rw [chain_scope is member free.below]
    exact inside

theorem root_mem_chain {reference : Reference}
    (member : reference ∈ references 0 (analyze program).1 []) :
    0 ∈ (analyze program).2.chain reference.scope := by
  obtain ⟨site, isSite, refers⟩ := mem_references.mp member
  unfold reference? at refers
  split at refers
  · next name use identifier =>
    cases refers
    have below : site.node.kind ≠ .program := by rw [identifier]; exact nofun
    rw [chain_scope is isSite below]
    exact root_mem_scopes is isSite below
  · cases refers

theorem freeNames_subset {scope inner : Nat} (nested : scope ∈ (analyze program).2.chain inner) :
    freeNames (analyze program).2 (references 0 (analyze program).1 []) inner ⊆
      freeNames (analyze program).2 (references 0 (analyze program).1 []) scope := by
  intro name
  rw [mem_freeNames_iff is, mem_freeNames_iff is]
  rintro ⟨site, member, use, free, inside⟩
  obtain ⟨before, outer, split⟩ := List.append_of_mem inside
  rw [chain_eq_of_split is member split] at nested
  refine ⟨site, member, use, free, ?_⟩
  rw [split]
  exact List.mem_append_right before nested

/-- A scope is on a path either as the innermost one or right around another one on it. -/
theorem mem_scopes_iff {site : Site} (member : site ∈ (analyze program).1.sites []) (scope : Nat) :
    scope ∈ site.scopes ↔ site.scopes.head? = some scope ∨
      ∃ child ∈ site.scopes, (analyze program).2.parent? child = some scope := by
  have nests := nests_at_site is member
  generalize site.scopes = scopes at nests
  induction scopes with
  | nil => simp
  | cons first outer ih =>
    obtain ⟨around, further⟩ := nests
    have deeper := ih further
    constructor
    · intro inside
      rcases List.mem_cons.mp inside with rfl | out
      · exact .inl rfl
      · rcases deeper.mp out with next | ⟨child, isChild, linked⟩
        · exact .inr ⟨first, List.mem_cons_self, around.trans next⟩
        · exact .inr ⟨child, List.mem_cons_of_mem _ isChild, linked⟩
    · rintro (innermost | ⟨child, isChild, linked⟩)
      · cases innermost
        exact List.mem_cons_self
      · apply List.mem_cons_of_mem
        rcases List.mem_cons.mp isChild with rfl | out
        · exact List.mem_of_mem_head? (around.symm.trans linked)
        · exact deeper.mpr (.inr ⟨child, out, linked⟩)

theorem mem_freeNames_iff_children (scope : Nat) (name : String) :
    name ∈ freeNames (analyze program).2 (references 0 (analyze program).1 []) scope ↔
      (∃ site ∈ (analyze program).1.sites [], ∃ use,
        IsFreeAt (analyze program).2 name use site ∧ site.scopes.head? = some scope) ∨
      ∃ child, (analyze program).2.parent? child = some scope ∧
        name ∈ freeNames (analyze program).2 (references 0 (analyze program).1 []) child := by
  simp only [mem_freeNames_iff is]
  constructor
  · rintro ⟨site, member, use, free, inside⟩
    rcases (mem_scopes_iff is member scope).mp inside with innermost | ⟨child, within, linked⟩
    · exact .inl ⟨site, member, use, free, innermost⟩
    · exact .inr ⟨child, linked, site, member, use, free, within⟩
  · rintro (⟨site, member, use, free, innermost⟩ | ⟨child, linked, site, member, use, free, within⟩)
    · exact ⟨site, member, use, free, List.mem_of_mem_head? innermost⟩
    · exact ⟨site, member, use, free, (mem_scopes_iff is member scope).mpr (.inr ⟨child, within, linked⟩)⟩

end FreeNames

-- Parameters are looked up like the rest of the function, so a default sees what the body declares.
-- The block of a catch clause takes the names of the parameter over, so a default there does not
-- see them.
example : (Module.read? "a.js" "function f(a = b) \x7b var b; \x7d").map (·.freeNames 0) = some [] := by
  decide +kernel

example : (Module.read? "a.js" "try \x7b\x7d catch (\x7b a, b = a \x7d) \x7b\x7d").map
    (·.freeNames 0) = some ["a"] := by
  decide +kernel

end Scope

open Scope Syntax

/-- A name is used in a scope, or anywhere inside of it, for what nothing around it declares. -/
def Module.RefersFreely (module : Module) (scope : Nat) (name : String) (use : Use) : Prop :=
  ∃ site ∈ module.tree.sites [], IsFreeAt module.scopes name use site ∧ scope ∈ site.scopes

/-- The free names of a scope are those of the free references on whose path it is. They hold the
free names of every scope inside, and are those of the references right in the scope together with
those of its children. For the module itself the walk along the links would give the same as no
walk, and from every scope the walk ends, at the module. References to types are among them, so they
are the names of references to values exactly if each name that types use freely is used freely for
a value, too. -/
theorem freeNames_by_nesting {fileName source : String} {program : Node} (is : IsProgram program)
    {module : Module} (made : Module.ofProgram fileName source program = module) (scope : Nat) :
    (∀ name, name ∈ module.freeNames scope ↔ ∃ use, module.RefersFreely scope name use) ∧
    (∀ inner, scope ∈ module.scopes.chain inner →
      module.freeNames inner ⊆ module.freeNames scope) ∧
    (∀ name, name ∈ module.freeNames scope ↔
      (∃ site ∈ module.tree.sites [], ∃ use, IsFreeAt module.scopes name use site ∧
        site.scopes.head? = some scope) ∨
      ∃ child, module.scopes.parent? child = some scope ∧ name ∈ module.freeNames child) ∧
    module.freeNames 0 = (module.references.filter fun reference =>
      reference.isFree && (module.scopes.chain reference.scope).contains 0).map (·.name) ∧
    (module.scopes.Walk scope (module.scopes.chain scope) ∧
      (scope < module.scopes.size → (module.scopes.chain scope).getLast? = some 0)) ∧
    ((∀ name, name ∈ module.freeNames scope ↔
        ∃ use, use.isForValue = true ∧ module.RefersFreely scope name use) ↔
      ∀ name use, module.RefersFreely scope name use →
        ∃ use, use.isForValue = true ∧ module.RefersFreely scope name use) := by
  subst made
  have rooted := analyze_rooted is
  have free (name : String) : name ∈ (Module.ofProgram fileName source program).freeNames scope ↔
      ∃ use, (Module.ofProgram fileName source program).RefersFreely scope name use := by
    refine (mem_freeNames_iff is scope name).trans ?_
    constructor
    · rintro ⟨site, member, use, found⟩
      exact ⟨use, site, member, found⟩
    · rintro ⟨use, site, member, found⟩
      exact ⟨site, member, use, found⟩
  refine ⟨free, fun inner nested => freeNames_subset is nested,
    mem_freeNames_iff_children is scope, ?_,
    ⟨rooted.walk_chain scope, rooted.getLast?_walk (rooted.walk_chain scope)⟩, ?_⟩
  · refine congrArg (List.map _) (List.filter_congr fun reference member => ?_)
    have passed := root_mem_chain is member
    simp [Module.ofProgram, passed]
  · constructor
    · intro same name use refers
      exact (same name).mp ((free name).mpr ⟨use, refers⟩)
    · intro also name
      rw [free]
      constructor
      · rintro ⟨use, refers⟩
        exact also name use refers
      · rintro ⟨use, _, refers⟩
        exact ⟨use, refers⟩

/-- A block in a function in a module, with a free name in each of them. -/
theorem freeNames_by_nesting_block :
    ∃ program module, Syntax.parse? "page.jsx" "a;function f()\x7bb;\x7bc;f;\x7d\x7d" = some program ∧
      Module.ofProgram "page.jsx" "a;function f()\x7bb;\x7bc;f;\x7d\x7d" program = module ∧
      module.freeNames 0 = ["a", "b", "c"] ∧ module.freeNames 1 = ["b", "c"] ∧
      (∃ use, module.RefersFreely 1 "c" use) ∧ module.freeNames 2 ⊆ module.freeNames 1 ∧
      module.scopes.Walk 1 [1, 0] := by
  obtain ⟨program, parsed, holds⟩ := (Option.any_eq_true _ _).mp (show
    (Syntax.parse? "page.jsx" "a;function f()\x7bb;\x7bc;f;\x7d\x7d").any (fun program =>
      let module := Module.ofProgram "page.jsx" "a;function f()\x7bb;\x7bc;f;\x7d\x7d" program
      decide (module.freeNames 0 = ["a", "b", "c"] ∧ module.freeNames 1 = ["b", "c"] ∧
        module.scopes.chain 1 = [1, 0] ∧ 1 ∈ module.scopes.chain 2)) = true by decide +kernel)
  obtain ⟨outer, inner, chain, nested⟩ := of_decide_eq_true holds
  obtain ⟨free, holdsNested, _, _, ⟨walk, _⟩, _⟩ := freeNames_by_nesting (parse?_isProgram parsed) rfl 1
  refine ⟨program, _, parsed, rfl, outer, inner, (free "c").mp ?_, holdsNested 2 nested, chain ▸ walk⟩
  rw [inner]
  decide

/-- What a class is said to implement is a type, and counts as a free name nevertheless. -/
theorem implemented_name_free :
    ∃ module, Module.read? "a.ts" "class A implements Foo \x7b\x7d" = some module ∧
      module.freeNames 0 = ["Foo"] ∧
      ¬ ∃ use, use.isForValue = true ∧ module.RefersFreely 0 "Foo" use := by
  obtain ⟨module, read, holds⟩ := (Option.any_eq_true _ _).mp (show
    (Module.read? "a.ts" "class A implements Foo \x7b\x7d").any (fun module =>
      decide (module.freeNames 0 = ["Foo"] ∧ ∀ site ∈ module.tree.sites [],
        site.node.kind ≠ .identifier "Foo" .value ∧
        site.node.kind ≠ .identifier "Foo" .valueOrType)) = true by decide +kernel)
  obtain ⟨names, noValue⟩ := of_decide_eq_true holds
  refine ⟨module, read, names, ?_⟩
  rintro ⟨use, forValue, site, member, ⟨identifier, _⟩, _⟩
  obtain ⟨notValue, notEither⟩ := noValue site member
  cases use with
  | value => exact notValue identifier
  | valueOrType => exact notEither identifier
  | type => cases forValue
  | qualifier => cases forValue

end ClientBoundary
