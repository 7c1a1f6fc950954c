import ClientBoundary.Proofs.HiddenNames
import ClientBoundary.Proofs.HolderIdentity

/-! Names as seen from a scope, beside names as they are looked up. From a scope only the scope
itself and the one right around it are seen; what is found there is what the whole walk out to the
module finds, and what is not found there is further out or nowhere. A value that is passed to an
element by its name is looked up along the path of the name, so it is taken for a function only if
lookup comes to one. Outside of parameters this is the declaration that the name refers to. In the
parameters of a function, where the body declares nothing, and in those of a catch clause, which the
table has in the block, it need not be. -/
namespace ClientBoundary

namespace Scope

open Syntax

namespace Table

variable {table : Table} {scope : Nat} {walk : List Nat}

theorem Walk.eq_cons (walks : table.Walk scope walk) : ∃ outer, walk = scope :: outer := by
  cases walks with
  | last => exact ⟨[], rfl⟩
  | next => exact ⟨_, rfl⟩

theorem Walk.nests (walks : table.Walk scope walk) : table.Nests walk := by
  induction walks with
  | last outermost => exact ⟨outermost, trivial⟩
  | next around further ih =>
    obtain ⟨outer, rfl⟩ := further.eq_cons
    exact ⟨around, ih⟩

/-- A walk goes on from each of its scopes as it would from there. -/
theorem Walk.of_split (walks : table.Walk scope walk) {inner outer : List Nat} {further : Nat}
    (split : walk = inner ++ further :: outer) : table.Walk further (further :: outer) := by
  have nests := walks.nests
  rw [split] at nests
  clear split
  induction inner with
  | nil => exact nests.walk
  | cons first rest ih => exact ih nests.2

/-- A walk that came to a scope twice would never end. -/
theorem Walk.nodup (walks : table.Walk scope walk) : walk.Nodup := by
  induction walks with
  | last => exact List.pairwise_singleton _ _
  | @next scope next rest around further ih =>
    refine List.nodup_cons.mpr ⟨fun again => ?_, ih⟩
    obtain ⟨inner, outer, split⟩ := List.append_of_mem again
    have shorter := further.of_split split
    have same := congrArg List.length ((Walk.next around further).eq shorter)
    simp only [split, List.length_cons, List.length_append] at same
    omega

theorem firstBinding_append (table : Table) (inner outer : List Nat) (name : String) :
    table.firstBinding (inner ++ outer) name =
      (table.firstBinding inner name).or (table.firstBinding outer name) :=
  List.findSome?_append

theorem firstBinding_eq_some_iff {scopes : List Nat} {name : String} {owner : Nat} {binding : Binding} :
    table.firstBinding scopes name = some (owner, binding) ↔
      ∃ inner outer, scopes = inner ++ owner :: outer ∧ table.bindingIn owner name = some binding ∧
        ∀ nearer ∈ inner, table.bindingIn nearer name = none := by
  unfold firstBinding
  rw [List.findSome?_eq_some_iff]
  constructor
  · rintro ⟨inner, found, outer, split, here, before⟩
    obtain ⟨other, declared, same⟩ := Option.map_eq_some_iff.mp here
    cases same
    exact ⟨inner, outer, split, declared, fun nearer member => Option.map_eq_none_iff.mp (before nearer member)⟩
  · rintro ⟨inner, outer, split, declared, before⟩
    exact ⟨inner, owner, outer, split, by rw [declared]; rfl, fun nearer member => by
      rw [before nearer member]; rfl⟩

theorem mem_of_firstBinding {scopes : List Nat} {name : String} {owner : Nat} {binding : Binding}
    (found : table.firstBinding scopes name = some (owner, binding)) : owner ∈ scopes := by
  obtain ⟨inner, outer, rfl, _⟩ := firstBinding_eq_some_iff.mp found
  exact List.mem_append_right inner List.mem_cons_self

theorem inner_eq_of_nodup {inner outer before after : List Nat} (once : (inner ++ scope :: outer).Nodup)
    (same : inner ++ scope :: outer = before ++ scope :: after) : inner = before := by
  obtain ⟨_, further, apart⟩ := List.nodup_append.mp once
  have absent : scope ∉ inner := fun again => apart scope again scope List.mem_cons_self rfl
  exact ((List.append_cons_inj_of_notMem absent (List.nodup_cons.mp further).1).mp same).1

/-- Looking up in the first few of some scopes finds what is there of all that lookup finds. -/
theorem firstBinding_take_eq_some_iff {scopes : List Nat} (once : scopes.Nodup) (count : Nat) {name : String}
    {owner : Nat} {binding : Binding} :
    table.firstBinding (scopes.take count) name = some (owner, binding) ↔
      owner ∈ scopes.take count ∧ table.firstBinding scopes name = some (owner, binding) := by
  have whole := table.firstBinding_append (scopes.take count) (scopes.drop count) name
  rw [List.take_append_drop] at whole
  rw [← List.take_append_drop count scopes] at once
  obtain ⟨_, _, apart⟩ := List.nodup_append.mp once
  rw [whole]
  constructor
  · intro found
    rw [found]
    exact ⟨mem_of_firstBinding found, rfl⟩
  · rintro ⟨near, found⟩
    cases nearer : table.firstBinding (scopes.take count) name with
    | some other => rwa [nearer] at found
    | none =>
      rw [nearer, Option.none_or] at found
      exact absurd rfl (apart owner near owner (mem_of_firstBinding found))

theorem firstBinding_cons_of_declared {name : String} {binding : Binding}
    (declared : table.bindingIn scope name = some binding) (outer : List Nat) :
    table.firstBinding (scope :: outer) name = some (scope, binding) :=
  firstBinding_eq_some_iff.mpr ⟨[], outer, rfl, declared, nofun⟩

theorem visibleFrom_eq_firstBinding (walks : table.Walk scope walk) (name : String) :
    table.visibleFrom scope name = table.firstBinding (walk.take 2) name := by
  obtain ⟨outer, rfl⟩ := walks.eq_cons
  exact visibleFrom_eq_take walks.nests name

theorem firstBinding_of_visibleFrom (walks : table.Walk scope walk) {name : String} {found : Nat × Binding}
    (seen : table.visibleFrom scope name = some found) : table.firstBinding walk name = some found := by
  rw [visibleFrom_eq_firstBinding walks] at seen
  rw [← List.take_append_drop 2 walk, firstBinding_append, seen]
  rfl

theorem firstBinding_of_not_visibleFrom (walks : table.Walk scope walk) {name : String}
    (unseen : table.visibleFrom scope name = none) {owner : Nat} {binding : Binding}
    (found : table.firstBinding walk name = some (owner, binding)) :
    ∃ steps, 2 ≤ steps ∧ walk[steps]? = some owner := by
  rw [visibleFrom_eq_firstBinding walks] at unseen
  rw [← List.take_append_drop 2 walk, firstBinding_append, unseen] at found
  obtain ⟨inner, outer, split, _⟩ := firstBinding_eq_some_iff.mp found
  refine ⟨2 + inner.length, Nat.le_add_right 2 _, ?_⟩
  rw [← List.getElem?_drop, split, List.getElem?_append_right (Nat.le_refl _), Nat.sub_self]
  rfl

theorem visibleFrom_ne_of_declared (walks : table.Walk scope walk) {inner outer : List Nat} {declaring : Nat}
    (split : walk = inner ++ declaring :: outer) {name : String} {binding : Binding}
    (declared : table.bindingIn declaring name = some binding) {owner : Nat} (further : owner ∈ outer)
    (hidden : Binding) : table.visibleFrom scope name ≠ some (owner, hidden) := by
  intro seen
  have whole := firstBinding_of_visibleFrom walks seen
  rw [split, firstBinding_append] at whole
  obtain ⟨_, once, apart⟩ := List.nodup_append.mp (split ▸ walks.nodup)
  cases nearer : table.firstBinding inner name with
  | some found =>
    rw [nearer] at whole
    cases whole
    exact apart owner (mem_of_firstBinding nearer) owner (List.mem_cons_of_mem _ further) rfl
  | none =>
    rw [nearer, Option.none_or, firstBinding_cons_of_declared declared] at whole
    cases whole
    exact (List.nodup_cons.mp once).1 further

theorem visibleFrom_of_declared (walks : table.Walk scope walk) {inner outer : List Nat} {declaring : Nat}
    (split : walk = inner ++ declaring :: outer) {name : String} {binding : Binding}
    (declared : table.bindingIn declaring name = some binding)
    (nearest : ∀ nearer ∈ inner, table.bindingIn nearer name = none) {found : Nat × Binding}
    (seen : table.visibleFrom scope name = some found) : found = (declaring, binding) := by
  have whole := firstBinding_eq_some_iff.mpr ⟨inner, outer, split, declared, nearest⟩
  rw [firstBinding_of_visibleFrom walks seen] at whole
  exact Option.some.inj whole

end Table

/-! What holds of every declaration. -/

/-- A property that every declaration has when it is made, and keeps when others are added to it. -/
structure Binding.Lasting (holds : Binding → Prop) : Prop where
  outer : ∀ place kind binding, outerBinding? place kind = some binding → holds binding
  inner : ∀ kind binding, innerBinding? kind = some binding → holds binding
  merge : ∀ first second : Binding, holds first → holds second → holds (first.merge second)

def Table.Declares (holds : Binding → Prop) (table : Table) : Prop :=
  ∀ (scope : Nat) (frame : Frame), table[scope]? = some frame → ∀ binding ∈ frame.bindings, holds binding

namespace Table.Declares

variable {holds : Binding → Prop} {table : Table}

theorem bindingIn (all : table.Declares holds) {scope : Nat} {name : String} {binding : Binding}
    (found : table.bindingIn scope name = some binding) : holds binding := by
  obtain ⟨frame, there, inside⟩ := Option.bind_eq_some_iff.mp found
  exact all scope frame there binding (List.mem_of_find?_eq_some inside)

theorem firstBinding (all : table.Declares holds) {scopes : List Nat} {name : String} {owner : Nat}
    {binding : Binding} (found : table.firstBinding scopes name = some (owner, binding)) : holds binding := by
  obtain ⟨_, _, _, declared, _⟩ := firstBinding_eq_some_iff.mp found
  exact all.bindingIn declared

theorem update (all : table.Declares holds) (scope : Nat) {change : Frame → Frame}
    (keeps : ∀ frame, (∀ binding ∈ frame.bindings, holds binding) →
      ∀ binding ∈ (change frame).bindings, holds binding) :
    (table.update scope change).Declares holds := by
  intro other frame there
  simp only [Table.update, Array.getElem?_modify] at there
  split at there
  · obtain ⟨before, was, rfl⟩ := Option.map_eq_some_iff.mp there
    exact keeps before (all other before was)
  · exact all other frame there

theorem push (all : table.Declares holds) {opened : Frame}
    (inside : ∀ binding ∈ opened.bindings, holds binding) : Table.Declares holds (table.push opened) := by
  intro scope frame there
  rw [Array.getElem?_push] at there
  split at there
  · cases there
    exact inside
  · exact all scope frame there

theorem declare (lasts : Binding.Lasting holds) (all : table.Declares holds) (scope : Nat)
    {binding : Binding} (new : holds binding) : (table.declare scope binding).Declares holds := by
  refine all.update scope fun frame each => ?_
  unfold Frame.declare
  split
  · intro merged member
    obtain ⟨first, isFirst, rfl⟩ := List.mem_map.mp member
    split
    · exact lasts.merge first binding (each first isFirst) new
    · exact each first isFirst
  · split
    · exact each
    · intro other member
      rcases List.mem_append.mp member with old | isNew
      · exact each other old
      · rw [List.mem_singleton.mp isNew]
        exact new

theorem remove (all : table.Declares holds) (scope : Nat) (name : String) :
    (table.update scope (·.remove name)).Declares holds :=
  all.update scope fun _ each binding member => each binding (List.mem_of_mem_filter member)

theorem foldl_pass (all : table.Declares holds) (scopes : List Nat) (name : String) :
    Table.Declares holds (scopes.foldl (fun table scope => table.update scope (·.pass name)) table) := by
  induction scopes generalizing table with
  | nil => exact all
  | cons scope rest ih => exact ih (all.update scope fun _ each => each)

theorem declareVariable (lasts : Binding.Lasting holds) (all : table.Declares holds) (scope : Nat)
    {binding : Binding} (new : holds binding) : (table.declareVariable scope binding).Declares holds := by
  unfold Table.declareVariable
  split
  · exact all
  · apply foldl_pass
    split
    · exact all.declare lasts _ new
    · next met _ =>
      split
      · exact all
      · next inner found =>
        have removed := all.remove met binding.name
        dsimp only
        split
        · exact removed
        · exact removed.declare lasts _ (all.bindingIn found)

theorem declareOuter (lasts : Binding.Lasting holds) (all : table.Declares holds) (place : Place)
    (kind : Kind) : (declareOuter place kind table).Declares holds := by
  unfold Scope.declareOuter
  split
  · next binding declares =>
    have new := lasts.outer place kind binding declares
    unfold declareIn
    split
    · exact all.declareVariable lasts place.scope new
    · exact all.declare lasts place.scope new
  · exact all

/-- What a scope declares when it opens is taken over from the one around it, or its own name. -/
theorem openScope (lasts : Binding.Lasting holds) (all : table.Declares holds) (place : Place)
    (node : Node) : (openScope place node table).Declares holds := by
  rw [openScope_eq_push]
  apply push
  · unfold handOver
    split
    · exact all.update place.scope fun _ _ => nofun
    · exact all
  · intro binding member
    rcases List.mem_append.mp member with taken | own
    · unfold takenOver at taken
      split at taken
      · cases around : table[place.scope]? with
        | none => simp [around] at taken
        | some frame =>
          rw [around] at taken
          exact all place.scope frame around binding taken
      · cases taken
    · exact lasts.inner node.kind binding (Option.mem_toList.mp own)

end Table.Declares

def StaysDeclared (holds : Binding → Prop) (node : Node) : Prop :=
  ∀ (place : Place) (table : Table), table.Declares holds → (bind place node table).2.Declares holds

theorem bindAll_declares {holds : Binding → Prop} (nodes : List Node)
    (each : ∀ node ∈ nodes, StaysDeclared holds node) (place : Place) {table : Table}
    (all : table.Declares holds) : (bindAll place nodes table).2.Declares holds := by
  induction nodes generalizing table with
  | nil => exact all
  | cons node rest ih =>
    have first := each node List.mem_cons_self place table all
    exact ih (fun node member => each node (List.mem_cons_of_mem _ member)) first

theorem bind_declares {holds : Binding → Prop} (lasts : Binding.Lasting holds) (node : Node) :
    StaysDeclared holds node := by
  induction node using Node.induction with
  | step kind span children role mark ih =>
    intro place table all
    let node : Node := ⟨kind, span, children, role, mark⟩
    have outer := all.declareOuter lasts place kind
    cases opens : opensScope kind with
    | false =>
      rw [bind_of_no_scope place node table opens]
      exact bindAll_declares children ih _ outer
    | true =>
      rw [bind_of_scope place node table opens]
      have heads := bindAll_declares (children.filter (·.role = .head))
        (fun node member => ih node (List.mem_of_mem_filter member)) place outer
      exact bindAll_declares _ (fun node member => ih node (List.mem_of_mem_filter member)) _
        (heads.openScope lasts place node)

theorem analyze_declares {holds : Binding → Prop} (lasts : Binding.Lasting holds) (program : Node) :
    (analyze program).2.Declares holds :=
  bind_declares lasts program { scope := 0 } #[] fun _ _ none => by simp at none

theorem isValue_of_innerBinding? {kind : Kind} {binding : Binding}
    (declares : innerBinding? kind = some binding) : binding.isValue = true := by
  unfold innerBinding? at declares
  split at declares
  all_goals cases declares
  all_goals rfl

def Binding.FunctionIsValue (binding : Binding) : Prop :=
  binding.kind.isFunction = true → binding.isValue = true

theorem functionIsValue_lasting : Binding.Lasting Binding.FunctionIsValue where
  outer place kind binding declares isFunction := by
    unfold outerBinding? at declares
    split at declares
    all_goals cases declares
    all_goals simp_all [BindingKind.isFunction]
  inner _ _ declares _ := isValue_of_innerBinding? declares
  merge first second one two isFunction := by
    unfold Binding.merge at isFunction ⊢
    split at isFunction
    · next own => rw [if_pos own]; exact two isFunction
    · next other => rw [if_neg other]; simp [one isFunction]

end Scope

open Syntax

namespace Syntax

/-- The names that the parameters of a function, or the one of a catch clause, bind. -/
def Node.parameterNames (node : Node) : List String :=
  let parameters := if node.kind = .catchParameter then [node] else node.children
  parameters.flatMap fun parameter => (parameter.part? .target).toList.flatMap Node.boundNames

/-- The parameters through which a path enters a scope, with the function or catch clause that has
them. -/
def parametersOnPath (scope : Nat) : List Node → Option (Node × Node)
  | part :: parent :: outer =>
    if (part.kind = .parameters || part.kind = .catchParameter) && parent.scope? = some scope then
      some (part, parent)
    else parametersOnPath scope (parent :: outer)
  | _ => none

/-- The parameters of the owner of a scope in which a site stands. -/
def Site.parametersFor? (site : Site) (scope : Nat) : Option (Node × Node) :=
  parametersOnPath scope (site.node :: site.path)

/-- What the attributes of an element are given in braces. -/
def Site.passedValues (opening : Site) : List Site :=
  (opening.node.children.filter (·.kind = .jsxAttribute)).filterMap fun tagAttribute =>
    ((Site.part? ⟨tagAttribute, opening.node :: opening.path⟩ .value).filter
      (·.node.kind = .jsxContainer)).bind (·.part? .value)

end Syntax

namespace Module

variable (module : Module)

/-- What a scope declares a name as for a site inside. Parameters know each other and their function
by its own name, but nothing that the body declares; and those of a catch clause are declared for
each other, too, although the table has them in the block. -/
def declaredFor? (site : Site) (scope : Nat) (name : String) : Option Scope.Binding :=
  match site.parametersFor? scope with
  | none => module.scopes.bindingIn scope name
  | some (parameters, owner) =>
    if name ∈ parameters.parameterNames then
      some ((module.scopes.bindingIn scope name).getD { name, kind := .other })
    else (Scope.innerBinding? owner.kind).filter (·.name = name)

/-- The value that a name means at a site if it is up to one scope alone. -/
def meantIn? (site : Site) (name : String) (scope : Nat) : Option (Nat × Scope.Binding) :=
  ((module.declaredFor? site scope name).filter (·.isValue)).map (scope, ·)

/-- What a name refers to where a value stands: what it means in the nearest scope where it means
one. -/
def referent? (site : Site) (name : String) : Option (Nat × Scope.Binding) :=
  site.scopes.findSome? (module.meantIn? site name)

variable {module} {site : Site} {name : String}

theorem declaredFor?_of_outside {scope : Nat} (outside : site.parametersFor? scope = none) :
    module.declaredFor? site scope name = module.scopes.bindingIn scope name := by
  rw [declaredFor?, outside]

/-- Only parameters and functions are declared for a site where the table has nothing. -/
theorem isValue_of_declaredFor? {scope : Nat} (undeclared : module.scopes.bindingIn scope name = none)
    {binding : Scope.Binding} (declared : module.declaredFor? site scope name = some binding) :
    binding.isValue = true := by
  unfold declaredFor? at declared
  rw [undeclared] at declared
  split at declared
  · cases declared
  · split at declared
    · cases declared
      rfl
    · exact Scope.isValue_of_innerBinding? (Option.filter_eq_some_iff.mp declared).1

theorem meantIn?_eq_some_iff {scope owner : Nat} {binding : Scope.Binding} :
    module.meantIn? site name scope = some (owner, binding) ↔
      scope = owner ∧ module.declaredFor? site scope name = some binding ∧ binding.isValue = true := by
  simp [meantIn?, Option.filter_eq_some_iff, and_comm]

/-- Outside of parameters a name refers to something exactly if the scopes around resolve it. -/
theorem isSome_referent? (outside : ∀ scope ∈ site.scopes, site.parametersFor? scope = none) :
    (module.referent? site name).isSome = Scope.resolves module.scopes site.scopes name .value := by
  rw [Bool.eq_iff_iff, referent?, List.isSome_findSome?, Scope.resolves, List.any_eq_true, List.any_eq_true]
  refine exists_congr fun scope => and_congr_right fun member => ?_
  rw [meantIn?, declaredFor?_of_outside (outside scope member), Option.isSome_map, Option.isSome_filter]
  rfl

/-- The nearest declaration of a name, if it is a value, is what the name refers to exactly if up to
there every scope declares the name for the site as it does for all. -/
theorem referent?_eq_nearest_iff {inner outer : List Nat} {owner : Nat}
    (split : site.scopes = inner ++ owner :: outer) (once : site.scopes.Nodup) {binding : Scope.Binding}
    (nearest : module.scopes.firstBinding site.scopes name = some (owner, binding))
    (isValue : binding.isValue = true) :
    module.referent? site name = some (owner, binding) ↔
      ∀ near ∈ inner ++ [owner], module.declaredFor? site near name = module.scopes.bindingIn near name := by
  obtain ⟨_, _, same, declared, undeclared⟩ := Scope.Table.firstBinding_eq_some_iff.mp nearest
  obtain rfl := Scope.Table.inner_eq_of_nodup (split ▸ once) (split.symm.trans same)
  rw [referent?, List.findSome?_eq_some_iff]
  constructor
  · rintro ⟨before, _, after, splitToo, meant, nothing⟩
    obtain ⟨rfl, declaredToo, _⟩ := meantIn?_eq_some_iff.mp meant
    obtain rfl := Scope.Table.inner_eq_of_nodup (split ▸ once) (split.symm.trans splitToo)
    intro near member
    rcases List.mem_append.mp member with nearer | last
    · rw [undeclared near nearer]
      by_contra declaredHere
      obtain ⟨other, isOther⟩ := Option.ne_none_iff_exists'.mp declaredHere
      have meantHere := meantIn?_eq_some_iff.mpr
        ⟨rfl, isOther, isValue_of_declaredFor? (undeclared near nearer) isOther⟩
      rw [nothing near nearer] at meantHere
      cases meantHere
    · rw [List.mem_singleton.mp last, declaredToo, declared]
  · intro same
    refine ⟨inner, owner, outer, split, meantIn?_eq_some_iff.mpr ⟨rfl, ?_, isValue⟩, fun near nearer => ?_⟩
    · rw [same owner (List.mem_append_right _ (List.mem_singleton_self owner)), declared]
    · rw [meantIn?, same near (List.mem_append_left _ nearer), undeclared near nearer]
      rfl

section

variable {scope owner : Nat} {binding : Scope.Binding}
  (values : module.scopes.Declares Scope.Binding.FunctionIsValue)
  (walks : module.scopes.Walk scope site.scopes) (isFunction : binding.kind.isFunction = true)
  (seen : module.scopes.visibleFrom scope name = some (owner, binding))

include values walks isFunction seen

/-- A function that is seen is what the name refers to exactly if no scope up to there declares the
name for the site in another way. -/
theorem referent?_eq_seen_iff {inner outer : List Nat} (split : site.scopes = inner ++ owner :: outer) :
    module.referent? site name = some (owner, binding) ↔
      ∀ near ∈ inner ++ [owner], module.declaredFor? site near name = module.scopes.bindingIn near name := by
  have nearest := Scope.Table.firstBinding_of_visibleFrom walks seen
  exact referent?_eq_nearest_iff split walks.nodup nearest (values.firstBinding nearest isFunction)

/-- Outside of parameters a name refers to the function that is seen. -/
theorem referent?_eq_seen (outside : ∀ near ∈ site.scopes, site.parametersFor? near = none) :
    module.referent? site name = some (owner, binding) := by
  have nearest := Scope.Table.firstBinding_of_visibleFrom walks seen
  obtain ⟨inner, outer, split⟩ := List.append_of_mem (Scope.Table.mem_of_firstBinding nearest)
  refine (referent?_eq_seen_iff values walks isFunction seen split).mpr fun near member => ?_
  have around : near ∈ site.scopes := by
    rw [split, ← List.singleton_append, ← List.append_assoc]
    exact List.mem_append_left outer member
  exact declaredFor?_of_outside (outside near around)

end

namespace WellScoped

variable (known : module.WellScoped)

include known

theorem walk {site : Site} (member : site ∈ module.tree.sites []) (below : site.node.kind ≠ .program) :
    module.scopes.Walk site.scope site.scopes := by
  have nests := known.nests site member
  cases scopes : site.scopes with
  | nil => exact absurd scopes (known.inside site member below)
  | cons scope outer =>
    rw [scopes] at nests
    rw [show site.scope = scope by rw [Site.scope, scopes]; rfl]
    exact nests.walk

theorem part_scopes {site part : Site} (member : site ∈ module.tree.sites [])
    (opens : Scope.opensScope site.node.kind = false) {role : Role} (is : site.part? role = some part) :
    part ∈ module.tree.sites [] ∧ part.scopes = site.scopes := by
  obtain ⟨node, found, rfl⟩ := Option.map_eq_some_iff.mp is
  exact ⟨Node.child_mem_sites member (List.mem_of_find?_eq_some found),
    Scope.scopes_of_part (known.at_site member) opens node⟩

theorem core_scopes {site : Site} (member : site ∈ module.tree.sites []) :
    site.core ∈ module.tree.sites [] ∧ site.core.scopes = site.scopes := by
  obtain ⟨node, path⟩ := site
  unfold Site.core
  fun_induction Node.core path node with
  | case1 path span inner role mark ih =>
    have below := Node.child_mem_sites member (List.mem_singleton_self inner)
    obtain ⟨inside, scopes⟩ := ih below
    exact ⟨inside, scopes.trans (Scope.scopes_of_part (known.at_site member) rfl inner)⟩
  | case2 path node different => exact ⟨member, rfl⟩

theorem passedValue_scopes {opening value : Site} (member : opening ∈ module.tree.sites [])
    (isOpening : opening.node.kind = .jsxOpening) (passed : value ∈ opening.passedValues) :
    value.core ∈ module.tree.sites [] ∧ value.core.scopes = opening.scopes := by
  obtain ⟨tagAttribute, isAttribute, given⟩ := List.mem_filterMap.mp passed
  obtain ⟨inside, kind⟩ := List.mem_filter.mp isAttribute
  obtain ⟨container, found, holds⟩ := Option.bind_eq_some_iff.mp given
  obtain ⟨isContainer, braces⟩ := Option.filter_eq_some_iff.mp found
  have kind := of_decide_eq_true kind
  have braces := of_decide_eq_true braces
  have atAttribute := Node.child_mem_sites member inside
  have attributeScopes := Scope.scopes_of_part (known.at_site member) (by rw [isOpening]; rfl) tagAttribute
  obtain ⟨atContainer, containerScopes⟩ :=
    known.part_scopes atAttribute (show Scope.opensScope tagAttribute.kind = false by rw [kind]; rfl)
      isContainer
  obtain ⟨atValue, valueScopes⟩ := known.part_scopes atContainer (by rw [braces]; rfl) holds
  obtain ⟨atCore, coreScopes⟩ := known.core_scopes atValue
  exact ⟨atCore, coreScopes.trans (valueScopes.trans (containerScopes.trans attributeScopes))⟩

end WellScoped

end Module

namespace UseClient

/-- A value that is passed by its name is taken for a function exactly if lookup comes to a function
in one of the two innermost scopes. -/
theorem passesFunction_iff {module : Module} (known : module.WellScoped) {opening value : Site}
    (member : opening ∈ module.tree.sites []) (isOpening : opening.node.kind = .jsxOpening)
    {name : String} {use : Use} (identifier : value.core.node.kind = .identifier name use) :
    passesFunction module opening.scope value.node = true ↔
      ∃ owner binding, binding.kind.isFunction = true ∧ owner ∈ opening.scopes.take 2 ∧
        module.scopes.firstBinding opening.scopes name = some (owner, binding) := by
  have below : opening.node.kind ≠ .program := by rw [isOpening]; exact nofun
  have once := (known.walk member below).nodup
  have kind : value.node.withoutParentheses.kind = .identifier name use := by
    rw [← Node.core_node value.path]
    exact identifier
  rw [passesFunction_eq module known member below]
  simp only [givesFunction, kind, Option.any_eq_true, Prod.exists,
    Scope.Table.firstBinding_take_eq_some_iff once]
  constructor
  · rintro ⟨owner, binding, found, isFunction⟩
    exact ⟨owner, binding, isFunction, found⟩
  · rintro ⟨owner, binding, isFunction, found⟩
    exact ⟨owner, binding, found, isFunction⟩

/-- What is seen of a name from a scope is what lookup along the whole walk from there finds; if
nothing is seen, lookup finds nothing or comes to a declaration two or more scopes out. A
declaration on the walk hides all further out, and if it is the nearest one nothing else is seen.

A value passed to an element in the scope by the name is itself looked up along this walk, and taken
for a function exactly if a function is found in the two innermost scopes. Outside of parameters the
name refers to something exactly if it is resolved, and to this function if it is taken for one. In
general it refers to the function exactly if, up to its scope, no parameters in which the element
stands declare the name in another way than the table. -/
theorem seen_as_looked_up {table : Scope.Table} {scope : Nat} {walk : List Nat}
    (walks : table.Walk scope walk) (name : String) :
    (∀ found, table.visibleFrom scope name = some found → table.firstBinding walk name = some found) ∧
    (table.visibleFrom scope name = none → table.firstBinding walk name = none ∨
      ∃ steps owner binding, 2 ≤ steps ∧ walk[steps]? = some owner ∧
        table.firstBinding walk name = some (owner, binding)) ∧
    (∀ inner declaring outer binding, walk = inner ++ declaring :: outer →
      table.bindingIn declaring name = some binding →
      (∀ owner ∈ outer, ∀ hidden, table.visibleFrom scope name ≠ some (owner, hidden)) ∧
      ((∀ nearer ∈ inner, table.bindingIn nearer name = none) →
        ∀ found, table.visibleFrom scope name = some found → found = (declaring, binding))) ∧
    ∀ fileName source program module, Scope.IsProgram program →
      Module.ofProgram fileName source program = module → module.scopes = table →
      ∀ opening ∈ module.tree.sites [], opening.node.kind = .jsxOpening → opening.scope = scope →
      ∀ value ∈ opening.passedValues, ∀ use, value.core.node.kind = .identifier name use →
        value.core.scopes = walk ∧
        (passesFunction module scope value.node = true ↔ ∃ owner binding,
          binding.kind.isFunction = true ∧ owner ∈ walk.take 2 ∧
          table.firstBinding walk name = some (owner, binding)) ∧
        ((∀ near ∈ walk, value.core.parametersFor? near = none) →
          (module.referent? value.core name).isSome = Scope.resolves table walk name .value ∧
          ∀ owner binding, binding.kind.isFunction = true →
            table.visibleFrom scope name = some (owner, binding) →
            module.referent? value.core name = some (owner, binding)) ∧
        ∀ inner owner outer binding, walk = inner ++ owner :: outer → binding.kind.isFunction = true →
          table.visibleFrom scope name = some (owner, binding) →
          (module.referent? value.core name = some (owner, binding) ↔
            ∀ near ∈ inner ++ [owner],
              module.declaredFor? value.core near name = table.bindingIn near name) := by
  refine ⟨fun found => Scope.Table.firstBinding_of_visibleFrom walks, fun unseen => ?_,
    fun inner declaring outer binding split declared => ⟨fun owner further hidden =>
      Scope.Table.visibleFrom_ne_of_declared walks split declared further hidden,
      fun nearest found => Scope.Table.visibleFrom_of_declared walks split declared nearest⟩, ?_⟩
  · cases found : table.firstBinding walk name with
    | none => exact .inl rfl
    | some pair =>
      obtain ⟨steps, far, there⟩ := Scope.Table.firstBinding_of_not_visibleFrom walks unseen found
      exact .inr ⟨steps, pair.1, pair.2, far, there, rfl⟩
  · rintro fileName source program _ is rfl rfl opening member isOpening rfl value passed use identifier
    have known := Module.ofProgram_wellScoped fileName source is
    have below : opening.node.kind ≠ .program := by rw [isOpening]; exact nofun
    have onPath := (known.walk member below).eq walks
    have scopes := (known.passedValue_scopes member isOpening passed).2.trans onPath
    subst scopes
    have values := Scope.analyze_declares Scope.functionIsValue_lasting program
    exact ⟨rfl, onPath ▸ passesFunction_iff known member isOpening identifier,
      fun outside => ⟨Module.isSome_referent? outside, fun owner binding isFunction seen =>
        Module.referent?_eq_seen values walks isFunction seen outside⟩,
      fun inner owner outer binding split isFunction seen =>
        Module.referent?_eq_seen_iff values walks isFunction seen split⟩

/-- A function that is declared in the scope around the block where an element stands. -/
theorem seen_as_looked_up_block :
    ∃ (module : Module) (opening value : Site) (owner : Nat) (binding : Scope.Binding),
      Module.read? "page.jsx" "function C()\x7bconst b=()=>1;\x7bx=<A e=\x7bb\x7d/>\x7d\x7d" = some module ∧
      value ∈ opening.passedValues ∧ passesFunction module opening.scope value.node = true ∧
      module.scopes.Walk opening.scope opening.scopes ∧ opening.scopes.length = 3 ∧
      module.scopes.firstBinding opening.scopes "b" = some (owner, binding) ∧
      module.referent? value.core "b" = some (owner, binding) := by
  obtain ⟨program, parsed, holds⟩ := (Option.any_eq_true _ _).mp (show
    (Syntax.parse? "page.jsx" "function C()\x7bconst b=()=>1;\x7bx=<A e=\x7bb\x7d/>\x7d\x7d").any
      (fun program =>
        let module := Module.ofProgram "page.jsx"
          "function C()\x7bconst b=()=>1;\x7bx=<A e=\x7bb\x7d/>\x7d\x7d" program
        (module.tree.sites []).any fun opening => opening.passedValues.any fun value =>
          decide (opening.node.kind = .jsxOpening ∧ value.core.node.kind = .identifier "b" .value ∧
            opening.scopes.length = 3 ∧
            (∀ near ∈ opening.scopes, value.core.parametersFor? near = none) ∧
            module.scopes.visibleFrom opening.scope "b" =
              some (1, { name := "b", kind := .functionValuedVariable }) ∧
            passesFunction module opening.scope value.node = true)) = true
    by decide +kernel)
  obtain ⟨opening, member, holds⟩ := List.any_eq_true.mp holds
  obtain ⟨value, passed, holds⟩ := List.any_eq_true.mp holds
  obtain ⟨isOpening, identifier, deep, outside, seen, passes⟩ := of_decide_eq_true holds
  have is := parse?_isProgram parsed
  have walks := (Module.ofProgram_wellScoped _ _ is).walk member (by rw [isOpening]; exact nofun)
  obtain ⟨looksUp, _, _, ofModule⟩ := seen_as_looked_up walks "b"
  obtain ⟨_, _, ofOutside, _⟩ := ofModule "page.jsx" _ program _ is rfl rfl opening member isOpening rfl value
    passed .value identifier
  have read := congrArg (Option.map (Module.ofProgram "page.jsx"
    "function C()\x7bconst b=()=>1;\x7bx=<A e=\x7bb\x7d/>\x7d\x7d")) parsed
  exact ⟨_, opening, value, _, _, read, passed, passes, walks, deep, looksUp _ seen,
    (ofOutside outside).2 _ _ rfl seen⟩

/-- A name is passed to some element that sees it as one declaration while it refers to another, and
the element is recorded for a function. -/
def TakenForAnother (module : Module) (name : String) (seen meant : Nat × Scope.Binding) : Prop :=
  (constructsAlong "React" module module.visits).map (·.kind) = [.eventCallback] ∧
  ∃ opening ∈ module.tree.sites [], opening.node.kind = .jsxOpening ∧ ∃ value ∈ opening.passedValues,
    value.core.node.kind = .identifier name .value ∧
    passesFunction module opening.scope value.node = true ∧
    module.scopes.visibleFrom opening.scope name = some seen ∧
    module.referent? value.core name = some meant

instance (module : Module) (name : String) (seen meant : Nat × Scope.Binding) :
    Decidable (TakenForAnother module name seen meant) :=
  inferInstanceAs (Decidable (_ ∧ _))

/-- In the parameters of a function a name refers to what is declared further out, even if the body
declares it, too, but it is seen as the body has it. In the parameter of a catch clause a name
refers to what the parameter declares, but this is seen only from the body, and a function further
out is not hidden. -/
theorem another_function_seen_from_parameters :
    (∃ module, Module.read? "page.jsx" "const b=1;function C(d=<A e=\x7bb\x7d/>)\x7bvar b=()=>1\x7d" =
        some module ∧
      TakenForAnother module "b" (1, { name := "b", kind := .functionValuedVariable })
        (0, { name := "b", kind := .variable })) ∧
    ∃ module, Module.read? "page.jsx"
        "function b()\x7b\x7dtry\x7b\x7dcatch(\x7bb,d=<A e=\x7bb\x7d/>\x7d)\x7b\x7d" = some module ∧
      TakenForAnother module "b" (0, { name := "b", kind := .function })
        (3, { name := "b", kind := .other }) := by
  have found {source : String} {seen meant : Nat × Scope.Binding}
      (holds : (Module.read? "page.jsx" source).any (TakenForAnother · "b" seen meant) = true) :
      ∃ module, Module.read? "page.jsx" source = some module ∧ TakenForAnother module "b" seen meant := by
    obtain ⟨module, read, taken⟩ := (Option.any_eq_true _ _).mp holds
    exact ⟨module, read, of_decide_eq_true taken⟩
  exact ⟨found (by decide +kernel), found (by decide +kernel)⟩

end UseClient

end ClientBoundary
