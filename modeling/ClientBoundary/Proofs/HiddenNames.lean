import ClientBoundary.Proofs.NestedScopes
import ClientBoundary.Proofs.TypeErasure

/-! Tables of scopes apart from some names. A declaration of such a name does not show in any frame,
and neither do scopes that are opened beside those that are known. So two tables can have the same
scopes under other numbers, linked alike, and every other name is found in the same place of
both. -/
namespace ClientBoundary.Scope

open Syntax

def declaredName? (kind : Kind) : Option String :=
  (outerBinding? { scope := 0 } kind).map (·.name)

theorem declaredName?_of_outerBinding? {place : Place} {kind : Kind} {binding : Binding}
    (declares : outerBinding? place kind = some binding) : declaredName? kind = some binding.name := by
  unfold outerBinding? at declares
  split at declares
  all_goals cases declares
  all_goals rfl

def DeclaresOnly (names : List String) (node : Node) : Prop :=
  ∀ name, declaredName? node.kind = some name → name ∈ names

namespace Frame

variable (hidden : List String)

/-- What a frame shows to those who do not know some names. -/
def shown (frame : Frame) : Frame where
  owner := default
  parent := none
  holdsVariables := frame.holdsVariables
  bindings := frame.bindings.filter (·.name ∉ hidden)
  passed := frame.passed.filter (· ∉ hidden)

variable {hidden} (frame : Frame)

theorem find?_shown {name : String} (known : name ∉ hidden) :
    (frame.shown hidden).find? name = frame.find? name := by
  simp only [find?, shown, List.find?_filter]
  refine List.find?_congr fun binding _ => ?_
  by_cases named : binding.name = name
  · simp [named, known]
  · simp [named]

theorem contains_shown {name : String} (known : name ∉ hidden) :
    (frame.shown hidden).passed.contains name = frame.passed.contains name := by
  simp [shown, known]

theorem name_merged (first binding : Binding) :
    (if first.name = binding.name then first.merge binding else first).name = first.name := by
  split
  · next same =>
    unfold Binding.merge
    split
    · exact same.symm
    · rfl
  · rfl

/-- The declaration of a name that is known shows, -/
theorem shown_declare {binding : Binding} (known : binding.name ∉ hidden) :
    (frame.declare binding).shown hidden = (frame.shown hidden).declare binding := by
  unfold declare
  rw [frame.find?_shown known, frame.contains_shown known]
  split
  · simp only [shown, List.filter_map, Function.comp_def, name_merged]
  · split
    · rfl
    · simp [shown, List.filter_append, known]

/-- and that of any other name does not. -/
theorem shown_declare_of_hidden {binding : Binding} (unknown : binding.name ∈ hidden) :
    (frame.declare binding).shown hidden = frame.shown hidden := by
  have untouched : (frame.bindings.filter (·.name ∉ hidden)).map (fun first =>
      if first.name = binding.name then first.merge binding else first) =
      frame.bindings.filter (·.name ∉ hidden) := by
    refine (List.map_congr_left fun first member => if_neg fun same => ?_).trans (List.map_id' _)
    have other := of_decide_eq_true (List.mem_filter.mp member).2
    exact other (same ▸ unknown)
  unfold declare
  split
  · simp only [shown, List.filter_map, Function.comp_def, name_merged, untouched]
  · split
    · rfl
    · simp [shown, List.filter_append, unknown]

theorem shown_remove (name : String) :
    (frame.remove name).shown hidden = (frame.shown hidden).remove name := by
  simp only [shown, remove, List.filter_filter, Bool.and_comm]

theorem shown_remove_of_hidden {name : String} (unknown : name ∈ hidden) :
    (frame.remove name).shown hidden = frame.shown hidden := by
  simp only [shown, remove, List.filter_filter]
  congr 1
  refine List.filter_congr fun binding _ => ?_
  by_cases named : binding.name = name
  · simp [named, unknown]
  · simp [named]

theorem shown_pass {name : String} (known : name ∉ hidden) :
    (frame.pass name).shown hidden = (frame.shown hidden).pass name := by
  simp [shown, pass, known]

theorem shown_pass_of_hidden {name : String} (unknown : name ∈ hidden) :
    (frame.pass name).shown hidden = frame.shown hidden := by
  simp [shown, pass, unknown]

end Frame

namespace Table

variable (hidden : List String)

/-- A later state of a table that shows the same in the scopes up to a number. -/
structure Unseen (least : Nat) (table later : Table) : Prop where
  grows : table.Grows later
  shown : ∀ scope < least,
    (later[scope]?).map (Frame.shown hidden) = (table[scope]?).map (Frame.shown hidden)

variable {hidden} {least : Nat}

theorem Unseen.refl (table : Table) : Unseen hidden least table table := ⟨.refl table, fun _ _ => rfl⟩

theorem Unseen.trans {first second third : Table} (one : Unseen hidden least first second)
    (two : Unseen hidden least second third) : Unseen hidden least first third where
  grows := one.grows.trans two.grows
  shown scope below := (two.shown scope below).trans (one.shown scope below)

theorem unseen_update (table : Table) (scope : Nat) {change : Frame → Frame}
    (keeps : ∀ frame, (change frame).parent = frame.parent)
    (blind : scope < least → ∀ frame, (change frame).shown hidden = frame.shown hidden) :
    Unseen hidden least table (table.update scope change) where
  grows := grows_update table scope keeps
  shown other below := by
    simp only [update, Array.getElem?_modify]
    split
    · next same =>
      rw [Option.map_map]
      cases table[other]? with
      | none => rfl
      | some frame => exact congrArg some (blind (same ▸ below) frame)
    · rfl

theorem unseen_declare (table : Table) (scope : Nat) {binding : Binding}
    (unknown : binding.name ∈ hidden) : Unseen hidden least table (table.declare scope binding) :=
  unseen_update table scope (fun frame => frame.declare_parent binding)
    fun _ frame => frame.shown_declare_of_hidden unknown

theorem unseen_foldl_pass (scopes : List Nat) {name : String} (unknown : name ∈ hidden)
    (table : Table) : Unseen hidden least table
      (scopes.foldl (fun table scope => table.update scope (·.pass name)) table) := by
  induction scopes generalizing table with
  | nil => exact .refl table
  | cons scope rest ih =>
    have first : Unseen hidden least table (table.update scope (·.pass name)) :=
      unseen_update table scope (fun _ => rfl) fun _ frame => frame.shown_pass_of_hidden unknown
    exact first.trans (ih _)

theorem name_of_bindingIn {table : Table} {scope : Nat} {name : String} {binding : Binding}
    (found : table.bindingIn scope name = some binding) : binding.name = name := by
  obtain ⟨frame, _, inside⟩ := Option.bind_eq_some_iff.mp found
  have named := List.find?_some inside
  exact of_decide_eq_true named

theorem unseen_declareVariable (table : Table) (scope : Nat) {binding : Binding}
    (unknown : binding.name ∈ hidden) :
    Unseen hidden least table (table.declareVariable scope binding) := by
  unfold declareVariable
  split
  · exact .refl table
  · refine Unseen.trans ?_ (unseen_foldl_pass _ unknown _)
    split
    · exact unseen_declare table _ unknown
    · next met _ =>
      split
      · exact .refl table
      · next inner found =>
        have removed : Unseen hidden least table (table.update met (·.remove binding.name)) :=
          unseen_update table met (fun _ => rfl) fun _ frame => frame.shown_remove_of_hidden unknown
        dsimp only
        split
        · exact removed
        · exact removed.trans (unseen_declare _ _ (name_of_bindingIn found ▸ unknown))

theorem unseen_push (table : Table) (opened : Frame) (room : least ≤ table.size) :
    Unseen hidden least table (table.push opened) where
  grows := grows_push table opened
  shown scope below := by simp [Array.getElem?_push, Nat.ne_of_lt (Nat.lt_of_lt_of_le below room)]

theorem update_of_same (table : Table) (scope : Nat) {change : Frame → Frame}
    (same : ∀ frame, table[scope]? = some frame → change frame = frame) :
    table.update scope change = table := by
  apply Array.ext_getElem?
  intro other
  simp only [update, Array.getElem?_modify]
  split
  · next is =>
    cases found : table[other]? with
    | none => rfl
    | some frame => exact congrArg some (same frame (is ▸ found))
  · rfl

end Table

theorem unseen_declareOuter {hidden : List String} {least : Nat} (place : Place) {node : Node}
    (only : DeclaresOnly hidden node) (table : Table) :
    Table.Unseen hidden least table (declareOuter place node.kind table) := by
  unfold declareOuter
  split
  · next binding declares =>
    have unknown := only binding.name (declaredName?_of_outerBinding? declares)
    unfold declareIn
    split
    · exact Table.unseen_declareVariable table _ unknown
    · exact Table.unseen_declare table _ unknown
  · exact .refl table

def takesOver (place : Place) (kind : Kind) : Bool := place.inCatch && kind = .block

/-- A scope that takes over names leaves none behind. -/
def handOver (place : Place) (kind : Kind) (table : Table) : Table :=
  if takesOver place kind then table.update place.scope fun frame => { frame with bindings := [] }
  else table

theorem openScope_eq_push (place : Place) (node : Node) (table : Table) :
    openScope place node table = (handOver place node.kind table).push
      { owner := node.span
        parent := if table.isEmpty then none else some place.scope
        holdsVariables := holdsVariables node.kind
        bindings := takenOver place node.kind table ++ (innerBinding? node.kind).toList } := by
  unfold openScope handOver
  cases takes : takesOver place node.kind with
  | false =>
    have none : takenOver place node.kind table = [] := by
      unfold takenOver
      rw [if_neg (by rw [← takesOver, takes]; exact Bool.false_ne_true)]
    simp only [none, List.isEmpty_nil, if_true, Bool.false_eq_true, if_false]
  | true =>
    have taken : takenOver place node.kind table =
        ((table[place.scope]?).map (·.bindings)).getD [] := by
      unfold takenOver
      rw [if_pos (by rw [← takesOver, takes])]
    have size : (table.update place.scope fun frame => { frame with bindings := [] }).isEmpty =
        table.isEmpty := by
      rw [Array.isEmpty, Array.isEmpty, Table.size_update]
    by_cases empty : (takenOver place node.kind table).isEmpty = true
    · have same : (table.update place.scope fun frame => { frame with bindings := [] }) = table := by
        refine Table.update_of_same table place.scope fun frame found => ?_
        rw [taken, found] at empty
        have none : frame.bindings = [] := List.isEmpty_iff.mp empty
        rw [← none]
      simp only [empty, if_true, same]
    · simp only [empty, Bool.false_eq_true, if_false, if_true, size]

theorem unseen_openScope {hidden : List String} {least : Nat} {place : Place} {node : Node}
    {table : Table} (room : least ≤ table.size)
    (inside : place.inCatch = true → least ≤ place.scope) :
    Table.Unseen hidden least table (openScope place node table) := by
  have handed : Table.Unseen hidden least table (handOver place node.kind table) := by
    unfold handOver
    split
    · next takes =>
      refine Table.unseen_update table place.scope (fun _ => rfl) fun below => ?_
      have isCatch := (Bool.and_eq_true_iff.mp takes).1
      exact absurd (inside isCatch) (Nat.not_le_of_lt below)
    · exact .refl table
  rw [openScope_eq_push]
  exact handed.trans (Table.unseen_push _ _ (Nat.le_trans room handed.grows.size))

/-- Binding a node shows nothing in the scopes up to a number, unless it takes over names from
them. -/
def StaysUnseen (hidden : List String) (node : Node) : Prop :=
  ∀ (place : Place) (table : Table) (least : Nat), least ≤ table.size →
    (place.inCatch = true → least ≤ place.scope) →
    Table.Unseen hidden least table (bind place node table).2

theorem bindAll_unseen {hidden : List String} (nodes : List Node)
    (each : ∀ node ∈ nodes, StaysUnseen hidden node) (place : Place) {table : Table} {least : Nat}
    (room : least ≤ table.size) (inside : place.inCatch = true → least ≤ place.scope) :
    Table.Unseen hidden least table (bindAll place nodes table).2 := by
  induction nodes generalizing table with
  | nil => exact .refl table
  | cons node rest ih =>
    have first := each node List.mem_cons_self place table least room inside
    exact first.trans (ih (fun node member => each node (List.mem_cons_of_mem _ member))
      (Nat.le_trans room first.grows.size))

theorem innerPlace_inCatch (place : Place) (node : Node) :
    (innerPlace place node).inCatch = decide (node.kind = .catchClause) := by
  unfold innerPlace
  dsimp only
  split <;> rfl

theorem innerPlace_inCatch_of_no_scope (place : Place) {node : Node}
    (opens : opensScope node.kind = false) : (innerPlace place node).inCatch = false := by
  rw [innerPlace_inCatch, decide_eq_false_iff_not]
  intro isCatch
  rw [isCatch] at opens
  cases opens

/-- A tree that declares nothing but hidden names changes nothing that shows. -/
theorem bind_unseen {hidden : List String} {node : Node}
    (only : node.Everywhere (DeclaresOnly hidden)) : StaysUnseen hidden node := by
  induction node using Node.induction with
  | step kind span children role mark ih =>
    intro place table least room inside
    let node : Node := ⟨kind, span, children, role, mark⟩
    have below (child : Node) (member : child ∈ children) := ih child member (only.inside child member)
    have outer : Table.Unseen hidden least table (declareOuter place kind table) :=
      unseen_declareOuter place only.here table
    have roomOuter := Nat.le_trans room outer.grows.size
    cases opens : opensScope kind with
    | false =>
      have noCatch : (innerPlace place node).inCatch = false :=
        innerPlace_inCatch_of_no_scope place opens
      rw [bind_of_no_scope place node table opens]
      exact outer.trans (bindAll_unseen children below _ roomOuter (by rw [noCatch]; exact nofun))
    | true =>
      rw [bind_of_scope place node table opens]
      have heads := bindAll_unseen (children.filter (·.role = .head))
        (fun child member => below child (List.mem_of_mem_filter member)) place roomOuter inside
      generalize bindAll place (children.filter (·.role = .head)) (declareOuter place kind table) =
        bound at heads
      have roomBound := Nat.le_trans roomOuter heads.grows.size
      have opened : Table.Unseen hidden least bound.2 (openScope place node bound.2) :=
        unseen_openScope roomBound inside
      have rest := bindAll_unseen (children.filter (·.role ≠ .head))
        (fun child member => below child (List.mem_of_mem_filter member))
        (innerPlace { scope := bound.2.size } node) (Nat.le_trans roomBound opened.grows.size)
        fun _ => by rw [innerPlace_scope]; exact roomBound
      exact outer.trans (heads.trans (opened.trans rest))

/-! Two tables. -/

/-- A scope has a number in another table: it is the one at that place of a list. -/
def Stands (ids : List Nat) (scope plain : Nat) : Prop := ids[plain]? = some scope

theorem Stands.append {ids : List Nat} {scope plain : Nat} (stands : Stands ids scope plain)
    (more : List Nat) : Stands (ids ++ more) scope plain := by
  obtain ⟨inside, _⟩ := List.getElem?_eq_some_iff.mp stands
  rw [Stands, List.getElem?_append_left inside]
  exact stands

theorem Stands.append_option {ids : List Nat} {scope plain : Option Nat}
    (related : Option.Rel (Stands ids) scope plain) (more : List Nat) :
    Option.Rel (Stands (ids ++ more)) scope plain := by
  cases related with
  | none => exact .none
  | some stands => exact .some (stands.append more)

theorem Stands.cases_append {ids : List Nat} {last scope plain : Nat}
    (stands : Stands (ids ++ [last]) scope plain) :
    Stands ids scope plain ∨ (plain = ids.length ∧ scope = last) := by
  rcases Nat.lt_or_ge plain ids.length with inside | past
  · rw [Stands, List.getElem?_append_left inside] at stands
    exact .inl stands
  · rw [Stands, List.getElem?_append_right past, List.getElem?_singleton] at stands
    split at stands
    · exact .inr ⟨by omega, (Option.some.inj stands).symm⟩
    · cases stands

/-- Some scopes of a table are those of another one: they are linked alike, and show the same. -/
structure Table.Keeps (hidden : List String) (ids : List Nat) (table plain : Table) : Prop where
  size : ids.length = plain.size
  distinct : ids.Nodup
  rooted : table.Rooted
  plainRooted : plain.Rooted
  shown : ∀ scope other, Stands ids scope other →
    (table[scope]?).map (Frame.shown hidden) = (plain[other]?).map (Frame.shown hidden)
  parent : ∀ scope other, Stands ids scope other →
    Option.Rel (Stands ids) (table.parent? scope) (plain.parent? other)

namespace Table.Keeps

variable {hidden : List String} {ids : List Nat} {table plain : Table} {scope other : Nat}

theorem other_lt (keeps : table.Keeps hidden ids plain) (stands : Stands ids scope other) :
    other < plain.size := by
  rw [← keeps.size]
  exact (List.getElem?_eq_some_iff.mp stands).1

theorem frames (keeps : table.Keeps hidden ids plain) (stands : Stands ids scope other) :
    ∃ frame small, table[scope]? = some frame ∧ plain[other]? = some small ∧
      frame.shown hidden = small.shown hidden := by
  have shown := keeps.shown scope other stands
  rw [Array.getElem?_eq_getElem (keeps.other_lt stands)] at shown ⊢
  obtain ⟨frame, found, same⟩ := Option.map_eq_some_iff.mp shown
  exact ⟨frame, _, found, rfl, same⟩

theorem scope_lt (keeps : table.Keeps hidden ids plain) (stands : Stands ids scope other) :
    scope < table.size := by
  obtain ⟨_, _, found, _⟩ := keeps.frames stands
  exact (Array.getElem?_eq_some_iff.mp found).1

theorem scope_eq_iff (keeps : table.Keeps hidden ids plain) (stands : Stands ids scope other)
    {second third : Nat} (standsToo : Stands ids second third) : scope = second ↔ other = third := by
  constructor
  · rintro rfl
    exact (List.getElem?_inj (List.getElem?_eq_some_iff.mp stands).1 keeps.distinct).mp
      (stands.trans standsToo.symm)
  · rintro rfl
    exact Option.some.inj (stands.symm.trans standsToo)

theorem bindingIn (keeps : table.Keeps hidden ids plain) (stands : Stands ids scope other)
    {name : String} (known : name ∉ hidden) :
    table.bindingIn scope name = plain.bindingIn other name := by
  obtain ⟨frame, small, found, foundToo, same⟩ := keeps.frames stands
  rw [Table.bindingIn, Table.bindingIn, found, foundToo, Option.bind_some, Option.bind_some,
    ← frame.find?_shown known, same, small.find?_shown known]

theorem of_unseen {later plainLater : Table} (keeps : table.Keeps hidden ids plain)
    (unseen : Table.Unseen hidden table.size table later) (rooted : later.Rooted)
    (plainUnseen : Table.Unseen hidden plain.size plain plainLater)
    (size : plainLater.size = plain.size) : later.Keeps hidden ids plainLater where
  size := by rw [size, keeps.size]
  distinct := keeps.distinct
  rooted := rooted
  plainRooted := keeps.plainRooted.of_grows plainUnseen.grows size
  shown scope other stands := by
    rw [unseen.shown scope (keeps.scope_lt stands), plainUnseen.shown other (keeps.other_lt stands),
      keeps.shown scope other stands]
  parent scope other stands := by
    rw [unseen.grows.parent scope (keeps.scope_lt stands),
      plainUnseen.grows.parent other (keeps.other_lt stands)]
    exact keeps.parent scope other stands

theorem push (keeps : table.Keeps hidden ids plain) {frame small : Frame}
    (shown : frame.shown hidden = small.shown hidden)
    (parent : Option.Rel (Stands ids) frame.parent small.parent)
    (rooted : Table.Rooted (table.push frame)) (plainRooted : Table.Rooted (plain.push small)) :
    Table.Keeps hidden (ids ++ [table.size]) (table.push frame) (plain.push small) := by
  have fresh : table.size ∉ ids := by
    intro member
    obtain ⟨other, stands⟩ := List.getElem?_of_mem member
    exact Nat.lt_irrefl _ (keeps.scope_lt stands)
  refine ⟨?_, ?_, rooted, plainRooted, ?_, ?_⟩
  · rw [List.length_append, keeps.size, Array.size_push]
    rfl
  · rw [List.nodup_append]
    refine ⟨keeps.distinct, by simp, ?_⟩
    rintro id member _ last rfl
    exact fresh (List.mem_singleton.mp last ▸ member)
  · intro scope other stands
    rcases stands.cases_append with before | ⟨rfl, rfl⟩
    · have less := keeps.scope_lt before
      have lessToo := keeps.other_lt before
      rw [Array.getElem?_push, Array.getElem?_push, if_neg (by omega), if_neg (by omega)]
      exact keeps.shown scope other before
    · rw [keeps.size, Array.getElem?_push_size, Array.getElem?_push_size]
      exact congrArg some shown
  · intro scope other stands
    rcases stands.cases_append with before | ⟨rfl, rfl⟩
    · rw [(grows_push table frame).parent scope (keeps.scope_lt before),
        (grows_push plain small).parent other (keeps.other_lt before)]
      exact Stands.append_option (keeps.parent scope other before) _
    · rw [keeps.size, parent?_push, parent?_push]
      exact Stands.append_option parent _

/-- A change in the same scope of both tables that shows the same. -/
theorem update {change : Frame → Frame} (keeps : table.Keeps hidden ids plain)
    (stands : Stands ids scope other) (parent : ∀ frame, (change frame).parent = frame.parent)
    (alike : ∀ frame small : Frame, frame.shown hidden = small.shown hidden →
      (change frame).shown hidden = (change small).shown hidden) :
    (table.update scope change).Keeps hidden ids (plain.update other change) where
  size := by rw [size_update, keeps.size]
  distinct := keeps.distinct
  rooted := keeps.rooted.of_grows (grows_update table scope parent) (size_update ..)
  plainRooted := keeps.plainRooted.of_grows (grows_update plain other parent) (size_update ..)
  shown second third standsToo := by
    have shown := keeps.shown second third standsToo
    simp only [Table.update, Array.getElem?_modify, keeps.scope_eq_iff stands standsToo]
    split
    · obtain ⟨frame, small, found, foundToo, same⟩ := keeps.frames standsToo
      rw [found, foundToo]
      exact congrArg some (alike frame small same)
    · exact shown
  parent second third standsToo := by
    rw [parent?_update table scope parent, parent?_update plain other parent]
    exact keeps.parent second third standsToo

theorem declare (keeps : table.Keeps hidden ids plain) (stands : Stands ids scope other)
    {binding : Binding} (known : binding.name ∉ hidden) :
    (table.declare scope binding).Keeps hidden ids (plain.declare other binding) :=
  keeps.update stands (fun frame => frame.declare_parent binding) fun frame small same => by
    rw [frame.shown_declare known, small.shown_declare known, same]

theorem foldl_pass {scopes others : List Nat} (along : List.Forall₂ (Stands ids) scopes others)
    {name : String} (known : name ∉ hidden) {table plain : Table}
    (keeps : table.Keeps hidden ids plain) :
    (scopes.foldl (fun table scope => table.update scope (·.pass name)) table).Keeps hidden ids
      (others.foldl (fun table scope => table.update scope (·.pass name)) plain) := by
  induction along generalizing table plain with
  | nil => exact keeps
  | cons stands _ ih =>
    refine ih (keeps.update stands (fun _ => rfl) fun frame small same => ?_)
    rw [frame.shown_pass known, small.shown_pass known, same]

theorem walk (keeps : table.Keeps hidden ids plain) {others : List Nat}
    (walks : plain.Walk other others) (stands : Stands ids scope other) :
    ∃ scopes, table.Walk scope scopes ∧ List.Forall₂ (Stands ids) scopes others := by
  induction walks generalizing scope with
  | @last other outermost =>
    have parent := keeps.parent scope other stands
    rw [outermost] at parent
    cases linked : table.parent? scope with
    | none => exact ⟨[scope], .last linked, .cons stands .nil⟩
    | some outer =>
      rw [linked] at parent
      cases parent
  | @next other outer rest around further ih =>
    have parent := keeps.parent scope other stands
    rw [around] at parent
    cases linked : table.parent? scope with
    | none =>
      rw [linked] at parent
      cases parent
    | some next =>
      rw [linked] at parent
      cases parent with
      | some standsOuter =>
        obtain ⟨scopes, walks, along⟩ := ih standsOuter
        exact ⟨scope :: scopes, .next linked walks, .cons stands along⟩

theorem chain (keeps : table.Keeps hidden ids plain) (stands : Stands ids scope other) :
    List.Forall₂ (Stands ids) (table.chain scope) (plain.chain other) := by
  obtain ⟨scopes, walks, along⟩ := keeps.walk (keeps.plainRooted.walk_chain other) stands
  rw [(keeps.rooted.walk_chain scope).eq walks]
  exact along

theorem passage (keeps : table.Keeps hidden ids plain) {scopes others : List Nat}
    (along : List.Forall₂ (Stands ids) scopes others) :
    List.Forall₂ (Stands ids) (table.passage scopes).1 (plain.passage others).1 ∧
      Option.Rel (Stands ids) (table.passage scopes).2 (plain.passage others).2 := by
  induction along with
  | nil => exact ⟨.nil, .none⟩
  | @cons scope other _ _ stands _ ih =>
    obtain ⟨frame, small, found, foundToo, same⟩ := keeps.frames stands
    have holds : (frame.shown hidden).holdsVariables = (small.shown hidden).holdsVariables :=
      congrArg Frame.holdsVariables same
    change frame.holdsVariables = small.holdsVariables at holds
    simp only [Table.passage, found, foundToo, Option.any_some, holds]
    split
    · exact ⟨.nil, .some stands⟩
    · exact ⟨.cons stands ih.1, ih.2⟩

/-- The scopes that a `var` meets on its way know its name alike. -/
theorem find?_met (keeps : table.Keeps hidden ids plain) {scopes others : List Nat}
    (along : List.Forall₂ (Stands ids) scopes others) {name : String} (known : name ∉ hidden) :
    Option.Rel (Stands ids)
      (scopes.find? fun scope => (table[scope]?).any fun frame =>
        (frame.find? name).isSome || frame.passed.contains name)
      (others.find? fun scope => (plain[scope]?).any fun frame =>
        (frame.find? name).isSome || frame.passed.contains name) := by
  induction along with
  | nil => exact .none
  | @cons scope other _ _ stands _ ih =>
    obtain ⟨frame, small, found, foundToo, same⟩ := keeps.frames stands
    have knows : ((frame.find? name).isSome || frame.passed.contains name) =
        ((small.find? name).isSome || small.passed.contains name) := by
      rw [← frame.find?_shown known, ← frame.contains_shown known, same, small.find?_shown known,
        small.contains_shown known]
    rw [List.find?_cons, List.find?_cons, found, foundToo, Option.any_some, Option.any_some, knows]
    split
    · exact .some stands
    · exact ih

theorem declareVariable (keeps : table.Keeps hidden ids plain) (stands : Stands ids scope other)
    {binding : Binding} (known : binding.name ∉ hidden) :
    (table.declareVariable scope binding).Keeps hidden ids (plain.declareVariable other binding) := by
  obtain ⟨along, targets⟩ := keeps.passage (keeps.chain stands)
  unfold Table.declareVariable
  generalize table.passage (table.chain scope) = way at along targets
  generalize plain.passage (plain.chain other) = plainWay at along targets
  obtain ⟨passed, target⟩ := way
  obtain ⟨plainPassed, plainTarget⟩ := plainWay
  cases targets with
  | none => exact keeps
  | @some target plainTarget standsTarget =>
    have met := keeps.find?_met along known
    dsimp only
    refine foldl_pass along known ?_
    generalize passed.find? _ = one at met
    generalize plainPassed.find? _ = two at met
    cases met with
    | none => exact keeps.declare standsTarget known
    | @some scope plainScope standsMet =>
      dsimp only
      rw [keeps.bindingIn standsMet known]
      cases inner : plain.bindingIn plainScope binding.name with
      | none => exact keeps
      | some binding' =>
        have removed : (table.update scope (·.remove binding.name)).Keeps hidden ids
            (plain.update plainScope (·.remove binding.name)) :=
          keeps.update standsMet (fun _ => rfl) fun frame small same => by
            rw [frame.shown_remove, small.shown_remove, same]
        dsimp only
        rw [removed.bindingIn standsTarget known]
        split
        · exact removed
        · exact removed.declare standsTarget (name_of_bindingIn inner ▸ known)

theorem resolves (keeps : table.Keeps hidden ids plain) {scopes others : List Nat}
    (along : List.Forall₂ (Stands ids) scopes others) {name : String} (known : name ∉ hidden)
    (use : Use) : Scope.resolves table scopes name use = Scope.resolves plain others name use := by
  unfold Scope.resolves
  induction along with
  | nil => rfl
  | cons stands _ ih => rw [List.any_cons, List.any_cons, keeps.bindingIn stands known, ih]

theorem firstBinding (keeps : table.Keeps hidden ids plain) {scopes others : List Nat}
    (along : List.Forall₂ (Stands ids) scopes others) {name : String} (known : name ∉ hidden) :
    (table.firstBinding scopes name).map (·.2) = (plain.firstBinding others name).map (·.2) := by
  unfold Table.firstBinding
  induction along with
  | nil => rfl
  | cons stands _ ih =>
    rw [List.findSome?_cons, List.findSome?_cons, keeps.bindingIn stands known]
    cases plain.bindingIn _ name with
    | none => exact ih
    | some binding => rfl

end Table.Keeps

end ClientBoundary.Scope
