import ClientBoundary.Proofs.Detection
import ClientBoundary.Proofs.ScopeRelocation

/-! Detection does not depend on where in the text a program stands. A program behind one more
directive contributes the same constructs in the same order, moved back with it; names of attributes
are cut out of the text, which is the same from the first statement on. -/
namespace ClientBoundary

namespace Text

theorem cut?_append_left (before rest : List Char) (offset : Nat) :
    cut? (byteLength before + offset) (before ++ rest) =
      (cut? offset rest).map fun parts => (before ++ parts.1, parts.2) := by
  induction before with
  | nil => simp [byteLength]
  | cons c others ih =>
    have positive : 0 < c.utf8Size := c.utf8Size_pos
    obtain ⟨n, size⟩ : ∃ n, byteLength (c :: others) + offset = n + 1 :=
      ⟨byteLength (c :: others) + offset - 1, by simp only [byteLength]; omega⟩
    have same : n + 1 - c.utf8Size = byteLength others + offset := by
      simp only [byteLength] at size; omega
    have fits : c.utf8Size ≤ n + 1 := by simp only [byteLength] at size; omega
    simp only [size, List.cons_append, cut?, fits, if_true, same, ih, Option.map_map]
    rfl

theorem slice?_append_left (before rest : List Char) (start stop : Nat) :
    slice? (byteLength before + start) (byteLength before + stop) (before ++ rest) =
      slice? start stop rest := by
  unfold slice?
  rw [cut?_append_left, Nat.add_sub_add_left]
  simp only [Nat.add_lt_add_iff_left]
  split
  · rfl
  · cases cut? start rest <;> rfl

theorem slice?_of_lt {start stop : Nat} (short : stop < start) (text : List Char) :
    slice? start stop text = none := by
  simp [slice?, short]

theorem slice?_insert (before inserted after : List Char) {start : Nat} (stop : Nat)
    (behind : byteLength before ≤ start) :
    slice? (start + byteLength inserted) (stop + byteLength inserted)
      (before ++ inserted ++ after) = slice? start stop (before ++ after) := by
  by_cases short : stop < start
  · rw [slice?_of_lt short, slice?_of_lt (by omega)]
  · obtain ⟨first, rfl⟩ := Nat.exists_eq_add_of_le behind
    obtain ⟨last, rfl⟩ := Nat.exists_eq_add_of_le (show byteLength before ≤ stop by omega)
    have start_eq : byteLength before + first + byteLength inserted =
        byteLength (before ++ inserted) + first := by rw [byteLength_append]; omega
    have stop_eq : byteLength before + last + byteLength inserted =
        byteLength (before ++ inserted) + last := by rw [byteLength_append]; omega
    rw [start_eq, stop_eq, slice?_append_left, slice?_append_left]

end Text

namespace UseClient

open Syntax

def Construct.shift (bytes : Nat) (construct : Construct) : Construct :=
  { construct with span := construct.span.shift bytes }

theorem inComponent_moved (pragma : String) {bytes : Nat} {path other : List Node}
    (moved : PathMoved bytes path other) : InComponent pragma other ↔ InComponent pragma path := by
  induction moved with
  | root kind otherKind _ =>
    have neither {program : Node} (kind : program.kind = .program) (outer : List Node) :
        Component.isComponent pragma program outer = false := by
      simp only [Component.isComponent, kind]
    simp only [inComponent_cons, neither kind, neither otherKind]
  | step node outer ih =>
    rw [inComponent_cons, inComponent_cons, Component.isComponent_moved pragma outer, ih]

/-- Two modules that agree from an offset on, up to a number of bytes: what names mean in the scopes
and what the text says. -/
structure Agree (bytes offset : Nat) (module other : Module) : Prop where
  scopes : other.scopes.bare = module.scopes.bare
  text : ∀ span : Span, offset ≤ span.start →
    other.textAt (span.shift bytes) = module.textAt span

section Moved

variable (pragma : String) {bytes offset : Nat} {module other : Module}
  (agree : Agree bytes offset module other) {site further : Site}
  (moved : site.Moved bytes further)

include agree

theorem givesFunction_moved (scopes : List Nat) (value : Node) :
    givesFunction other scopes (value.shift bytes) = givesFunction module scopes value := by
  simp only [givesFunction, Node.shift_kind, Scope.Table.firstBinding,
    Scope.Table.bindingIn_of_bare agree.scopes]

include moved

theorem browserName?_moved :
    browserName? pragma other further = browserName? pragma module site := by
  simp only [browserName?, moved.node, Node.shift_kind, moved.scopes,
    Scope.resolves_of_bare agree.scopes, inComponent_moved pragma moved.path]

theorem attributeConstructs_moved
    (behind : ∀ child ∈ site.node.children, offset ≤ child.span.start) :
    attributeConstructs other further =
      (attributeConstructs module site).map (Construct.shift bytes) := by
  unfold attributeConstructs
  rw [moved.node, Node.shift_part?, Node.shift_part?, moved.scopes]
  cases found : site.node.part? .key with
  | none => rfl
  | some key =>
    cases site.node.part? .value with
    | none => rfl
    | some container =>
      have name := agree.text key.span (behind key (List.mem_of_find?_eq_some found))
      simp only [Option.map_some, Node.shift_kind, Node.shift_span, Node.shift_part?, name,
        Option.any_map, Node.shift_withoutParentheses, givesFunction_moved agree]
      split
      · rw [List.map_append]
        congr 1
        · split <;> rfl
        · split <;> rfl
      · rfl

/-- What a node contributes moves with it. -/
theorem ownConstructs_moved (behind : ∀ child ∈ site.node.children, offset ≤ child.span.start) :
    ownConstructs pragma other further =
      (ownConstructs pragma module site).map (Construct.shift bytes) := by
  have browser (part : Node) := browserName?_moved pragma agree (moved.part part)
  have part (role : Role) : further.part? role =
      (site.node.part? role).map fun part => ⟨part.shift bytes, further.node :: further.path⟩ := by
    rw [Site.part?, moved.node, Node.shift_part?, Option.map_map]
    rfl
  have kind : further.node.kind = site.node.kind := by rw [moved.node, Node.shift_kind]
  have span : further.node.span = site.node.span.shift bytes := by
    rw [moved.node, Node.shift_span]
  have access : ((further.part? .object).bind fun object =>
      (browserName? pragma other object).map
        (⟨.browserApi, ·, object.node.span⟩ : String → Construct)).toList =
      (((site.part? .object).bind fun object =>
        (browserName? pragma module object).map
          (⟨.browserApi, ·, object.node.span⟩ : String → Construct)).toList).map
        (Construct.shift bytes) := by
    rw [part, Site.part?]
    cases site.node.part? .object with
    | none => rfl
    | some object =>
      simp only [Option.map_some, Option.bind_some, browser, Node.shift_span]
      cases browserName? pragma module ⟨object, site.node :: site.path⟩ <;> rfl
  unfold ownConstructs
  rw [kind]
  cases site.node.kind
  case new =>
    dsimp only
    rw [part, Site.part?]
    cases site.node.part? .callee with
    | none => rfl
    | some callee =>
      simp only [Option.map_some, Option.bind_some, browser, span]
      cases browserName? pragma module ⟨callee, site.node :: site.path⟩ <;> rfl
  case staticMember property => exact access
  case computedMember => exact access
  case call =>
    have called (callee : Node) : calledName? (callee.shift bytes) = calledName? callee := by
      simp only [calledName?, Node.shift_kind]
    dsimp only
    rw [moved.node, Node.shift_part?]
    cases site.node.part? .callee with
    | none => rfl
    | some callee =>
      simp only [Option.map_some, Option.bind_some, called, inComponent_moved pragma moved.path,
        Node.shift_span]
      cases (calledName? callee).filter _ <;> rfl
  case jsxAttribute => exact attributeConstructs_moved agree moved behind
  case classNode declares name =>
    cases declares
    · rfl
    · dsimp only
      rw [moved.node, Component.isComponent_moved pragma moved.path, Node.shift_span]
      split <;> rfl
  all_goals rfl

theorem recordedAt_moved
    (behind : ∀ below ∈ site.node.sites site.path, offset ≤ below.node.span.start) :
    recordedAt pragma other further =
      (recordedAt pragma module site).map (Construct.shift bytes) := by
  have here : (⟨site.node, site.path⟩ : Site) ∈ site.node.sites site.path :=
    Node.mem_sites.mpr (.inl rfl)
  have children : ∀ child ∈ site.node.children, offset ≤ child.span.start := fun child member =>
    behind ⟨child, _⟩ (Node.child_mem_sites here member)
  have own := ownConstructs_moved pragma agree moved children
  have kind : further.node.kind = site.node.kind := by rw [moved.node, Node.shift_kind]
  unfold recordedAt
  rw [kind]
  split
  · rw [moved.node, Node.shift_children, List.filter_map, List.flatMap_map, List.map_flatMap]
    simp only [Function.comp_def, Node.shift_kind]
    refine List.flatMap_congr fun part member => ?_
    have below := Node.child_mem_sites here (List.mem_of_mem_filter member)
    rw [← moved.node]
    exact ownConstructs_moved pragma agree (moved.part part) fun child inside =>
      behind ⟨child, _⟩ (Node.child_mem_sites below inside)
  · rfl
  · exact own

end Moved

def StandsBehind (offset : Nat) (module : Module) : Prop :=
  ∀ item ∈ module.tree.children, ∀ site ∈ item.sites [module.tree],
    offset ≤ site.node.span.start

instance (offset : Nat) (module : Module) : Decidable (StandsBehind offset module) :=
  inferInstanceAs (Decidable (∀ item ∈ module.tree.children, ∀ site ∈ item.sites [module.tree],
    offset ≤ site.node.span.start))

section Led

variable (pragma fileName : String) {before inserted after : List Char}
  {directive program longer : Node} (is : Scope.IsProgram program)
  (isLonger : Scope.IsProgram longer)
  (led : Scope.LedBy directive (Text.byteLength inserted) program longer)

include is isLonger led

theorem agree_of_led :
    Agree (Text.byteLength inserted) (Text.byteLength before)
      (Module.ofProgram fileName (String.ofList (before ++ after)) program)
      (Module.ofProgram fileName (String.ofList (before ++ inserted ++ after)) longer) where
  scopes := (Scope.analyze_led is isLonger led).2
  text span behind := by
    simp only [Module.textAt, Module.ofProgram, String.toList_ofList]
    exact congrArg (fun found => String.ofList (found.getD []))
      (Text.slice?_insert before inserted after span.stop behind)

/-- Behind one more directive, a program contributes the same, moved back. -/
theorem recorded_of_led
    (behind : StandsBehind (Text.byteLength before)
      (Module.ofProgram fileName (String.ofList (before ++ after)) program)) :
    let short := Module.ofProgram fileName (String.ofList (before ++ after)) program
    let long := Module.ofProgram fileName (String.ofList (before ++ inserted ++ after)) longer
    (long.tree.sites []).flatMap (recordedAt pragma long) =
      ((short.tree.sites []).flatMap (recordedAt pragma short)).map
        (Construct.shift (Text.byteLength inserted)) := by
  intro short long
  have agree : Agree (Text.byteLength inserted) (Text.byteLength before) short long :=
    agree_of_led fileName is isLonger led
  have children : long.tree.children = { directive with mark := .plain } ::
      short.tree.children.map (Node.shift (Text.byteLength inserted)) :=
    (Scope.analyze_led is isLonger led).1
  have kind : short.tree.kind = .program := by
    simp only [short, Module.ofProgram, Scope.analyze_eq is, is.kind]
  have longKind : long.tree.kind = .program := by
    simp only [long, Module.ofProgram, Scope.analyze_eq isLonger, isLonger.kind]
  have root : PathMoved (Text.byteLength inserted) [short.tree] [long.tree] :=
    .root kind longKind
      ((Scope.analyze_mark isLonger).trans (Scope.analyze_mark is).symm)
  -- Neither the programs themselves nor the directive contribute anything.
  have silent (module : Module) {program : Node} (kind : program.kind = .program) :
      recordedAt pragma module ⟨program, []⟩ = [] := by
    simp only [recordedAt, kind, ownConstructs]
  have directiveSites : (Node.sites [long.tree] { directive with mark := .plain }).flatMap
      (recordedAt pragma long) = [] := by
    obtain ⟨value, isDirective⟩ := led.kind
    rw [Node.sites_eq]
    simp [led.leaf, recordedAt, isDirective, ownConstructs]
  have items : ∀ item ∈ short.tree.children,
      ((item.shift (Text.byteLength inserted)).sites [long.tree]).flatMap (recordedAt pragma long) =
        ((item.sites [short.tree]).flatMap (recordedAt pragma short)).map
          (Construct.shift (Text.byteLength inserted)) := by
    intro item member
    refine flatMap_sites_moved root fun site inside further moved => ?_
    exact recordedAt_moved pragma agree moved fun below deeper =>
      behind item member below (Node.sites_trans inside deeper)
  rw [Node.sites_eq, Node.sites_eq [] short.tree, children]
  simp only [List.flatMap_cons, List.flatMap_append, silent short kind, silent long longKind, directiveSites,
    List.nil_append, List.flatMap_assoc, List.map_flatMap, List.flatMap_map]
  exact List.flatMap_congr fun item member => by rw [items item member, List.map_flatMap]

end Led

end UseClient

end ClientBoundary
