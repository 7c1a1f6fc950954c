import ClientBoundary.Proofs.SignatureTrees

/-! The trees of elements and expressions, as the grammar gives them, and of expressions that turn
out to be targets of assignments. -/
namespace ClientBoundary.Syntax

open Node

namespace Parser

variable {g : Grammar} (sound : g.Sound)

include sound

/-! Elements. -/

omit sound in
theorem tagName_code : Gives (·.1.CodeTree) tagName := by
  unfold tagName
  refine .skip fun start => .skip fun first => .bind .finishChildless fun plain ⟨is, childless⟩ => ?_
  extract_lets reference
  have plainTree : plain.CodeTree := codeTree_of_childless (by rw [is]; rfl) childless
  have referenceTree : reference.CodeTree := by
    unfold reference
    split
    · exact codeTree_of_childless rfl childless
    · exact codeTree_of_childless rfl childless
  refine .skip fun prefixed => ?_
  split
  · exact .skip fun _ => .bind (.finish rfl .nil) fun node tree => .pure tree
  · refine .skip fun dotted => ?_
    split
    · refine .skip fun _ => .bind (.iterate (I := (·.1.CodeTree)) referenceTree ?_)
        fun (node, text) tree => .pure tree
      refine fun (node, text) tree => .skip fun more => ?_
      split
      · refine .skip fun word => .skip fun _ => .bind (.finish rfl (.one tree.fits)) fun next whole => ?_
        exact .pure (by simpa using whole)
      · exact .none
    · split
      · exact .pure referenceTree
      · exact .pure plainTree

omit sound in
theorem attributeName_code : Gives CodeTree attributeName :=
  .skip fun _ => .skip fun (_, _) => .bind (.finish rfl .nil) fun _ tree => .pure (tree.inRole .key)

theorem containerExpression_code : Gives CodeTree (containerExpression g) :=
  .bind sound.expression.bracketed fun _ tree => .skip fun _ => .pure (tree.inRole .value)

theorem attributeValue_code : Gives CodeTree (attributeValue g) := by
  unfold attributeValue
  refine .skip fun start => .skip fun lexeme => ?_
  split
  · exact .leaf rfl
  · exact .skip fun _ => .bind (containerExpression_code sound) fun expression tree =>
      .skip fun _ => .finish rfl (.one tree.fits)
  · exact sound (.element false)
  · exact .failure

theorem tagAttribute_code : Gives CodeTree (tagAttribute g) := by
  unfold tagAttribute
  refine .skip fun start => .skip fun isSpread => ?_
  split
  · exact .skip fun _ => .bind sound.assignment.bracketed fun expression tree =>
      .skip fun _ => .finish rfl (.one tree.fits)
  · refine .bind attributeName_code fun name tree => .skip fun hasValue => ?_
    split
    · refine .skip fun _ => .bind (attributeValue_code sound) fun value valueTree => ?_
      exact .finish rfl (.cons tree.fits (.one (valueTree.inRole .value).fits))
    · exact .finish rfl (.one tree.fits)

theorem childContainer_code : Gives CodeTree (childContainer g) := by
  unfold childContainer
  refine .skip fun start => .skip fun _ => .skip fun closed => .skip fun isSpread => ?_
  extract_lets rest
  have whole (kind : Kind) (parts : List Node) (usual : kind.isUsual = true)
      (trees : ∀ node ∈ parts, node.CodeTree) : Gives CodeTree (rest (kind, parts)) :=
    .skip fun _ => .skip fun _ => .skip fun _ => .finish usual (.code trees)
  split
  · exact .pureBind (whole _ _ rfl (by simp))
  · split
    · exact .bind sound.assignment.bracketed fun expression tree =>
        .pureBind (whole _ _ rfl (by simpa using tree))
    · exact .bind (containerExpression_code sound) fun expression tree =>
        .pureBind (whole _ _ rfl (by simpa using tree))

theorem elementChildren_code : Gives (∀ node ∈ ·, node.CodeTree) (elementChildren g) := by
  refine .many (.skip fun lexeme => ?_)
  split
  · exact .skip fun _ => .skip fun _ => .pure (by simpa using codeTree_of_childless rfl rfl)
  · exact (childContainer_code sound).some
  · refine .skip fun closes => ?_
    split
    · exact .none
    · exact Gives.some (sound (.element true))
  · exact .failure

omit sound in
theorem closingTag_code (name : Option String) (nested : Bool) :
    Gives CodeTree (closingTag name nested) := by
  unfold closingTag
  refine .skip fun start => .skip fun _ => .skip fun _ => ?_
  split
  · refine .bind tagName_code fun (node, text) tree => .skip fun _ => .pureBind (.skip fun _ => ?_)
    exact .finish rfl (.one tree.fits)
  · exact .pureBind (.skip fun _ => .finish rfl .nil)

theorem fragment_code {start : Nat} {nested : Bool} : Gives CodeTree (fragment g start nested) :=
  .skip fun _ => .bind (elementChildren_code sound) fun _ trees => .skip fun _ =>
    .finish rfl (.code trees)

theorem element_code (nested : Bool) : Gives CodeTree (element g nested) := by
  unfold element
  refine .skip fun start => .skip fun _ => .skip fun isFragment => ?_
  split
  · exact fragment_code sound
  · refine .bind tagName_code fun (tag, name) tree => .skip fun isTyped => .skip fun opened => ?_
    refine .optional (typeArgumentsTo_type _) (fun _ types => types) fun types typeTrees => ?_
    refine .bind (.many (P := CodeTree) (.skip fun closed => ?_)) fun attributes trees =>
      .skip fun closes => ?_
    · split
      · exact .none
      · exact (tagAttribute_code sound).some
    · have parts : Parts .jsxOpening (tag :: types ++ attributes) :=
        .append (.cons tree.fits (.types typeTrees rfl)) (.code trees)
      split
      · exact .skip fun _ => .bind (.finish rfl parts) fun opening whole => .finish rfl (.one whole.fits)
      · refine .skip fun _ => .bind (.finish rfl parts) fun opening whole =>
          .bind (elementChildren_code sound) fun children childTrees =>
          .bind (closingTag_code _ nested) fun closing closed => ?_
        exact .finish rfl (.append (.cons whole.fits (.code childTrees)) (.one closed.fits))

end Parser

/-! Targets of assignments. -/

namespace Node

/-- Parts of one kind of node are parts of another that types stand in alike. -/
theorem Everywhere.parts {node : Node} (formed : node.Everywhere Formed) {kind : Kind}
    (alike : ∀ role, node.kind.holdsTypeAs role = kind.holdsTypeAs role) : Parts kind node.children :=
  fun child member => ⟨fun type => (alike child.role).symm.trans
    (formed.here.inPlace.aside child member type), formed.inside child member⟩

theorem isCode_of_isReference {node : Node} (refers : node.isReference = true) : node.isCode = true := by
  unfold isReference at refers
  split at refers <;> first | rfl | cases refers

theorem simpleTarget?_code {node target : Node} (formed : node.Everywhere Formed)
    (found : node.simpleTarget? = some target) : target.CodeTree := by
  fun_induction simpleTarget? node with
  | case1 span inner role mark ih => exact ih (formed.inside inner (by simp)) found
  | case2 node _ refers =>
    cases found
    exact ⟨isCode_of_isReference refers, formed⟩
  | case3 => cases found

/-- What a tree is as a target is well formed. -/
structure Targets (node : Node) : Prop where
  whole : ∀ target, node.target? = some target → target.CodeTree
  element : ∀ target, node.elementTarget? = some target → target.CodeTree

section Targets

variable {trailingComma : Bool} {items targets : List Node}
  (known : ∀ item ∈ items, item.Targets ∧ ∀ part ∈ item.children, part.Targets)

include known

theorem elementTargets?_code (found : elementTargets? trailingComma items = some targets) :
    ∀ target ∈ targets, target.CodeTree := by
  induction items generalizing targets with
  | nil =>
    unfold elementTargets? at found
    cases found
    simp
  | cons item rest ih =>
    obtain ⟨here, later⟩ := List.forall_mem_cons.mp known
    unfold elementTargets? at found
    split at found
    · contradiction
    · next span inner role mark is =>
      cases is
      split at found
      · cases found
      · obtain ⟨target, isTarget, rfl⟩ := Option.map_eq_some_iff.mp found
        have tree := (here.2 inner (by simp)).whole target isTarget
        simpa using codeTree_of_parts rfl (.one tree.fits)
    · next is =>
      cases is
      obtain ⟨target, isTarget, others⟩ := Option.bind_eq_some_iff.mp found
      obtain ⟨further, areTargets, same⟩ := Option.bind_eq_some_iff.mp others
      cases same
      exact List.forall_mem_cons.mpr ⟨here.1.element target isTarget, ih later areTargets⟩

theorem propertyTargets?_code (formed : ∀ item ∈ items, item.Everywhere Formed)
    (found : propertyTargets? trailingComma items = some targets) :
    ∀ target ∈ targets, target.CodeTree := by
  induction items generalizing targets with
  | nil =>
    unfold propertyTargets? at found
    cases found
    simp
  | cons item rest ih =>
    obtain ⟨here, later⟩ := List.forall_mem_cons.mp known
    obtain ⟨itemFormed, restFormed⟩ := List.forall_mem_cons.mp formed
    unfold propertyTargets? at found
    split at found
    · contradiction
    · next span inner role mark is =>
      cases is
      split at found
      · cases found
      · obtain ⟨target, isTarget, rfl⟩ := Option.map_eq_some_iff.mp found
        have tree := simpleTarget?_code (itemFormed.inside inner (by simp)) isTarget
        simpa using codeTree_of_parts rfl (.one tree.fits)
    · next span key value role mark _ is =>
      cases is
      obtain ⟨target, isTarget, others⟩ := Option.bind_eq_some_iff.mp found
      obtain ⟨further, areTargets, same⟩ := Option.bind_eq_some_iff.mp others
      cases same
      have parts : Parts .targetProperty [key, value] :=
        itemFormed.parts fun role => by cases role <;> rfl
      have tree := (here.2 value (by simp)).element target isTarget
      refine List.forall_mem_cons.mpr ⟨?_, ih later restFormed areTargets⟩
      exact codeTree_of_parts rfl (.cons (parts key (by simp)) (.one tree.fits))
    · next span key name value role mark _ is =>
      cases is
      obtain ⟨further, areTargets, same⟩ := Option.bind_eq_some_iff.mp found
      cases same
      have outer : Parts .targetProperty [key, name, value] :=
        itemFormed.parts fun role => by cases role <;> rfl
      have inner : Parts .targetDefault [name, value] :=
        (List.forall_mem_cons.mp (itemFormed.parts fun role => by cases role <;> rfl)).2
      have withDefault : CodeTree ⟨.targetDefault, span, [name, value], .value, .plain⟩ :=
        codeTree_of_parts rfl inner
      refine List.forall_mem_cons.mpr ⟨?_, ih later restFormed areTargets⟩
      exact codeTree_of_parts rfl (.cons (outer key (by simp)) (.one withDefault.fits))
    · cases found

end Targets

theorem targets_of_formed {node : Node} (formed : node.Everywhere Formed) :
    node.Targets ∧ ∀ child ∈ node.children, child.Targets := by
  induction node using Node.induction with
  | step kind span children role mark ih =>
    have known : ∀ child ∈ children, child.Targets ∧ ∀ part ∈ child.children, part.Targets :=
      fun child member => ih child member (formed.inside child member)
    have array {trailingComma : Bool} {target : Node}
        (found : (elementTargets? trailingComma children).map
        (⟨.arrayTarget, span, ·, role, mark⟩) = some target) : target.CodeTree := by
      obtain ⟨targets, areTargets, rfl⟩ := Option.map_eq_some_iff.mp found
      exact codeTree_of_parts rfl (.code (elementTargets?_code known areTargets))
    have object {trailingComma : Bool} {target : Node}
        (found : (propertyTargets? trailingComma children).map
        (⟨.objectTarget, span, ·, role, mark⟩) = some target) : target.CodeTree := by
      obtain ⟨targets, areTargets, rfl⟩ := Option.map_eq_some_iff.mp found
      exact codeTree_of_parts rfl (.code (propertyTargets?_code known formed.inside areTargets))
    refine ⟨⟨fun target found => ?_, fun target found => ?_⟩, fun child member => (known child member).1⟩
    · unfold target? at found
      split at found
      · next is =>
        cases is
        exact array found
      · next is =>
        cases is
        exact object found
      · exact simpleTarget?_code formed found
    · unfold elementTarget? at found
      split at found
      · next is =>
        cases is
        cases found
        exact codeTree_of_parts rfl (formed.parts fun role => by cases role <;> rfl)
      · next is =>
        cases is
        exact array found
      · next is =>
        cases is
        exact object found
      · exact simpleTarget?_code formed found

theorem CodeTree.target {node target : Node} (tree : node.CodeTree)
    (found : node.target? = some target) : target.CodeTree :=
  (targets_of_formed tree.formed).1.whole target found

end Node

namespace Parser

variable {g : Grammar} (sound : g.Sound)

include sound

/-! Expressions. -/

theorem spread_code : Gives CodeTree (spread g) :=
  .skip fun _ => .skip fun _ => .bind sound.assignment fun _ tree => .finish rfl (.one tree.fits)

theorem spreadOrAssignment_code : Gives CodeTree (spreadOrAssignment g) := by
  refine .skip fun isSpread => ?_
  split
  · exact spread_code sound
  · exact sound.assignment

theorem arguments_code : Gives (∀ node ∈ ·, node.CodeTree) (arguments g) := by
  refine .skip fun _ => .bind (.bracketed (.commaList (spreadOrAssignment_code sound)))
    fun (items, _) trees => .skip fun _ => .pure ?_
  exact List.forall_mem_map.mpr fun node member => (trees node member).inRole .argument

theorem template_code (tagged : Bool) : Gives CodeTree (template g tagged) :=
  .skip fun _ => .skip fun _ => .bind (templateRest_code sound.expression.bracketed _)
    fun (_, _) trees => .skip fun _ => .finish rfl (.code trees)

theorem arrayLiteral_code : Gives CodeTree (arrayLiteral g) := by
  refine .skip fun start => .skip fun _ => .bind (.bracketed (.commaList (.skip fun hole => ?_)))
    fun (items, trailingComma) trees => .skip fun _ => .finish rfl (.found trees)
  split
  · exact .none
  · exact (spreadOrAssignment_code sound).some

theorem objectMember_code : Gives CodeTree (objectMember g) := by
  unfold objectMember
  refine .skip fun start => .skip fun isSpread => ?_
  split
  · exact spread_code sound
  · refine .skip fun accessor => ?_
    split
    · refine .skip fun _ => .bind (propertyKey_code sound) fun key tree =>
        .bind (accessorRest_code sound _ true) fun method methodTree => ?_
      exact .finish rfl (.cons tree.fits (.one methodTree.fits))
    · refine .skip fun modifier => .skip fun isGenerator => .skip fun isName => .skip fun here =>
        .bind (propertyKey_code sound) fun key tree => .skip fun called => ?_
      split
      · refine .bind (methodRest_code sound _ true) fun method methodTree => ?_
        exact .finish rfl (.cons tree.fits (.one methodTree.fits))
      · refine .skip fun hasValue => ?_
        split
        · refine .bind sound.assignment fun value valueTree => ?_
          exact .finish rfl (.cons tree.fits (.one (valueTree.inRole .value).fits))
        · split
          · next name _ _ =>
            have value : CodeTree { kind := .identifier name .value, span := here.span, role := .value } :=
              codeTree_of_childless rfl rfl
            refine .skip fun hasDefault => ?_
            split
            · refine .bind sound.assignment fun default defaultTree => ?_
              exact .finish rfl (.cons tree.fits (.cons value.fits (.one defaultTree.fits)))
            · exact .finish rfl (.cons tree.fits (.one value.fits))
          · exact .failure

theorem objectLiteral_code : Gives CodeTree (objectLiteral g) :=
  .skip fun _ => .skip fun _ => .bind (.bracketed (.commaList (objectMember_code sound)))
    fun (_, _) trees => .skip fun _ => .finish rfl (.code trees)

theorem parenthesized_code : Gives CodeTree (parenthesized g) :=
  .skip fun _ => .skip fun _ => .bind sound.expression.bracketed fun _ tree =>
    .skip fun _ => .finish rfl (.one tree.fits)

theorem classExpression_code : Gives CodeTree (classExpression g) :=
  .skip fun _ => .bind (decorators_code sound) fun _ marks => classRest_code sound marks

theorem importExpression_code : Gives CodeTree (importExpression g) := by
  unfold importExpression
  refine .skip fun start => .skip fun _ => .skip fun dotted => ?_
  extract_lets rest
  have call : Gives CodeTree (rest ()) := by
    refine .skip fun _ => .bind sound.assignment.bracketed fun module tree =>
      .skip fun more => .skip fun closed => ?_
    split
    · refine .bind sound.assignment.bracketed fun options optionsTree => .skip fun _ => .pureBind ?_
      exact .skip fun _ => .finish rfl (.cons tree.fits (.one optionsTree.fits))
    · exact .pureBind (.skip fun _ => .finish rfl (.one tree.fits))
  split
  · refine .skip fun isMeta => ?_
    split
    · exact .finish rfl .nil
    · exact .skip fun _ => .skip fun _ => .skip fun _ => call
  · exact call

omit sound in
theorem identifier_code : Gives CodeTree identifier :=
  .skip fun _ => .skip fun _ => Gives.finishName.imp fun _ name => name.1

omit sound in
theorem superWord_code : Gives CodeTree superWord :=
  .bind (.leaf rfl) fun _ tree => .skip fun _ => .skip fun _ => .pure tree

omit sound in
theorem access_code {start : Nat} {object : Node} (tree : object.CodeTree) :
    Gives CodeTree (access start object) := by
  unfold access
  refine .skip fun lexeme => ?_
  split
  · exact .skip fun _ => .finish rfl (.one (tree.inRole .object).fits)
  · exact .skip fun property => .finish rfl (.one (tree.inRole .object).fits)

theorem index_code {start : Nat} {object : Node} (tree : object.CodeTree) :
    Gives CodeTree (index g start object) :=
  .skip fun _ => .bind sound.expression.bracketed fun _ key => .skip fun _ =>
    .finish rfl (.cons (tree.inRole .object).fits (.one key.fits))

theorem call_code {start : Nat} {callee : Node} {types : List Node} (tree : callee.CodeTree)
    (typeTrees : ∀ node ∈ types, node.TypeTree) : Gives CodeTree (call g start callee types) := by
  refine .bind (arguments_code sound) fun arguments trees => .finish rfl (.append ?_ (.code trees))
  split
  · next is children =>
    obtain ⟨operand, given⟩ := tree.operands is children
    exact .cons (operand.inRole .callee).fits (.one (given.fits rfl))
  · exact .cons (tree.inRole .callee).fits (.types typeTrees rfl)

theorem accessStep_code {start : Nat} {calls chained : Bool} {expression : Node}
    (tree : expression.CodeTree) :
    Gives (∀ next ∈ ·, next.1.CodeTree) (accessStep g start calls expression chained) := by
  have keep {parser : Parser Node} (given : Gives CodeTree parser) (passed : Bool) :
      Gives (∀ next ∈ ·, next.1.CodeTree) (do return some (← parser, passed)) :=
    given.bind fun next whole => .pure (by simpa using whole)
  unfold accessStep
  refine .skip fun context => .skip fun lexeme => ?_
  split
  · exact .skip fun _ => keep (access_code tree) chained
  · split
    · exact .none
    · refine .skip fun _ => .skip fun lexeme => ?_
      split
      · exact keep (call_code sound tree (by simp)) true
      · exact keep (index_code sound tree) true
      · refine .bind typeArgumentsInExpression?_types fun found types => ?_
        split
        · exact keep (call_code sound tree (by simpa using types)) true
        · exact .failure
      · exact keep (access_code tree) true
  · split
    · exact .none
    · exact keep (index_code sound tree) chained
  · refine .skip fun _ => .bind (template_code sound true) fun quasi quasiTree =>
      keep (.finish rfl (.append ?_ (.one quasiTree.fits))) chained
    split
    · next is children =>
      obtain ⟨operand, given⟩ := tree.operands is children
      exact .cons operand.fits (.one (given.fits rfl))
    · exact .one tree.fits
  · refine .skip fun isTyped => .skip fun broken => ?_
    split
    · exact .none
    · exact .skip fun _ => keep (.finish rfl (.one tree.fits)) chained
  · split
    · exact .none
    · exact keep (call_code sound tree (by simp)) chained
  -- Type arguments may start with one angle bracket or with two.
  iterate 2
    · refine .bind typeArgumentsInExpression?_types fun found types => ?_
      split
      · exact keep (.finishInstantiation tree (types _ rfl)) chained
      · exact .none
  · exact .none

theorem accesses_code {start : Nat} {calls : Bool} {expression : Node} (tree : expression.CodeTree) :
    Gives (·.1.CodeTree) (accesses g start calls expression) :=
  .iterate tree fun (_, _) here => accessStep_code sound here

theorem newExpression_code : Gives CodeTree (newExpression g) := by
  unfold newExpression
  refine .skip fun start => .skip fun _ => .skip fun dotted => ?_
  split
  · exact .skip fun _ => .finish rfl .nil
  · refine .skip fun calleeStart => .bind (sound .primary) fun first firstTree =>
      .bind (accesses_code sound firstTree) fun (callee, _) tree => .skip fun _ => .skip fun _ =>
      .skip fun _ => .skip fun called => ?_
    refine .both (arguments_code sound) (.pure (by simp)) fun arguments trees =>
      .finish rfl (.append ?_ (.code trees))
    split
    · next is children =>
      obtain ⟨operand, given⟩ := tree.operands is children
      exact .cons (operand.inRole .callee).fits (.one (given.fits rfl))
    · exact .one (tree.inRole .callee).fits

theorem primary_code : Gives CodeTree (primary g) := by
  unfold primary
  refine .skip fun start => .skip fun lexeme => ?_
  split
  · exact .leaf rfl
  · exact .leaf rfl
  · exact template_code sound false
  · exact parenthesized_code sound
  · exact arrayLiteral_code sound
  · exact objectLiteral_code sound
  · exact .skip fun _ => .leaf rfl
  · exact .skip fun _ => .leaf rfl
  · exact classExpression_code sound
  · exact .leaf rfl
  · exact .leaf rfl
  · exact .leaf rfl
  · exact .leaf rfl
  · exact functionExpression_code sound
  · exact classExpression_code sound
  · exact superWord_code
  · exact importExpression_code sound
  · exact newExpression_code sound
  · refine .skip fun isFunction => ?_
    split
    · exact .skip fun _ => functionExpression_code sound
    · exact identifier_code
  · exact identifier_code

theorem leftHandSide_code : Gives CodeTree (leftHandSide g) := by
  unfold leftHandSide
  refine .skip fun start => .bind (primary_code sound) fun first firstTree =>
    .bind (accesses_code sound firstTree) fun (expression, chained) tree => ?_
  exact .ite (.finish rfl (.one tree.fits)) (.pure tree)

omit sound in
theorem simpleTarget_code {expression : Node} (tree : expression.CodeTree) :
    Gives CodeTree (simpleTarget expression) := by
  unfold simpleTarget
  split
  · next found => exact .pure ((simpleTarget?_code tree.formed found).inRole .target)
  · exact .failure

theorem awaitExpression_code : Gives CodeTree (awaitExpression g) :=
  .skip fun _ => .skip fun _ => .skip fun _ => .skip fun _ => .bind (.within (sound .unary) _)
    fun _ tree => .finish rfl (.one tree.fits)

theorem unary_code : Gives CodeTree (unary g) := by
  unfold unary
  refine .skip fun start => .skip fun marked => .skip fun worded => ?_
  extract_lets operates
  split
  · exact .skip fun _ => .bind (sound .unary) fun operand tree => .finish rfl (.one tree.fits)
  · refine .skip fun updates => ?_
    split
    · exact .skip fun _ => .bind (sound .unary) fun operand tree =>
        .bind (simpleTarget_code tree) fun target targetTree => .finish rfl (.one targetTree.fits)
    · refine .skip fun opened => ?_
      split
      · refine .skip fun dialect => ?_
        split
        · exact sound (.element false)
        · refine .skip fun _ => .skip fun _ => .skip fun _ => .bind sound.type fun type typeTree =>
            .skip fun _ => .bind (sound .unary) fun operand tree => ?_
          exact .finish rfl (.cons (typeTree.toItem.fits rfl) (.one tree.fits))
      · refine .skip fun waits => ?_
        split
        · exact awaitExpression_code sound
        · refine .bind (leftHandSide_code sound) fun expression tree => .skip fun updated =>
            .skip fun broken => ?_
          split
          · exact .bind (simpleTarget_code tree) fun target targetTree => .skip fun _ =>
              .finish rfl (.one targetTree.fits)
          · exact .pure tree

theorem operatorStep_code {start above : Nat} {left : Node} (tree : left.CodeTree) :
    Gives (∀ next ∈ ·, next.CodeTree) (operatorStep g start above left) := by
  unfold operatorStep
  refine .skip fun _ => .skip fun operator => ?_
  split
  · exact .none
  · next tightness _ =>
    refine .ite .none (.skip fun context => .ite .none (.ite ?_ ?_))
    · refine .skip fun isTyped => .skip fun broken => .ite .none ?_
      refine .skip fun _ => .bind sound.type fun type typeTree => ?_
      split
      · exact (Gives.finish rfl (.cons tree.fits (.one (typeTree.toItem.fits rfl)))).some
      · exact (Gives.finish rfl (.cons tree.fits (.one (typeTree.toItem.fits rfl)))).some
    · refine .skip fun _ => .skip fun _ => .bind (sound (.binary tightness)) fun right rightTree =>
        .ite ?_ (.ite ?_ ?_)
      · exact .skip fun _ =>
          (Gives.finish rfl (.cons tree.fits (.one (rightTree.inRole .right).fits))).some
      · exact (Gives.finish rfl (.cons tree.fits (.one (rightTree.inRole .right).fits))).some
      · exact (Gives.finish rfl (.cons tree.fits (.one rightTree.fits))).some

theorem binary_code (above : Nat) : Gives CodeTree (binary g above) := by
  unfold binary
  refine .skip fun start => .skip fun lexeme => ?_
  extract_lets operators
  have whole (left : Node) (tree : left.CodeTree) : Gives CodeTree (operators left) :=
    .iterate tree fun _ here => operatorStep_code sound here
  split
  · exact .bind (.leaf rfl) fun name tree => .skip fun _ => .skip fun _ => .skip fun _ =>
      .pureBind (whole name tree)
  · exact .bind (unary_code sound) whole

/-! Arrow functions and assignments. -/

theorem arrowHead_front : Gives (∀ node ∈ ·.front, node.ItemTree) (arrowHead g) := by
  unfold arrowHead
  refine .skip fun start => .skip fun isAsync => .bind (typeParameters_types sound) fun types typeTrees =>
    .skip fun context => .bind (.within (parameters_code sound) _) fun parameters tree =>
    .bind (resultAnnotation_types sound) fun result results => .skip fun _ => .skip fun _ =>
    .skip fun _ => .pure ?_
  exact List.forall_mem_append.mpr ⟨fun node member => (typeTrees node member).toItem,
    List.forall_mem_cons.mpr ⟨tree.item, fun node member => (results node member).toItem⟩⟩

theorem arrowBody_code {resultType : Bool} {head : ArrowHead}
    (front : ∀ node ∈ head.front, node.ItemTree) :
    Gives CodeTree (arrowBody g resultType head) := by
  unfold arrowBody
  refine .skip fun opened => ?_
  split
  · exact .bind (functionBody_code sound _) fun body tree =>
      .finish rfl (.append (.items front rfl) (.one tree.fits))
  · exact .bind (.within (sound (.assignment resultType)) _) fun body tree =>
      .finish rfl (.append (.items front rfl) (.one (tree.inRole .body).fits))

theorem parenthesizedArrow?_code (resultType : Bool) :
    Gives (∀ node ∈ ·, node.CodeTree) (parenthesizedArrow? g resultType) := by
  unfold parenthesizedArrow?
  refine .skip fun judged => ?_
  split
  · exact .none
  · exact .bind (arrowHead_front sound) fun head front => (arrowBody_code sound front).some
  · refine .skip fun before => .bind (.attempt (arrowHead_front sound)) fun found front => ?_
    split
    · exact .none
    · split
      · refine .bind (.attempt (.bind (arrowBody_code sound (front _ rfl)) fun arrow tree =>
          .skip fun _ => .skip fun _ => .pure tree)) fun arrow tree => .when (.pure tree)
      · exact (arrowBody_code sound (front _ rfl)).some

omit sound in
theorem singleParameter_code {name : Node} (tree : name.CodeTree) : (singleParameter name).CodeTree := by
  unfold singleParameter
  extract_lets target parameter
  have targetTree : target.CodeTree := by
    unfold target
    split
    · exact codeTree_of_childless rfl rfl
    · exact tree
  have whole : parameter.CodeTree := codeTree_of_parts rfl (.one targetTree.fits)
  exact codeTree_of_parts rfl (.one whole.fits)

theorem asyncArrow?_code (resultType : Bool) :
    Gives (∀ node ∈ ·, node.CodeTree) (asyncArrow? g resultType) := by
  unfold asyncArrow?
  refine .skip fun isArrow => ?_
  split
  · refine .skip fun start => .skip fun _ => .bind identifier_code fun name tree => .skip fun _ => ?_
    exact (arrowBody_code sound (by simpa using (singleParameter_code tree).item)).some
  · exact .none

theorem yieldExpression_code : Gives CodeTree (yieldExpression g) := by
  unfold yieldExpression
  refine .skip fun start => .skip fun _ => .skip fun broken => ?_
  split
  · exact .finish rfl .nil
  · refine .skip fun delegates => .skip fun closed => .skip fun ended => .skip fun worded => ?_
    exact .ite (.finish rfl .nil) (.bind sound.assignment fun operand tree => .finish rfl (.one tree.fits))

theorem conditionalRest_code {start : Nat} {resultType : Bool} {test : Node} (tree : test.CodeTree) :
    Gives CodeTree (conditionalRest g start resultType test) := by
  unfold conditionalRest
  refine .skip fun asked => ?_
  split
  · refine .bind (.within (sound (.assignment false)) _) fun consequent one => .skip fun _ =>
      .bind (sound (.assignment resultType)) fun alternate two => ?_
    exact .finish rfl (.cons tree.fits (.cons (one.inRole .consequent).fits
      (.one (two.inRole .alternate).fits)))
  · exact .pure tree

theorem assignmentOrArrow_code (resultType : Bool) :
    Gives CodeTree (assignmentOrArrow g resultType) := by
  unfold assignmentOrArrow
  refine .skip fun start => .skip fun context => .skip fun yields => ?_
  split
  · exact yieldExpression_code sound
  · refine .bind (parenthesizedArrow?_code sound resultType) fun found arrows => ?_
    split
    · exact .pure (arrows _ rfl)
    · refine .bind (asyncArrow?_code sound resultType) fun found arrows => ?_
      split
      · exact .pure (arrows _ rfl)
      · refine .bind (binary_code sound 0) fun left tree => .skip fun arrowed => ?_
        split
        · refine .skip fun _ => .skip fun _ => .skip fun _ => arrowBody_code sound ?_
          simpa using (singleParameter_code tree).item
        · refine .skip fun assigns => ?_
          split
          · refine .skip fun plain => ?_
            split
            · exact .failure
            · next target found =>
              have targetTree : target.CodeTree := by
                split at found
                · exact tree.target found
                · exact simpleTarget?_code tree.formed found
              refine .skip fun _ => .bind (sound (.assignment resultType)) fun right rightTree => ?_
              exact .finish rfl
                (.cons (targetTree.inRole .target).fits (.one (rightTree.inRole .right).fits))
          · exact conditionalRest_code sound tree

theorem expression_code : Gives CodeTree (expression g) := by
  unfold expression
  refine .skip fun start => .bind sound.assignment fun first tree => .skip fun more => ?_
  split
  · refine .bind (.many (P := CodeTree) (.skip fun another => ?_)) fun rest trees => ?_
    · split
      · exact sound.assignment.some
      · exact .none
    · exact .finish rfl (.cons tree.fits (.code trees))
  · exact .pure tree

end Parser

end ClientBoundary.Syntax
