import ClientBoundary.Proofs.ExpressionTrees

/-! The trees of statements, declarations and modules, as the grammar gives them, and so of whole
programs: types stand only where they may. -/
namespace ClientBoundary.Syntax

open Node

namespace Parser

variable {g : Grammar} (sound : g.Sound)

include sound

theorem block_code : Gives CodeTree (block g) :=
  .skip fun _ => .skip fun _ => .bind (statements_items sound) fun _ trees =>
    .skip fun _ => .finish rfl (.items trees rfl)

theorem condition_code : Gives CodeTree (condition g) :=
  .skip fun _ => .bind sound.expression.bracketed fun _ tree => .skip fun _ => .pure tree

theorem bodyStatement_fits (kind : Kind) (holds : kind.holdsTypeAs .body = true) :
    Gives (Fits kind) (bodyStatement g) :=
  .bind (sound.statement true) fun _ tree => .pure (tree.fitsIn holds)

theorem ifStatement_code : Gives CodeTree (ifStatement g) := by
  unfold ifStatement
  refine .skip fun start => .skip fun _ => .bind (condition_code sound) fun test tree =>
    .bind (sound.statement true) fun consequent one => .skip fun hasElse => ?_
  refine .optional (sound.statement true) (fun _ two => (two.fitsIn rfl : Fits .ifStatement _))
    fun alternate parts => ?_
  exact .finish rfl (.cons tree.fits (.cons (one.fitsIn rfl) parts))

theorem whileStatement_code : Gives CodeTree (whileStatement g) :=
  .skip fun _ => .skip fun _ => .bind (condition_code sound) fun _ tree =>
    .bind (bodyStatement_fits sound .whileStatement rfl) fun _ body =>
      .finish rfl (.cons tree.fits (.one body))

theorem doWhileStatement_code : Gives CodeTree (doWhileStatement g) :=
  .skip fun _ => .skip fun _ => .bind (bodyStatement_fits sound .doWhileStatement rfl) fun _ body =>
    .skip fun _ => .bind (condition_code sound) fun _ tree =>
      .skip fun _ => .finish rfl (.cons body (.one tree.fits))

/-! Variables. -/

theorem declarator_code (keyword : VariableKeyword) : Gives CodeTree (declarator g keyword) := by
  unfold declarator
  refine .skip fun start => .bind sound.pattern fun target tree => .skip fun isTyped =>
    .skip fun marked => .skip fun broken => .when ?_
  refine .bind (typeAnnotation_types sound) fun type types => .skip fun hasInit => ?_
  refine .optional sound.assignment (fun _ value => value.inRole .init) fun init trees => ?_
  exact .skip fun _ => .skip fun _ =>
    .finish rfl (.append (.cons (tree.inRole .target).fits (.types types rfl)) (.code trees))

theorem declarators_code (keyword : VariableKeyword) :
    Gives (∀ node ∈ ·, node.CodeTree) (declarators g keyword) := by
  refine .bind (declarator_code sound keyword) fun first tree => .bind (.many (P := CodeTree) ?_)
    fun rest trees => .pure (List.forall_mem_cons.mpr ⟨tree, trees⟩)
  exact .skip fun more => .ite (declarator_code sound keyword).some .none

theorem variablesRest_code {start : Nat} (keyword : VariableKeyword) :
    Gives CodeTree (variablesRest g start keyword) :=
  .bind (declarators_code sound keyword) fun _ trees => .skip fun _ => .skip fun _ => .skip fun _ =>
    .finish rfl (.code trees)

/-! Loops. -/

theorem forRest_code {start : Nat} {init : List Node} (trees : ∀ node ∈ init, node.CodeTree) :
    Gives CodeTree (forRest g start init) := by
  unfold forRest
  refine .skip fun _ => .skip fun untested => ?_
  refine .optionalElse sound.expression.bracketed (fun _ tree => tree) fun test tests =>
    .skip fun _ => .skip fun closed => ?_
  refine .optionalElse sound.expression.bracketed (fun _ tree => tree) fun update updates =>
    .skip fun _ => .bind (bodyStatement_fits sound .forStatement rfl) fun body fits => ?_
  exact .finish rfl (.append (.append (.append (.code trees) (.code tests)) (.code updates)) (.one fits))

theorem forInRest_code {start : Nat} {left : Node} (tree : left.CodeTree) :
    Gives CodeTree (forInRest g start left) :=
  .skip fun _ => .bind sound.expression.bracketed fun _ right => .skip fun _ =>
    .bind (bodyStatement_fits sound .forInStatement rfl) fun _ body =>
      .finish rfl (.cons tree.fits (.cons right.fits (.one body)))

theorem forOfRest_code {start : Nat} {left : Node} (tree : left.CodeTree) :
    Gives CodeTree (forOfRest g start left) :=
  .skip fun _ => .bind sound.assignment.bracketed fun _ right => .skip fun _ =>
    .bind (bodyStatement_fits sound .forOfStatement rfl) fun _ body =>
      .finish rfl (.cons tree.fits (.cons right.fits (.one body)))

theorem forDecided_code {start : Nat} {waits complete : Bool} {first : Node} {target : Option Node}
    (tree : first.CodeTree) (targets : ∀ node ∈ target, node.CodeTree) :
    Gives CodeTree (forDecided g start waits first target complete) := by
  unfold forDecided
  refine .skip fun overValues => .ite ?_ (.skip fun overKeys => .ite (.skip fun _ => ?_) ?_)
  · split
    · exact forOfRest_code sound (targets _ rfl)
    · exact .failure
  · split
    · exact forInRest_code sound (targets _ rfl)
    · exact .failure
  · exact .skip fun _ => forRest_code sound (by simpa using tree)

theorem forStatement_code : Gives CodeTree (forStatement g) := by
  unfold forStatement
  refine .skip fun start => .skip fun _ => .skip fun waits => .skip fun context => .skip fun _ =>
    .skip fun _ => .skip fun empty => .ite (.skip fun _ => forRest_code sound (by simp)) ?_
  refine .skip fun firstStart => .skip fun declared => ?_
  split
  · refine .bind (.within (declarators_code sound _) _) fun items trees =>
      .bind (.finish rfl (.code trees)) fun left tree => forDecided_code sound tree ?_
    simpa using tree
  · refine .skip fun bare => .bind (.within sound.expression _) fun left tree => .skip fun _ =>
      .skip fun _ => forDecided_code sound tree fun target found => tree.target found

/-! Jumps and choices. -/

omit sound in
theorem breakStatement_code : Gives CodeTree breakStatement := by
  unfold breakStatement
  refine .skip fun start => .skip fun breaks => .skip fun _ => .skip fun _ => .skip fun _ => ?_
  split
  · exact .finish rfl .nil
  · exact .finish rfl .nil

theorem returnStatement_code : Gives CodeTree (returnStatement g) := by
  unfold returnStatement
  refine .skip fun start => .skip fun context => .skip fun _ => .skip fun _ => .skip fun ends => ?_
  refine .optionalElse sound.expression.bracketed (fun _ tree => tree.inRole .argument)
    fun argument trees => ?_
  exact .skip fun _ => .finish rfl (.code trees)

theorem throwStatement_code : Gives CodeTree (throwStatement g) :=
  .skip fun _ => .skip fun _ => .skip fun _ => .skip fun _ => .bind sound.expression.bracketed
    fun _ tree => .skip fun _ => .finish rfl (.one tree.fits)

theorem withStatement_code : Gives CodeTree (withStatement g) :=
  .skip fun _ => .skip fun _ => .bind (condition_code sound) fun _ tree =>
    .bind (bodyStatement_fits sound .withStatement rfl) fun _ body =>
      .finish rfl (.cons (tree.inRole .head).fits (.one body))

theorem switchCase_code : Gives CodeTree (switchCase g) := by
  unfold switchCase
  refine .skip fun start => .skip fun isDefault => ?_
  extract_lets rest
  have whole (test : List Node) (trees : ∀ node ∈ test, node.CodeTree) : Gives CodeTree (rest test) := by
    refine .skip fun _ => .bind (.many (P := ItemTree) ?_) fun items itemTrees =>
      .finish rfl (.append (.code trees) (.items itemTrees rfl))
    exact .skip fun closed => .skip fun another => .ite .none (sound.statement false).some
  refine .ite (.pureBind (whole _ (by simp))) (.skip fun _ => ?_)
  exact .bind sound.expression.bracketed fun test tree => .pureBind (whole _ (by simpa using tree))

theorem switchStatement_code : Gives CodeTree (switchStatement g) := by
  unfold switchStatement
  refine .skip fun start => .skip fun _ => .bind (condition_code sound) fun subject tree =>
    .skip fun _ => .bind (.many (P := CodeTree) ?_) fun cases trees =>
    .skip fun _ => .finish rfl (.cons (tree.inRole .head).fits (.code trees))
  exact .skip fun closed => .ite .none (switchCase_code sound).some

theorem catchClause_code : Gives CodeTree (catchClause g) := by
  unfold catchClause
  refine .skip fun start => .skip fun _ => .skip fun named => ?_
  extract_lets rest
  have whole (parameter : List Node) (trees : ∀ node ∈ parameter, node.CodeTree) :
      Gives CodeTree (rest parameter) :=
    .bind (block_code sound) fun body tree => .finish rfl (.append (.code trees) (.one tree.fits))
  refine .ite ?_ (.pureBind (whole _ (by simp)))
  refine .skip fun _ => .bind sound.pattern fun target tree =>
    .bind (typeAnnotation_types sound) fun type types =>
    .bind (.finish rfl (.cons (tree.inRole .target).fits (.types types rfl))) fun parameter made => ?_
  exact .skip fun _ => .pureBind (whole _ (by simpa using made))

theorem tryStatement_code : Gives CodeTree (tryStatement g) := by
  unfold tryStatement
  refine .skip fun start => .skip fun _ => .bind (block_code sound) fun body tree => .skip fun caught => ?_
  refine .optional (catchClause_code sound) (fun _ tree => tree) fun handler handlers =>
    .skip fun finished => ?_
  refine .optional (block_code sound) (fun _ tree => tree) fun finalizer finalizers => ?_
  exact .skip fun _ => .finish rfl (.append (.cons tree.fits (.code handlers)) (.code finalizers))

/-! Expressions as statements. -/

omit sound in
theorem expressionStatement_code {start : Nat} {expression : Node} (tree : expression.CodeTree) :
    Gives CodeTree (expressionStatement start expression) :=
  .skip fun _ => .finish rfl (.one tree.fits)

theorem expressionOrLabel_code : Gives CodeTree (expressionOrLabel g) := by
  unfold expressionOrLabel
  refine .skip fun start => .bind sound.expression.bracketed fun expression tree => .skip fun labels =>
    .ite ?_ (expressionStatement_code tree)
  exact .bind (bodyStatement_fits sound .labeledStatement rfl) fun body fits => .finish rfl (.one fits)

theorem letStatement_code (alone : Bool) : Gives CodeTree (letStatement g alone) := by
  unfold letStatement
  refine .skip fun start => .skip fun next => .ite (expressionOrLabel_code sound) (.ite ?_ ?_)
  · exact .bind identifier_code fun name tree => expressionStatement_code tree
  · exact .skip fun _ => .skip fun _ => variablesRest_code sound .letWord

theorem functionStatement_code (alone : Bool) : Gives CodeTree (functionStatement g alone) :=
  .skip fun _ => .skip fun _ => .skip fun _ => .skip fun _ => functionDeclaration_code sound

theorem classStatement_code (alone : Bool) : Gives CodeTree (classStatement g alone) := by
  unfold classStatement
  refine .skip fun start => .skip fun _ => .bind (classRest_code sound (by simp)) fun node tree => ?_
  split
  · exact .failure
  · exact .pure tree

end Parser

/-! Declarations. -/

namespace Node

theorem isCode_asTypeReference (node : Node) :
    node.asTypeReference.isCode = node.isCode ∧ node.asTypeReference.role = node.role := by
  unfold asTypeReference
  split <;> exact ⟨rfl, rfl⟩

/-- A name has nothing below it, so it can be anything else that is no type. -/
theorem codeTree_of_name {node other : Node} (formed : node.Everywhere Formed)
    (isName : node.identifier?.isSome = true) (code : other.kind.isTypeOnly = false)
    (children : other.children = node.children) : other.CodeTree :=
  codeTree_of_childless code (children.trans (formed.here.inPlace.leaf isName))

/-- A tree stays well formed if its first name is looked up among types. -/
theorem Everywhere.asTypeReference {node : Node} (formed : node.Everywhere Formed) :
    node.asTypeReference.Everywhere Formed := by
  fun_induction Node.asTypeReference node with
  | case1 name use span children role mark =>
    exact CodeTree.formed (codeTree_of_name formed rfl rfl rfl)
  | case2 property span object role mark named ih =>
    have fits : object.Fits (.staticMember property) := formed.parts (fun _ => rfl) object (by simp)
    obtain ⟨code, place⟩ := isCode_asTypeReference object
    have looked : object.asTypeReference.Fits (.staticMember property) :=
      ⟨by rw [code, place]; exact fits.aside, ih fits.formed⟩
    have qualified : named.Fits (.staticMember property) := by
      unfold named
      split
      · next is =>
        rw [is] at looked
        exact CodeTree.fits (codeTree_of_name looked.formed rfl rfl rfl)
      · exact looked
    exact formed_of_parts (.inl rfl) (.one qualified)
  | case3 span expression rest role mark ih =>
    obtain ⟨_, operand, arguments⟩ := formed.here
    have first : expression.asTypeReference.CodeTree :=
      ⟨(isCode_asTypeReference expression).1.trans (operand rfl expression rfl),
        ih (formed.inside expression (by simp))⟩
    refine (codeTree_instantiation rfl (List.forall_mem_cons.mpr ⟨first.item, ?_⟩)
      (by simpa using first.code)).formed
    intro node member
    exact ⟨arguments rfl node (by simp [member]), formed.inside node (by simp [member])⟩
  | case4 => exact formed

theorem CodeTree.asTypeReference {node : Node} (tree : node.CodeTree) :
    node.asTypeReference.CodeTree :=
  ⟨(isCode_asTypeReference node).1.trans tree.code, tree.formed.asTypeReference⟩

end Node

namespace Parser

variable {g : Grammar} (sound : g.Sound)

include sound

theorem typeAlias_type {start : Nat} : Gives TypeTree (typeAlias g start) := by
  unfold typeAlias
  refine .skip fun _ => .skip fun name => .bind (typeParameters_types sound) fun types trees =>
    .skip fun _ => .bind sound.type fun type tree => .skip fun _ => .finishType rfl rfl ?_
  intro child member
  rcases List.mem_append.mp member with parameter | here
  · exact .inl (trees child parameter)
  · cases List.mem_singleton.mp here
    exact .inl tree

theorem interface_item {start : Nat} : Gives ItemTree (interface g start) := by
  unfold interface
  refine .skip fun _ => .skip fun name => .bind (typeParameters_types sound) fun types trees =>
    .skip fun extended => ?_
  extract_lets rest
  have whole (parents : List Node) (heritage : ∀ node ∈ parents, node.CodeTree) :
      Gives ItemTree (rest parents) :=
    .bind (typeMembers_code sound) fun members memberTrees => .finishInterface
      (.append (.append (.types trees rfl) (.code heritage)) (.code memberTrees))
  refine .ite (.bind (.commaList (P := CodeTree) ?_) fun (items, _) heritage => .skip fun _ =>
    .pureBind (whole items heritage)) (.pureBind (whole [] (by simp)))
  refine .skip fun start => .bind (sound .leftHandSide) fun expression tree =>
    .bind typeArgumentsHere_types fun arguments types => ?_
  exact .finish rfl (.cons tree.asTypeReference.fits (.types types rfl))

theorem enumMember_code : Gives CodeTree (enumMember g) := by
  unfold enumMember
  refine .skip fun start => .skip fun name => .skip fun hasInit => ?_
  exact .optional sound.assignment (fun _ tree => tree.inRole .init) fun init trees =>
    .finish rfl (.code trees)

theorem enumDeclaration_code {start : Nat} : Gives CodeTree (enumDeclaration g start) :=
  .skip fun _ => .skip fun _ => .skip fun _ => .skip fun _ => .skip fun _ =>
    .bind (.bracketed (.commaList (enumMember_code sound))) fun (_, _) trees => .skip fun _ =>
      .bind (.finish rfl (.code trees)) fun _ body => .finish rfl (.one body.fits)

theorem namespaceItems_items : Gives (∀ node ∈ ·, node.ItemTree) (namespaceItems g) :=
  .skip fun _ => .bind (.within (statements_items sound) _) fun _ trees => .skip fun _ => .pure trees

theorem namespaceDeclaration_code {start : Nat} : Gives CodeTree (namespaceDeclaration g start) := by
  unfold namespaceDeclaration
  refine .skip fun _ => .skip fun lexeme => ?_
  split
  · refine .skip fun _ => .skip fun opened => .ite ?_ (.skip fun _ => .finish rfl .nil)
    exact .bind (namespaceItems_items sound) fun items trees => .finish rfl (.items trees rfl)
  · refine .skip fun first => .skip fun inner => .bind (namespaceItems_items sound) fun items trees => ?_
    refine .bind (.foldrM (I := fun items => ∀ node ∈ items, node.ItemTree) trees ?_) fun items trees =>
      .finish rfl (.items trees rfl)
    refine fun (start, name) items trees => .bind (.finish rfl (.items trees rfl)) fun node tree => ?_
    exact .pure (by simpa using tree.item)

theorem globalDeclaration_code {start : Nat} : Gives CodeTree (globalDeclaration g start) :=
  .skip fun _ => .bind (namespaceItems_items sound) fun _ trees => .finish rfl (.items trees rfl)

omit sound in
theorem importAliasRest_code {start : Nat} {name : String} {typeOnly : Bool} :
    Gives CodeTree (importAliasRest start name typeOnly) := by
  unfold importAliasRest
  refine .skip fun _ => .skip fun requires => .ite ?_ ?_
  · exact .skip fun _ => .skip fun _ => .skip fun _ => .skip fun _ => .skip fun _ => .finish rfl .nil
  · refine .bind dottedReference_name fun reference ⟨tree, isName⟩ => .skip fun _ => .finish rfl (.one ?_)
    refine CodeTree.fits (codeTree_of_name tree.formed isName ?_ rfl)
    dsimp only
    split
    · rfl
    · simpa [isCode] using tree.code

theorem classDeclaration_code {start : Nat} {decorators : List Node}
    (marks : ∀ node ∈ decorators, node.CodeTree) :
    Gives CodeTree (classDeclaration g start decorators) := by
  unfold classDeclaration
  exact .skip fun isTyped => .either fun words => .within (classRest_code sound marks) _

theorem typedDeclaration_item : Gives ItemTree (typedDeclaration g) := by
  unfold typedDeclaration
  refine .skip fun start => .skip fun words => .skip fun _ => .skip fun atClass => .skip fun _ =>
    .within (.skip fun lexeme => ?_) _
  split
  · exact (typeAlias_type sound).imp fun _ tree => tree.toItem
  · exact interface_item sound
  · exact (enumDeclaration_code sound).item
  · exact (namespaceDeclaration_code sound).item
  · exact (namespaceDeclaration_code sound).item
  · exact (globalDeclaration_code sound).item
  · exact (classRest_code sound (by simp)).item
  · exact (functionDeclaration_code sound).item
  · exact .skip fun _ => (functionDeclaration_code sound).item
  · refine .skip fun enumerates => .ite (enumDeclaration_code sound).item ?_
    exact .skip fun _ => (variablesRest_code sound .constWord).item
  · exact .skip fun _ => (variablesRest_code sound .varWord).item
  · exact .skip fun _ => (variablesRest_code sound .letWord).item
  · exact .skip fun _ => .skip fun name => importAliasRest_code.item
  · exact .failure

/-! Imports, exports and modules. -/

omit sound in
theorem importedEntry_code (typeOnly : Bool) : Gives CodeTree (importedEntry typeOnly) :=
  .skip fun _ => .skip fun _ => .skip fun _ => .finish rfl .nil

omit sound in
theorem importEntries_code (typeOnly : Bool) :
    Gives (∀ node ∈ ·, node.CodeTree) (importEntries typeOnly) := by
  unfold importEntries
  refine .skip fun starred => .ite ?_ ?_
  · refine .bind (.skip fun _ => .skip fun _ => .skip fun _ => .skip fun _ => .finish rfl .nil)
      fun node tree => .pure (by simpa using tree)
  · exact .skip fun _ => .bind (.commaList (importedEntry_code typeOnly)) fun (items, _) trees =>
      .skip fun _ => .pure trees

omit sound in
theorem importDeclaration_code {start : Nat} : Gives CodeTree (importDeclaration g start) := by
  unfold importDeclaration
  refine .skip fun _ => .skip fun lexeme => ?_
  split
  · exact .skip fun _ => .skip fun _ => .skip fun _ => .finish rfl .nil
  · refine .skip fun typeOnly => ?_
    extract_lets rest
    have whole : Gives CodeTree (rest ()) := by
      refine .skip fun defaultStart => .skip fun named => .ite (.skip fun name => .skip fun isTyped =>
        .skip fun assigned => .ite importAliasRest_code ?_) ?_
      · refine .bind (.finish rfl .nil) fun default tree => .skip fun more =>
          .both (importEntries_code typeOnly) (.pure (by simp)) fun entries trees => ?_
        exact .skip fun _ => .skip fun _ => .finish rfl (.cons tree.fits (.code trees))
      · exact .bind (importEntries_code typeOnly) fun entries trees =>
          .skip fun _ => .skip fun _ => .finish rfl (.code trees)
    exact .ite (.skip fun _ => whole) (.skip fun deferred => .ite (.skip fun _ => whole)
      (.skip fun fromSource => .when whole))

theorem importStatement_code : Gives CodeTree (importStatement g) :=
  .skip fun _ => .skip fun _ => .ite (expressionOrLabel_code sound) importDeclaration_code

omit sound in
theorem exportedEntry_code (typeOnly : Bool) : Gives (·.2.CodeTree) (exportedEntry typeOnly) := by
  unfold exportedEntry
  refine .skip fun start => .skip fun entry => ?_
  extract_lets use reference exported
  have tree : reference.CodeTree := codeTree_of_childless rfl rfl
  exact .bind (.finish rfl (.one tree.fits)) fun node whole => .pure whole

omit sound in
theorem exportEntries_code {start : Nat} {typeOnly : Bool} :
    Gives CodeTree (exportEntries g start typeOnly) := by
  unfold exportEntries
  refine .skip fun _ => .bind (.commaList (exportedEntry_code typeOnly)) fun (items, _) trees =>
    .skip fun _ => .skip fun hasSource => ?_
  extract_lets rest
  have whole (specifiers : List Node) (trees : ∀ node ∈ specifiers, node.CodeTree) :
      Gives CodeTree (rest specifiers) := .skip fun _ => .finish rfl (.code trees)
  refine .ite (.skip fun _ => .pureBind (whole _ ?_)) (.skip fun _ => .pureBind (whole _ ?_))
  · refine List.forall_mem_map.mpr fun item member => codeTree_of_childless ?_ rfl
    simpa [isCode] using (trees item member).code
  · exact List.forall_mem_map.mpr trees

omit sound in
theorem exportAll_code {start : Nat} : Gives CodeTree (exportAll g start) := by
  unfold exportAll
  exact .skip fun _ => .skip fun _ => .either fun name => .skip fun _ => .skip fun _ => .finish rfl .nil

theorem exportDefault_code {start : Nat} {pending : List Node} (marks : ∀ node ∈ pending, node.CodeTree) :
    Gives CodeTree (exportDefault g start pending) := by
  unfold exportDefault
  refine .skip fun _ => .skip fun valueStart => .skip fun isFunction => .skip fun isAsync =>
    .skip fun isClass => .skip fun isDecorated => .skip fun isTyped => .skip fun isAbstract =>
    .skip fun isTyped => .skip fun isInterface => ?_
  extract_lets rest
  have whole (value : Node) (tree : value.ItemTree) : Gives CodeTree (rest value) :=
    .finishDefault tree.formed
  refine .ite ?_ (.ite (.skip fun _ => ?_) (.ite ?_ (.ite (.bind (interface_item sound) whole) ?_)))
  · exact .bind (functionDeclaration_code sound).item whole
  · exact .bind (functionDeclaration_code sound).item whole
  · refine .bind (decorators_code sound) fun decorators more => .bind (Gives.item ?_) whole
    exact classDeclaration_code sound (List.forall_mem_append.mpr ⟨marks, more⟩)
  · refine .bind sound.assignment.bracketed fun value tree => .skip fun _ => .pureBind (whole _ ?_)
    split
    · next name use is =>
      have isName : value.identifier?.isSome = true := by rw [identifier?, is]; rfl
      exact CodeTree.item (codeTree_of_name tree.formed isName rfl rfl)
    · exact tree.item

theorem exportedDeclaration_item {pending : List Node} (marks : ∀ node ∈ pending, node.CodeTree) :
    Gives ItemTree (exportedDeclaration g pending) := by
  unfold exportedDeclaration
  refine .skip fun start => .skip fun isClass => .skip fun isDecorated => .ite ?_
    (.skip fun isFunction => .ite (functionDeclaration_code sound).item
    (.skip fun isAsync => .ite (.skip fun _ => (functionDeclaration_code sound).item)
    (.skip fun isTyped => .ite
      (.ite (typedDeclaration_item sound) (classDeclaration_code sound marks).item)
      (.skip fun declared => ?_))))
  · refine .bind (decorators_code sound) fun decorators more => Gives.item ?_
    exact classDeclaration_code sound (List.forall_mem_append.mpr ⟨marks, more⟩)
  · split
    · exact (variablesRest_code sound _).item
    · exact .failure

theorem exportStatement_code {pending : List Node} (marks : ∀ node ∈ pending, node.CodeTree) :
    Gives CodeTree (exportStatement g pending) := by
  unfold exportStatement
  refine .skip fun start => .skip fun _ => .skip fun isTyped => .skip fun lexeme => ?_
  split
  · exact exportAll_code
  · exact exportEntries_code
  · exact exportDefault_code sound marks
  · exact .skip fun _ => .skip fun _ => .bind sound.expression.bracketed fun value tree =>
      .skip fun _ => .finish rfl (.one tree.fits)
  · refine .skip fun isNamespace => .ite ?_ (.skip fun isTypeList => .ite (.skip fun _ => exportEntries_code)
      (.skip fun isTypeStar => .ite (.skip fun _ => exportAll_code) ?_))
    · exact .skip fun _ => .skip fun _ => .skip fun _ => .skip fun _ => .finish rfl .nil
    · exact .bind (exportedDeclaration_item sound marks) fun declaration tree =>
        .finish rfl (.one (tree.fits rfl))

theorem decoratedStatement_code : Gives CodeTree (decoratedStatement g) := by
  unfold decoratedStatement
  exact .skip fun start => .bind (decorators_code sound) fun decorators marks => .skip fun exported =>
    .ite (exportStatement_code sound marks) (classDeclaration_code sound marks)

theorem statement_item (alone : Bool) : Gives ItemTree (statement g alone) := by
  unfold statement
  refine .skip fun start => .skip fun lexeme => ?_
  have uses : Gives ItemTree (do
      if ← atUsing then
        let _ ← eatWord "await"
        advance
        faultIf alone
        variablesRest g start .usingWord
      else expressionOrLabel g) := by
    refine .skip fun declares => .ite ?_ (expressionOrLabel_code sound).item
    exact .skip fun _ => .skip fun _ => .skip fun _ => (variablesRest_code sound .usingWord).item
  split
  · exact (block_code sound).item
  · exact (Gives.leaf rfl).item
  · exact (decoratedStatement_code sound).item
  · exact (ifStatement_code sound).item
  · exact (whileStatement_code sound).item
  · exact (doWhileStatement_code sound).item
  · exact (forStatement_code sound).item
  · exact breakStatement_code.item
  · exact breakStatement_code.item
  · exact (returnStatement_code sound).item
  · exact (throwStatement_code sound).item
  · exact (withStatement_code sound).item
  · exact (switchStatement_code sound).item
  · exact (tryStatement_code sound).item
  · exact .skip fun _ => .skip fun _ => (Gives.finish rfl .nil).item
  · exact (importStatement_code sound).item
  · exact (exportStatement_code sound (by simp)).item
  · exact (functionStatement_code sound alone).item
  · exact (classStatement_code sound alone).item
  · exact .skip fun _ => (variablesRest_code sound .varWord).item
  · exact (letStatement_code sound alone).item
  · refine .skip fun isTyped => .skip fun enumerates => .ite (typedDeclaration_item sound) ?_
    exact .skip fun _ => .skip fun _ => (variablesRest_code sound .constWord).item
  · exact uses
  · exact uses
  · exact .skip fun isFunction => .ite (functionStatement_code sound alone).item
      (expressionOrLabel_code sound).item
  · exact .skip fun declares => .ite (typedDeclaration_item sound) (expressionOrLabel_code sound).item

end Parser

theorem Goal.rule_result {g : Grammar} (sound : g.Sound) (goal : Goal) :
    Parser.Gives goal.Result (goal.rule g) := by
  cases goal with
  | type => exact Parser.type_type
  | assignment resultType => exact Parser.assignmentOrArrow_code sound resultType
  | expression => exact Parser.expression_code sound
  | binary above => exact Parser.binary_code sound above
  | unary => exact Parser.unary_code sound
  | leftHandSide => exact Parser.leftHandSide_code sound
  | primary => exact Parser.primary_code sound
  | pattern => exact Parser.pattern_code sound
  | statement alone => exact Parser.statement_item sound alone
  | element nested => exact Parser.element_code sound nested

/-- The grammar gives well-formed trees at every depth of nesting. -/
theorem grammar_sound (depth : Nat) : (grammar depth).Sound := by
  induction depth with
  | zero => exact fun _ => .failure
  | succ depth ih => exact Goal.rule_result ih

theorem program?_formed {dialect : Dialect} {text : List Char} {program : Node}
    (parsed : program? dialect text = some program) : program.Everywhere Node.Formed := by
  unfold program? at parsed
  simp only [Option.bind_eq_bind, Option.bind_eq_some_iff] at parsed
  obtain ⟨_, _, ⟨items, final⟩, read, built⟩ := parsed
  have trees := Parser.statements_items (grammar_sound _) _ _ _ _ read
  split at built
  · cases built
    refine (Node.codeTree_of_parts rfl (.items ?_ rfl)).formed
    intro item member
    obtain ⟨node, listed, rfl⟩ := List.mem_map.mp member
    exact ⟨fun _ => rfl, (Parser.markDirectives_items trees node listed).formed.inRole .item⟩
  · cases built

/-- In every program that is read, types stand where they may. -/
theorem parse?_typesInPlace {fileName source : String} {program : Node}
    (parsed : parse? fileName source = some program) : program.Everywhere Node.TypesInPlace := by
  unfold parse? at parsed
  simp only [Option.bind_eq_bind, Option.bind_eq_some_iff] at parsed
  obtain ⟨first, read, again⟩ := parsed
  split at again
  · exact (program?_formed again).imp fun _ formed => formed.inPlace
  · cases again
    exact (program?_formed read).imp fun _ formed => formed.inPlace

end ClientBoundary.Syntax
