import ClientBoundary.Proofs.ParserResults

/-! The trees of patterns, signatures, types, functions and classes, as the grammar gives them. Each
rule of the grammar puts well-formed parts together to a well-formed tree. -/
namespace ClientBoundary.Syntax

open Node

namespace Parser

/-! Patterns. -/

theorem bindingName_code : Gives CodeTree bindingName :=
  .skip fun _ => .skip fun _ => .finish rfl .nil

theorem patternRest_code {target : Parser Node} (given : Gives CodeTree target) :
    Gives CodeTree (patternRest target) :=
  .skip fun _ => .skip fun _ => given.bind fun _ tree =>
    .bind (.finish rfl (.one tree.fits)) fun _ rest => .skip fun _ => .skip fun _ => .pure rest

variable {g : Grammar} (sound : g.Sound)

include sound

theorem propertyKey_code : Gives CodeTree (propertyKey g) := by
  unfold propertyKey
  refine .skip fun lexeme => ?_
  split
  · refine .skip fun _ => .bind sound.assignment.bracketed fun key tree => ?_
    exact .skip fun _ => .pure (tree.inRole .key)
  · exact .bind (.leaf rfl) fun key tree => .pure (tree.inRole .key)
  · exact .bind (.leaf rfl) fun key tree => .pure (tree.inRole .key)
  · exact .bind (.leaf rfl) fun key tree => .pure (tree.inRole .key)
  · exact .failure

theorem patternWithDefault_code : Gives CodeTree (patternWithDefault g) := by
  unfold patternWithDefault
  refine .skip fun start => .bind sound.pattern fun target tree => .skip fun hasDefault => ?_
  split
  · refine .bind sound.assignment.bracketed fun value valueTree => ?_
    exact .finish rfl (.cons tree.fits (.one valueTree.fits))
  · exact .pure tree

theorem arrayPattern_code : Gives CodeTree (arrayPattern g) := by
  unfold arrayPattern
  refine .skip fun start => .skip fun _ => .bind (.commaList ?_) fun (items, _) trees =>
    .skip fun _ => .finish rfl (.found trees)
  refine .skip fun hole => ?_
  split
  · exact .none
  · refine .skip fun takesRest => ?_
    split
    · exact (patternRest_code sound.pattern).some
    · exact (patternWithDefault_code sound).some

theorem patternProperty_code : Gives CodeTree (patternProperty g) := by
  unfold patternProperty
  refine .skip fun start => .skip fun here => .skip fun isName =>
    .bind (propertyKey_code sound) fun key keyTree => .skip fun hasValue => ?_
  split
  · refine .bind (patternWithDefault_code sound) fun value tree => ?_
    exact .finish rfl (.cons keyTree.fits (.one (tree.inRole .value).fits))
  · split
    · next name _ _ =>
      have target : CodeTree { kind := .binding name, span := here.span, role := .value } :=
        codeTree_of_childless rfl rfl
      refine .skip fun hasDefault => ?_
      split
      · refine .bind sound.assignment.bracketed fun value tree =>
          .bind (.finish rfl (.cons target.fits (.one tree.fits))) fun withDefault whole => ?_
        exact .finish rfl (.cons keyTree.fits (.one (whole.inRole .value).fits))
      · exact .finish rfl (.cons keyTree.fits (.one target.fits))
    · exact .failure

theorem objectPattern_code : Gives CodeTree (objectPattern g) := by
  unfold objectPattern
  refine .skip fun start => .skip fun _ => .bind (.commaList ?_) fun (items, _) trees =>
    .skip fun _ => .finish rfl (.code trees)
  refine .skip fun takesRest => ?_
  split
  · exact patternRest_code bindingName_code
  · exact patternProperty_code sound

theorem pattern_code : Gives CodeTree (pattern g) := by
  unfold pattern
  refine .skip fun lexeme => ?_
  split
  · exact arrayPattern_code sound
  · exact objectPattern_code sound
  · exact bindingName_code

/-! Signatures and types. -/

theorem typeAnnotation_types : Gives (∀ node ∈ ·, node.TypeTree) ( typeAnnotation g) := by
  refine .skip fun isTyped => .skip fun annotated => ?_
  split
  · exact .bind sound.type fun type tree => .pure (by simpa using tree)
  · exact .pure (by simp)

theorem decorators_code : Gives (∀ node ∈ ·, node.CodeTree) (decorators g) := by
  refine .many (.skip fun start => .skip fun marked => ?_)
  split
  · refine .bind (.within (sound .leftHandSide) _) fun expression tree => ?_
    exact (Gives.finish rfl (.one tree.fits)).some
  · exact .none

theorem parameter_code : Gives CodeTree (parameter g) := by
  unfold parameter
  refine .skip fun start => .bind (decorators_code sound) fun decorators marks =>
    .skip fun isTyped => .either fun _ => .skip fun takesRest => ?_
  split
  · refine .bind sound.pattern fun target tree =>
      .bind (typeAnnotation_types sound) fun type types =>
      .bind (.finish rfl (.append (.code marks) (.cons (tree.inRole .target).fits (.types types rfl))))
        fun rest whole => ?_
    exact .skip fun _ => .skip fun _ => .pure whole
  · refine .skip fun isThis => ?_
    split
    · exact .bind (typeAnnotation_types sound) fun type types => .finish rfl (.types types rfl)
    · refine .bind sound.pattern fun target tree =>
        .when (.bind (typeAnnotation_types sound) fun type types => .skip fun hasInit => ?_)
      refine .optional sound.assignment (fun _ value => value.inRole .init) fun init trees => ?_
      exact .finish rfl (.append (.append (.code marks)
        (.cons (tree.inRole .target).fits (.types types rfl))) (.code trees))

theorem parameters_code : Gives CodeTree (parameters g) :=
  .skip fun _ => .skip fun _ => .bind (.bracketed (.commaList (parameter_code sound)))
    fun (_, _) trees => .skip fun _ => .finish rfl (.code trees)

theorem typeParameter_type : Gives TypeTree (typeParameter g) := by
  unfold typeParameter
  refine .skip fun start => .skip fun _ => .skip fun name => .skip fun bounded => ?_
  refine .optional sound.type (fun _ tree => tree) fun bound bounds => .skip fun hasDefault => ?_
  refine .optional sound.type (fun _ tree => tree) fun default defaults => ?_
  refine .finishType rfl rfl fun child member => ?_
  exact .inl ((List.mem_append.mp member).elim (bounds child) (defaults child))

theorem typeParameters_types : Gives (∀ node ∈ ·, node.TypeTree) (typeParameters g) := by
  unfold typeParameters
  refine .skip fun isTyped => .skip fun opened => ?_
  split
  · refine .skip fun start => .skip fun _ => .bind (.commaList (typeParameter_type sound))
      fun (items, _) trees => .skip fun _ => .skip fun _ => ?_
    refine .bind (.finishType rfl rfl fun child member => .inl (trees child member)) fun node tree => ?_
    exact .pure (by simpa using tree)
  · exact .pure (by simp)

omit sound in
theorem finish_type {start : Nat} : Gives TypeTree (finish start .type) :=
  .finishType rfl rfl (by simp)

theorem resultType_type : Gives TypeTree (resultType g) := by
  unfold resultType
  refine .skip fun start => .skip fun asserts => ?_
  split
  · exact .skip fun _ => .skip fun _ => .skip fun _ => .when finish_type
  · refine .skip fun narrows => ?_
    split
    · exact .skip fun _ => .skip fun _ => .skip fun _ => finish_type
    · exact sound.type

theorem resultAnnotation_types : Gives (∀ node ∈ ·, node.TypeTree) ( resultAnnotation g) := by
  refine .skip fun isTyped => .skip fun annotated => ?_
  split
  · exact .bind (resultType_type sound) fun type tree => .pure (by simpa using tree)
  · exact .pure (by simp)

omit sound in
theorem typeArgumentsTo_type (close : Parser Unit) : Gives TypeTree (typeArgumentsTo close g) :=
  .skip fun _ => .skip fun _ => .skip fun _ => .skip fun (_, _) => .skip fun _ => .skip fun _ =>
    .finishType rfl rfl (by simp)

omit sound in
theorem typeArgumentsHere_types : Gives (∀ node ∈ ·, node.TypeTree) (typeArgumentsHere g) := by
  refine .skip fun opened => .skip fun broken => ?_
  split
  · exact .bind (typeArgumentsTo_type _) fun types tree => .pure (by simpa using tree)
  · exact .pure (by simp)

omit sound in
theorem templateRest_code {substitution : Parser Node} (given : Gives CodeTree substitution)
    (head : Lexeme) : Gives (∀ node ∈ ·.1, node.CodeTree) (templateRest substitution head) := by
  unfold templateRest
  refine .bind (.iterate (I := fun read => ∀ node ∈ read.1, node.CodeTree) (by simp) ?_)
    fun (items, _, wellFormed) trees => .skip fun last => ?_
  · intro (items, piece, good) trees
    dsimp only
    split
    · refine .skip fun _ => given.bind fun item tree => ?_
      exact .skip fun _ => .skip fun _ => .skip fun _ => .skip fun _ =>
        .pure (by simpa using ⟨tree, trees⟩)
    · exact .none
  · split
    · exact .skip fun _ => .pure (by simpa using trees)
    · exact .failure

theorem callSignature_code {start : Nat} {key : List Node} (keys : ∀ node ∈ key, node.CodeTree) :
    Gives CodeTree (callSignature g start key) := by
  refine .bind (typeParameters_types sound) fun types typeTrees =>
    .bind (parameters_code sound) fun parameters tree =>
    .bind (resultAnnotation_types sound) fun result results =>
    .bind (.finish rfl (.append (.append (.code keys) (.types typeTrees rfl))
      (.cons tree.fits (.types results rfl)))) fun signature whole => ?_
  exact .skip fun _ => .pure whole

omit sound in
theorem indexSignature_code {start : Nat} : Gives CodeTree (indexSignature g start) :=
  .skip fun _ => .skip fun _ => .skip fun _ => .skip fun _ => .skip fun _ =>
    .bind (.finish rfl .nil) fun _ whole => .skip fun _ => .pure whole

theorem typeMember_code : Gives CodeTree (typeMember g) := by
  unfold typeMember
  refine .skip fun start => .skip fun calls => ?_
  split
  · exact callSignature_code sound (by simp)
  · refine .skip fun constructs => ?_
    split
    · exact .skip fun _ => callSignature_code sound (by simp)
    · refine .skip fun _ => .skip fun indexed => ?_
      split
      · exact indexSignature_code
      · refine .skip fun isAccessor => ?_
        split
        · refine .skip fun _ => .bind (propertyKey_code sound) fun key tree => ?_
          exact callSignature_code sound (by simpa using tree)
        · refine .bind (propertyKey_code sound) fun key tree => .skip fun _ => .skip fun isMethod => ?_
          split
          · exact callSignature_code sound (by simpa using tree)
          · refine .bind (typeAnnotation_types sound) fun type types =>
              .bind (.finish rfl (.cons tree.fits (.types types rfl))) fun member whole => ?_
            exact .skip fun _ => .pure whole

theorem typeMembers_code : Gives (∀ node ∈ ·, node.CodeTree) (typeMembers g) := by
  refine .skip fun _ => .bind (.many (.skip fun closed => ?_)) fun members trees =>
    .skip fun _ => .pure trees
  split
  · exact .none
  · exact (typeMember_code sound).some

omit sound in
theorem type_type : Gives TypeTree (type g) := by
  unfold type
  refine .skip fun start => .skip fun constructs => ?_
  split
  · exact .skip fun _ => .skip fun _ => .skip fun _ => finish_type
  · exact .skip fun _ => .either fun _ => finish_type

omit sound in
theorem typeArgumentsInExpression?_types :
    Gives (∀ node ∈ ·, node.TypeTree) (typeArgumentsInExpression? g) := by
  unfold typeArgumentsInExpression?
  refine .skip fun isTyped => .skip fun opened => ?_
  split
  · refine .attempt (.bind (typeArgumentsTo_type _) fun types tree => ?_)
    exact .skip fun _ => .skip fun _ => .pure tree
  · exact .none

/-! Functions. -/

omit sound in
theorem markDirectives_items {items : List Node} (trees : ∀ node ∈ items, node.ItemTree) :
    ∀ node ∈ markDirectives items, node.ItemTree := by
  fun_induction markDirectives items with
  | case1 => exact trees
  | case2 node rest value _ _ _ _ _ _ ih =>
    intro other member
    rcases List.mem_cons.mp member with rfl | later
    · exact (codeTree_of_childless rfl rfl).item
    · exact ih (fun node listed => trees node (List.mem_cons_of_mem _ listed)) other later
  | case3 => exact trees

theorem statements_items : Gives (∀ node ∈ ·, node.ItemTree) (statements g) := by
  refine .many (.skip fun closed => .skip fun ended => ?_)
  split
  · exact .none
  · exact (sound.statement false).some

theorem functionBody_code (style : FunctionStyle) : Gives CodeTree (functionBody g style) := by
  refine .skip fun start => .skip fun _ => .bind (.within (statements_items sound) _) fun items trees =>
    .skip fun _ => .bind (.finish rfl (.items (markDirectives_items trees) rfl)) fun body tree => ?_
  exact .pure (tree.inRole .body)

theorem functionRest_code {start : Nat} {declares : Bool} {name : Option String}
    (style : FunctionStyle) (needsBody : Bool) :
    Gives CodeTree (functionRest g start (.function declares name) style needsBody) := by
  unfold functionRest
  refine .bind (typeParameters_types sound) fun types typeTrees =>
    .bind (.within (parameters_code sound) _) fun parameters tree =>
    .bind (resultAnnotation_types sound) fun result results => .skip fun isTyped => .skip fun opened => ?_
  have front : Parts (.function declares name) (types ++ parameters :: result) :=
    .append (.types typeTrees rfl) (.cons tree.fits (.types results rfl))
  split
  · exact .bind (functionBody_code sound style) fun body bodyTree =>
      .finish rfl (.append front (.one bodyTree.fits))
  · exact .skip fun _ => .finish rfl front

theorem methodRest_code (style : FunctionStyle) (needsBody : Bool) :
    Gives CodeTree (methodRest g style needsBody) :=
  .skip fun _ => .bind (functionRest_code sound style needsBody) fun _ tree =>
    .pure (tree.inRole .value)

theorem accessorRest_code (reads needsBody : Bool) :
    Gives CodeTree (accessorRest g reads needsBody) :=
  .bind (methodRest_code sound {} needsBody) fun _ tree => .skip fun _ => .pure tree

theorem functionExpression_code {start : Nat} {isAsync : Bool} :
    Gives CodeTree (functionExpression g start isAsync) :=
  .skip fun _ => .skip fun _ => .skip fun _ => .either fun _ => functionRest_code sound _ true

theorem functionDeclaration_code {start : Nat} {isAsync nameless : Bool} :
    Gives CodeTree (functionDeclaration g start isAsync nameless) := by
  unfold functionDeclaration
  refine .skip fun _ => .skip fun isGenerator => .skip fun named => .either fun name =>
    .bind (functionRest_code sound _ false) fun declaration tree => ?_
  exact .skip fun _ => .skip fun _ => .pure tree

/-! Classes. -/

omit sound in
theorem dottedReference_name :
    Gives (fun node => node.CodeTree ∧ node.identifier?.isSome = true) dottedReference :=
  .skip fun _ => .skip fun _ => .skip fun _ => .bind .finishName fun _ name =>
    .skip fun _ => .pure name

omit sound in
theorem implementsClause_types : Gives (∀ node ∈ ·, node.TypeTree) (implementsClause g) := by
  unfold implementsClause
  refine .skip fun isTyped => .skip fun implemented => ?_
  split
  · refine .bind (.commaList (.skip fun start => .bind dottedReference_name fun reference name =>
      .bind typeArgumentsHere_types fun arguments types => .finishType rfl rfl ?_))
      fun (items, trailing) trees => .skip fun _ => .pure trees
    exact List.forall_mem_cons.mpr ⟨.inr name, fun child member => .inl (types child member)⟩
  · exact .pure (by simp)

theorem extendsClause_items : Gives (∀ node ∈ ·, node.ItemTree) (extendsClause g) := by
  unfold extendsClause
  refine .skip fun extended => ?_
  split
  · refine .bind (sound .leftHandSide) fun base tree => .skip fun isTyped =>
      .both typeArgumentsHere_types (.pure (by simp)) fun arguments types =>
        .skip fun _ => .skip fun _ => ?_
    refine .pure (List.forall_mem_append.mpr ⟨?_, fun node member => (types node member).toItem⟩)
    split
    · next is children =>
      obtain ⟨operand, given⟩ := tree.operands is children
      simpa using ⟨(operand.inRole .superClass).item, given⟩
    · simpa using (tree.inRole .superClass).item
  · exact .pure (by simp)

theorem memberKey_code : Gives CodeTree (memberKey g) := by
  unfold memberKey
  refine .skip fun lexeme => ?_
  split
  · exact .skip fun _ => .bind (.leaf rfl) fun key tree => .pure (tree.inRole .key)
  · exact propertyKey_code sound

theorem staticBlock_code {start : Nat} : Gives CodeTree (staticBlock g start) :=
  .skip fun _ => .skip fun _ => .bind (.within (statements_items sound) _) fun _ trees =>
    .skip fun _ => .finish rfl (.items trees rfl)

theorem field_code {start : Nat} {kind : Kind} {front : List Node} (usual : kind.isUsual = true)
    (holds : kind.holdsTypeAs .item = true) (trees : ∀ node ∈ front, node.CodeTree) :
    Gives CodeTree (field g start kind front) := by
  unfold field
  refine .bind (typeAnnotation_types sound) fun type types => .skip fun hasValue => ?_
  refine .optional (sound.assignment.within _) (fun _ tree => tree.inRole .value) fun value values => ?_
  exact .skip fun _ => .finish usual (.append (.append (.code trees) (.types types holds)) (.code values))

theorem member_code : Gives CodeTree (member g) := by
  unfold member
  refine .skip fun start => .bind (decorators_code sound) fun decorators marks => .skip fun isStatic => ?_
  split
  · exact staticBlock_code sound
  · refine .skip fun isTyped => .skip fun modifiers => .skip fun _ => .skip fun indexed => ?_
    split
    · exact indexSignature_code
    · refine .skip fun accessor => ?_
      split
      · refine .skip fun _ => .bind (memberKey_code sound) fun key tree => .skip fun _ => .skip fun _ =>
          .skip fun _ => .bind (.within (accessorRest_code sound _ false) _) fun method methodTree => ?_
        exact .finish rfl (.append (.code marks) (.cons tree.fits (.one methodTree.fits)))
      · refine .skip fun isGenerator => .bind (memberKey_code sound) fun key tree => .skip fun _ =>
          .when (.skip fun called => ?_)
        split
        · refine .skip fun _ => .skip fun _ =>
            .bind (.within (methodRest_code sound _ false) _) fun method methodTree => ?_
          exact .finish rfl (.append (.code marks) (.cons tree.fits (.one methodTree.fits)))
        · refine .skip fun _ => .skip fun _ => ?_
          have front : ∀ node ∈ decorators ++ [key], node.CodeTree :=
            List.forall_mem_append.mpr ⟨marks, by simpa using tree⟩
          split
          · exact field_code sound rfl rfl front
          · exact field_code sound rfl rfl front

theorem classBody_code : Gives CodeTree (classBody g) := by
  refine .skip fun start => .skip fun _ => .bind (.many (.skip fun _ => .skip fun closed => ?_))
    fun members trees => .skip fun _ => .finish rfl (.code trees)
  split
  · exact .none
  · exact (member_code sound).some

theorem classRest_code {start : Nat} {declares : Bool} {decorators : List Node}
    (marks : ∀ node ∈ decorators, node.CodeTree) :
    Gives CodeTree (classRest g start declares decorators) := by
  unfold classRest
  refine .skip fun _ => .skip fun atClause => .skip fun named => .skip fun isTyped => .either fun name =>
    .bind (typeParameters_types sound) fun types typeTrees =>
    .bind (extendsClause_items sound) fun base parts =>
    .bind implementsClause_types fun interfaces clauses =>
    .bind (classBody_code sound) fun body tree => ?_
  have heads : ∀ node ∈ decorators.map (·.inRole .head), node.CodeTree :=
    List.forall_mem_map.mpr fun node member => (marks node member).inRole .head
  exact .finish rfl
    (.append (.append (.append (.append (.code heads) (.types typeTrees rfl)) (.items parts rfl))
      (.types clauses rfl)) (.one tree.fits))

end Parser

end ClientBoundary.Syntax
