import ClientBoundary.Syntax.Node

/-! What can be assigned to. An assignment is read with an expression on its left, which then has to
make sense as a target. -/
namespace ClientBoundary.Syntax.Node

/-- Names and member accesses, also inside of parentheses and type wrappers. -/
def isReference : Node → Bool
  | ⟨.identifier _ _, _, _, _, _⟩ => true
  | ⟨.staticMember _, _, _, _, _⟩ => true
  | ⟨.computedMember, _, _, _, _⟩ => true
  | ⟨.privateMember, _, _, _, _⟩ => true
  | ⟨.parenthesized, _, [inner], _, _⟩ => inner.isReference
  | ⟨.asType, _, inner :: _, _, _⟩ => inner.isReference
  | ⟨.satisfiesType, _, inner :: _, _, _⟩ => inner.isReference
  | ⟨.nonNull, _, [inner], _, _⟩ => inner.isReference
  | ⟨.typeAssertion, _, [_, inner], _, _⟩ => inner.isReference
  | _ => false

/-- A single place to assign to. Parentheses around it are dropped. -/
def simpleTarget? : Node → Option Node
  | ⟨.parenthesized, _, [inner], _, _⟩ => inner.simpleTarget?
  | node => if node.isReference then some node else none

mutual

def target? : Node → Option Node
  | ⟨.array trailingComma, span, items, role, mark⟩ =>
    (elementTargets? trailingComma items).map (⟨.arrayTarget, span, ·, role, mark⟩)
  | ⟨.object trailingComma, span, items, role, mark⟩ =>
    (propertyTargets? trailingComma items).map (⟨.objectTarget, span, ·, role, mark⟩)
  | node => node.simpleTarget?

/-- A target that may state a value to take where there is none. -/
def elementTarget? : Node → Option Node
  | ⟨.assignment true, span, [left, right], role, mark⟩ =>
    some ⟨.targetDefault, span, [left, right], role, mark⟩
  | ⟨.array trailingComma, span, items, role, mark⟩ =>
    (elementTargets? trailingComma items).map (⟨.arrayTarget, span, ·, role, mark⟩)
  | ⟨.object trailingComma, span, items, role, mark⟩ =>
    (propertyTargets? trailingComma items).map (⟨.objectTarget, span, ·, role, mark⟩)
  | node => node.simpleTarget?

/-- The elements of an array; the rest comes last, without a comma. -/
def elementTargets? (trailingComma : Bool) : List Node → Option (List Node)
  | [] => some []
  | [⟨.spread, span, [item], role, mark⟩] =>
    if trailingComma then none
    else item.target?.map fun target => [⟨.targetRest, span, [target], role, mark⟩]
  | node :: rest => do return (← node.elementTarget?) :: (← elementTargets? trailingComma rest)

/-- The properties of an object; the rest is a single place. -/
def propertyTargets? (trailingComma : Bool) : List Node → Option (List Node)
  | [] => some []
  | [⟨.spread, span, [item], role, mark⟩] =>
    if trailingComma then none
    else item.simpleTarget?.map fun target => [⟨.targetRest, span, [target], role, mark⟩]
  | ⟨.property false, span, [key, value], role, mark⟩ :: rest => do
    let target ← value.elementTarget?
    return ⟨.targetProperty, span, [key, target], role, mark⟩ :: (← propertyTargets? trailingComma rest)
  | ⟨.shorthandDefault, span, [key, name, value], role, mark⟩ :: rest => do
    let withDefault : Node := ⟨.targetDefault, span, [name, value], .value, .plain⟩
    return ⟨.targetProperty, span, [key, withDefault], role, mark⟩ ::
      (← propertyTargets? trailingComma rest)
  | _ => none

end

end ClientBoundary.Syntax.Node
