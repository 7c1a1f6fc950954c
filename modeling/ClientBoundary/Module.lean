import ClientBoundary.Scope.Analysis
import ClientBoundary.Syntax.Module
import ClientBoundary.Syntax.Tour

/-! A module as rules see it: its text, its syntax tree with scopes, and its references. -/
namespace ClientBoundary

structure Module where
  fileName : String
  source : String
  tree : Syntax.Node
  scopes : Scope.Table
  references : List Scope.Reference

namespace Module

/-- A module with the given program, before its scopes are known. -/
def ofProgram (fileName source : String) (program : Syntax.Node) : Module :=
  let (tree, scopes) := Scope.analyze program
  { fileName, source, tree, scopes, references := Scope.references 0 tree [] }

/-- Reads a module; nothing if its text does not parse. -/
def read? (fileName source : String) : Option Module :=
  (Syntax.parse? fileName source).map (ofProgram fileName source)

/-- Names that are referred to in a scope, or inside of it, and declared nowhere in the module. -/
def freeNames (module : Module) (scope : Nat) : List String :=
  Scope.freeNames module.scopes module.references scope

/-- The text of the source under a span; it is empty where it cannot be cut out. -/
def textAt (module : Module) (span : Span) : String :=
  String.ofList ((Text.slice? span.start span.stop module.source.toList).getD [])

def visits (module : Module) : List Syntax.Visit := Syntax.visits module.tree

end Module

end ClientBoundary
