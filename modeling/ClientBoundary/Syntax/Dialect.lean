import ClientBoundary.Text.PathName

/-! The language of a source file, read off its name. -/
namespace ClientBoundary.Syntax

/-- How a file is loaded. An undecided file is a module as soon as it imports or exports. -/
inductive Loading where
  | module
  | commonModule
  | undecided
  deriving DecidableEq, Repr

structure Dialect where
  typed : Bool
  jsx : Bool
  /-- A file of declarations only. -/
  ambient : Bool := false
  loading : Loading
  deriving DecidableEq, Repr

namespace Dialect

/-- Files without a known extension are modules with elements. -/
def fallback : Dialect := { typed := false, jsx := true, loading := .module }

def ofExtension? : String → Option Dialect
  | "js" | "jsx" => some { typed := false, jsx := true, loading := .undecided }
  | "mjs" => some { typed := false, jsx := true, loading := .module }
  | "cjs" => some { typed := false, jsx := true, loading := .commonModule }
  | "tsx" => some { typed := true, jsx := true, loading := .undecided }
  | "ts" => some { typed := true, jsx := false, loading := .undecided }
  | "mts" => some { typed := true, jsx := false, loading := .module }
  | "cts" => some { typed := true, jsx := false, loading := .commonModule }
  | _ => none

/-- Whether a file name has `d` between two dots, as in `name.d.ts`. -/
def namesDeclarations (name : String) : Bool :=
  let pieces := PathName.pieces '.' name.toList
  2 < pieces.length && (pieces.dropLast.drop 1).contains ['d']

def ofFileName (path : String) : Dialect :=
  match PathName.fileName? path, (PathName.extension? path).bind ofExtension? with
  | some name, some dialect =>
    { dialect with ambient := dialect.typed && !dialect.jsx && namesDeclarations name }
  | _, _ => fallback

end Dialect

end ClientBoundary.Syntax
