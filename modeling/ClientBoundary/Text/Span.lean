/-! A stretch of source text, in bytes: `start` belongs to it and `stop` does not. -/
namespace ClientBoundary

structure Span where
  start : Nat
  stop : Nat
  deriving DecidableEq, Repr, Inhabited

end ClientBoundary
