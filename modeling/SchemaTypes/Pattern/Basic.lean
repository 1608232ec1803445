import SchemaTypes.Pattern.Reader
/-!
# Patterns

A pattern is an expression together with the text it was read from.  Two patterns are the same
if their texts are.
-/
namespace SchemaTypes

structure Pattern where
  source : String
  expr : Pattern.Expr Pattern.Class Pattern.Assertion

namespace Pattern

def ofSource (source : String) : Except Fault Pattern :=
  (readExpr source).map fun expr => ⟨source, expr⟩

/-- Whether some part of the text matches. -/
def isMatch (pattern : Pattern) (text : String) : Bool := pattern.expr.search text.toList

theorem source_ofSource {source : String} {pattern : Pattern} (h : ofSource source = .ok pattern) :
    pattern.source = source := by
  unfold ofSource at h
  cases hr : readExpr source with
  | error e => simp [hr, Except.map] at h
  | ok expr => simp [hr, Except.map] at h; rw [← h]

end Pattern
end SchemaTypes
