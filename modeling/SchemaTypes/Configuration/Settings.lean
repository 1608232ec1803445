/-!
# Settings

What a user can choose for a run.  Both settings are on unless turned off.
-/
namespace SchemaTypes

structure Settings where
  /-- Optional properties accept null even if null is not a listed type. -/
  implicitNull : Bool := true
  /-- Checks collect every violation instead of stopping at the first. -/
  collectErrors : Bool := true
deriving DecidableEq, Repr

end SchemaTypes
