/-!
# Sets of characters as ranges

A set of code points is the ascending list of its maximal ranges, both ends included, so
membership stops at the first range that starts beyond the code point.
-/
namespace SchemaTypes.Text

abbrev Ranges := List (Nat × Nat)

namespace Ranges

def contains : Ranges → Nat → Bool
  | [], _ => false
  | (first, last) :: rest, code =>
    if code < first then false
    else if code ≤ last then true
    else contains rest code

theorem contains_nil (code : Nat) : contains [] code = false := rfl

end Ranges
end SchemaTypes.Text
