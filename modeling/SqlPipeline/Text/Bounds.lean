/-!
# Character classes by their bounds

A class of characters is a union of intervals of code points. It is written as the ascending list
of the code points where it begins and ends in turn, so a code point belongs to the class exactly
when an odd number of bounds lies at or below it.
-/

namespace SqlPipeline.Text

/-- Whether a code point lies in the class with the given ascending bounds. -/
def inBounds (bounds : List Nat) (codePoint : Nat) : Bool :=
  (bounds.takeWhile (· ≤ codePoint)).length % 2 == 1

end SqlPipeline.Text
