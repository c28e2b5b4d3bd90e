/-!
# Counts in running text

A count is written in front of its noun, and the noun takes an `s` unless there is exactly one.
Zero counts as many.
-/

namespace Coalesce.Text

/-- The ending of a noun that stands after the count `n`. -/
def pluralEnding (n : Nat) : String := if n = 1 then "" else "s"

/-- A count together with its noun: `1 file`, `5 files`. -/
def counted (n : Nat) (noun : String) : String := toString n ++ " " ++ noun ++ pluralEnding n

end Coalesce.Text
