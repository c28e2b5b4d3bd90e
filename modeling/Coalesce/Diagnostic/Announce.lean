import Coalesce.Diagnostic.Basic
import Coalesce.Journal
import Coalesce.Settings
import Coalesce.Text.Plural

/-!
# Announcing diagnostics

All diagnostics of a set go to the error log, in order. If there are any and the project wants no
output then, whatever their severity, the process is asked to end, and the pass fails in case the
process goes on.
-/

namespace Coalesce.Diagnostic

variable {U : Type}

/-- Announces a set of diagnostics, seen from a root directory. -/
def announce (root : FilePath) (options : BuildOptions) (diagnostics : List Diagnostic) :
    Journal U × Option Failure :=
  let lines : Journal U := diagnostics.map fun d => .error (d.render root)
  if diagnostics ≠ [] ∧ options.noEmitOnError then
    let count := diagnostics.length
    (lines ++
      [.trace ⟨"compile", "fail-fast on " ++ Text.counted count "diagnostic"⟩,
        .exit .outputsSkipped],
      some (.diagnosed count))
  else (lines, none)

end Coalesce.Diagnostic
