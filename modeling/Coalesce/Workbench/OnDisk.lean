import Coalesce.ManifestProject
import Coalesce.Workbench.Basic

/-!
# A workbench on disk

A workbench whose sources are the files of a watched project. Nothing is ever written to them.
-/

namespace Coalesce.Site

/-- A workbench with a project on the file system. -/
abbrev World : Type := Workbench Site

/-- The project of a workbench on disk. -/
def benchProject : Project World := Workbench.project project

/-- The backend of a workbench on disk. -/
def backend : Backend World SourceText Program :=
  Workbench.backend text? Workbench.annotatedOutput

end Coalesce.Site
