import Coalesce.Text.Quoted

/-!
# Artifacts

What a requester gets: the source unit of the file, the text that was captured at the output path,
and the text captured at the path of its source map. Either text may be missing. A declaration file
has no output of its own.
-/

namespace Coalesce

/-- The answer to a request for a file. -/
structure Artifact (U : Type) where
  isDeclaration : Bool
  output? : Option String
  map? : Option String
  unit : U
deriving DecidableEq, Repr

/-- A text that may be missing, for the eyes of a developer. -/
def optionalText : Option String → String
  | none => "None"
  | some text => "Some(" ++ Text.quoted text ++ ")"

/-- An artifact for the eyes of a developer. -/
def Artifact.summary {U : Type} (a : Artifact U) : String :=
  "CompiledFile \x7b is_declaration_file: " ++ toString a.isDeclaration ++
    ", output_text: " ++ optionalText a.output? ++
    ", source_map_text: " ++ optionalText a.map? ++ ", .. \x7d"

end Coalesce
