/-!
# Conventions

What a project agrees on for its staging models: how they are materialized, which tags they carry
and which directory holds one directory per source system.
-/

namespace StagingAudit

/-- The conventions of a project. -/
structure Conventions where
  /-- the materialization every model declares -/
  materialization : String := "view"
  /-- the tag every model carries -/
  requiredTag : String := "staging"
  /-- the value of the third tag -/
  thirdTag : String := "formentera"
  /-- the directory whose children name the source systems -/
  anchorDir : String := "staging"
  /-- first tags of source directories, where they differ from the directory's name -/
  sourceTags : List (String × String) := []
  deriving DecidableEq, Repr

/-- The first tag that models of a source directory carry: the listed one, or the name itself. -/
def Conventions.sourceTag (c : Conventions) (source : String) : String :=
  (c.sourceTags.lookup source).getD source

end StagingAudit
