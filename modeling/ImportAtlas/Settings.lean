import ImportAtlas.Number

/-!
# Settings of a run
-/

namespace ImportAtlas

/-- What a run of the analyses can be told. -/
structure Settings where
  /-- The project root, which holds the manifest and the configuration files. -/
  projectPath : Text := "."
  /-- Centre of the ring on which circular components are drawn. -/
  center : Number × Number := (400, 300)
  radius : Number := 250
  /-- Distance between clusters. -/
  clusterSpacing : Number := 400
  /-- Whether development dependencies count as declared. -/
  includeDev : Bool := false
  /-- Directories whose files are no configuration files. -/
  ignoredDirectories : List Text := ["node_modules", ".git", ".next", "dist", "build"]
  deriving Inhabited

end ImportAtlas
