import ImportAtlas.Main
import ImportAtlas.Proofs.ImportCycles
import ImportAtlas.Proofs.ImportResolution
import ImportAtlas.Proofs.ZombieClusters
import ImportAtlas.Service.Usual
import ImportAtlas.Proofs.Catalog.Holders
import ImportAtlas.Proofs.DependencyGraph
import ImportAtlas.Proofs.Digraph.Alike
import ImportAtlas.Proofs.Digraph.Order
import ImportAtlas.Proofs.CallGraph.Functions
import ImportAtlas.Proofs.RecordOrder
import ImportAtlas.Proofs.CycleReport
import ImportAtlas.Proofs.ZombieDiagram
import ImportAtlas.Proofs.PackageImports
import ImportAtlas.Proofs.ClusterContents
import ImportAtlas.Proofs.DiagramIds
import ImportAtlas.Proofs.Totality
import ImportAtlas.Proofs.CallGraph.Calls
import ImportAtlas.Proofs.ClusterEntries
import ImportAtlas.Proofs.CycleGroups
import ImportAtlas.Proofs.Catalog.Views
import ImportAtlas.Proofs.ComponentIdentity
import ImportAtlas.Proofs.PackageReport
import ImportAtlas.Proofs.References
import ImportAtlas.Proofs.BraceExpansion
import ImportAtlas.Proofs.PathAliases
import ImportAtlas.Proofs.ProjectFiles
import ImportAtlas.Proofs.ClusterListing
import ImportAtlas.Proofs.FrontEnds
import ImportAtlas.Proofs.ReachLoop
import ImportAtlas.Proofs.DiagramPlaces
