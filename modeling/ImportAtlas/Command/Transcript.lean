import ImportAtlas.Command.Console
import ImportAtlas.Report.Cycles
import ImportAtlas.Report.Zombies

/-!
# Listings

What the commands print about cycles and clusters, line by line, in the shades of a console. A name
that is no text cannot be put together with others, so printing can end early.
-/

namespace ImportAtlas.Command

/-- Lines printed before a fault, if there is one. -/
structure Transcript where
  lines : List Text
  fault : Option Fault := none

namespace Transcript

def append (left right : Transcript) : Transcript :=
  match left.fault with
  | some _ => left
  | none => ⟨left.lines ++ right.lines, right.fault⟩

/-- Print item by item until one fails. -/
def ofItems {α : Type} (print : α → Transcript) (items : List α) : Transcript :=
  items.foldl (fun transcript item => transcript.append (print item)) ⟨[], none⟩

end Transcript

/-- Put names together. Only texts can be. -/
def joinNames (separator : Text) (names : List Atom) : Except Fault Text := do
  let texts ← names.mapM fun name =>
    match name with
    | .text text => Except.ok text
    | _ => .error .notJoinable
  return Text.join separator texts

/-- A text moved to the right end of a field. -/
def alignRight (width : Nat) (text : Text) : Text :=
  List.replicate (width - text.length) (.char ' ') ++ text

def cycleLine (console : Console) (group : CycleGroup) : Transcript :=
  match joinNames " -> " (group.names ++ group.names.take 1) with
  | .error fault => ⟨[], some fault⟩
  | .ok chain =>
      let marker :=
        if group.isCritical then console.style .red "critical" else console.style .dim "ok"
      ⟨["  " ++ alignRight 12 group.id ++ "  [" ++ marker ++ "]  " ++ chain], none⟩

/-- What `cycles` prints. -/
def listCycles (console : Console) (report : CycleReport) : Transcript :=
  if report.groups.isEmpty then ⟨["No circular dependencies found."], none⟩
  else
    let header := "\nFound " ++ Text.ofNat report.stats.groups ++ " circular dependency chain(s):\n"
    let footer :=
      "\n" ++ Text.ofNat report.stats.components ++ " component(s) involved, longest chain " ++
        Text.ofNat report.stats.longest ++ ", " ++ Text.ofNat report.stats.critical ++ " critical"
    (Transcript.append ⟨[header], none⟩
      (Transcript.ofItems (cycleLine console) report.groups)).append ⟨[footer], none⟩

def riskShade : Risk → Shade
  | .high => .red
  | .medium => .yellow
  | .low => .green

/-- A component of a cluster with its functions, if the cluster has some of them. -/
def memberLine (console : Console) (cluster : ZombieCluster) (name : Atom) : Transcript :=
  match (cluster.functions.get? name).getD [] with
  | [] => ⟨["  " ++ name.display], none⟩
  | functions =>
      match joinNames ", " functions with
      | .error fault => ⟨[], some fault⟩
      | .ok joined =>
          ⟨["  " ++ name.display ++ console.style .dim ("  (" ++ joined ++ ")")], none⟩

def clusterLines (console : Console) (cluster : ZombieCluster) : Transcript :=
  let header :=
    console.style .cyan cluster.id ++ "  risk=" ++
      console.style (riskShade cluster.risk) cluster.risk.text ++ "  size=" ++
      Text.ofNat cluster.size
  let footer := "  " ++ console.style .dim cluster.risk.suggestion ++ "\n"
  (Transcript.append ⟨[header], none⟩
    (Transcript.ofItems (memberLine console cluster) cluster.components)).append ⟨[footer], none⟩

/-- What `zombies` prints. -/
def listZombies (console : Console) (report : ZombieReport) : Transcript :=
  if report.clusters.isEmpty then ⟨["No zombie clusters found."], none⟩
  else
    let header := "\nFound " ++ Text.ofNat report.stats.clusters ++ " zombie cluster(s):\n"
    let footer :=
      "Entry points: " ++ Text.ofNat report.stats.entryPoints ++ ", zombie components: " ++
        Text.ofNat report.stats.components
    (Transcript.append ⟨[header], none⟩
      (Transcript.ofItems (clusterLines console) report.clusters)).append ⟨[footer], none⟩

end ImportAtlas.Command
