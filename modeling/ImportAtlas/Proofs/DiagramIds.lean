import ImportAtlas.Proofs.CallGraph.Functions
import ImportAtlas.Proofs.ZombieDiagram

/-!
# Identifiers in the diagram of zombie clusters

Clusters, components, placeholders and functions stand in one diagram, and their identifiers are
joined from numbers, paths and names. A path may hold anything, separators included. Where names
hold no separator and no path begins like the identifier of a cluster, an identifier still tells
what it stands for: names are behind its last `#`, numbers before its first `/`, and a path that
is written twice is told by its length. So no two nodes and no two edges share an identifier.
-/

namespace ImportAtlas

open Text

/-! ## Names -/

/-- A name without the separators of identifiers. -/
structure PlainName (name : Text) : Prop where
  hash : .char '#' ∉ name
  dot : .char '.' ∉ name

instance (name : Text) : Decidable (PlainName name) :=
  decidable_of_iff (.char '#' ∉ name ∧ .char '.' ∉ name)
    ⟨fun plain => ⟨plain.1, plain.2⟩, fun plain => ⟨plain.hash, plain.dot⟩⟩

theorem Json.any_text?_iff {value : Json} {property : Text → Prop} [DecidablePred property] :
    value.text?.any (fun text => property text) = true ↔
      ∃ text, value = .text text ∧ property text := by
  rw [Option.any_eq_true]
  constructor
  · intro found
    rcases found with ⟨text, isText, holds⟩
    match value, isText with
    | .atom (.text _), rfl => exact ⟨text, rfl, of_decide_eq_true holds⟩
  · intro found
    rcases found with ⟨text, rfl, holds⟩
    exact ⟨text, rfl, decide_eq_true holds⟩

namespace ZombieReport

/-! ## What an identifier stands for -/

/-- How the identifiers of clusters begin. -/
def clusterStart : Text := "cluster-"

/-- The identifier of a component whose name is plain and whose path does not begin like the
identifier of a cluster. -/
inductive PlainId : Text → Prop where
  | join {path name : Text} (apart : ¬ clusterStart <+: path) (plain : PlainName name) :
      PlainId (path ++ .char '#' :: name)

/-- What a node stands for. A component is drawn as itself or in the place of itself in a cluster
that hosts its functions. -/
inductive Place where
  | cluster (number : Nat)
  | component (host : Option Nat) (id : Text)
  | function (owner : Text) (name : Atom)

/-- What is written in front of a component that is drawn in a host. -/
def hostStart : Option Nat → Text
  | none => []
  | some number => clusterId number ++ "/"

namespace Place

def id : Place → Text
  | .cluster number => clusterId number
  | .component host id => hostStart host ++ id
  | .function owner name => functionId owner name

/-- A place whose identifier is made from plain parts. -/
def Plain : Place → Prop
  | .cluster _ => True
  | .component _ id => PlainId id
  | .function owner name => PlainId owner ∧ ∃ text, name = .text text ∧ PlainName text

/-- The families of places. -/
inductive Family where
  | cluster
  | component
  | function
  deriving DecidableEq

def family : Place → Family
  | .cluster _ => .cluster
  | .component _ _ => .component
  | .function _ _ => .function

/-- The family that an identifier shows. -/
def familyOf (id : Text) : Family :=
  if .char '#' ∉ id then .cluster
  else if .char '.' ∈ lastSegment '#' id then .function
  else .component

theorem familyOf_append_cons (before : Text) {last : Text} (free : .char '#' ∉ last) :
    familyOf (before ++ .char '#' :: last) =
      if .char '.' ∈ last then .function else .component := by
  have hasHash : ¬ .char '#' ∉ before ++ .char '#' :: last := by simp
  rw [familyOf, if_neg hasHash, lastSegment_append_cons before free]

theorem familyOf_function (before : Text) {owner name : Text} (ownerPlain : PlainName owner)
    (plain : PlainName name) :
    familyOf (before ++ .char '#' :: (owner ++ .char '.' :: name)) = .function := by
  have free : .char '#' ∉ owner ++ .char '.' :: name := by simp [ownerPlain.hash, plain.hash]
  rw [familyOf_append_cons before free, if_pos (by simp)]

theorem familyOf_component (before : Text) {name : Text} (plain : PlainName name) :
    familyOf (before ++ .char '#' :: name) = .component := by
  rw [familyOf_append_cons before plain.hash, if_neg plain.dot]

theorem familyOf_id {place : Place} (plain : place.Plain) : familyOf place.id = place.family := by
  cases place with
  | cluster number =>
      have noHash : .char '#' ∉ clusterId number := by
        rw [clusterId, List.mem_append, not_or]
        exact ⟨by decide, notMem_ofInt_natCast (by decide) number⟩
      rw [id, familyOf, if_pos noHash, family]
  | component host id =>
      cases plain with
      | join apart plain =>
          rw [Place.id, ← List.append_assoc]
          exact familyOf_component _ plain
  | function owner name =>
      rcases plain with ⟨ownerPlain, text, rfl, plain⟩
      cases ownerPlain with
      | join apart ownerPlain =>
          rw [Place.id, functionId, List.append_assoc, List.append_assoc]
          exact familyOf_function _ ownerPlain plain

end Place

/-! ## Identifiers of nodes -/

theorem clusterId_inj {left right : Nat} (equal : clusterId left = clusterId right) :
    left = right :=
  ofInt_natCast_inj (List.append_cancel_left equal)

theorem apart_append {path : Text} (apart : ¬ clusterStart <+: path) (rest : Text) :
    ¬ clusterStart <+: path ++ .char '#' :: rest := by
  intro begins
  exact apart (prefix_of_prefix_append_cons (by decide) begins)

theorem clusterStart_isPrefix (number : Nat) (rest : Text) :
    clusterStart <+: hostStart (some number) ++ rest := by
  rw [hostStart, clusterId, List.append_assoc, List.append_assoc]
  exact List.prefix_append _ _

/-- The host of a component can be told from its path. -/
theorem hostStart_inj {leftHost rightHost : Option Nat}
    {leftPath rightPath leftRest rightRest : Text}
    (leftApart : ¬ clusterStart <+: leftPath) (rightApart : ¬ clusterStart <+: rightPath)
    (equal : hostStart leftHost ++ (leftPath ++ .char '#' :: leftRest) =
      hostStart rightHost ++ (rightPath ++ .char '#' :: rightRest)) :
    leftHost = rightHost ∧
      leftPath ++ .char '#' :: leftRest = rightPath ++ .char '#' :: rightRest := by
  cases leftHost with
  | none =>
      cases rightHost with
      | none => exact ⟨rfl, equal⟩
      | some number =>
          apply absurd _ (apart_append leftApart leftRest)
          rw [hostStart, List.nil_append] at equal
          rw [equal]
          exact clusterStart_isPrefix number _
  | some leftNumber =>
      cases rightHost with
      | none =>
          apply absurd _ (apart_append rightApart rightRest)
          change _ = rightPath ++ .char '#' :: rightRest at equal
          rw [← equal]
          exact clusterStart_isPrefix leftNumber _
      | some rightNumber =>
          simp only [hostStart, clusterId, List.append_assoc] at equal
          rcases append_cons_inj_first (notMem_ofInt_natCast (by decide) leftNumber)
            (notMem_ofInt_natCast (by decide) rightNumber) (List.append_cancel_left equal) with
            ⟨sameNumber, sameRest⟩
          exact ⟨congrArg some (ofInt_natCast_inj sameNumber), sameRest⟩

/-- The two names at the end of the identifier of a function. -/
theorem functionEnd_inj {left right leftOwner rightOwner leftName rightName : Text}
    (leftOwnerPlain : PlainName leftOwner) (rightOwnerPlain : PlainName rightOwner)
    (leftPlain : PlainName leftName) (rightPlain : PlainName rightName)
    (equal : left ++ .char '#' :: (leftOwner ++ .char '.' :: leftName) =
      right ++ .char '#' :: (rightOwner ++ .char '.' :: rightName)) :
    left = right ∧ leftOwner = rightOwner ∧ leftName = rightName := by
  have leftFree : .char '#' ∉ leftOwner ++ .char '.' :: leftName := by
    simp [leftOwnerPlain.hash, leftPlain.hash]
  have rightFree : .char '#' ∉ rightOwner ++ .char '.' :: rightName := by
    simp [rightOwnerPlain.hash, rightPlain.hash]
  rcases append_cons_inj leftFree rightFree equal with ⟨sameFront, sameEnd⟩
  exact ⟨sameFront, append_cons_inj_first leftOwnerPlain.dot rightOwnerPlain.dot sameEnd⟩

/-- Nodes that stand for different places have different identifiers. -/
theorem Place.id_injective {left right : Place} (leftPlain : left.Plain) (rightPlain : right.Plain)
    (equal : left.id = right.id) : left = right := by
  have sameFamily : left.family = right.family := by
    rw [← familyOf_id leftPlain, ← familyOf_id rightPlain, equal]
  cases left with
  | cluster number =>
      cases right <;> cases sameFamily
      rw [clusterId_inj equal]
  | component host id =>
      cases right <;> cases sameFamily
      cases leftPlain with
      | join leftApart leftPlain =>
          cases rightPlain with
          | join rightApart rightPlain =>
              rcases hostStart_inj leftApart rightApart equal with ⟨rfl, sameId⟩
              rw [sameId]
  | function owner name =>
      cases right <;> cases sameFamily
      rcases leftPlain with ⟨leftOwner, leftText, rfl, leftPlain⟩
      rcases rightPlain with ⟨rightOwner, rightText, rfl, rightPlain⟩
      cases leftOwner with
      | join leftApart leftOwner =>
          cases rightOwner with
          | join rightApart rightOwner =>
              simp only [Place.id, functionId, List.append_assoc] at equal
              rcases functionEnd_inj leftOwner rightOwner leftPlain rightPlain equal with
                ⟨rfl, rfl, rfl⟩
              rfl

/-! ## Identifiers of edges -/

/-- The node that a node is drawn below. -/
inductive Below : Place → Place → Prop where
  | component (number : Nat) (host : Option Nat) (id : Text) :
      Below (.cluster number) (.component host id)
  | function (host : Option Nat) (owner : Text) (name : Atom) :
      Below (.component host owner) (.function owner name)

/-- A path that is written twice is told by the length of the whole. -/
theorem twice_inj {name left right : Text}
    (equal : left ++ .char '#' :: (name ++ .char '-' :: left) =
      right ++ .char '#' :: (name ++ .char '-' :: right)) : left = right := by
  have sameLength := congrArg List.length equal
  simp only [List.length_append, List.length_cons] at sameLength
  exact List.append_inj_left equal (by omega)

/-- The identifier of an edge to a function, cut where the names of the function begin. -/
theorem edgeId_function (host : Option Nat) (path owner name : Text) :
    Diagram.edgeId (Place.component host (path ++ .char '#' :: owner)).id
        (Place.function (path ++ .char '#' :: owner) (.text name)).id =
      (hostStart host ++ (path ++ .char '#' :: (owner ++ .char '-' :: path))) ++
        .char '#' :: (owner ++ .char '.' :: name) := by
  simp only [Diagram.edgeId, Place.id, functionId, List.append_assoc, List.cons_append]
  rfl

theorem familyOf_edgeId {parent child : Place} (below : Below parent child) (plain : child.Plain) :
    Place.familyOf (Diagram.edgeId parent.id child.id) = child.family := by
  cases below with
  | component number host id =>
      cases plain with
      | join apart plain =>
          simp only [Diagram.edgeId, Place.id, ← List.append_assoc]
          exact Place.familyOf_component _ plain
  | function host owner name =>
      rcases plain with ⟨ownerPlain, text, rfl, plain⟩
      cases ownerPlain with
      | join apart ownerPlain =>
          rw [edgeId_function]
          exact Place.familyOf_function _ ownerPlain plain

/-- Edges to different places have different identifiers. -/
theorem Below.child_injective {leftParent left rightParent right : Place}
    (leftBelow : Below leftParent left) (rightBelow : Below rightParent right)
    (leftPlain : left.Plain) (rightPlain : right.Plain)
    (equal : Diagram.edgeId leftParent.id left.id = Diagram.edgeId rightParent.id right.id) :
    left = right := by
  have sameFamily : left.family = right.family := by
    rw [← familyOf_edgeId leftBelow leftPlain, ← familyOf_edgeId rightBelow rightPlain, equal]
  cases leftBelow with
  | component leftNumber leftHost leftId =>
      cases rightBelow with
      | component rightNumber rightHost rightId =>
          apply Place.id_injective leftPlain rightPlain
          simp only [Diagram.edgeId, Place.id, clusterId, List.append_assoc] at equal
          exact (append_cons_inj_first (notMem_ofInt_natCast (by decide) leftNumber)
            (notMem_ofInt_natCast (by decide) rightNumber) (List.append_cancel_left equal)).2
      | function => cases sameFamily
  | function leftHost leftOwner leftName =>
      cases rightBelow with
      | component => cases sameFamily
      | function rightHost rightOwner rightName =>
          rcases leftPlain with ⟨leftOwnerPlain, leftText, rfl, leftPlain⟩
          rcases rightPlain with ⟨rightOwnerPlain, rightText, rfl, rightPlain⟩
          cases leftOwnerPlain with
          | join leftApart leftOwnerPlain =>
              cases rightOwnerPlain with
              | join rightApart rightOwnerPlain =>
                  rw [edgeId_function, edgeId_function] at equal
                  rcases functionEnd_inj leftOwnerPlain rightOwnerPlain leftPlain rightPlain equal
                    with ⟨sameFront, rfl, rfl⟩
                  rw [twice_inj (hostStart_inj leftApart rightApart sameFront).2]

/-! ## The places of a cluster -/

section Cluster

variable {number : Nat} {members : List Vertex}

/-- A component that is no member is drawn in the host. -/
def componentPlace (number : Nat) (members : List Vertex) (id : Text) : Place :=
  .component (if members.contains (.component id) then none else some number) id

/-- What is drawn below what in a cluster. -/
def branchesOf (number : Nat) (members : List Vertex) : List (Place × Place) :=
  (occurring members).map (fun id => (.cluster number, componentPlace number members id)) ++
    (members.filterMap Vertex.function?).map fun (owner, name) =>
      (componentPlace number members owner, .function owner name)

/-- A cluster and all that is drawn below it. -/
def placesOf (number : Nat) (members : List Vertex) : List Place :=
  .cluster number :: (branchesOf number members).map Prod.snd

def Place.kind : Place → Diagram.NodeKind
  | .cluster _ => .cluster
  | .component _ _ => .zombie
  | .function _ _ => .function

theorem id_componentPlace (number : Nat) (members : List Vertex) (id : Text) :
    (componentPlace number members id).id = componentNodeId (clusterId number) members id := by
  rw [componentPlace, Place.id, componentNodeId]
  split <;> rfl

theorem tree_eq (number : Nat) (members : List Vertex) :
    tree (clusterId number) members =
      ⟨clusterId number, some .cluster, none⟩ ::
        (branchesOf number members).map fun branch =>
          ⟨branch.2.id, some branch.2.kind, some branch.1.id⟩ := by
  rw [tree, branchesOf, List.map_append, List.map_map, List.map_map, List.cons_append]
  simp only [Function.comp_def, id_componentPlace]
  rfl

/-- Components are drawn below the cluster, and functions below their components. -/
theorem branch_cases {branch : Place × Place} (isBranch : branch ∈ branchesOf number members) :
    (∃ id ∈ occurring members, branch = (.cluster number, componentPlace number members id)) ∨
    ∃ owner name, .function owner name ∈ members ∧
      branch = (componentPlace number members owner, .function owner name) := by
  cases List.mem_append.1 isBranch with
  | inl isComponent =>
      rcases List.mem_map.1 isComponent with ⟨id, occurs, rfl⟩
      exact .inl ⟨id, occurs, rfl⟩
  | inr isFunction =>
      rcases List.mem_map.1 isFunction with ⟨function, listed, rfl⟩
      exact .inr ⟨function.1, function.2, mem_functions_iff.1 listed, rfl⟩

theorem below_of_mem_branchesOf {branch : Place × Place}
    (isBranch : branch ∈ branchesOf number members) : Below branch.1 branch.2 := by
  rcases branch_cases isBranch with ⟨id, -, rfl⟩ | ⟨owner, name, -, rfl⟩
  · exact .component number _ id
  · exact .function _ owner name

/-- What a place can come from: a cluster of some number, or a vertex. -/
def Place.From (numbers : Nat → Prop) (members : List Vertex) : Place → Prop
  | .cluster number => numbers number
  | .component none id => .component id ∈ members
  | .component (some host) _ => numbers host
  | .function owner name => .function owner name ∈ members

theorem from_of_mem_placesOf {place : Place} (isPlace : place ∈ placesOf number members) :
    place.From (· = number) members := by
  cases isPlace with
  | head => rfl
  | tail _ drawn =>
      rcases List.mem_map.1 drawn with ⟨branch, isBranch, rfl⟩
      rcases branch_cases isBranch with ⟨id, -, rfl⟩ | ⟨owner, name, isMember, rfl⟩
      · by_cases isMember : members.contains (.component id) = true
        · rw [componentPlace, if_pos isMember]
          exact component_mem_iff.2 isMember
        · rw [componentPlace, if_neg isMember]
          rfl
      · exact isMember

/-- The place of a vertex. -/
def vertexPlace : Vertex → Place
  | .component id => .component none id
  | .function owner name => .function owner name

theorem plain_of_mem_placesOf (plain : ∀ vertex ∈ members, (vertexPlace vertex).Plain)
    {place : Place} (isPlace : place ∈ placesOf number members) : place.Plain := by
  cases isPlace with
  | head => trivial
  | tail _ drawn =>
      rcases List.mem_map.1 drawn with ⟨branch, isBranch, rfl⟩
      rcases branch_cases isBranch with ⟨id, occurs, rfl⟩ | ⟨owner, name, isMember, rfl⟩
      · cases mem_occurring_iff.1 occurs with
        | inl isMember => exact plain _ isMember
        | inr owns =>
            rcases owns with ⟨name, isMember⟩
            exact (plain _ isMember).1
      · exact plain _ isMember

theorem nodup_functions (distinct : Distinct members) :
    (members.filterMap Vertex.function?).Nodup := by
  apply Distinct.nodup_filterMap _ distinct
  intro left right function isLeft isRight
  cases left <;> cases right <;> cases isLeft <;> cases isRight
  exact BEq.refl _

theorem nodup_placesOf (number : Nat) (distinct : Distinct members) :
    (placesOf number members).Nodup := by
  rw [placesOf, branchesOf, List.map_append, List.map_map, List.map_map, List.nodup_cons,
    List.nodup_append]
  refine ⟨?_, ?_, ?_, ?_⟩
  · simp [componentPlace]
  · apply (nodup_occurring members).map
    intro left right equal
    exact (Place.component.inj equal).2
  · apply (nodup_functions distinct).map
    intro left right equal
    exact Prod.ext (Place.function.inj equal).1 (Place.function.inj equal).2
  · intro component isComponent function isFunction equal
    rcases List.mem_map.1 isComponent with ⟨id, -, rfl⟩
    rcases List.mem_map.1 isFunction with ⟨pair, -, rfl⟩
    cases equal

end Cluster

/-! ## The places of all clusters -/

section Clusters

variable {start : Nat} {clusters : List (List Vertex)}

def branchesFrom (start : Nat) (clusters : List (List Vertex)) : List (Place × Place) :=
  (clusters.zipIdx start).flatMap fun cluster => branchesOf cluster.2 cluster.1

def placesFrom (start : Nat) (clusters : List (List Vertex)) : List Place :=
  (clusters.zipIdx start).flatMap fun cluster => placesOf cluster.2 cluster.1

theorem children_sublist (start : Nat) (clusters : List (List Vertex)) :
    ((branchesFrom start clusters).map Prod.snd).Sublist (placesFrom start clusters) := by
  induction clusters generalizing start with
  | nil => exact .slnil
  | cons members clusters ih =>
      rw [branchesFrom, placesFrom, List.zipIdx_cons, List.flatMap_cons, List.flatMap_cons,
        List.map_append]
      exact (List.sublist_cons_self _ _).append (ih (start + 1))

theorem plain_of_mem_placesFrom (plain : ∀ vertex ∈ clusters.flatten, (vertexPlace vertex).Plain)
    {place : Place} (isPlace : place ∈ placesFrom start clusters) : place.Plain := by
  rcases List.mem_flatMap.1 isPlace with ⟨cluster, isCluster, isPlace⟩
  apply plain_of_mem_placesOf _ isPlace
  intro vertex isMember
  apply plain
  exact List.mem_flatten.2 ⟨cluster.1, List.fst_mem_of_mem_zipIdx isCluster, isMember⟩

theorem Place.From.mono {place : Place} {numbers moreNumbers : Nat → Prop}
    {members moreMembers : List Vertex} (comes : place.From numbers members)
    (more : ∀ number, numbers number → moreNumbers number) (subset : members ⊆ moreMembers) :
    place.From moreNumbers moreMembers := by
  match place, comes with
  | .cluster number, comes => exact more number comes
  | .component none id, comes => exact subset comes
  | .component (some host) id, comes => exact more host comes
  | .function owner name, comes => exact subset comes

theorem from_of_mem_placesFrom {place : Place} (isPlace : place ∈ placesFrom start clusters) :
    place.From (start ≤ ·) clusters.flatten := by
  rcases List.mem_flatMap.1 isPlace with ⟨cluster, isCluster, isPlace⟩
  apply (from_of_mem_placesOf isPlace).mono
  · intro number isNumber
    rw [isNumber]
    exact List.le_snd_of_mem_zipIdx isCluster
  · intro vertex isMember
    exact List.mem_flatten.2 ⟨cluster.1, List.fst_mem_of_mem_zipIdx isCluster, isMember⟩

/-- A place of a cluster is no place of the later clusters. -/
theorem Place.From.ne_later {number : Nat} {members later : List Vertex} {place : Place}
    (apart : ∀ earlier ∈ members, ∀ vertex ∈ later, (earlier == vertex) = false)
    (comes : place.From (· = number) members) : ¬ place.From (number + 1 ≤ ·) later := by
  intro comesLater
  match place, comes, comesLater with
  | .cluster _, rfl, comesLater => exact absurd comesLater (Nat.not_succ_le_self number)
  | .component (some _) _, rfl, comesLater => exact absurd comesLater (Nat.not_succ_le_self number)
  | .component none id, comes, comesLater => simpa using apart _ comes _ comesLater
  | .function owner name, comes, comesLater => simpa using apart _ comes _ comesLater

theorem nodup_placesFrom (start : Nat) (distinct : Distinct clusters.flatten) :
    (placesFrom start clusters).Nodup := by
  induction clusters generalizing start with
  | nil => exact List.nodup_nil
  | cons members clusters ih =>
      rcases List.pairwise_append.1 distinct with ⟨here, later, apart⟩
      rw [placesFrom, List.zipIdx_cons, List.flatMap_cons, List.nodup_append]
      refine ⟨nodup_placesOf start here, ih (start + 1) later, ?_⟩
      intro place isPlace other isOther equal
      rw [← equal] at isOther
      exact (from_of_mem_placesOf isPlace).ne_later apart (from_of_mem_placesFrom isOther)

/-! ## Identifiers in a diagram -/

theorem nodeIds_drawFrom (catalog : Catalog) (spacing : Number) (start : Nat)
    (clusters : List (List Vertex)) :
    (drawFrom catalog spacing start clusters).nodes.map Diagram.Node.id =
      (placesFrom start clusters).map Place.id := by
  have outlined : ∀ nodes : List Diagram.Node,
      nodes.map Diagram.Node.id = (nodes.map outline).map Outline.id := by
    intro nodes
    rw [List.map_map]
    rfl
  rw [outlined, outline_drawFrom, placesFrom, List.map_flatMap, List.map_flatMap]
  congr 1
  funext cluster
  rw [tree_eq, placesOf, List.map_cons, List.map_cons, List.map_map, List.map_map]
  rfl

/-- All that is drawn in a cluster, but for the cluster itself, has a parent. -/
theorem links_tree (number : Nat) (members : List Vertex) :
    ((tree (clusterId number) members).filter fun outline => outline.kind ≠ some .cluster).map
        (fun outline => (outline.parent, outline.id)) =
      (branchesOf number members).map fun branch => (some branch.1.id, branch.2.id) := by
  have isKept : ∀ branch ∈ branchesOf number members, branch.2.kind ≠ .cluster := by
    intro branch isBranch
    rcases branch_cases isBranch with ⟨id, -, rfl⟩ | ⟨owner, name, -, rfl⟩ <;>
      simp [componentPlace, Place.kind]
  rw [tree_eq, List.filter_cons_of_neg (by simp), List.filter_eq_self.2, List.map_map]
  · rfl
  · rw [List.forall_mem_map]
    intro branch isBranch
    simp [isKept branch isBranch]

theorem edgeIds_drawFrom (catalog : Catalog) (spacing : Number) (start : Nat)
    (clusters : List (List Vertex)) :
    (drawFrom catalog spacing start clusters).edges.map Diagram.Edge.id =
      (branchesFrom start clusters).map fun branch =>
        Diagram.edgeId branch.1.id branch.2.id := by
  have links : (drawFrom catalog spacing start clusters).edges.map
        (fun edge => (some edge.source, edge.target)) =
      (branchesFrom start clusters).map fun branch => (some branch.1.id, branch.2.id) := by
    have outlined : ∀ nodes : List Diagram.Node,
        (nodes.filter fun node => node.kind ≠ some .cluster).map
            (fun node => (node.parent, node.id)) =
          ((nodes.map outline).filter fun outline => outline.kind ≠ some .cluster).map
            fun outline => (outline.parent, outline.id) := by
      intro nodes
      rw [List.filter_map, List.map_map]
      rfl
    rw [linked_drawFrom catalog spacing start clusters, outlined, outline_drawFrom,
      List.filter_flatMap, List.map_flatMap, branchesFrom, List.map_flatMap]
    simp only [links_tree]
  have joined := congrArg
    (List.map fun link : Option Text × Text => Diagram.edgeId (link.1.getD "") link.2) links
  rw [List.map_map, List.map_map] at joined
  exact joined

theorem nodup_nodeIds (catalog : Catalog) (spacing : Number)
    (distinct : Distinct clusters.flatten)
    (plain : ∀ vertex ∈ clusters.flatten, (vertexPlace vertex).Plain) :
    ((drawFrom catalog spacing start clusters).nodes.map Diagram.Node.id).Nodup := by
  rw [nodeIds_drawFrom]
  apply (nodup_placesFrom start distinct).map_on
  intro left isLeft right isRight equal
  exact Place.id_injective (plain_of_mem_placesFrom plain isLeft)
    (plain_of_mem_placesFrom plain isRight) equal

theorem nodup_edgeIds (catalog : Catalog) (spacing : Number)
    (distinct : Distinct clusters.flatten)
    (plain : ∀ vertex ∈ clusters.flatten, (vertexPlace vertex).Plain) :
    ((drawFrom catalog spacing start clusters).edges.map Diagram.Edge.id).Nodup := by
  have children : ((branchesFrom start clusters).map Prod.snd).Nodup :=
    (children_sublist start clusters).nodup (nodup_placesFrom start distinct)
  have below : ∀ branch ∈ branchesFrom start clusters,
      Below branch.1 branch.2 ∧ branch.2.Plain := by
    intro branch isBranch
    constructor
    · rcases List.mem_flatMap.1 isBranch with ⟨cluster, -, isBranch⟩
      exact below_of_mem_branchesOf isBranch
    · have isPlace : branch.2 ∈ placesFrom start clusters :=
        (children_sublist start clusters).subset (List.mem_map_of_mem isBranch)
      exact plain_of_mem_placesFrom plain isPlace
  rw [edgeIds_drawFrom]
  apply children.of_map.map_on
  intro left isLeft right isRight equal
  have leftBelow := below left isLeft
  have rightBelow := below right isRight
  apply List.inj_on_of_nodup_map children isLeft isRight
  exact leftBelow.1.child_injective rightBelow.1 leftBelow.2 rightBelow.2 equal

end Clusters

/-! ## Plain records -/

/-- A record whose name and functions are plain, and whose path does not begin like the identifier
of a cluster. -/
structure PlainRecord (component : Component) : Prop where
  name : ∃ name, component.name = .text name ∧ PlainName name
  path : ∃ path, component.path = .text path ∧ ¬ clusterStart <+: path
  functions : ∀ functions ∈ component.functions, ∀ function ∈ functions,
    ∃ name, function = .text name ∧ PlainName name

instance (component : Component) : Decidable (PlainRecord component) :=
  decidable_of_iff
    (component.name.text?.any (fun name => PlainName name) = true ∧
      component.path.text?.any (fun path => ¬ clusterStart <+: path) = true ∧
      ∀ functions ∈ component.functions, ∀ function ∈ functions,
        function.text?.any (fun name => PlainName name) = true) (by
    simp only [Json.any_text?_iff]
    exact ⟨fun plain => ⟨plain.1, plain.2.1, plain.2.2⟩,
      fun plain => ⟨plain.name, plain.path, plain.functions⟩⟩)

theorem PlainRecord.id {component : Component} (plain : PlainRecord component) :
    PlainId component.id := by
  rcases plain.name with ⟨name, isName, nameIsPlain⟩
  rcases plain.path with ⟨path, isPath, apart⟩
  have joined : component.id = path ++ .char '#' :: name := by
    rw [Component.id, isName, isPath, List.append_assoc]
    rfl
  rw [joined]
  exact .join apart nameIsPlain

/-- All vertices of the call graph of plain records are plain. -/
theorem plain_of_known {components : List Component} {catalog : Catalog} {graph : Digraph Vertex}
    (plain : ∀ component ∈ components, PlainRecord component)
    (built : CallGraph.ofComponents components catalog = .ok graph) {vertex : Vertex}
    (known : graph.keys.contains vertex = true) : (vertexPlace vertex).Plain := by
  cases vertex with
  | component id =>
      rw [(CallGraph.ofComponents_layered built).contains_keys_component,
        DependencyGraph.mem_keys_ofComponents, List.mem_map] at known
      rcases known with ⟨component, isRecord, rfl⟩
      exact (plain component isRecord).id
  | function owner name =>
      rcases CallGraph.exists_declared_of_known built known with
        ⟨component, isRecord, rfl, functions, isFunctions, declared, listed, equal⟩
      have recordPlain := plain component isRecord
      rcases recordPlain.functions functions isFunctions _ listed with ⟨text, isText, textPlain⟩
      cases isText
      exact ⟨recordPlain.id, text, Atom.eq_of_beq_text (BEq.symm equal), textPlain⟩

/-- The report on plain records draws no two nodes and no two edges under one identifier. -/
theorem diagram_ids_are_unique {components : List Component}
    (plain : ∀ component ∈ components, PlainRecord component)
    (named : ∀ component ∈ components, CallGraph.Named component) (catalog : Catalog)
    (settings : Settings) :
    ∃ report, ofComponents components catalog settings = .ok report ∧
      (report.diagram.nodes.map Diagram.Node.id).Nodup ∧
      (report.diagram.edges.map Diagram.Edge.id).Nodup := by
  rcases CallGraph.exists_ofComponents named catalog with ⟨graph, built⟩
  have distinct := Digraph.distinct_flatten_collectClusters (zombies graph) graph
  have allPlain : ∀ vertex ∈ (zombieClusters graph).flatten, (vertexPlace vertex).Plain := by
    intro vertex isMember
    have stranded := contains_flatten_zombieClusters.1 (List.elem_eq_true_of_mem isMember)
    exact plain_of_known plain built stranded.known
  exact ⟨_, ofComponents_eq_ok built settings, nodup_nodeIds catalog _ distinct allPlain,
    nodup_edgeIds catalog _ distinct allPlain⟩

/-- Two components that import each other. Their paths hold separators, and what is the name in the
identifier of one is at the end of the path in that of the other. -/
def lookalikes : List Component :=
  [{ name := .text "b", path := .text "cluster/1#a.f-c", imports := [.text "./f-c"],
     functions := some [.text "f", .text "f-c"],
     calls := some (Table.ofList [("f", [.text "f-c"]), ("f-c", [.text "f"])]) },
   { name := .text "f-c", path := .text "cluster/1#a", imports := [.text "./b"] }]

def lookalikeCatalog : Catalog where
  byImport := Table.ofList
    [(.text "b", ["cluster/1#a.f-c#b"]), (.text "f-c", ["cluster/1#a#f-c"])]

def lookalikeEdges : List Text :=
  ["cluster-0-cluster/1#a.f-c#b",
   "cluster-0-cluster/1#a#f-c",
   "cluster-1-cluster-1/cluster/1#a.f-c#b",
   "cluster-1/cluster/1#a.f-c#b-cluster/1#a.f-c#b.f",
   "cluster-1/cluster/1#a.f-c#b-cluster/1#a.f-c#b.f-c"]

theorem lookalike_ids_are_unique :
    (∀ component ∈ lookalikes, PlainRecord component) ∧
    (∀ component ∈ lookalikes, CallGraph.Named component) ∧
    ∃ report, ofComponents lookalikes lookalikeCatalog {} = .ok report ∧
      (report.diagram.nodes.map Diagram.Node.id).Nodup ∧
      (report.diagram.edges.map Diagram.Edge.id).Nodup ∧
      report.diagram.edges.map Diagram.Edge.id = lookalikeEdges := by
  have plain : ∀ component ∈ lookalikes, PlainRecord component := by decide +kernel
  have named : ∀ component ∈ lookalikes, CallGraph.Named component := by decide +kernel
  rcases diagram_ids_are_unique plain named lookalikeCatalog {} with ⟨report, made, nodes, edges⟩
  refine ⟨plain, named, report, made, nodes, edges, ?_⟩
  have drawn : (ofComponents lookalikes lookalikeCatalog {}).toOption.map
      (fun report => report.diagram.edges.map Diagram.Edge.id) = some lookalikeEdges := by
    decide +kernel
  rw [made] at drawn
  exact Option.some.inj drawn

end ZombieReport

end ImportAtlas
