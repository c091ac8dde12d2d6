import ImportAtlas.Command
import ImportAtlas.Proofs.CallGraph.Functions
import ImportAtlas.Proofs.Catalog.Views
import ImportAtlas.Proofs.ClusterContents

/-!
# What is listed of a cluster

The listing of zombie clusters has one block for each cluster: a title, a line for each of its
components, and advice. Functions have their place behind the component that they belong to. But a
cluster of functions has no components, so its block is a title with advice and says nothing about
what was found. A name that has no encoding ends the listing at its line. All this holds on every
console that prints a line without codes as it is.
-/

namespace ImportAtlas

/-! ## Texts that have an encoding -/

namespace Text

theorem mapM_char?_eq_some_iff {text : Text} {characters : List Char} :
    text.mapM CodePoint.char? = some characters ↔ text = characters.map .char := by
  induction text generalizing characters with
  | nil => cases characters <;> simp
  | cons point text ih =>
      cases point with
      | half offset => cases characters <;> simp [CodePoint.char?]
      | char value =>
          simp only [List.mapM_cons, CodePoint.char?, Option.bind_eq_bind, Option.bind_some,
            Option.bind_eq_some_iff, ih, Option.pure_def, Option.some.injEq]
          cases characters <;> simp [and_comm]

theorem toString?_eq_some_iff {text : Text} {value : String} :
    toString? text = some value ↔ text = ofString value := by
  rw [toString?, Option.map_eq_some_iff]
  simp only [mapM_char?_eq_some_iff, ofString]
  constructor
  · rintro ⟨characters, rfl, rfl⟩
    rw [String.toList_ofList]
  · intro isText
    exact ⟨value.toList, isText, String.ofList_toList⟩

theorem isBroken_eq_false_iff {text : Text} :
    isBroken text = false ↔ ∃ characters : List Char, text = characters.map .char := by
  constructor
  · intro whole
    induction text with
    | nil => exact ⟨[], rfl⟩
    | cons point text ih =>
        cases point with
        | half offset => simp [isBroken, CodePoint.char?] at whole
        | char value =>
            rcases ih (by simpa [isBroken, CodePoint.char?] using whole) with ⟨characters, rfl⟩
            exact ⟨value :: characters, rfl⟩
  · rintro ⟨characters, rfl⟩
    simp [isBroken, CodePoint.char?]

theorem toString?_eq_none_iff {text : Text} : toString? text = none ↔ isBroken text = true := by
  rw [← Bool.not_eq_false, isBroken_eq_false_iff, toString?, Option.map_eq_none_iff,
    Option.eq_none_iff_forall_ne_some, not_exists]
  simp only [ne_eq, mapM_char?_eq_some_iff]

theorem isBroken_eq_false {text : Text} (low : ∀ point ∈ text, point.toNat < CodePoint.firstHalf) :
    isBroken text = false := by
  rw [isBroken, List.any_eq_false]
  intro point isPoint
  cases point with
  | char value => simp [CodePoint.char?]
  | half offset =>
      have isLow := low _ isPoint
      rw [CodePoint.toNat] at isLow
      omega

end Text

/-! ## Consoles -/

namespace Console

open Text

/-- Begins every code. -/
def escapePoint : CodePoint := .char '\x1b'

/-- Code points of codes are far below the halves. -/
theorem toNat_lt_firstHalf {point : CodePoint}
    (inCode : isParameter point = true ∨ isIntermediate point = true ∨ isFinal point = true) :
    point.toNat < CodePoint.firstHalf := by
  simp only [isParameter, isIntermediate, isFinal, Bool.and_eq_true, decide_eq_true_eq] at inCode
  rw [CodePoint.firstHalf]
  omega

/-- What is taken for a code begins as codes do and has an encoding. -/
theorem exists_code {text rest : Text} (found : afterCode? text = some rest) :
    ∃ code, text = escapePoint :: code ++ rest ∧ isBroken code = false := by
  rcases Option.bind_eq_some_iff.1 found with ⟨behind, isBehind, found⟩
  rw [List.isPrefixOf?_eq_some_iff_append_eq] at isBehind
  let parameters := behind.takeWhile isParameter
  let intermediates := (behind.dropWhile isParameter).takeWhile isIntermediate
  cases ends : (behind.dropWhile isParameter).dropWhile isIntermediate with
  | nil => simp [ends] at found
  | cons point others =>
      simp only [ends, Option.ite_none_right_eq_some, Option.some.injEq] at found
      rcases found with ⟨final, rfl⟩
      have split : behind = parameters ++ (intermediates ++ point :: others) := by
        rw [← ends, List.takeWhile_append_dropWhile, List.takeWhile_append_dropWhile]
      refine ⟨.char '[' :: (parameters ++ intermediates ++ [point]), ?_, ?_⟩
      · rw [← isBehind, split]
        simp [escape, escapePoint, ofString]
      · apply isBroken_eq_false
        intro other member
        apply toNat_lt_firstHalf
        simp only [List.mem_cons, List.mem_append, List.not_mem_nil, or_false] at member
        rcases member with rfl | (inParameters | inIntermediates) | rfl
        · exact .inr (.inr (by decide))
        · exact .inl (List.all_eq_true.1 List.all_takeWhile other inParameters)
        · exact .inr (.inl (List.all_eq_true.1 List.all_takeWhile other inIntermediates))
        · exact .inr (.inr final)

theorem strip_eq_self {text : Text} (free : escapePoint ∉ text) : strip text = text := by
  rw [strip]
  induction text with
  | nil => rfl
  | cons point text ih =>
      have noCode : afterCode? (point :: text) = none := by
        rw [Option.eq_none_iff_forall_ne_some]
        intro rest found
        rcases exists_code found with ⟨code, isText, -⟩
        apply free
        rw [isText]
        exact List.mem_cons_self
      have restFree : escapePoint ∉ text := fun member => free (List.mem_cons_of_mem point member)
      rw [stripFrom, noCode]
      exact congrArg (point :: ·) (ih restFree)

theorem isBroken_stripFrom (skip : Nat) (text : Text) :
    isBroken (stripFrom skip text) = isBroken (text.drop skip) := by
  fun_induction stripFrom skip text with
  | case1 skip => simp
  | case2 point text skip ih => simpa using ih
  | case3 point text rest found ih =>
      rcases exists_code found with ⟨code, isText, whole⟩
      rw [List.cons_append, List.cons.injEq] at isText
      rcases isText with ⟨rfl, rfl⟩
      -- As many code points are skipped as the code has, and none of them is a half.
      rw [ih, List.length_append, Nat.add_sub_cancel, List.drop_left, List.drop_zero,
        ← List.singleton_append, isBroken_append, isBroken_append, whole]
      rfl
  | case4 point text notFound ih =>
      rw [List.drop_zero] at ih ⊢
      simpa [isBroken] using congrArg (point.char?.isNone || ·) ih

theorem isBroken_strip (text : Text) : isBroken (strip text) = isBroken text :=
  isBroken_stripFrom 0 text

theorem isBroken_paint (shade : Shade) (text : Text) :
    isBroken (paint shade text) = isBroken text := by
  have whole : isBroken (code shade) = false := by cases shade <;> exact isBroken_ofString _
  simp [paint, escape, isBroken_append, isBroken_ofString, whole]

/-- What listings rely on. Shades and lines have an encoding exactly if their texts do, and a line
without codes is printed as it is. -/
structure Faithful (console : Console) : Prop where
  style : ∀ shade text, isBroken (console.style shade text) = isBroken text
  echo : ∀ line, isBroken (console.echo line) = isBroken line
  plain : ∀ line, escapePoint ∉ line → console.echo line = line ++ ofString "\n"

theorem faithful_usual (color : Bool) : (usual color).Faithful where
  style := isBroken_paint
  echo line := by
    cases color <;> simp [usual, isBroken_strip, isBroken_append, isBroken_ofString]
  plain line free := by
    have noCode : escapePoint ∉ line ++ ofString "\n" := by
      rw [List.mem_append, not_or]
      exact ⟨free, by decide⟩
    cases color with
    | true => rfl
    | false => exact strip_eq_self noCode

end Console

/-! ## Names to show -/

theorem Catalog.exists_displayName_eq_text {components : List Component} {catalog : Catalog}
    (textual : ∀ component ∈ components, component.Textual)
    (built : ofComponents components = .ok catalog) (id : Text) :
    ∃ text, catalog.displayName id = .text text := by
  rw [displayName]
  cases found : catalog.get? id with
  | none => exact ⟨id, rfl⟩
  | some listing =>
      rcases exists_lists_of_get? built found with ⟨component, isComponent, -, lists⟩
      rcases (textual component isComponent).name with ⟨text, isText⟩
      rw [lists.name] at isText
      exact ⟨text, Json.atom.inj isText⟩

namespace Command

open Text

/-! ## Printing -/

variable {console : Console}

/-- Lines that all have an encoding are all printed. -/
theorem print_of_whole (faithful : console.Faithful) {lines : List Text}
    (whole : ∀ line ∈ lines, isBroken line = false) :
    ∃ stdout, Transcript.print console ⟨lines, none⟩ = (stdout, none) ∧
      ofString stdout = lines.flatMap console.echo := by
  -- The transcript stays as a whole, the induction is on the lines that are left.
  suffices printed : ∀ transcript : Transcript, transcript.fault = none →
      ∃ stdout, Transcript.print.go console transcript lines = (stdout, none) ∧
        ofString stdout = lines.flatMap console.echo from printed _ rfl
  intro transcript noFault
  induction lines with
  | nil => exact ⟨"", by rw [Transcript.print.go, noFault], rfl⟩
  | cons line lines ih =>
      rcases ih fun other member => whole other (List.mem_cons_of_mem line member) with
        ⟨stdout, printed, isPrinted⟩
      cases encoded : (console.echo line).toString? with
      | none =>
          rw [toString?_eq_none_iff, faithful.echo, whole line List.mem_cons_self] at encoded
          cases encoded
      | some text =>
          refine ⟨text ++ stdout, ?_, ?_⟩
          · simp only [Transcript.print.go, encoded, printed]
          · rw [List.flatMap_cons, toString?_eq_some_iff.1 encoded, ← isPrinted]
            simp [ofString]

/-- A line without an encoding ends the run. -/
theorem print_of_broken (faithful : console.Faithful) {lines : List Text}
    (broken : ∃ line ∈ lines, isBroken line = true) :
    (Transcript.print console ⟨lines, none⟩).2 = some .brokenText := by
  suffices ended : ∀ transcript : Transcript,
      (Transcript.print.go console transcript lines).2 = some .brokenText from ended _
  intro transcript
  induction lines with
  | nil => simp at broken
  | cons line lines ih =>
      rw [Transcript.print.go]
      cases encoded : (console.echo line).toString? with
      | none => rfl
      | some text =>
          apply ih
          rcases broken with ⟨other, member, isBroken⟩
          cases List.mem_cons.1 member with
          | inl isFirst =>
              subst isFirst
              rw [← faithful.echo, ← toString?_eq_none_iff, encoded] at isBroken
              cases isBroken
          | inr later => exact ⟨other, later, isBroken⟩

/-- Items that print without a fault are all printed, one after the other. -/
theorem ofItems_eq {α : Type} {print : α → Transcript} {items : List α}
    (noFault : ∀ item ∈ items, (print item).fault = none) :
    Transcript.ofItems print items = ⟨items.flatMap fun item => (print item).lines, none⟩ := by
  suffices appended : ∀ transcript : Transcript, transcript.fault = none →
      items.foldl (fun transcript item => transcript.append (print item)) transcript =
        ⟨transcript.lines ++ items.flatMap fun item => (print item).lines, none⟩ from
    appended ⟨[], none⟩ rfl
  induction items with
  | nil =>
      rintro ⟨lines, fault⟩ rfl
      simp
  | cons item items ih =>
      rintro ⟨lines, fault⟩ rfl
      have first : Transcript.append ⟨lines, none⟩ (print item) =
          ⟨lines ++ (print item).lines, none⟩ := by
        rw [Transcript.append, noFault item List.mem_cons_self]
      have later := ih fun other member => noFault other (List.mem_cons_of_mem item member)
      rw [List.foldl_cons, first, later _ rfl, List.flatMap_cons, List.append_assoc]

/-! ## Blocks -/

/-- The first line about a cluster. -/
def title (console : Console) (cluster : ZombieCluster) : Text :=
  console.style .cyan cluster.id ++ "  risk=" ++
    console.style (riskShade cluster.risk) cluster.risk.text ++ "  size=" ++
    Text.ofNat cluster.size

/-- The last line about a cluster. -/
def advice (console : Console) (cluster : ZombieCluster) : Text :=
  "  " ++ console.style .dim cluster.risk.suggestion ++ "\n"

/-- What is printed about a cluster. -/
def block (console : Console) (cluster : ZombieCluster) : Text :=
  (clusterLines console cluster).lines.flatMap console.echo

/-- The line of a component without functions. -/
def componentLine (name : Atom) : Text := "  " ++ name.display

variable {cluster : ZombieCluster}

/-- Where functions do not come together with components, there are none to show. -/
theorem clusterLines_eq (unmixed : cluster.components = [] ∨ cluster.functions = ∅) :
    clusterLines console cluster =
      ⟨title console cluster :: cluster.components.map componentLine ++ [advice console cluster],
        none⟩ := by
  have members : Transcript.ofItems (memberLine console cluster) cluster.components =
      ⟨cluster.components.map componentLine, none⟩ := by
    -- Without components no member has a line, without functions the line of a member is its name.
    cases unmixed with
    | inl noComponent =>
        rw [noComponent]
        rfl
    | inr noFunction =>
        have alone : memberLine console cluster = fun name => ⟨[componentLine name], none⟩ := by
          funext name
          rw [memberLine, noFunction]
          rfl
        rw [ofItems_eq (by simp [alone]), alone, ← List.map_eq_flatMap]
  rw [clusterLines, members]
  rfl

theorem block_eq (unmixed : cluster.components = [] ∨ cluster.functions = ∅) :
    block console cluster = console.echo (title console cluster) ++
      cluster.components.flatMap (fun name => console.echo (componentLine name)) ++
        console.echo (advice console cluster) := by
  rw [block, clusterLines_eq unmixed]
  simp [List.flatMap_map]

/-! ## The listing -/

variable {report : ZombieReport}

/-- The line before all clusters. -/
def opening (report : ZombieReport) : Text :=
  "\nFound " ++ Text.ofNat report.stats.clusters ++ " zombie cluster(s):\n"

/-- The line behind all clusters. -/
def closing (report : ZombieReport) : Text :=
  "Entry points: " ++ Text.ofNat report.stats.entryPoints ++ ", zombie components: " ++
    Text.ofNat report.stats.components

/-- A report in which components and functions never come together. -/
def Unmixed (report : ZombieReport) : Prop :=
  ∀ cluster ∈ report.clusters, cluster.components = [] ∨ cluster.functions = ∅

/-- A report in which all names of components have an encoding. -/
def Whole (report : ZombieReport) : Prop :=
  ∀ cluster ∈ report.clusters, ∀ name ∈ cluster.components, isBroken name.display = false

instance (report : ZombieReport) : Decidable (Whole report) :=
  inferInstanceAs (Decidable (∀ cluster ∈ report.clusters, ∀ name ∈ cluster.components,
    isBroken name.display = false))

/-- The lines about all clusters. -/
def linesOf (console : Console) (report : ZombieReport) : List Text :=
  if report.clusters.isEmpty then ["No zombie clusters found."]
  else
    opening report ::
      (report.clusters.flatMap fun cluster => (clusterLines console cluster).lines) ++
      [closing report]

/-- The blocks of all clusters between two lines. -/
def listing (console : Console) (report : ZombieReport) : Text :=
  if report.clusters.isEmpty then console.echo "No zombie clusters found."
  else
    console.echo (opening report) ++ report.clusters.flatMap (block console) ++
      console.echo (closing report)

theorem flatMap_linesOf (console : Console) (report : ZombieReport) :
    (linesOf console report).flatMap console.echo = listing console report := by
  rw [linesOf, listing]
  cases report.clusters.isEmpty with
  | true => simp
  | false =>
      have blocks : block console =
          fun cluster => (clusterLines console cluster).lines.flatMap console.echo := rfl
      simp [blocks, List.flatMap_assoc]

theorem listZombies_eq (unmixed : Unmixed report) :
    listZombies console report = ⟨linesOf console report, none⟩ := by
  have noFault : ∀ cluster ∈ report.clusters, (clusterLines console cluster).fault = none := by
    intro cluster isCluster
    rw [clusterLines_eq (unmixed cluster isCluster)]
  rw [listZombies, linesOf, ofItems_eq noFault]
  cases report.clusters.isEmpty <;> rfl

section Encodings

variable (faithful : console.Faithful)

include faithful

theorem isBroken_title (cluster : ZombieCluster) :
    isBroken (title console cluster) = isBroken cluster.id := by
  have risk : isBroken cluster.risk.text = false := by
    cases cluster.risk <;> exact isBroken_ofString _
  simp [title, isBroken_append, faithful.style, isBroken_ofString, risk, Text.ofNat]

theorem isBroken_advice (cluster : ZombieCluster) :
    isBroken (advice console cluster) = false := by
  have suggestion : isBroken cluster.risk.suggestion = false := by
    cases cluster.risk <;> simp [Risk.suggestion, isBroken_append, isBroken_ofString]
  simp [advice, isBroken_append, faithful.style, isBroken_ofString, suggestion]

/-- The lines about a report have an encoding exactly if the names of the components do. -/
theorem forall_linesOf_iff (unmixed : Unmixed report)
    (identified : ∀ cluster ∈ report.clusters, isBroken cluster.id = false) :
    (∀ line ∈ linesOf console report, isBroken line = false) ↔ Whole report := by
  have inBlock : ∀ cluster ∈ report.clusters,
      (∀ line ∈ (clusterLines console cluster).lines, isBroken line = false) ↔
        ∀ name ∈ cluster.components, isBroken name.display = false := by
    intro cluster isCluster
    rw [clusterLines_eq (unmixed cluster isCluster), List.forall_mem_append, List.forall_mem_cons,
      List.forall_mem_map, List.forall_mem_singleton]
    simp [isBroken_title faithful, identified cluster isCluster, isBroken_advice faithful,
      componentLine, isBroken_append, isBroken_ofString]
  rw [linesOf, Whole]
  split
  case isTrue noCluster =>
    simp [List.isEmpty_iff.1 noCluster, isBroken_ofString]
  case isFalse _ =>
    have outside : isBroken (opening report) = false ∧ isBroken (closing report) = false := by
      simp [opening, closing, isBroken_append, isBroken_ofString, Text.ofNat]
    rw [List.forall_mem_append, List.forall_mem_cons, List.forall_mem_flatMap,
      List.forall_mem_singleton]
    simp only [outside, true_and, and_true]
    exact forall₂_congr inBlock

end Encodings

/-! ## The command -/

variable {tree : FileTree} {components : List Component} {catalog : Catalog}

theorem runZombies_eq (environment : Environment) (verbose : Bool) {file : PosixPath}
    (loaded : ComponentsFile.load environment.host.deepest tree file = .ok components)
    (built : Catalog.ofComponents components = .ok catalog)
    (made : ZombieReport.ofComponents components catalog {} = .ok report) :
    runZombies environment tree verbose file =
      printed environment tree
        (noticeText verbose (loadNotices environment.host.deepest tree file ++
          [Analysis.zombieNotice report]))
        (listZombies environment.console report) := by
  rw [runZombies, withComponents, loaded]
  simp only [built, made]

variable {graph : Digraph Vertex} {settings : Settings}

theorem exists_describe {cluster : ZombieCluster}
    (isCluster : cluster ∈ (ZombieReport.ofGraph graph catalog settings).clusters) :
    ∃ index : Nat, ∃ members ∈ ZombieReport.zombieClusters graph,
      cluster = .describe (ZombieReport.clusterId index) members graph catalog := by
  rcases List.mem_iff_getElem?.1 isCluster with ⟨index, isAt⟩
  rw [ZombieReport.clusters_ofGraph, ZombieReport.getElem?_describeFrom,
    Option.map_eq_some_iff] at isAt
  rcases isAt with ⟨members, isMembers, rfl⟩
  exact ⟨_, members, List.mem_of_getElem? isMembers, rfl⟩

/-- A cluster of a call graph has components or functions. -/
theorem unmixed_ofGraph (graphBuilt : CallGraph.ofComponents components catalog = .ok graph) :
    Unmixed (ZombieReport.ofGraph graph catalog settings) := by
  intro cluster isCluster
  rcases exists_describe isCluster with ⟨index, members, isMembers, rfl⟩
  cases (CallGraph.ofComponents_layered graphBuilt).cluster_cases isMembers with
  | inl onlyComponents =>
      exact .inr (ZombieReport.functions_describe onlyComponents _ graph catalog)
  | inr ofOneOwner =>
      rcases ofOneOwner with ⟨owner, onlyFunctions⟩
      exact .inl (ZombieReport.components_describe onlyFunctions _ graph catalog)

theorem isBroken_id {cluster : ZombieCluster}
    (isCluster : cluster ∈ (ZombieReport.ofGraph graph catalog settings).clusters) :
    isBroken cluster.id = false := by
  rcases exists_describe isCluster with ⟨index, members, -, rfl⟩
  simp [ZombieCluster.describe, ZombieReport.clusterId, isBroken_append, isBroken_ofString,
    Text.ofInt]

theorem exists_text_of_mem_components (textual : ∀ component ∈ components, component.Textual)
    (built : Catalog.ofComponents components = .ok catalog) {cluster : ZombieCluster}
    (isCluster : cluster ∈ (ZombieReport.ofGraph graph catalog settings).clusters) {name : Atom}
    (isName : name ∈ cluster.components) : ∃ text, name = .text text := by
  rcases exists_describe isCluster with ⟨index, members, -, rfl⟩
  rcases List.mem_map.1 isName with ⟨id, -, rfl⟩
  exact Catalog.exists_displayName_eq_text textual built id

/-- The names of components are lines of a block, and without its functions it is the same. -/
theorem shows_of_unmixed (faithful : console.Faithful)
    (unmixed : cluster.components = [] ∨ cluster.functions = ∅) :
    (∀ text, .text text ∈ cluster.components →
      console.echo (ofString "  " ++ text) <:+: block console cluster ∧
      (Console.escapePoint ∉ text →
        ofString "  " ++ text ++ ofString "\n" <:+: block console cluster)) ∧
    block console cluster = block console { cluster with functions := ∅ } ∧
    (cluster.functions ≠ ∅ → block console cluster =
      console.echo (title console cluster) ++ console.echo (advice console cluster)) := by
  refine ⟨?_, ?_, ?_⟩
  · intro text isName
    have inMiddle : console.echo (ofString "  " ++ text) <:+:
        cluster.components.flatMap fun name => console.echo (componentLine name) :=
      List.infix_of_mem_flatten (List.mem_map.2 ⟨.text text, isName, rfl⟩)
    have shown : console.echo (ofString "  " ++ text) <:+: block console cluster := by
      rw [block_eq unmixed]
      exact inMiddle.trans (List.infix_append _ _ _)
    refine ⟨shown, ?_⟩
    intro free
    have noCode : Console.escapePoint ∉ ofString "  " ++ text := by
      rw [List.mem_append, not_or]
      exact ⟨by decide, free⟩
    rwa [faithful.plain _ noCode] at shown
  · rw [block_eq unmixed, block_eq (.inr rfl)]
    rfl
  · intro hasFunction
    rw [block_eq unmixed, unmixed.resolve_right hasFunction]
    simp

/-- What is printed of a transcript without faults. -/
theorem printed_cases {environment : Environment} (faithful : environment.console.Faithful)
    (tree : FileTree) (notices : String) (lines : List Text) :
    ((∀ line ∈ lines, isBroken line = false) →
      (printed environment tree notices ⟨lines, none⟩).exit = 0 ∧
      (printed environment tree notices ⟨lines, none⟩).fault = none ∧
      ofString (printed environment tree notices ⟨lines, none⟩).stdout =
        lines.flatMap environment.console.echo) ∧
    (¬ (∀ line ∈ lines, isBroken line = false) →
      (printed environment tree notices ⟨lines, none⟩).exit = 1 ∧
      (printed environment tree notices ⟨lines, none⟩).fault = some .brokenText) := by
  constructor
  · intro whole
    rcases print_of_whole faithful whole with ⟨stdout, isPrinted, isText⟩
    rw [printed, isPrinted]
    exact ⟨rfl, rfl, isText⟩
  · intro notWhole
    have broken : ∃ line ∈ lines, isBroken line = true := by simpa using notWhole
    have ended := print_of_broken faithful broken
    simp [printed, ended]

/-- The command prints the listing of a report that is whole, and otherwise ends with a fault. -/
theorem runZombies_cases {environment : Environment} (faithful : environment.console.Faithful)
    (verbose : Bool) {file : PosixPath}
    (loaded : ComponentsFile.load environment.host.deepest tree file = .ok components)
    (built : Catalog.ofComponents components = .ok catalog)
    (graphBuilt : CallGraph.ofComponents components catalog = .ok graph) :
    ∃ outcome, runZombies environment tree verbose file = outcome ∧
      (Whole (ZombieReport.ofGraph graph catalog {}) → outcome.exit = 0 ∧ outcome.fault = none ∧
        ofString outcome.stdout =
          listing environment.console (ZombieReport.ofGraph graph catalog {})) ∧
      (¬ Whole (ZombieReport.ofGraph graph catalog {}) →
        outcome.exit = 1 ∧ outcome.fault = some .brokenText) := by
  have made := ZombieReport.ofComponents_eq_ok graphBuilt {}
  have unmixed : Unmixed (ZombieReport.ofGraph graph catalog {}) := unmixed_ofGraph graphBuilt
  have isRun := runZombies_eq environment verbose loaded built made
  rw [listZombies_eq unmixed] at isRun
  refine ⟨_, isRun, ?_⟩
  rw [← forall_linesOf_iff faithful unmixed fun _ => isBroken_id, ← flatMap_linesOf]
  exact printed_cases faithful tree _ _

/-- The command shows the components of every cluster, and of the functions nothing: the block of a
cluster is the same without them, and the block of a cluster that has some is a title with advice.
The blocks of all clusters are printed unless the name of a component has no encoding. -/
theorem listing_names_only_components {environment : Environment}
    (faithful : environment.console.Faithful) (verbose : Bool) {file : PosixPath}
    (loaded : ComponentsFile.load environment.host.deepest tree file = .ok components)
    (textual : ∀ component ∈ components, component.Textual)
    (named : ∀ component ∈ components, CallGraph.Named component) :
    ∃ catalog report outcome, Catalog.ofComponents components = .ok catalog ∧
      ZombieReport.ofComponents components catalog {} = .ok report ∧
      runZombies environment tree verbose file = outcome ∧
      (∀ cluster ∈ report.clusters,
        (∀ name ∈ cluster.components, ∃ text, name = .text text ∧
          environment.console.echo (ofString "  " ++ text) <:+:
            block environment.console cluster ∧
          (Console.escapePoint ∉ text →
            ofString "  " ++ text ++ ofString "\n" <:+: block environment.console cluster)) ∧
        block environment.console cluster =
          block environment.console { cluster with functions := ∅ } ∧
        (cluster.functions ≠ ∅ → block environment.console cluster =
          environment.console.echo (title environment.console cluster) ++
            environment.console.echo (advice environment.console cluster))) ∧
      (Whole report → outcome.exit = 0 ∧ outcome.fault = none ∧
        ofString outcome.stdout = listing environment.console report) ∧
      (¬ Whole report → outcome.exit = 1 ∧ outcome.fault = some .brokenText) := by
  rcases Catalog.exists_ofComponents textual with ⟨catalog, built⟩
  rcases CallGraph.exists_ofComponents named catalog with ⟨graph, graphBuilt⟩
  rcases runZombies_cases faithful verbose loaded built graphBuilt with ⟨outcome, isRun, prints⟩
  refine ⟨catalog, _, outcome, built, ZombieReport.ofComponents_eq_ok graphBuilt {}, isRun, ?_,
    prints⟩
  intro cluster isCluster
  rcases shows_of_unmixed faithful (unmixed_ofGraph graphBuilt cluster isCluster) with
    ⟨shown, unchanged, short⟩
  refine ⟨?_, unchanged, short⟩
  intro name isName
  rcases exists_text_of_mem_components textual built isCluster isName with ⟨text, rfl⟩
  exact ⟨text, rfl, shown text isName⟩

/-- The usual console without shades, on a host that reads one file after the other. -/
def plain : Environment where
  host := .sequential none
  console := .usual false
  serverAvailable := false

/-- Two components that import each other. -/
def valves : FileTree where
  entries := Table.ofList
    [(⟨false, ["c.json"]⟩, .file ("[\x7b\"name\":\"Valve\",\"fullPath\":\"src/Valve.tsx\"," ++
      "\"directory\":\"src\",\"imports\":[\"./Gauge\"]\x7d," ++
      "\x7b\"name\":\"Gauge\",\"fullPath\":\"src/Gauge.tsx\"," ++
      "\"directory\":\"src\",\"imports\":[\"./Valve\"]\x7d]").toUTF8)]

/-- Components that import each other are a cluster, and the command shows both. -/
theorem valves_are_listed :
    plain.console.Faithful ∧
    ∃ components, ComponentsFile.load plain.host.deepest valves (PosixPath.ofText "c.json") =
        .ok components ∧
      (∀ component ∈ components, component.Textual) ∧
      (∀ component ∈ components, CallGraph.Named component) ∧
      ∃ catalog report, Catalog.ofComponents components = .ok catalog ∧
        ZombieReport.ofComponents components catalog {} = .ok report ∧
        (∀ cluster ∈ report.clusters, cluster.components = [.text "Valve", .text "Gauge"] ∧
          ofString "  Valve\n" <:+: block plain.console cluster ∧
          ofString "  Gauge\n" <:+: block plain.console cluster) ∧
        (runZombies plain valves false (PosixPath.ofText "c.json")).exit = 0 ∧
        ofString (runZombies plain valves false (PosixPath.ofText "c.json")).stdout =
          listing plain.console report := by
  have faithful : plain.console.Faithful := Console.faithful_usual false
  have computed :
      ∃ components ∈
        (ComponentsFile.load plain.host.deepest valves (PosixPath.ofText "c.json")).toOption,
        (∀ component ∈ components, component.Textual) ∧
        (∀ component ∈ components, CallGraph.Named component) ∧
        ∃ catalog ∈ (Catalog.ofComponents components).toOption,
        ∃ report ∈ (ZombieReport.ofComponents components catalog {}).toOption,
          Whole report ∧ ∀ cluster ∈ report.clusters,
            cluster.components = [.text "Valve", .text "Gauge"] := by
    decide +kernel
  simp only [Option.mem_def, toOption_eq_some_iff] at computed
  rcases computed with
    ⟨components, loaded, textual, named, catalog, built, report, made, whole, members⟩
  rcases listing_names_only_components faithful false loaded textual named with
    ⟨_, _, _, sameCatalog, sameReport, rfl, shown, prints, -⟩
  rw [built] at sameCatalog
  cases sameCatalog
  rw [made] at sameReport
  cases sameReport
  rcases prints whole with ⟨exits, -, isPrinted⟩
  refine ⟨faithful, components, loaded, textual, named, catalog, report, built, made, ?_, exits,
    isPrinted⟩
  intro cluster isCluster
  have names := members cluster isCluster
  have lines := (shown cluster isCluster).1
  rw [names] at lines
  rcases lines (.text "Valve") (by simp) with ⟨valve, ⟨⟩, -, valveShown⟩
  rcases lines (.text "Gauge") (by simp) with ⟨gauge, ⟨⟩, -, gaugeShown⟩
  exact ⟨names, valveShown (by decide), gaugeShown (by decide)⟩

/-- A component two of whose functions call each other. -/
def station : FileTree where
  entries := Table.ofList
    [(⟨false, ["c.json"]⟩, .file ("[\x7b\"name\":\"Pump\",\"fullPath\":\"src/Pump.tsx\"," ++
      "\"directory\":\"src\",\"imports\":[],\"functions\":[\"fill\",\"drain\"]," ++
      "\"functionCalls\":\x7b\"fill\":[\"drain\"],\"drain\":[\"fill\"]\x7d\x7d]").toUTF8)]

/-- Functions that call each other are a cluster, and the command shows neither. -/
theorem station_hides_functions :
    ∃ components catalog report,
      ComponentsFile.load plain.host.deepest station (PosixPath.ofText "c.json") =
        .ok components ∧
      Catalog.ofComponents components = .ok catalog ∧
      ZombieReport.ofComponents components catalog {} = .ok report ∧
      (∃ cluster ∈ report.clusters,
        cluster.functions.get? (.text "Pump") = some [.text "fill", .text "drain"] ∧
        ¬ ofString "fill" <:+: block plain.console cluster ∧
        ¬ ofString "drain" <:+: block plain.console cluster) ∧
      ∃ outcome, runZombies plain station false (PosixPath.ofText "c.json") = outcome ∧
        outcome.exit = 0 ∧ ¬ ofString "fill" <:+: ofString outcome.stdout ∧
        ¬ ofString "drain" <:+: ofString outcome.stdout := by
  have computed :
      ∃ components ∈
        (ComponentsFile.load plain.host.deepest station (PosixPath.ofText "c.json")).toOption,
      ∃ catalog ∈ (Catalog.ofComponents components).toOption,
      ∃ graph ∈ (CallGraph.ofComponents components catalog).toOption,
        Whole (ZombieReport.ofGraph graph catalog {}) ∧
        ¬ ofString "fill" <:+: listing plain.console (ZombieReport.ofGraph graph catalog {}) ∧
        ¬ ofString "drain" <:+: listing plain.console (ZombieReport.ofGraph graph catalog {}) ∧
        ∃ cluster ∈ (ZombieReport.ofGraph graph catalog {}).clusters,
          cluster.functions.get? (.text "Pump") = some [.text "fill", .text "drain"] ∧
          ¬ ofString "fill" <:+: block plain.console cluster ∧
          ¬ ofString "drain" <:+: block plain.console cluster := by
    decide +kernel
  simp only [Option.mem_def, toOption_eq_some_iff] at computed
  rcases computed with
    ⟨components, loaded, catalog, built, graph, graphBuilt, whole, noFill, noDrain, hidden⟩
  rcases runZombies_cases (Console.faithful_usual false) false loaded built graphBuilt with
    ⟨outcome, isRun, prints, -⟩
  rcases prints whole with ⟨exits, -, isPrinted⟩
  refine ⟨components, catalog, _, loaded, built, ZombieReport.ofComponents_eq_ok graphBuilt {},
    hidden, outcome, isRun, exits, ?_⟩
  rw [isPrinted]
  exact ⟨noFill, noDrain⟩

end Command

end ImportAtlas
