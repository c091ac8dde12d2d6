import ImportAtlas.Component

/-!
# Lists of records

A components file holds a list of records, or an object with such a list. Records without a name
or a path are passed over with a notice, all others must be readable.
-/

namespace ImportAtlas.Records

/-- The list of records in decoded data. -/
def ofData (data : Json) : Except Fault (List Json) :=
  let listed :=
    match data with
    | .obj _ => (data.field? "components").getD .null
    | other => other
  match listed with
  | .arr records => .ok records
  | _ => .error .notRecords

/-- The fields of a record that has a name and a path. -/
def usable? : Json → Option (List (Text × Json))
  | .obj fields =>
      let given (field : Text) := ((fields.lookup field).getD .null).isTruthy
      if given "name" && given "fullPath" then some fields else none
  | _ => none

/-- Read the usable records, in order. -/
def components : List Json → Except Fault (List Component)
  | [] => .ok []
  | record :: records =>
      match usable? record with
      | none => components records
      | some fields => do
          let component ← Component.ofFields fields
          let others ← components records
          return component :: others

/-- Positions of the records that are passed over, counted from `start`, up to the first record
that cannot be read. -/
def skippedFrom (start : Nat) : List Json → List Nat
  | [] => []
  | record :: records =>
      match usable? record with
      | none => start :: skippedFrom (start + 1) records
      | some fields =>
          match Component.ofFields fields with
          | .ok _ => skippedFrom (start + 1) records
          | .error _ => []

/-- Positions of the records that are passed over. -/
def skipped (records : List Json) : List Nat := skippedFrom 0 records

/-- The notice for a record that is passed over. -/
def skipNotice (position : Nat) : Text :=
  "Skipping component record " ++ Text.ofNat position ++ ": missing name or fullPath"

/-- Components of decoded data. -/
def parse (data : Json) : Except Fault (List Component) := do
  components (← ofData data)

/-- Notices that reading decoded data gives. -/
def notices (data : Json) : List Text :=
  match ofData data with
  | .ok records => (skipped records).map skipNotice
  | .error _ => []

end ImportAtlas.Records
