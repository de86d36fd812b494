import Mathlib.Logic.Function.Basic
import VisionSensor.Core.Decimal
import VisionSensor.Core.Types
import VisionSensor.Lib.SqlQuoting

/-! The rows of `parking_spot`, and the statements by which `ParkingSpotManager` writes them:
`createDB`, `updateDB` and `isExist`. A statement that does not parse has no effect. -/
namespace VisionSensor
open Sql

/-- A row, without the id it is kept under. -/
structure SpotRow where
  parking_spot_name : List Char
  roi_coordx : ℤ
  roi_coordy : ℤ
  roi_height : ℤ
  roi_width : ℤ
  policy_id : ℤ
  deriving DecidableEq, Repr

abbrev SpotRows := ℤ → Option SpotRow

namespace SpotRows

/-- A value in a column of numbers. -/
def toInt : Value → Option ℤ
  | .num n => some n
  | .str s => (readInt s).bind fun r => if r.2 = [] then some r.1 else none

/-- A value in a column of texts. -/
def toText : Value → List Char
  | .num n => to_string n
  | .str s => s

def intField (fields : List (List Char × Value)) (column : String) : Option ℤ :=
  (fields.lookup column.toList).bind toInt

/-- The row an `INSERT` adds, and its id. -/
def insertedRow (fields : List (List Char × Value)) : Option (ℤ × SpotRow) := do
  let id ← intField fields "parking_spot_id"
  let name ← fields.lookup "parking_spot_name".toList
  let x ← intField fields "roi_coordx"
  let y ← intField fields "roi_coordy"
  let height ← intField fields "roi_height"
  let width ← intField fields "roi_width"
  let policy ← intField fields "policy_id"
  some (id, ⟨toText name, x, y, height, width, policy⟩)

/-- One assignment of an `UPDATE`. -/
def setColumn (r : SpotRow) (set : List Char × Value) : Option SpotRow :=
  if set.1 = "parking_spot_name".toList then some { r with parking_spot_name := toText set.2 }
  else
    (toInt set.2).bind fun n =>
      if set.1 = "roi_coordx".toList then some { r with roi_coordx := n }
      else if set.1 = "roi_coordy".toList then some { r with roi_coordy := n }
      else if set.1 = "roi_height".toList then some { r with roi_height := n }
      else if set.1 = "roi_width".toList then some { r with roi_width := n }
      else if set.1 = "policy_id".toList then some { r with policy_id := n }
      else none

/-- The effect of a statement on the table; an id that is taken is not inserted again. -/
def execute (rows : SpotRows) : Statement → SpotRows
  | .insert table columns row =>
      if table = "parking_spot".toList ∧ columns.length = row.length then
        match insertedRow (columns.zip row) with
        | some (id, r) => if (rows id).isSome then rows else Function.update rows id (some r)
        | none => rows
      else rows
  | .update table sets column key =>
      if table = "parking_spot".toList ∧ column = "parking_spot_id".toList then
        match toInt key with
        | some id =>
            Function.update rows id ((rows id).map fun r => (sets.foldlM setColumn r).getD r)
        | none => rows
      else rows

/-- `c_str()`, as far as it is read. -/
def c_str (text : List Char) : List Char := text.takeWhile fun c => decide (c ≠ Char.ofNat 0)

def mysql_query (rows : SpotRows) (text : List Char) : SpotRows :=
  (parse (c_str text)).elim rows (execute rows)

/-- The text of the `INSERT` behind the name. The policy is 5. -/
def createTail (roi_x roi_y roi_h roi_w : ℤ) : List Char :=
  ", ".toList ++ to_string roi_x ++ ", ".toList ++ to_string roi_y ++ ", ".toList ++
    to_string roi_h ++ ", ".toList ++ to_string roi_w ++ ", ".toList ++ to_string 5 ++ ")".toList

def createHead : List Char :=
  ("insert into parking_spot (parking_spot_id, parking_spot_name, roi_coordx, " ++
    "roi_coordy, roi_height, roi_width, policy_id) values (").toList

/-- The text `createDB` sends. -/
def createText (id : ℤ) (spotName : List Char) (roi_x roi_y roi_h roi_w : ℤ) : List Char :=
  createHead ++ to_string id ++ ", '".toList ++
    (spotName ++ '\'' :: createTail roi_x roi_y roi_h roi_w)

/-- The text of the `UPDATE` behind the name. -/
def updateTail (id roi_x roi_y roi_h roi_w : ℤ) : List Char :=
  ", roi_coordx = '".toList ++ to_string roi_x ++ "', roi_coordy = '".toList ++ to_string roi_y ++
    "', roi_height = '".toList ++ to_string roi_h ++ "', roi_width = '".toList ++ to_string roi_w ++
    "', policy_id = '".toList ++ to_string 5 ++ "', WHERE parking_spot_id = ".toList ++
    to_string id

def updateHead : List Char := "UPDATE parking_spot SET parking_spot_name = '".toList

/-- The text `updateDB` sends. -/
def updateText (id : ℤ) (spotName : List Char) (roi_x roi_y roi_h roi_w : ℤ) : List Char :=
  updateHead ++ (spotName ++ '\'' :: updateTail id roi_x roi_y roi_h roi_w)

/-- The policy that is passed is not used. -/
def createDB (rows : SpotRows) (id : ℤ) (spotName : String) (roi_x roi_y roi_h roi_w _policy : ℤ) :
    SpotRows :=
  mysql_query rows (createText id spotName.toList roi_x roi_y roi_h roi_w)

def updateDB (rows : SpotRows) (id : ℤ) (spotName : String) (roi_x roi_y roi_h roi_w _policy : ℤ) :
    SpotRows :=
  mysql_query rows (updateText id spotName.toList roi_x roi_y roi_h roi_w)

def isExist (rows : SpotRows) (id : ℤ) : Bool := (rows id).isSome

/-- The fields of a statement say the name, as a string, and the coordinates, each in its column. -/
structure Says (fields : List (List Char × Value)) (spotName : List Char) (roi : Rect) : Prop where
  columns : (fields.map Prod.fst).Nodup
  name : fields.lookup "parking_spot_name".toList = some (.str spotName)
  x : intField fields "roi_coordx" = some roi.x
  y : intField fields "roi_coordy" = some roi.y
  height : intField fields "roi_height" = some roi.height
  width : intField fields "roi_width" = some roi.width

/-- A text is one `INSERT` of the row with the id, the name and the coordinates. -/
def SaysInsert (text : List Char) (id : ℤ) (spotName : List Char) (roi : Rect) : Prop :=
  ∃ columns row, parse (c_str text) = some (.insert "parking_spot".toList columns row) ∧
    columns.length = row.length ∧ intField (columns.zip row) "parking_spot_id" = some id ∧
    Says (columns.zip row) spotName roi

/-- A text is one `UPDATE` of the row with the id to the name and the coordinates. -/
def SaysUpdate (text : List Char) (id : ℤ) (spotName : List Char) (roi : Rect) : Prop :=
  ∃ sets key, parse (c_str text) =
      some (.update "parking_spot".toList sets "parking_spot_id".toList key) ∧
    toInt key = some id ∧ Says sets spotName roi

/-- A name that can stand between the quotes of a statement. -/
def Sendable (spotName : List Char) : Prop := Char.ofNat 0 ∉ spotName ∧ Plain '\'' spotName

end SpotRows
end VisionSensor
