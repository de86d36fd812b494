import VisionSensor.Core.Decimal

/-! `boost::property_tree::ptree` as the management code uses it: lookups by key, the conversion
of a value to `int`, and the faults of both. -/
namespace VisionSensor

/-- How a call leaves: by an exception derived from `std::exception`, or by stepping outside the
language (a null pointer, an index outside an array). -/
inductive Fault where
  | ptree_bad_path (path : String)
  | ptree_bad_data (data : String)
  | json_parser_error
  | system_error
  | undefined
  deriving DecidableEq, Repr

/-- What `catch (const boost::property_tree::ptree_error &e)` catches. -/
def Fault.isPtreeError : Fault → Bool
  | ptree_bad_path _ | ptree_bad_data _ | json_parser_error => true
  | system_error | undefined => false

/-- What `catch (std::exception& e)` catches. -/
def Fault.isException : Fault → Bool
  | undefined => false
  | _ => true

inductive PTree where
  | mk (data : String) (children : List (String × PTree))

namespace PTree

def data : PTree → String
  | mk data _ => data

def children : PTree → List (String × PTree)
  | mk _ children => children

/-- A default constructed tree. -/
def nil : PTree := mk "" []

def leaf (data : String) : PTree := mk data []

def empty (t : PTree) : Bool := t.children.isEmpty

/-- The first child with the key. -/
def find (t : PTree) (key : String) : Option PTree :=
  (t.children.find? fun c => c.1 == key).map Prod.snd

/-- `get_child(key, default)`. -/
def get_child (t : PTree) (key : String) (dflt : PTree) : PTree := (t.find key).getD dflt

/-- The data `put<int>` stores. -/
def intData (n : ℤ) : String := String.ofList (to_string n)

/-- Extracting an `int` from the whole of a string; white space may stand on both sides. A value
outside the range of `int` fails. -/
def toInt (s : String) : Option ℤ :=
  (readInt s.toList).bind fun (n, rest) =>
    if InInt n ∧ rest.dropWhile isSpace = [] then some n else none

/-- `get<std::string>(key)`. -/
def getString (t : PTree) (key : String) : Except Fault String :=
  match t.find key with
  | none => .error (.ptree_bad_path key)
  | some c => .ok c.data

/-- `get<int>(key)`. -/
def getInt (t : PTree) (key : String) : Except Fault ℤ :=
  match t.find key with
  | none => .error (.ptree_bad_path key)
  | some c =>
      match toInt c.data with
      | none => .error (.ptree_bad_data c.data)
      | some n => .ok n

theorem getString_error {t : PTree} {key : String} {e : Fault} (h : t.getString key = .error e) :
    e.isPtreeError = true := by
  unfold getString at h
  split at h
  · obtain rfl := Except.error.inj h
    rfl
  · cases h

/-- The key is present with an `int` as its value. -/
def HasInt (t : PTree) (key : String) : Prop := ∃ c n, t.find key = some c ∧ toInt c.data = some n

theorem getInt_ok_iff {t : PTree} {key : String} : (∃ n, t.getInt key = .ok n) ↔ t.HasInt key := by
  unfold getInt HasInt
  cases t.find key with
  | none => simp
  | some c =>
    cases h : toInt c.data <;> simp [h]

/-- A failed conversion is an exception that names its key or its data. -/
theorem getInt_error {t : PTree} {key : String} {e : Fault} (h : t.getInt key = .error e) :
    e.isPtreeError = true := by
  unfold getInt at h
  split at h
  · obtain rfl := Except.error.inj h
    rfl
  · split at h
    · obtain rfl := Except.error.inj h
      rfl
    · cases h

theorem toInt_intData {n : ℤ} (h : InInt n) : toInt (intData n) = some n := by
  have hr := readInt_to_string n [] (by simp)
  rw [List.append_nil] at hr
  simp [toInt, intData, hr, h]

/-- A string that is read as an `int` holds one. -/
theorem toInt_inInt {s : String} {n : ℤ} (h : toInt s = some n) : InInt n := by
  obtain ⟨p, -, hp⟩ := Option.bind_eq_some_iff.mp h
  obtain ⟨k, rest⟩ := p
  simp only at hp
  split_ifs at hp with hrange
  obtain rfl := Option.some.inj hp
  exact hrange.1

theorem getInt_inInt {t : PTree} {key : String} {n : ℤ} (h : t.getInt key = .ok n) : InInt n := by
  unfold getInt at h
  split at h
  · cases h
  · split at h
    · cases h
    · rename_i hint
      obtain rfl := Except.ok.inj h
      exact toInt_inInt hint

theorem getInt_of_find {t : PTree} {key : String} {n : ℤ} (h : t.find key = some (leaf (intData n)))
    (hn : InInt n) : t.getInt key = .ok n := by
  simp only [getInt, h, leaf, data, toInt_intData hn]

example : toInt "4x" = none := by decide

end PTree
end VisionSensor
