import VisionSensor.Core.Decimal
import VisionSensor.Core.Types

/-! A parking update message as a file: the name it is saved under, and the way back. File names
are lists of characters. A file is its name and the image written to it. -/
namespace VisionSensor

structure File where
  name : List Char
  image : Mat
  deriving DecidableEq, Repr

/-- What the storage asks of Boost, of OpenCV and of the disk. `from_iso_string` throws on `none`,
`imread` gives an empty image for a file it cannot read. -/
structure Storage where
  to_iso_string : Ptime → List Char
  from_iso_string : List Char → Option Ptime
  checkFolder : Bool
  imwrite : List Char → Mat → Bool
  imread : Mat → Mat
  remove : List Char → Bool

/-- The exceptions `load` lets out. -/
inductive LoadError where
  | bad_time
  | stoi (e : StoiError)
  deriving DecidableEq, Repr

/-- `boost::filesystem::path::stem`: the name up to its last dot. -/
def stem (name : List Char) : List Char :=
  if '.' ∈ name then ((name.reverse.dropWhile (· ≠ '.')).drop 1).reverse else name

/-- `boost::filesystem::path::extension`: the rest of the name, dot included. -/
def extension (name : List Char) : List Char := name.drop (stem name).length

namespace ParkingUpdateMessage

/-- What identifies a message in the store. -/
structure Key where
  time : Ptime
  code : ℤ
  plate : String
  spot : ℤ
  deriving DecidableEq, Repr

def key (m : ParkingUpdateMessage) : Key := ⟨m.mEventTime, m.mRequestCode, m.mPlateNum, m.mSpotID⟩

def constructFilename (io : Storage) (m : ParkingUpdateMessage) : List Char :=
  io.to_iso_string m.mEventTime ++ '_' :: (to_string m.mRequestCode ++
    '_' :: (m.mPlateNum.toList ++ '_' :: (to_string m.mSpotID ++ ".png".toList)))

/-- The file `save` writes. -/
def toFile (io : Storage) (m : ParkingUpdateMessage) : File := ⟨m.constructFilename io, m.mFrame⟩

/-- `save`: a file of the same name is overwritten. -/
def save (io : Storage) (m : ParkingUpdateMessage) (folder : List File) : List File × Bool :=
  if !io.checkFolder then (folder, false)
  else if !io.imwrite (m.constructFilename io) m.mFrame then (folder, false)
  else
    (if folder.any fun f => f.name == m.constructFilename io then
        folder.map fun f => if f.name == m.constructFilename io then m.toFile io else f
      else folder ++ [m.toFile io], true)

/-- `load`; `none` is the answer false. -/
def load (io : Storage) (f : File) : Except LoadError (Option ParkingUpdateMessage) :=
  match (stem f.name).splitOn '_' with
  | time :: code :: plate :: spot :: _ =>
      let mFrame := io.imread f.image
      if mFrame.empty then .ok none
      else
        match io.from_iso_string time with
        | none => .error .bad_time
        | some mEventTime =>
            match stoi code with
            | .error e => .error (.stoi e)
            | .ok mRequestCode =>
                match stoi spot with
                | .error e => .error (.stoi e)
                | .ok mSpotID =>
                    .ok (some { mEventTime, mRequestCode, mPlateNum := String.ofList plate,
                                mSpotID, mFrame })
  | _ => .ok none

/-- A message as the sensor builds it: a time Boost writes and reads back, an image, a plate
without separators. The codes are values of `int`. -/
structure Valid (io : Storage) (m : ParkingUpdateMessage) : Prop where
  time : io.from_iso_string (io.to_iso_string m.mEventTime) = some m.mEventTime
  timeChars : ∀ c ∈ io.to_iso_string m.mEventTime, c ≠ '_' ∧ c ≠ '/'
  code : InInt m.mRequestCode
  spot : InInt m.mSpotID
  plate : ∀ c ∈ m.mPlateNum.toList, c ≠ '_' ∧ c ≠ '/'
  image : m.mFrame.empty = false

end ParkingUpdateMessage

/-- Folder checks, image writes, image reads and removals succeed. -/
structure Storage.Works (io : Storage) : Prop where
  checkFolder : io.checkFolder = true
  imwrite : ∀ name image, '/' ∉ name → image.empty = false → io.imwrite name image = true
  imread : ∀ image, image.empty = false → (io.imread image).empty = false
  remove : ∀ name, io.remove name = true

theorem stem_append {name ext : List Char} (h : '.' ∉ ext) : stem (name ++ '.' :: ext) = name := by
  have hmem : '.' ∈ name ++ '.' :: ext := by simp
  have hrev : (name ++ '.' :: ext).reverse = ext.reverse ++ '.' :: name.reverse := by simp
  have hdrop : (ext.reverse ++ '.' :: name.reverse).dropWhile (· ≠ '.') = '.' :: name.reverse := by
    rw [List.dropWhile_append_of_pos]
    · simp
    · intro c hc
      simp only [ne_eq, decide_eq_true_eq]
      rintro rfl
      exact h (List.mem_reverse.mp hc)
  rw [stem, if_pos hmem, hrev, hdrop]
  simp

theorem extension_append {name ext : List Char} (h : '.' ∉ ext) :
    extension (name ++ '.' :: ext) = '.' :: ext := by
  rw [extension, stem_append h, List.drop_left]

namespace ParkingUpdateMessage

variable {io : Storage} {m : ParkingUpdateMessage}

/-- The name without its extension, as the four parts `load` splits it into. -/
theorem constructFilename_eq (io : Storage) (m : ParkingUpdateMessage) :
    m.constructFilename io = ['_'].intercalate [io.to_iso_string m.mEventTime,
      to_string m.mRequestCode, m.mPlateNum.toList, to_string m.mSpotID] ++ '.' :: "png".toList := by
  simp [constructFilename, List.intercalate, List.intersperse]

theorem stem_constructFilename (io : Storage) (m : ParkingUpdateMessage) :
    stem (m.constructFilename io) = ['_'].intercalate [io.to_iso_string m.mEventTime,
      to_string m.mRequestCode, m.mPlateNum.toList, to_string m.mSpotID] := by
  rw [constructFilename_eq, stem_append (by decide)]

theorem extension_constructFilename (io : Storage) (m : ParkingUpdateMessage) :
    extension (m.constructFilename io) = ".png".toList := by
  rw [constructFilename_eq, extension_append (by decide)]
  rfl

/-- The stem splits back into the four parts. -/
theorem splitOn_constructFilename (htime : ∀ c ∈ io.to_iso_string m.mEventTime, c ≠ '_')
    (hplate : ∀ c ∈ m.mPlateNum.toList, c ≠ '_') :
    (stem (m.constructFilename io)).splitOn '_' = [io.to_iso_string m.mEventTime,
      to_string m.mRequestCode, m.mPlateNum.toList, to_string m.mSpotID] := by
  rw [stem_constructFilename, List.splitOn_intercalate]
  · intro part hpart
    simp only [List.mem_cons, List.not_mem_nil, or_false] at hpart
    intro hc
    rcases hpart with rfl | rfl | rfl | rfl
    · exact htime _ hc rfl
    · exact (to_string_mem hc).1 rfl
    · exact hplate _ hc rfl
    · exact (to_string_mem hc).1 rfl
  · simp

theorem Valid.splitOn (h : m.Valid io) :
    (stem (m.constructFilename io)).splitOn '_' = [io.to_iso_string m.mEventTime,
      to_string m.mRequestCode, m.mPlateNum.toList, to_string m.mSpotID] :=
  splitOn_constructFilename (fun c hc => (h.timeChars c hc).1) fun c hc => (h.plate c hc).1

theorem no_slash_constructFilename (htime : ∀ c ∈ io.to_iso_string m.mEventTime, c ≠ '/')
    (hplate : ∀ c ∈ m.mPlateNum.toList, c ≠ '/') : '/' ∉ m.constructFilename io := by
  intro hc
  simp only [constructFilename, List.mem_append, List.mem_cons] at hc
  rcases hc with hc | hc | hc | hc | hc | hc | hc | hc
  · exact htime _ hc rfl
  · exact absurd hc (by decide)
  · exact (to_string_mem hc).2.2 rfl
  · exact absurd hc (by decide)
  · exact hplate _ hc rfl
  · exact absurd hc (by decide)
  · exact (to_string_mem hc).2.2 rfl
  · exact absurd hc (by decide)

theorem Valid.no_slash (h : m.Valid io) : '/' ∉ m.constructFilename io :=
  no_slash_constructFilename (fun c hc => (h.timeChars c hc).2) fun c hc => (h.plate c hc).2

/-- The message that comes back from the file of `m`: the cropped image is gone. -/
def reloaded (io : Storage) (m : ParkingUpdateMessage) : ParkingUpdateMessage :=
  { m with mFrame := io.imread m.mFrame, mCropFrame := Mat.none }

@[simp] theorem reloaded_key (io : Storage) (m : ParkingUpdateMessage) :
    (m.reloaded io).key = m.key := rfl

/-- Loading the file of a message restores its time, code, plate and spot. -/
theorem load_toFile (hio : io.Works) (h : m.Valid io) :
    load io (m.toFile io) = .ok (some (m.reloaded io)) := by
  have himage : (io.imread m.mFrame).empty = false := hio.imread _ h.image
  simp only [load, toFile, h.splitOn, himage, h.time, stoi_to_string h.code,
    stoi_to_string h.spot]
  simp [reloaded]

/-- Names that split into their parts tell messages of different keys apart. -/
theorem key_eq_of_splitOn {m' : ParkingUpdateMessage}
    (hsplit : (stem (m.constructFilename io)).splitOn '_' = [io.to_iso_string m.mEventTime,
      to_string m.mRequestCode, m.mPlateNum.toList, to_string m.mSpotID])
    (hsplit' : (stem (m'.constructFilename io)).splitOn '_' = [io.to_iso_string m'.mEventTime,
      to_string m'.mRequestCode, m'.mPlateNum.toList, to_string m'.mSpotID])
    (htime : io.from_iso_string (io.to_iso_string m.mEventTime) = some m.mEventTime)
    (htime' : io.from_iso_string (io.to_iso_string m'.mEventTime) = some m'.mEventTime)
    (hname : m.constructFilename io = m'.constructFilename io) : m.key = m'.key := by
  rw [hname, hsplit'] at hsplit
  simp only [List.cons.injEq, and_true] at hsplit
  obtain ⟨hiso, hcode, hplate, hspot⟩ := hsplit
  have ht : some m'.mEventTime = some m.mEventTime := by rw [← htime, ← htime', hiso]
  simp only [key, Option.some.inj ht, to_string_injective hcode, to_string_injective hspot,
    String.toList_inj.mp hplate]

theorem key_eq_of_name_eq {m' : ParkingUpdateMessage} (h : m.Valid io) (h' : m'.Valid io)
    (hname : m.constructFilename io = m'.constructFilename io) : m.key = m'.key :=
  key_eq_of_splitOn h.splitOn h'.splitOn h.time h'.time hname

end ParkingUpdateMessage
end VisionSensor
