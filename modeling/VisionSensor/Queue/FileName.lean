import VisionSensor.Queue.MessageQueue

/-! The name of a stored message as a code for its time, request, plate and spot: `load` reads back
what `constructFilename` wrote, whatever image the file holds. -/
namespace VisionSensor

/-- What the store relies on in Boost: the ISO text of a time is read back and has no separators. -/
structure Storage.IsoTime (io : Storage) (t : Ptime) : Prop where
  undone : io.from_iso_string (io.to_iso_string t) = some t
  chars : ∀ c ∈ io.to_iso_string t, c ≠ '_' ∧ c ≠ '/' ∧ c ≠ '.'

/-- `boost::filesystem::path::filename`: the path behind its last slash. -/
def filename (path : List Char) : List Char := (path.reverse.takeWhile (· ≠ '/')).reverse

theorem filename_append {folder name : List Char} (h : '/' ∉ name)
    (hfolder : folder = [] ∨ folder.getLast? = some '/') : filename (folder ++ name) = name := by
  have hname : ∀ c ∈ name.reverse, decide (c ≠ '/') = true := by
    intro c hc
    simp only [ne_eq, decide_eq_true_eq]
    rintro rfl
    exact h (List.mem_reverse.mp hc)
  rw [filename, List.reverse_append, List.takeWhile_append_of_pos hname]
  rcases hfolder with rfl | hlast
  · simp
  · obtain ⟨front, rfl⟩ := List.getLast?_eq_some_iff.mp hlast
    simp

namespace ParkingUpdateMessage

/-- A plate text that can stand in a file name as one part. -/
def PlainPlate (plate : String) : Prop :=
  ∀ c ∈ plate.toList, c ≠ '_' ∧ c ≠ '/' ∧ c ≠ Char.ofNat 0

instance : DecidablePred PlainPlate := fun plate =>
  List.decidableBAll (fun c => c ≠ '_' ∧ c ≠ '/' ∧ c ≠ Char.ofNat 0) plate.toList

/-- A message with a time in whole seconds, `int` codes and a plain plate. -/
structure Nameable (io : Storage) (m : ParkingUpdateMessage) : Prop where
  seconds : ∃ t : ℤ, m.mEventTime = some t
  iso : io.IsoTime m.mEventTime
  code : InInt m.mRequestCode
  spot : InInt m.mSpotID
  plate : PlainPlate m.mPlateNum

variable {io : Storage} {m : ParkingUpdateMessage}

theorem Nameable.splitOn (h : m.Nameable io) :
    (stem (m.constructFilename io)).splitOn '_' = [io.to_iso_string m.mEventTime,
      to_string m.mRequestCode, m.mPlateNum.toList, to_string m.mSpotID] :=
  splitOn_constructFilename (fun c hc => (h.iso.chars c hc).1) fun c hc => (h.plate c hc).1

theorem Nameable.no_slash (h : m.Nameable io) : '/' ∉ m.constructFilename io :=
  no_slash_constructFilename (fun c hc => (h.iso.chars c hc).2.1) fun c hc => (h.plate c hc).2.1

/-- What `load` makes of a file with the name of a message: nothing if the image cannot be read,
else a message with the same time, request, plate and spot. -/
theorem Nameable.load (h : m.Nameable io) (image : Mat) :
    ParkingUpdateMessage.load io ⟨m.constructFilename io, image⟩ =
      .ok (if (io.imread image).empty then none
        else some { mEventTime := m.mEventTime, mRequestCode := m.mRequestCode,
                    mPlateNum := m.mPlateNum, mSpotID := m.mSpotID, mFrame := io.imread image }) := by
  simp only [ParkingUpdateMessage.load, h.splitOn, h.iso.undone, stoi_to_string h.code,
    stoi_to_string h.spot, String.ofList_toList]
  split_ifs <;> rfl

/-- The file name is a faithful code: it is the last part of the path, its stem splits into exactly
four parts, `load` restores time, request, plate and spot from it, and no other message has it. -/
theorem constructFilename_faithful (h : m.Nameable io) :
    (∀ folder, folder = [] ∨ folder.getLast? = some '/' →
      filename (folder ++ m.constructFilename io) = m.constructFilename io) ∧
    (stem (m.constructFilename io)).splitOn '_' = [io.to_iso_string m.mEventTime,
      to_string m.mRequestCode, m.mPlateNum.toList, to_string m.mSpotID] ∧
    (∀ image, ParkingUpdateMessage.load io ⟨m.constructFilename io, image⟩ =
      .ok (if (io.imread image).empty then none
        else some { mEventTime := m.mEventTime, mRequestCode := m.mRequestCode,
                    mPlateNum := m.mPlateNum, mSpotID := m.mSpotID, mFrame := io.imread image })) ∧
    ∀ m' : ParkingUpdateMessage, m'.Nameable io →
      m.constructFilename io = m'.constructFilename io → m.key = m'.key :=
  ⟨fun _ => filename_append h.no_slash, h.splitOn, h.load, fun _ h' =>
    key_eq_of_splitOn h.splitOn h'.splitOn h.iso.undone h'.iso.undone⟩

/-- A negative request and spot, and a plate with dots in it. -/
theorem constructFilename_faithful_dots :
    let m : ParkingUpdateMessage :=
      { mEventTime := some 0, mRequestCode := -1, mPlateNum := "12.34.", mSpotID := -7 }
    (stem (m.constructFilename MessageQueue.epochDisk)).splitOn '_' =
      ["19700101T000000".toList, "-1".toList, "12.34.".toList, "-7".toList] ∧
    (ParkingUpdateMessage.load MessageQueue.epochDisk
      ⟨m.constructFilename MessageQueue.epochDisk, ⟨1, 1, [[0]]⟩⟩ =
        .ok (some { m with mFrame := ⟨1, 1, [[0]]⟩ })) := by
  intro m
  have hchars : ((MessageQueue.epochDisk.to_iso_string (some 0)).all
      fun c => decide (c ≠ '_' ∧ c ≠ '/' ∧ c ≠ '.')) = true := by decide
  have hname : m.Nameable MessageQueue.epochDisk :=
    { seconds := ⟨0, rfl⟩
      iso := ⟨by decide, fun c hc => of_decide_eq_true (List.all_eq_true.mp hchars c hc)⟩
      code := by decide
      spot := by decide
      plate := by decide }
  obtain ⟨-, hsplit, hload, -⟩ := constructFilename_faithful hname
  exact ⟨hsplit.trans (by decide), hload ⟨1, 1, [[0]]⟩⟩

end ParkingUpdateMessage
end VisionSensor
