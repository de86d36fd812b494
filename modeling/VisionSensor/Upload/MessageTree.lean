import VisionSensor.Management.Settings
import VisionSensor.Queue.MessageQueue
import VisionSensor.Spot.ParkingSpot
import VisionSensor.Upload.Base64

/-! What a parking update message sends to the server, and whether it still does after it has been
on disk. -/
namespace VisionSensor

/-- `base64_encode_image`; `imencode` throws on `none`. The size is cast to 32 bits. -/
def base64_encode_image (imencode : Mat → Option (List UInt8)) (image : Mat) : Option String :=
  (imencode image).map fun buf =>
    String.ofList (Base64.base64_encode buf (buf.length % 2 ^ 32))

namespace ParkingUpdateMessage

/-- The properties of `toPTree` up to the picture. -/
def info (io : Storage) (currentPicture : String) (m : ParkingUpdateMessage) : PTree :=
  [("messageType", PTree.intData 1), ("httpRequest", PTree.intData m.mRequestCode),
    ("parkingSpotId", PTree.intData m.mSpotID), ("plateNumber", m.mPlateNum),
    ("timeStamp", String.ofList (io.to_iso_string m.mEventTime)),
    ("currentPicture", currentPicture)].foldl (fun t kv => t.put [kv.1] kv.2) PTree.nil

/-- `toPTree`; `none` when an image cannot be encoded. -/
def toPTree (io : Storage) (imencode : Mat → Option (List UInt8)) (m : ParkingUpdateMessage) :
    Option PTree := do
  let currentPicture ← base64_encode_image imencode m.mFrame
  let info := m.info io currentPicture
  if m.mCropFrame.empty then return info
  else
    let croppedPicture ← base64_encode_image imencode m.mCropFrame
    return info.put ["croppedPicture"] croppedPicture

/-- The message that comes back when it is the only one in the folder. -/
def saveAndLoad (io : Storage) (m : ParkingUpdateMessage) : Option ParkingUpdateMessage :=
  let (folder, _) := m.save io []
  match loadMessage io folder folder with
  | .ok (some (data, _)) => some data
  | _ => none

end ParkingUpdateMessage

/-- A disk that works and gives every image back as it was written. -/
structure Storage.Lossless (io : Storage) : Prop extends io.Works where
  restores : ∀ image, image.empty = false → io.imread image = image

namespace ParkingUpdateMessage

variable {io : Storage} {m : ParkingUpdateMessage}

theorem save_empty (hio : io.Works) (h : m.Valid io) : m.save io [] = ([m.toFile io], true) := by
  have hwrite := hio.imwrite _ _ h.no_slash h.image
  simp [save, hio.checkFolder, hwrite]

theorem saveAndLoad_eq (hio : io.Works) (h : m.Valid io) :
    m.saveAndLoad io = some (m.reloaded io) := by
  have hext : extension (m.toFile io).name = ".png".toList := extension_constructFilename io m
  unfold saveAndLoad
  simp only [save_empty hio h, loadMessage, if_pos hext, load_toFile hio h, hio.remove, if_true]

/-- What comes back has lost its cropped image and nothing else. -/
theorem reloaded_eq (hio : io.Lossless) (h : m.Valid io) :
    m.reloaded io = { m with mCropFrame := Mat.none } := by
  unfold reloaded
  rw [hio.restores _ h.image]

section Upload

variable {imencode : Mat → Option (List UInt8)}

theorem toPTree_of_crop_empty {p : String} (hp : base64_encode_image imencode m.mFrame = some p)
    (hcrop : m.mCropFrame.empty = true) : m.toPTree io imencode = some (m.info io p) := by
  simp [toPTree, hp, hcrop]

theorem toPTree_of_crop {p c : String} (hp : base64_encode_image imencode m.mFrame = some p)
    (hcrop : m.mCropFrame.empty = false)
    (hc : base64_encode_image imencode m.mCropFrame = some c) :
    m.toPTree io imencode = some ((m.info io p).put ["croppedPicture"] c) := by
  simp [toPTree, hp, hc, hcrop]

/-- A cropped picture is one property more. -/
theorem info_put_ne (io : Storage) (m : ParkingUpdateMessage) (p c : String) :
    m.info io p ≠ (m.info io p).put ["croppedPicture"] c := by
  intro h
  have hlen := congrArg (fun t : PTree => t.children.length) h
  simp [info, PTree.put, PTree.setChild, PTree.children, PTree.nil] at hlen

/-- A message is uploaded the same after it has been on disk exactly when it has no cropped
image. -/
theorem uploaded_same_iff (hio : io.Lossless)
    (hencode : ∀ image, image.empty = false → (imencode image).isSome) (h : m.Valid io) :
    ∃ m', m.saveAndLoad io = some m' ∧
      (m'.toPTree io imencode = m.toPTree io imencode ↔ m.mCropFrame.empty = true) := by
  refine ⟨m.reloaded io, saveAndLoad_eq hio.toWorks h, ?_⟩
  have hpicture : ∀ image, image.empty = false →
      ∃ p, base64_encode_image imencode image = some p := by
    intro image himage
    obtain ⟨buf, hbuf⟩ := Option.isSome_iff_exists.mp (hencode image himage)
    exact ⟨_, by rw [base64_encode_image, hbuf]; rfl⟩
  obtain ⟨p, hp⟩ := hpicture _ h.image
  have hreloaded : (m.reloaded io).toPTree io imencode = some (m.info io p) := by
    rw [reloaded_eq hio h]
    exact toPTree_of_crop_empty hp rfl
  rw [hreloaded]
  cases hcrop : m.mCropFrame.empty with
  | true => exact iff_of_true (toPTree_of_crop_empty hp hcrop).symm rfl
  | false =>
    obtain ⟨c, hc⟩ := hpicture _ hcrop
    rw [toPTree_of_crop hp hcrop hc, Option.some.injEq]
    exact iff_of_false (info_put_ne io m p c) Bool.false_ne_true

end Upload

/-- An encoder that writes the first bytes of a JPEG file and throws on an empty image. -/
def jpegHead (image : Mat) : Option (List UInt8) :=
  if image.empty then none else some [255, 216, 255]

theorem jpegHead_isSome (image : Mat) (h : image.empty = false) : (jpegHead image).isSome := by
  simp [jpegHead, h]

theorem epochDisk_lossless : MessageQueue.epochDisk.Lossless :=
  { MessageQueue.epochDisk_works with restores := fun _ _ => rfl }

/-- The exit of spot 1. -/
theorem uploaded_same_exit :
    ∃ m', (MessageQueue.epochMessage .HTTP_REQ_UPDATE_EXIT 1).saveAndLoad MessageQueue.epochDisk =
        some m' ∧
      m'.toPTree MessageQueue.epochDisk jpegHead =
        (MessageQueue.epochMessage .HTTP_REQ_UPDATE_EXIT 1).toPTree MessageQueue.epochDisk
          jpegHead := by
  obtain ⟨m', hload, hsame⟩ := uploaded_same_iff epochDisk_lossless jpegHead_isSome
    (MessageQueue.epochMessage_valid .HTTP_REQ_UPDATE_EXIT (by decide : InInt 1))
  exact ⟨m', hload, hsame.mpr rfl⟩

/-- The entry that a spot reports with a frame of one pixel, all of it in the spot's region. -/
def entryMessage : ParkingUpdateMessage :=
  ParkingUpdateMessage.ofFrameCrop HttpReqType.HTTP_REQ_UPDATE_ENTER.code 1 ⟨1, 1, [[0]]⟩
    ⟨1, 1, [[0]]⟩ (some 0) "null"

/-- The entry loses its cropped picture on disk. -/
theorem entry_uploaded_without_crop :
    (∃ s, (ParkingSpot.new false 1 "A1" 600 ⟨0, 0, 1, 1⟩ 1).enter
        ⟨fun _ => false, fun _ _ => 0, fun _ => []⟩ ⟨1, 1, [[0]]⟩ ⟨0, 0, 1, 1⟩ (some 0) "null" =
          some (s, entryMessage)) ∧
      entryMessage.Valid MessageQueue.epochDisk ∧
      ∃ m', entryMessage.saveAndLoad MessageQueue.epochDisk = some m' ∧
        m'.toPTree MessageQueue.epochDisk jpegHead ≠
          entryMessage.toPTree MessageQueue.epochDisk jpegHead := by
  have hvalid : entryMessage.Valid MessageQueue.epochDisk :=
    { MessageQueue.epochMessage_valid .HTTP_REQ_UPDATE_ENTER (by decide : InInt 1) with }
  refine ⟨⟨_, rfl⟩, hvalid, _, saveAndLoad_eq epochDisk_lossless.toWorks hvalid, ?_⟩
  rw [reloaded_eq epochDisk_lossless hvalid, toPTree_of_crop_empty rfl rfl,
    toPTree_of_crop (m := entryMessage) rfl rfl rfl]
  intro h
  exact info_put_ne _ _ _ _ (Option.some.inj h)

end ParkingUpdateMessage
end VisionSensor
