import VisionSensor.Lib.FuelLoop
import VisionSensor.Management.LoadSettings
import VisionSensor.Upload.MessageTree

/-! The uploader thread: `loadSettings` reads where each kind of request goes, `upload` sends one
message there, and `run` repeats `upload` until it answers true. -/
namespace VisionSensor
open FuelLoop GuardedRun Unwind

namespace PTree

/-- `add_child(key, t)`. -/
def add_child (t : PTree) (key : String) (c : PTree) : PTree := mk t.data (t.children ++ [(key, c)])

/-- `erase(key)`: all children with the key. -/
def erase (t : PTree) (key : String) : PTree := mk t.data (t.children.filter fun c => c.1 != key)

end PTree

/-- `ServerSyncMessage`. -/
structure ServerSyncMessage where
  mEventTime : Ptime
  imageWidth : ℤ
  imageHeight : ℤ
  mJSONParkingSpots : PTree

/-- `IMessageData`: the messages the queue holds. -/
inductive IMessageData where
  | parkingUpdate (m : ParkingUpdateMessage)
  | serverSync (m : ServerSyncMessage)

/-- `toPTree`; `erase` throws on a time stamp of less than eight characters. -/
def ServerSyncMessage.toPTree (io : Storage) (m : ServerSyncMessage) : Option PTree :=
  let eventTime := io.to_iso_string m.mEventTime
  if eventTime.length < 8 then none
  else
    let info := [("httpRequest", PTree.intData HttpReqType.HTTP_REQ_SYNC_GENERAL.code),
      ("messageType", PTree.intData 0), ("timeStamp", String.ofList (eventTime.eraseIdx 8)),
      ("pictureWidth", PTree.intData m.imageWidth),
      ("pictureHeight", PTree.intData m.imageHeight)].foldl
        (fun t kv => t.put [kv.1] kv.2) PTree.nil
    some (info.add_child "ROI" m.mJSONParkingSpots)

namespace IMessageData

/-- `toPTree`; `none` when it throws. -/
def toPTree (io : Storage) (imencode : Mat → Option (List UInt8)) : IMessageData → Option PTree
  | parkingUpdate m => m.toPTree io imencode
  | serverSync m => m.toPTree io

/-- The request code a message carries. -/
def requestCode : IMessageData → ℤ
  | parkingUpdate m => m.mRequestCode
  | serverSync _ => HttpReqType.HTTP_REQ_SYNC_GENERAL.code

end IMessageData

structure ServerDestinations_t where
  RequestType : ℤ
  TargetPath : String
  HTTPRequestMethod : String
  deriving DecidableEq, Repr

/-- `ServerNetworkHandler`, with the time zone of `mSensorInfo`. -/
structure ServerNetworkHandler where
  TimeZone : String
  mServerAddr : String := ""
  mSecureConnection : String := ""
  mServerDestinations : List (ℤ × ServerDestinations_t) := []

/-- What the network answers to the calls of `sendHTTP`, in order: method, text and path. The text
of a tree stands for the tree. -/
abbrev SendHTTP := ℕ → String → PTree → String → Bool

namespace ServerNetworkHandler

/-- `mServerDestinations[dest.RequestType] = dest`. -/
def assign (mServerDestinations : List (ℤ × ServerDestinations_t)) (dest : ServerDestinations_t) :
    List (ℤ × ServerDestinations_t) :=
  (dest.RequestType, dest) :: mServerDestinations.filter fun d => d.1 != dest.RequestType

/-- `loadSettings` at one child of `ServerSettings`. -/
def loadSetting (h : ServerNetworkHandler) (v : String × PTree) :
    Except Fault ServerNetworkHandler :=
  if v.1 == "ServerAddress" then return { h with mServerAddr := v.2.data }
  else if v.1 == "SecureConnection" then return { h with mSecureConnection := v.2.data }
  else if v.1 == "Request" then do
    let RequestType ← v.2.getInt "RequestType"
    let HTTPRequestMethod ← v.2.getString "HTTPRequestMethod"
    let TargetPath ← v.2.getString "TargetPath"
    return { h with
      mServerDestinations :=
        assign h.mServerDestinations { RequestType, TargetPath, HTTPRequestMethod } }
  else return h

/-- `loadSettings` with the tree `read_xml` reads. -/
def loadSettings (h : ServerNetworkHandler) (root : PTree) : Except Fault ServerNetworkHandler :=
  match root.find "ServerSettings" with
  | none => .error (.ptree_bad_path "ServerSettings")
  | some settings => settings.children.foldlM loadSetting h

/-- `upload` after `calls` calls of `sendHTTP`: its answer, and the number of calls after it;
`none` when it throws. -/
def upload (io : Storage) (imencode : Mat → Option (List UInt8)) (sendHTTP : SendHTTP)
    (h : ServerNetworkHandler) (data : IMessageData) (calls : ℕ) : Option (Bool × ℕ) := do
  let root ← data.toPTree io imencode
  let request := root.getIntD ["httpRequest"] (-1)
  let root := root.erase "httpRequest"
  if request < 0 then return (false, calls)
  else
    match h.mServerDestinations.lookup request with
    | none => return (false, calls)
    | some dest =>
        let root := root.put ["timeZone"] h.TimeZone
        return (sendHTTP calls dest.HTTPRequestMethod root dest.TargetPath, calls + 1)

/-- One round of the loop in `run`; an exception leaves it without a number of calls. -/
def attempt (io : Storage) (imencode : Mat → Option (List UInt8)) (sendHTTP : SendHTTP)
    (h : ServerNetworkHandler) (data : IMessageData) (calls : ℕ) : ℕ ⊕ Option ℕ :=
  match h.upload io imencode sendHTTP data calls with
  | none => .inr none
  | some (true, calls) => .inr (some calls)
  | some (false, calls) => .inl calls

/-- `run` at one message: `upload` until it answers true. `none` when the loop is not over after
`fuel` rounds or an exception has left it. -/
def handle (io : Storage) (imencode : Mat → Option (List UInt8)) (sendHTTP : SendHTTP)
    (h : ServerNetworkHandler) (fuel : ℕ) (calls : ℕ) (data : IMessageData) : Option ℕ :=
  (loop (h.attempt io imencode sendHTTP data) fuel calls).join

end ServerNetworkHandler

namespace PTree

theorem toInt_intData_of_not {n : ℤ} (h : ¬ InInt n) : toInt (intData n) = none := by
  have hr := readInt_to_string n [] (by simp)
  rw [List.append_nil] at hr
  simp [toInt, intData, hr, h]

/-- A value written as an `int` is read back if it is one. -/
theorem getIntD_of_find {t : PTree} {key : String} {n : ℤ}
    (h : t.find key = some (leaf (intData n))) (dflt : ℤ) :
    t.getIntD [key] dflt = if InInt n then n else dflt := by
  have hdata : (leaf (intData n)).data = intData n := rfl
  simp only [getIntD, descend, h, Option.bind_some, hdata]
  split_ifs with hn
  · rw [toInt_intData hn, Option.getD_some]
  · rw [toInt_intData_of_not hn, Option.getD_none]

end PTree

namespace IMessageData

/-- The pictures of an update can be encoded, and the time stamp of a synchronisation has a date. -/
def Encodes (io : Storage) (imencode : Mat → Option (List UInt8)) : IMessageData → Prop
  | parkingUpdate m => (imencode m.mFrame).isSome ∧
      (m.mCropFrame.empty = false → (imencode m.mCropFrame).isSome)
  | serverSync m => 8 ≤ (io.to_iso_string m.mEventTime).length

variable {io : Storage} {imencode : Mat → Option (List UInt8)}

theorem toPTree_isSome_iff (data : IMessageData) :
    (data.toPTree io imencode).isSome ↔ data.Encodes io imencode := by
  cases data with
  | parkingUpdate m =>
    simp only [toPTree, ParkingUpdateMessage.toPTree, base64_encode_image, Encodes]
    cases imencode m.mFrame with
    | none => simp
    | some buf =>
      cases m.mCropFrame.empty with
      | true => simp
      | false => cases imencode m.mCropFrame <;> simp
  | serverSync m =>
    simp only [toPTree, ServerSyncMessage.toPTree, Encodes]
    split_ifs with hshort
    · exact iff_of_false (by simp) (by omega)
    · exact iff_of_true rfl (by omega)

/-- Every tree has the request code of its message. -/
theorem find_httpRequest {data : IMessageData} {root : PTree}
    (h : data.toPTree io imencode = some root) :
    root.find "httpRequest" = some (PTree.leaf (PTree.intData data.requestCode)) := by
  cases data with
  | parkingUpdate m =>
    obtain ⟨p, -, h⟩ := Option.bind_eq_some_iff.mp h
    dsimp only at h
    split_ifs at h with hcrop
    · obtain rfl := Option.some.inj h
      simp [ParkingUpdateMessage.info, PTree.put, PTree.setChild, PTree.find, PTree.children,
        PTree.nil, PTree.leaf, requestCode]
    · obtain ⟨c, -, h⟩ := Option.bind_eq_some_iff.mp h
      obtain rfl := Option.some.inj h
      simp [ParkingUpdateMessage.info, PTree.put, PTree.setChild, PTree.find, PTree.children,
        PTree.nil, PTree.leaf, requestCode]
  | serverSync m =>
    simp only [toPTree, ServerSyncMessage.toPTree] at h
    split_ifs at h with hshort
    obtain rfl := Option.some.inj h
    simp [PTree.add_child, PTree.put, PTree.setChild, PTree.find, PTree.children, PTree.nil,
      PTree.leaf, requestCode]

end IMessageData

namespace ServerNetworkHandler

/-- The settings name a destination for a request code. -/
def NamesRequest (root : PTree) (request : ℤ) : Prop :=
  ∃ settings v, root.find "ServerSettings" = some settings ∧
    ("Request", v) ∈ settings.children ∧ v.getInt "RequestType" = .ok request

variable {io : Storage} {imencode : Mat → Option (List UInt8)} {sendHTTP : SendHTTP}
  {h h' : ServerNetworkHandler} {data : IMessageData} {root : PTree}

theorem lookup_assign (dests : List (ℤ × ServerDestinations_t)) (dest : ServerDestinations_t)
    (request : ℤ) : ((assign dests dest).lookup request).isSome ↔
      (dests.lookup request).isSome ∨ dest.RequestType = request := by
  simp only [assign, List.lookup_isSome_iff, List.mem_cons, List.mem_filter, beq_iff_eq]
  constructor
  · rintro ⟨d, rfl | ⟨hd, -⟩, rfl⟩
    · exact .inr rfl
    · exact .inl ⟨d, hd, rfl⟩
  · rintro (⟨d, hd, rfl⟩ | rfl)
    · by_cases hkey : d.1 = dest.RequestType
      · exact ⟨_, .inl rfl, hkey⟩
      · exact ⟨d, .inr ⟨hd, by simpa using hkey⟩, rfl⟩
    · exact ⟨_, .inl rfl, rfl⟩

/-- A child of the settings adds the destination it names. -/
theorem loadSetting_lookup {v : String × PTree} (hv : loadSetting h v = .ok h') (request : ℤ) :
    (h'.mServerDestinations.lookup request).isSome ↔
      (h.mServerDestinations.lookup request).isSome ∨
        (v.1 = "Request" ∧ v.2.getInt "RequestType" = .ok request) := by
  unfold loadSetting at hv
  split_ifs at hv with haddr hsecure hrequest
  · obtain rfl := Except.ok.inj hv
    simp_all
  · obtain rfl := Except.ok.inj hv
    simp_all
  · -- each of the three `get`s can throw, and a destination is assigned only behind them
    obtain ⟨RequestType, htype, hv⟩ := except_bind_eq_ok.mp hv
    obtain ⟨HTTPRequestMethod, -, hv⟩ := except_bind_eq_ok.mp hv
    obtain ⟨TargetPath, -, hv⟩ := except_bind_eq_ok.mp hv
    obtain rfl := Except.ok.inj hv
    rw [lookup_assign, htype, Except.ok.injEq]
    simp only [beq_iff_eq.mp hrequest, true_and]
  · obtain rfl := Except.ok.inj hv
    simp_all

/-- The destinations after `loadSettings` are those the settings name. -/
theorem loadSettings_lookup (hload : loadSettings h root = .ok h')
    (hinit : h.mServerDestinations = []) (request : ℤ) :
    (h'.mServerDestinations.lookup request).isSome ↔ NamesRequest root request := by
  have hfold : ∀ (vs : List (String × PTree)) (h : ServerNetworkHandler),
      vs.foldlM loadSetting h = .ok h' → ((h'.mServerDestinations.lookup request).isSome ↔
        (h.mServerDestinations.lookup request).isSome ∨
          ∃ v, ("Request", v) ∈ vs ∧ v.getInt "RequestType" = .ok request) := by
    intro vs
    induction vs with
    | nil =>
      intro h hvs
      obtain rfl := Except.ok.inj hvs
      simp
    | cons v vs ih =>
      intro h hvs
      rw [List.foldlM_cons] at hvs
      obtain ⟨g, hv, hvs⟩ := except_bind_eq_ok.mp hvs
      rw [ih g hvs, loadSetting_lookup hv, or_assoc]
      refine or_congr_right ?_
      simp only [List.mem_cons, or_and_right, exists_or]
      refine or_congr_left ⟨?_, ?_⟩
      · rintro ⟨hkey, hrequest⟩
        exact ⟨v.2, by rw [← hkey], hrequest⟩
      · rintro ⟨w, rfl, hrequest⟩
        exact ⟨rfl, hrequest⟩
  unfold loadSettings at hload
  split at hload
  · cases hload
  · rename_i settings hsettings
    rw [hfold settings.children h hload, hinit]
    simp [NamesRequest, hsettings]

theorem handle_mono : FuelMono (handle io imencode sendHTTP h) := by
  intro m n calls data calls' hle hm
  obtain ⟨t, ht, rfl⟩ := Option.bind_eq_some_iff.mp hm
  exact Option.bind_eq_some_iff.mpr ⟨_, loop_mono hle ht, rfl⟩

theorem getIntD_httpRequest {t : PTree} (ht : data.toPTree io imencode = some t) :
    t.getIntD ["httpRequest"] (-1) = if InInt data.requestCode then data.requestCode else -1 :=
  PTree.getIntD_of_find (IMessageData.find_httpRequest ht) (-1)

/-- A message without a destination is refused before any call of `sendHTTP`. -/
theorem upload_refuse {t : PTree} (ht : data.toPTree io imencode = some t)
    (hdest : 0 ≤ data.requestCode → h.mServerDestinations.lookup data.requestCode = none)
    (calls : ℕ) : h.upload io imencode sendHTTP data calls = some (false, calls) := by
  simp only [upload, ht, Option.bind_eq_bind, Option.bind_some, getIntD_httpRequest ht]
  by_cases hint : InInt data.requestCode
  · rw [if_pos hint]
    by_cases hneg : data.requestCode < 0
    · rw [if_pos hneg]
      rfl
    · rw [if_neg hneg, hdest (by omega)]
      rfl
  · rw [if_neg hint]
    rfl

/-- A message with a destination comes to a call of `sendHTTP`. -/
theorem upload_send {t : PTree} {dest : ServerDestinations_t}
    (ht : data.toPTree io imencode = some t) (hint : InInt data.requestCode)
    (hpos : 0 ≤ data.requestCode)
    (hdest : h.mServerDestinations.lookup data.requestCode = some dest) (calls : ℕ) :
    ∃ json, h.upload io imencode sendHTTP data calls =
      some (sendHTTP calls dest.HTTPRequestMethod json dest.TargetPath, calls + 1) := by
  simp only [upload, ht, Option.bind_eq_bind, Option.bind_some, getIntD_httpRequest ht,
    if_pos hint, if_neg (Int.not_lt.mpr hpos), hdest]
  exact ⟨_, rfl⟩

/-- The loop around `upload` goes on for ever with a message that has no destination. -/
theorem handle_refuse {t : PTree} (ht : data.toPTree io imencode = some t)
    (hdest : 0 ≤ data.requestCode → h.mServerDestinations.lookup data.requestCode = none)
    (fuel calls : ℕ) : handle io imencode sendHTTP h fuel calls data = none := by
  have hforever : loop (h.attempt io imencode sendHTTP data) fuel calls = none :=
    loop_eq_none (I := fun _ => True)
      (fun s _ => ⟨s, by rw [attempt, upload_refuse ht hdest s], trivial⟩) trivial fuel
  rw [handle, hforever]
  rfl

/-- An exception of `toPTree` leaves the loop at once. -/
theorem handle_throw (ht : data.toPTree io imencode = none) (fuel calls : ℕ) :
    handle io imencode sendHTTP h fuel calls data = none := by
  have hthrow : ∀ calls, h.attempt io imencode sendHTTP data calls = .inr none := by
    intro calls
    simp [attempt, upload, ht]
  rw [Option.eq_none_iff_forall_ne_some]
  intro calls' hdone
  have hnone : some calls' = none := loop_spec (I := fun _ => True) (Q := fun t => t = none)
    (fun _ _ _ _ => trivial)
    (fun s t _ hbody => (Sum.inr.inj ((hthrow s).symm.trans hbody)).symm) trivial
    (Option.join_eq_some_iff.mp hdone)
  cases hnone

/-- One message is done with exactly when it has a picture and a destination. -/
theorem handle_ends_iff (hload : loadSettings h root = .ok h')
    (hinit : h.mServerDestinations = [])
    (hsend : ∀ calls method json path, sendHTTP calls method json path = true) (calls : ℕ)
    (data : IMessageData) : (∃ fuel calls', handle io imencode sendHTTP h' fuel calls data =
        some calls') ↔
      data.Encodes io imencode ∧ 0 ≤ data.requestCode ∧ NamesRequest root data.requestCode := by
  rw [← IMessageData.toPTree_isSome_iff, ← loadSettings_lookup hload hinit]
  constructor
  · rintro ⟨fuel, calls', hdone⟩
    cases ht : data.toPTree io imencode with
    | none =>
      rw [handle_throw ht] at hdone
      cases hdone
    | some t =>
      refine ⟨rfl, ?_⟩
      by_contra hdest
      have hrefuse : handle io imencode sendHTTP h' fuel calls data = none :=
        handle_refuse ht (fun hpos =>
          Option.not_isSome_iff_eq_none.mp fun hsome => hdest ⟨hpos, hsome⟩) fuel calls
      rw [hrefuse] at hdone
      cases hdone
  · rintro ⟨hroot, hpos, hdest⟩
    obtain ⟨t, ht⟩ := Option.isSome_iff_exists.mp hroot
    obtain ⟨dest, hdest'⟩ := Option.isSome_iff_exists.mp hdest
    obtain ⟨_, _, -, -, hint⟩ := (loadSettings_lookup hload hinit _).mp hdest
    obtain ⟨json, hupload⟩ : ∃ json, h'.upload io imencode sendHTTP data calls =
        some (sendHTTP calls dest.HTTPRequestMethod json dest.TargetPath, calls + 1) :=
      upload_send ht (PTree.getInt_inInt hint) hpos hdest' calls
    rw [hsend] at hupload
    refine ⟨1, calls + 1, ?_⟩
    rw [handle, loop_inr (t := some (calls + 1)) (by rw [attempt, hupload])]
    rfl

/-- When every call of `sendHTTP` succeeds, all messages are done with exactly when each of them
has its pictures and a code that the settings name. -/
theorem run_ends_iff (hload : loadSettings h root = .ok h') (hinit : h.mServerDestinations = [])
    (hsend : ∀ calls method json path, sendHTTP calls method json path = true)
    (messages : List IMessageData) :
    (∃ fuel calls, exec (handle io imencode sendHTTP h' fuel) 0 messages = some calls) ↔
      ∀ data ∈ messages, data.Encodes io imencode ∧ 0 ≤ data.requestCode ∧
        NamesRequest root data.requestCode :=
  exec_ends_iff_forall handle_mono (handle_ends_iff hload hinit hsend) 0 messages

/-- One `Request` of the settings file. -/
def requestEntry (RequestType HTTPRequestMethod TargetPath : String) : String × PTree :=
  ("Request", PTree.mk "" [("RequestType", PTree.leaf RequestType),
    ("HTTPRequestMethod", PTree.leaf HTTPRequestMethod), ("TargetPath", PTree.leaf TargetPath)])

/-- The file `serverdata.xml`. -/
def serverdata : PTree :=
  PTree.mk "" [("ServerSettings", PTree.mk "" [("ServerAddress", PTree.leaf "192.168.64.155"),
    ("SecureConnection", PTree.leaf ""), requestEntry "3" "POST" "/parkstatus/overtime",
    requestEntry "2" "POST" "/parkstatus/exit", requestEntry "0" "PUT" "/parksync/sync",
    requestEntry "1" "POST" "/parkstatus/enter"])]

/-- The table of `serverdata.xml`. -/
def shippedHandler : ServerNetworkHandler where
  TimeZone := "+00"
  mServerAddr := "192.168.64.155"
  mServerDestinations := [(1, ⟨1, "/parkstatus/enter", "POST"⟩), (0, ⟨0, "/parksync/sync", "PUT"⟩),
    (2, ⟨2, "/parkstatus/exit", "POST"⟩), (3, ⟨3, "/parkstatus/overtime", "POST"⟩)]

theorem load_serverdata : loadSettings { TimeZone := "+00" } serverdata = .ok shippedHandler := by
  rfl

/-- An entry with its picture, under the code the settings name. -/
theorem run_ends_iff_enter :
    ∃ fuel calls, exec (handle MessageQueue.epochDisk ParkingUpdateMessage.jpegHead
      (fun _ _ _ _ => true) shippedHandler fuel) 0
        [.parkingUpdate ParkingUpdateMessage.entryMessage] = some calls := by
  refine (run_ends_iff load_serverdata rfl (fun _ _ _ _ => rfl) _).mpr ?_
  intro data hdata
  obtain rfl := List.mem_singleton.mp hdata
  exact ⟨⟨rfl, fun _ => rfl⟩, by decide, (loadSettings_lookup load_serverdata rfl 1).mp rfl⟩

/-- An exit of spot 1 whose request code is 7. -/
def strayMessage : ParkingUpdateMessage :=
  { MessageQueue.epochMessage .HTTP_REQ_UPDATE_EXIT 1 with mRequestCode := 7 }

/-- It comes from a file in the message folder, and blocks the thread for ever. -/
theorem not_run_ends_stray :
    ParkingUpdateMessage.load MessageQueue.epochDisk
        ⟨"19700101T000000_7_null_1.png".toList, ⟨1, 1, [[0]]⟩⟩ = .ok (some strayMessage) ∧
      loadSettings { TimeZone := "+00" } serverdata = .ok shippedHandler ∧
      ¬ ∃ fuel calls, exec (handle MessageQueue.epochDisk ParkingUpdateMessage.jpegHead
        (fun _ _ _ _ => true) shippedHandler fuel) 0 [.parkingUpdate strayMessage] =
          some calls := by
  refine ⟨rfl, load_serverdata, ?_⟩
  rintro ⟨fuel, calls, h⟩
  obtain ⟨calls', h, -⟩ := Option.bind_eq_some_iff.mp h
  obtain ⟨t, ht⟩ : ∃ t, IMessageData.toPTree MessageQueue.epochDisk
      ParkingUpdateMessage.jpegHead (.parkingUpdate strayMessage) = some t := ⟨_, rfl⟩
  rw [handle_refuse ht fun _ => rfl] at h
  cases h

end ServerNetworkHandler
end VisionSensor
