import VisionSensor.Queue.FileName

/-! Files in the storage folder that the sensor has not written. A call that looks into the folder
takes the first file whose name has enough parts and whose image can be read, and throws when the
parts are no time, request and spot. -/
namespace VisionSensor

/-- A name `constructFilename` can produce. -/
def WellNamed (io : Storage) (name : List Char) : Prop :=
  ∃ m : ParkingUpdateMessage, InInt m.mRequestCode ∧ InInt m.mSpotID ∧
    name = m.constructFilename io

/-- `load` gets as far as reading the parts of the name. -/
def candidate (io : Storage) (f : File) : Bool :=
  decide (extension f.name = ".png".toList) &&
    (decide (4 ≤ ((stem f.name).splitOn '_').length) && !(io.imread f.image).empty)

/-- The parts of the name are a time, an `int`, anything, and an `int`. -/
def PartsRead (io : Storage) (f : File) : Prop :=
  ∃ time code plate spot rest, (stem f.name).splitOn '_' = time :: code :: plate :: spot :: rest ∧
    (∃ t, io.from_iso_string time = some t) ∧ (∃ n, stoi code = .ok n) ∧ ∃ n, stoi spot = .ok n

variable {io : Storage}

theorem four_parts {l : List (List Char)} (h : 4 ≤ l.length) :
    ∃ a b c d rest, l = a :: b :: c :: d :: rest := by
  match l with
  | [] | [_] | [_, _] | [_, _, _] => simp at h
  | a :: b :: c :: d :: rest => exact ⟨a, b, c, d, rest, rfl⟩

theorem candidate_iff {f : File} :
    candidate io f = true ↔ extension f.name = ".png".toList ∧
      4 ≤ ((stem f.name).splitOn '_').length ∧ (io.imread f.image).empty = false := by
  simp [candidate]

/-- A file that is no candidate is passed over. -/
theorem load_not_candidate {f : File} (hext : extension f.name = ".png".toList)
    (h : candidate io f = false) : ParkingUpdateMessage.load io f = .ok none := by
  unfold ParkingUpdateMessage.load
  split
  · rename_i hparts
    have hempty : (io.imread f.image).empty = true := by
      simpa [candidate, hext, hparts] using h
    simp only [hempty, reduceIte]
  · rfl

theorem load_candidate {f : File} (h : candidate io f = true) (hread : PartsRead io f) :
    ∃ m, ParkingUpdateMessage.load io f = .ok (some m) := by
  obtain ⟨time, code, plate, spot, rest, hparts, ⟨t, ht⟩, ⟨n, hn⟩, k, hk⟩ := hread
  have himage := (candidate_iff.mp h).2.2
  simp only [ParkingUpdateMessage.load, hparts, himage, ht, hn, hk]
  exact ⟨_, rfl⟩

/-- A candidate whose parts are not read lets an exception out. -/
theorem load_candidate_throws {f : File} (h : candidate io f = true) (hread : ¬ PartsRead io f) :
    ∃ e, ParkingUpdateMessage.load io f = .error e := by
  obtain ⟨-, hlen, himage⟩ := candidate_iff.mp h
  obtain ⟨time, code, plate, spot, rest, hparts⟩ := four_parts hlen
  simp only [ParkingUpdateMessage.load, hparts, himage]
  cases ht : io.from_iso_string time with
  | none => exact ⟨_, rfl⟩
  | some t =>
    cases hn : stoi code with
    | error e => exact ⟨_, rfl⟩
    | ok n =>
      cases hk : stoi spot with
      | error e => exact ⟨_, rfl⟩
      | ok k => exact absurd ⟨time, code, plate, spot, rest, hparts, ⟨t, ht⟩, ⟨n, hn⟩, k, hk⟩ hread

theorem loadMessage_skip {folder : List File} {f : File} (h : candidate io f = false)
    (listing : List File) : loadMessage io folder (f :: listing) = loadMessage io folder listing := by
  by_cases hext : extension f.name = ".png".toList
  · conv_lhs => rw [loadMessage, if_pos hext, load_not_candidate hext h]
  · conv_lhs => rw [loadMessage, if_neg hext]

theorem loadMessage_take {folder : List File} {f : File} {m : ParkingUpdateMessage}
    (h : candidate io f = true) (hload : ParkingUpdateMessage.load io f = .ok (some m))
    (hremove : io.remove f.name = true) (listing : List File) :
    loadMessage io folder (f :: listing) =
      .ok (some (m, folder.eraseP fun g => g.name == f.name)) := by
  rw [loadMessage, if_pos (candidate_iff.mp h).1, hload]
  simp only [hremove, reduceIte]

theorem loadMessage_throw {folder : List File} {f : File} {e : LoadError}
    (h : candidate io f = true) (hload : ParkingUpdateMessage.load io f = .error e)
    (listing : List File) : loadMessage io folder (f :: listing) = .error e := by
  rw [loadMessage, if_pos (candidate_iff.mp h).1, hload]

/-- The first candidate of the listing decides what the loop over it does. -/
theorem loadMessage_find (folder : List File) {listing : List File} {f : File}
    (h : listing.find? (candidate io) = some f) :
    ∃ rest, loadMessage io folder listing = loadMessage io folder (f :: rest) := by
  induction listing with
  | nil => cases h
  | cons g listing ih =>
    cases hg : candidate io g with
    | true =>
      rw [List.find?_cons, hg] at h
      obtain rfl := Option.some.inj h
      exact ⟨listing, rfl⟩
    | false =>
      rw [List.find?_cons, hg] at h
      obtain ⟨rest, hrest⟩ := ih h
      exact ⟨rest, (loadMessage_skip hg listing).trans hrest⟩

theorem loadMessage_find_none (folder : List File) {listing : List File}
    (h : listing.find? (candidate io) = none) : loadMessage io folder listing = .ok none := by
  induction listing with
  | nil => rfl
  | cons g listing ih =>
    cases hg : candidate io g with
    | true =>
      rw [List.find?_cons, hg] at h
      cases h
    | false =>
      rw [List.find?_cons, hg] at h
      rw [loadMessage_skip hg, ih h]

/-- A readable file of a well formed name is a candidate. -/
theorem WellNamed.candidate {f : File} (h : WellNamed io f.name)
    (himage : (io.imread f.image).empty = false) : candidate io f = true := by
  obtain ⟨m, -, -, hname⟩ := h
  have hpos : ∀ part : List Char, 1 ≤ (part.splitOn '_').length :=
    fun part => List.length_pos_iff.mpr (List.splitOn_ne_nil '_' part)
  have hlen : 4 ≤ ((stem f.name).splitOn '_').length := by
    have hstem : stem f.name = io.to_iso_string m.mEventTime ++ '_' :: (to_string m.mRequestCode ++
        '_' :: (m.mPlateNum.toList ++ '_' :: to_string m.mSpotID)) := by
      rw [hname, ParkingUpdateMessage.stem_constructFilename]
      simp [List.intercalate, List.intersperse]
    rw [hstem]
    simp only [List.splitOn_append_cons_self, List.length_append]
    have h1 := hpos (io.to_iso_string m.mEventTime)
    have h2 := hpos (to_string m.mRequestCode)
    have h3 := hpos m.mPlateNum.toList
    have h4 := hpos (to_string m.mSpotID)
    omega
  have hext : extension f.name = ".png".toList := by
    rw [hname, ParkingUpdateMessage.extension_constructFilename]
  exact candidate_iff.mpr ⟨hext, hlen, himage⟩

namespace MessageQueue

/-- The next call looks into the folder: there is room, and stored messages are counted. -/
def LooksIntoFolder (q : MessageQueue) : Prop :=
  q.mQueue.length < mMaxSize ∧ 0 < q.mNumStoredData

/-- The queue with the message of a file moved into it. -/
def withStored (q : MessageQueue) (f : File) (m : ParkingUpdateMessage) : MessageQueue :=
  { q with mQueue := q.mQueue ++ [m], folder := q.folder.eraseP fun g => g.name == f.name,
           mNumStoredData := q.mNumStoredData - 1 }

/-- A readable file with a well formed name is there to be delivered. -/
def HasMessage (io : Storage) (q : MessageQueue) : Prop :=
  ∃ f ∈ q.folder, WellNamed io f.name ∧ (io.imread f.image).empty = false

/-- The files in the folder cannot stop the uploader: its calls return, leave foreign files where
they are, deliver a message of the folder when they look into it and there is one, and find the
queue as it is otherwise. -/
structure Withstands (io : Storage) (listing : List File) (q : MessageQueue) : Prop where
  try_pop_returns : ∃ q', q.try_pop io listing = .ok q'
  wait_and_pop_returns : ∃ q', q.wait_and_pop io listing = .ok q'
  foreign : ∀ q', q.try_pop io listing = .ok q' ∨ q.wait_and_pop io listing = .ok q' →
    ∀ f ∈ q.folder, ¬ WellNamed io f.name → f ∈ q'.folder
  delivers : q.LooksIntoFolder → q.HasMessage io →
    ∃ f ∈ q.folder, WellNamed io f.name ∧
      ∃ m q', ParkingUpdateMessage.load io f = .ok (some m) ∧
        (q.withStored f m).takeFront = some q' ∧ q.try_pop io listing = .ok q' ∧
        q.wait_and_pop io listing = .ok q'
  unchanged : ¬ (q.LooksIntoFolder ∧ q.HasMessage io) →
    q.try_pop io listing = .ok (q.takeFront.getD q) ∧
      q.wait_and_pop io listing = .ok (q.takeFront.getD { q with waiting := q.waiting + 1 })

/-- If the call looks into the folder, the first candidate listed has a well formed name of which
time, request and spot can be read. -/
def FirstSound (io : Storage) (listing : List File) (q : MessageQueue) : Prop :=
  q.LooksIntoFolder → ∀ f, listing.find? (candidate io) = some f →
    WellNamed io f.name ∧ PartsRead io f

theorem loadStoredData_not_looking {listing : List File} {q : MessageQueue}
    (h : ¬ q.LooksIntoFolder) : q.loadStoredData io listing = .ok q := if_neg h

theorem loadStoredData_nothing {listing : List File} {q : MessageQueue}
    (h : loadMessage io q.folder listing = .ok none) : q.loadStoredData io listing = .ok q := by
  unfold loadStoredData
  split_ifs
  · rw [h]
  · rfl

theorem loadStoredData_throws {listing : List File} {q : MessageQueue} {e : LoadError}
    (hlook : q.LooksIntoFolder) (h : loadMessage io q.folder listing = .error e) :
    q.loadStoredData io listing = .error e := by
  have hif : q.mQueue.length < mMaxSize ∧ q.mNumStoredData > 0 := hlook
  rw [loadStoredData, if_pos hif, h]

theorem loadStoredData_stored {listing : List File} {q : MessageQueue} {f : File}
    {m : ParkingUpdateMessage} (hlook : q.LooksIntoFolder)
    (h : loadMessage io q.folder listing =
      .ok (some (m, q.folder.eraseP fun g => g.name == f.name))) :
    q.loadStoredData io listing = .ok (q.withStored f m) := by
  have hif : q.mQueue.length < mMaxSize ∧ q.mNumStoredData > 0 := hlook
  rw [loadStoredData, if_pos hif, h]
  rfl

/-- Calls that find the queue as it was before leave the folder alone. -/
theorem withstands_of_same {listing : List File} {q : MessageQueue}
    (h : q.loadStoredData io listing = .ok q) (hnone : ¬ (q.LooksIntoFolder ∧ q.HasMessage io)) :
    q.Withstands io listing := by
  have htry : q.try_pop io listing = .ok (q.takeFront.getD q) := by rw [try_pop, h]; rfl
  have hwait : q.wait_and_pop io listing =
      .ok (q.takeFront.getD { q with waiting := q.waiting + 1 }) := by rw [wait_and_pop, h]; rfl
  have hfolder : ∀ d : MessageQueue, d.folder = q.folder →
      (q.takeFront.getD d).folder = q.folder := by
    intro d hd
    unfold takeFront
    split
    · exact hd
    · rfl
  refine ⟨⟨_, htry⟩, ⟨_, hwait⟩, ?_, fun hlook hhas => absurd ⟨hlook, hhas⟩ hnone,
    fun _ => ⟨htry, hwait⟩⟩
  intro q' hq' f hf _
  rcases hq' with hq' | hq'
  · rw [htry] at hq'
    obtain rfl := Except.ok.inj hq'
    rw [hfolder q rfl]
    exact hf
  · rw [hwait] at hq'
    obtain rfl := Except.ok.inj hq'
    exact (hfolder { q with waiting := q.waiting + 1 } rfl).symm ▸ hf

theorem takeFront_withStored (q : MessageQueue) (f : File) (m : ParkingUpdateMessage) :
    ∃ q', (q.withStored f m).takeFront = some q' ∧
      q'.folder = q.folder.eraseP fun g => g.name == f.name := by
  unfold takeFront withStored
  cases q.mQueue with
  | nil => exact ⟨_, rfl, rfl⟩
  | cons data rest => exact ⟨_, rfl, rfl⟩

/-- Both calls after a file has been moved into the queue. -/
theorem pops_stored {listing : List File} {q q' : MessageQueue} {f : File}
    {m : ParkingUpdateMessage} (h : q.loadStoredData io listing = .ok (q.withStored f m))
    (hfront : (q.withStored f m).takeFront = some q') :
    q.try_pop io listing = .ok q' ∧ q.wait_and_pop io listing = .ok q' := by
  constructor
  · rw [try_pop, h, Except.map, hfront]
    rfl
  · rw [wait_and_pop, h, Except.map, hfront]
    rfl

/-- Removing the file of a name leaves no file of that name. -/
theorem not_mem_eraseP_name {folder : List File} (h : (folder.map File.name).Nodup) {f : File}
    (hf : f ∈ folder) : f ∉ folder.eraseP fun g => g.name == f.name := by
  obtain ⟨g, front, back, hfront, hg, rfl, herase⟩ :=
    List.exists_of_eraseP hf (p := fun g => g.name == f.name) (beq_self_eq_true f.name)
  rw [herase, List.mem_append, not_or]
  constructor
  · intro hmem
    exact hfront f hmem (beq_self_eq_true f.name)
  · intro hmem
    rw [List.map_append, List.map_cons] at h
    have hback := (List.nodup_cons.mp (List.nodup_append.mp h).2.1).1
    rw [beq_iff_eq.mp hg] at hback
    exact hback (List.mem_map_of_mem hmem)

/-- When a file has been moved into the queue and deleted, the store has withstood it exactly if its
name is well formed. -/
theorem withstands_stored_iff {listing : List File} {q : MessageQueue} {f : File}
    {m : ParkingUpdateMessage} (hlook : q.LooksIntoFolder)
    (hnames : (q.folder.map File.name).Nodup) (hmem : f ∈ q.folder)
    (himage : (io.imread f.image).empty = false)
    (hm : ParkingUpdateMessage.load io f = .ok (some m))
    (hstored : q.loadStoredData io listing = .ok (q.withStored f m)) :
    q.Withstands io listing ↔ WellNamed io f.name := by
  obtain ⟨q', hfront, hfolder⟩ := takeFront_withStored q f m
  obtain ⟨htry, hwait⟩ := pops_stored hstored hfront
  constructor
  · intro h
    by_contra hforeign
    have hleft := h.foreign q' (.inl htry) f hmem hforeign
    rw [hfolder] at hleft
    exact not_mem_eraseP_name hnames hmem hleft
  · intro hname
    refine ⟨⟨q', htry⟩, ⟨q', hwait⟩, ?_, fun _ _ => ⟨f, hmem, hname, m, q', hm, hfront, htry, hwait⟩,
      fun hnone => absurd ⟨hlook, f, hmem, hname, himage⟩ hnone⟩
    intro q'' hq'' g hg hforeign
    obtain rfl : q' = q'' := by
      rcases hq'' with hq'' | hq''
      · exact Except.ok.inj (htry.symm.trans hq'')
      · exact Except.ok.inj (hwait.symm.trans hq'')
    rw [hfolder, List.mem_eraseP_of_neg]
    · exact hg
    · intro hsame
      rw [beq_iff_eq] at hsame
      exact hforeign (hsame ▸ hname)

theorem not_withstands_of_throw {listing : List File} {q : MessageQueue} {e : LoadError}
    (h : q.loadStoredData io listing = .error e) : ¬ q.Withstands io listing := by
  intro hstands
  obtain ⟨q', hq'⟩ := hstands.try_pop_returns
  rw [try_pop, h] at hq'
  cases hq'

theorem firstSound_iff {listing : List File} {q : MessageQueue} {f : File}
    (hlook : q.LooksIntoFolder) (hfind : listing.find? (candidate io) = some f) :
    q.FirstSound io listing ↔ WellNamed io f.name ∧ PartsRead io f := by
  constructor
  · intro h
    exact h hlook f hfind
  · intro h _ g hg
    obtain rfl := Option.some.inj (hfind.symm.trans hg)
    exact h

/-- The store withstands the files in the folder exactly when the first candidate is sound. -/
theorem withstands_iff {listing : List File} {q : MessageQueue}
    (hlisting : listing.Perm q.folder) (hnames : (q.folder.map File.name).Nodup)
    (hremove : ∀ f ∈ q.folder, io.remove f.name = true) :
    q.Withstands io listing ↔ q.FirstSound io listing := by
  by_cases hlook : q.LooksIntoFolder
  · cases hfind : listing.find? (candidate io) with
    | none =>
      have hload := loadMessage_find_none q.folder hfind
      have hnone : ¬ q.HasMessage io := by
        rintro ⟨f, hf, hname, himage⟩
        have hcand := List.find?_eq_none.mp hfind f (hlisting.mem_iff.mpr hf)
        exact hcand (hname.candidate himage)
      apply iff_of_true
      · exact withstands_of_same (loadStoredData_nothing hload) fun h => hnone h.2
      · intro _ f hf
        rw [hfind] at hf
        cases hf
    | some f =>
      have hcand : candidate io f = true := List.find?_some hfind
      have hmem : f ∈ q.folder := hlisting.mem_iff.mp (List.mem_of_find?_eq_some hfind)
      obtain ⟨rest, hrest⟩ := loadMessage_find q.folder hfind
      rw [firstSound_iff hlook hfind]
      by_cases hread : PartsRead io f
      · obtain ⟨m, hm⟩ := load_candidate hcand hread
        have hstored := loadStoredData_stored hlook
          (hrest.trans (loadMessage_take hcand hm (hremove f hmem) rest))
        rw [withstands_stored_iff hlook hnames hmem (candidate_iff.mp hcand).2.2 hm hstored]
        exact (and_iff_left hread).symm
      · obtain ⟨e, he⟩ := load_candidate_throws hcand hread
        have hthrow := loadStoredData_throws hlook (hrest.trans (loadMessage_throw hcand he rest))
        exact iff_of_false (not_withstands_of_throw hthrow) fun h => hread h.2
  · apply iff_of_true
    · exact withstands_of_same (loadStoredData_not_looking hlook) fun h => hlook h.1
    · intro h
      exact absurd h hlook

/-- A queue that has stored one message, beside a picture somebody else has put there. -/
def besidePicture (name : String) : MessageQueue :=
  { mNumStoredData := 1,
    folder := [⟨name.toList, ⟨1, 1, [[0]]⟩⟩,
      (epochMessage .HTTP_REQ_UPDATE_ENTER 1).toFile epochDisk] }

/-- A picture with a short name is passed over. -/
theorem withstands_short_name :
    (besidePicture "holiday_7.png").Withstands epochDisk (besidePicture "holiday_7.png").folder := by
  apply (withstands_iff (List.Perm.refl _) (by decide) fun _ _ => rfl).mpr
  intro _ f hf
  have hfind : (besidePicture "holiday_7.png").folder.find? (candidate epochDisk) =
      some ((epochMessage .HTTP_REQ_UPDATE_ENTER 1).toFile epochDisk) := by decide +kernel
  obtain rfl := Option.some.inj (hfind.symm.trans hf)
  have hvalid : (epochMessage .HTTP_REQ_UPDATE_ENTER 1).Valid epochDisk :=
    epochMessage_valid _ (by decide)
  exact ⟨⟨_, hvalid.code, hvalid.spot, rfl⟩, _, _, _, _, _, hvalid.splitOn, ⟨_, hvalid.time⟩,
    ⟨_, stoi_to_string hvalid.code⟩, ⟨_, stoi_to_string hvalid.spot⟩⟩

/-- A name with four parts that begins with no time throws out of the uploader's call. -/
theorem four_part_name_throws :
    (besidePicture "a_trip_to_town.png").wait_and_pop epochDisk
        (besidePicture "a_trip_to_town.png").folder = .error .bad_time ∧
      ¬ (besidePicture "a_trip_to_town.png").Withstands epochDisk
        (besidePicture "a_trip_to_town.png").folder := by
  have hthrow : (besidePicture "a_trip_to_town.png").wait_and_pop epochDisk
      (besidePicture "a_trip_to_town.png").folder = .error .bad_time := rfl
  refine ⟨hthrow, fun h => ?_⟩
  obtain ⟨q', hq'⟩ := h.wait_and_pop_returns
  rw [hthrow] at hq'
  cases hq'

end MessageQueue
end VisionSensor
