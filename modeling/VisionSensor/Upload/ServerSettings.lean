import VisionSensor.Upload.Delivery

/-! The file of server settings: `writeSettings` is called when the sensor stops and `loadSettings`
when it starts again. The table of destinations is a hash map, which may list its entries in any
order. -/
namespace VisionSensor
open Unwind

namespace PTree

/-- `add(path, value)`: the last node of the path is always a new one. -/
def add : PTree → List String → PTree → PTree
  | t, [], c => mk c.data t.children
  | t, [key], c => t.add_child key c
  | t, key :: path, c =>
      mk t.data (setChild key (((t.find key).getD nil).add path c) t.children)

end PTree

namespace ServerDestinations_t

/-- The node of a `Request`. -/
def toNode (dest : ServerDestinations_t) : PTree :=
  [("RequestType", PTree.intData dest.RequestType),
    ("HTTPRequestMethod", dest.HTTPRequestMethod),
    ("TargetPath", dest.TargetPath)].foldl (fun t kv => t.put [kv.1] kv.2) (PTree.leaf "")

end ServerDestinations_t

namespace ServerNetworkHandler

/-- `writeSettings` when the map lists its entries in the given order. -/
def writeSettings (h : ServerNetworkHandler) (order : List (ℤ × ServerDestinations_t)) : PTree :=
  let root := PTree.nil.add ["ServerSettings", "ServerAddress"] (PTree.leaf h.mServerAddr)
  let root := root.add ["ServerSettings", "SecureConnection"] (PTree.leaf h.mSecureConnection)
  order.foldl (fun root data => root.add ["ServerSettings", "Request"] data.2.toNode) root

/-- The sensor stops and starts any number of times; each time the map lists its entries in some
order. -/
inductive Restarts (fresh : ServerNetworkHandler) :
    ServerNetworkHandler → ServerNetworkHandler → Prop
  | refl (h : ServerNetworkHandler) : Restarts fresh h h
  | next {h g g' : ServerNetworkHandler} (order : List (ℤ × ServerDestinations_t))
      (hrun : Restarts fresh h g) (horder : order.Perm g.mServerDestinations)
      (hload : loadSettings fresh (g.writeSettings order) = .ok g') : Restarts fresh h g'

/-- The map has one entry for a request type, and the entry names it. -/
structure Tabled (h : ServerNetworkHandler) : Prop where
  keyed : (h.mServerDestinations.map Prod.fst).Nodup
  named : ∀ d ∈ h.mServerDestinations, d.2.RequestType = d.1 ∧ InInt d.1

variable {h g g' fresh : ServerNetworkHandler} {root : PTree}
  {order : List (ℤ × ServerDestinations_t)}

theorem Tabled.assign (ht : h.Tabled) {dest : ServerDestinations_t}
    (hdest : InInt dest.RequestType) :
    Tabled { h with
      mServerDestinations := ServerNetworkHandler.assign h.mServerDestinations dest } where
  keyed := by
    rw [ServerNetworkHandler.assign, List.map_cons, List.nodup_cons]
    refine ⟨?_, ht.keyed.sublist (List.filter_sublist.map _)⟩
    rintro hmem
    obtain ⟨d, hd, hkey⟩ := List.mem_map.mp hmem
    exact absurd hkey (bne_iff_ne.mp (List.mem_filter.mp hd).2)
  named := by
    rintro d (_ | ⟨_, hd⟩)
    · exact ⟨rfl, hdest⟩
    · exact ht.named d (List.mem_filter.mp hd).1

theorem loadSetting_tabled (ht : h.Tabled) {v : String × PTree} (hv : loadSetting h v = .ok g) :
    g.Tabled := by
  unfold loadSetting at hv
  split_ifs at hv
  · obtain rfl := Except.ok.inj hv
    exact ⟨ht.keyed, ht.named⟩
  · obtain rfl := Except.ok.inj hv
    exact ⟨ht.keyed, ht.named⟩
  · obtain ⟨RequestType, htype, hv⟩ := except_bind_eq_ok.mp hv
    obtain ⟨HTTPRequestMethod, -, hv⟩ := except_bind_eq_ok.mp hv
    obtain ⟨TargetPath, -, hv⟩ := except_bind_eq_ok.mp hv
    obtain rfl := Except.ok.inj hv
    exact ht.assign (PTree.getInt_inInt htype)
  · obtain rfl := Except.ok.inj hv
    exact ht

/-- What every child of the settings keeps, the whole file keeps. -/
theorem loadSettings_keeps {P : ServerNetworkHandler → Prop}
    (hP : ∀ h v g, P h → loadSetting h v = .ok g → P g) (hh : P h)
    (hload : loadSettings h root = .ok g) : P g := by
  unfold loadSettings at hload
  split at hload
  · cases hload
  · rename_i settings hsettings
    clear hsettings
    generalize settings.children = vs at hload
    induction vs generalizing h with
    | nil =>
      obtain rfl := Except.ok.inj hload
      exact hh
    | cons v vs ih =>
      rw [List.foldlM_cons] at hload
      obtain ⟨h', hv, hload⟩ := except_bind_eq_ok.mp hload
      exact ih (hP h v h' hh hv) hload

/-- One `Request` of the file. -/
def requestNode (data : ℤ × ServerDestinations_t) : String × PTree := ("Request", data.2.toNode)

theorem writeSettings_eq (h : ServerNetworkHandler) (order : List (ℤ × ServerDestinations_t)) :
    h.writeSettings order = PTree.mk "" [("ServerSettings", PTree.mk ""
      ([("ServerAddress", PTree.leaf h.mServerAddr),
        ("SecureConnection", PTree.leaf h.mSecureConnection)] ++ order.map requestNode))] := by
  have hfold : ∀ cs : List (String × PTree),
      order.foldl (fun root data => root.add ["ServerSettings", "Request"] data.2.toNode)
        (PTree.mk "" [("ServerSettings", PTree.mk "" cs)]) =
      PTree.mk "" [("ServerSettings", PTree.mk "" (cs ++ order.map requestNode))] := by
    induction order with
    | nil => simp
    | cons data order ih =>
      intro cs
      rw [List.foldl_cons]
      exact (ih (cs ++ [requestNode data])).trans (by simp)
  exact hfold _

/-- The node of a destination is read back. -/
theorem loadSetting_requestNode {d : ℤ × ServerDestinations_t} (hd : InInt d.2.RequestType) :
    loadSetting h (requestNode d) =
      .ok { h with mServerDestinations := assign h.mServerDestinations d.2 } := by
  have htype : d.2.toNode.getInt "RequestType" = .ok d.2.RequestType :=
    PTree.getInt_of_find rfl hd
  have hmethod : d.2.toNode.getString "HTTPRequestMethod" = .ok d.2.HTTPRequestMethod := rfl
  have hpath : d.2.toNode.getString "TargetPath" = .ok d.2.TargetPath := rfl
  rw [loadSetting, if_neg (by simp [requestNode]), if_neg (by simp [requestNode]),
    if_pos (by simp [requestNode])]
  simp only [requestNode, htype, hmethod, hpath]
  rfl

theorem foldlM_requestNode (horder : ∀ d ∈ order, InInt d.2.RequestType) :
    (order.map requestNode).foldlM loadSetting h = .ok { h with
      mServerDestinations := (order.map Prod.snd).foldl assign h.mServerDestinations } := by
  induction order generalizing h with
  | nil => rfl
  | cons d order ih =>
    obtain ⟨hd, horder⟩ := List.forall_mem_cons.mp horder
    rw [List.map_cons, List.foldlM_cons, loadSetting_requestNode hd]
    exact ih horder

/-- Entries with distinct keys do not displace each other. -/
theorem foldl_assign {acc : List (ℤ × ServerDestinations_t)}
    (hnamed : ∀ d ∈ order, d.2.RequestType = d.1)
    (hkeys : ((order ++ acc).map Prod.fst).Nodup) :
    (order.map Prod.snd).foldl assign acc = order.reverse ++ acc := by
  induction order generalizing acc with
  | nil => rfl
  | cons d order ih =>
    obtain ⟨hd, hnamed⟩ := List.forall_mem_cons.mp hnamed
    rw [List.cons_append, List.map_cons, List.nodup_cons] at hkeys
    have hfilter : (acc.filter fun e => e.1 != d.2.RequestType) = acc := by
      rw [List.filter_eq_self]
      intro e he
      rw [bne_iff_ne, hd]
      rintro heq
      exact hkeys.1 (heq ▸ List.mem_map_of_mem (List.mem_append_right _ he))
    have hassign : assign acc d.2 = d :: acc := by
      rw [assign, hfilter, hd]
    have hperm : ((order ++ d :: acc).map Prod.fst).Nodup := by
      refine ((List.perm_middle.map Prod.fst).nodup_iff).mpr ?_
      exact List.nodup_cons.mpr hkeys
    rw [List.map_cons, List.foldl_cons, hassign, ih hnamed hperm, List.reverse_cons,
      List.append_assoc, List.singleton_append]

/-- One stop and start: the same address, the same protocol and the same entries. -/
theorem load_writeSettings (hfresh : fresh.mServerDestinations = []) (ht : h.Tabled)
    (horder : order.Perm h.mServerDestinations) :
    loadSettings fresh (h.writeSettings order) = .ok { fresh with
      mServerAddr := h.mServerAddr
      mSecureConnection := h.mSecureConnection
      mServerDestinations := order.reverse } := by
  have hnamed : ∀ d ∈ order, d.2.RequestType = d.1 ∧ InInt d.1 := fun d hd =>
    ht.named d (horder.mem_iff.mp hd)
  have hint : ∀ d ∈ order, InInt d.2.RequestType := fun d hd => by
    rw [(hnamed d hd).1]
    exact (hnamed d hd).2
  have hkeys : ((order ++ []).map Prod.fst).Nodup := by
    rw [List.append_nil]
    exact (horder.map Prod.fst).nodup_iff.mpr ht.keyed
  have hassign := foldl_assign (fun d hd => (hnamed d hd).1) hkeys
  rw [List.append_nil] at hassign
  rw [writeSettings_eq]
  refine (foldlM_requestNode hint).trans ?_
  rw [hfresh, hassign]
  rfl

/-- What a restart must keep. -/
structure SameSettings (h g : ServerNetworkHandler) : Prop where
  zone : g.TimeZone = h.TimeZone
  address : g.mServerAddr = h.mServerAddr
  protocol : g.mSecureConnection = h.mSecureConnection
  entries : g.mServerDestinations.Perm h.mServerDestinations

theorem SameSettings.requestOf (hs : SameSettings h g) (ht : h.Tabled) (io : Storage)
    (imencode : Mat → Option (List UInt8)) (data : IMessageData) :
    g.requestOf io imencode data = h.requestOf io imencode data := by
  unfold ServerNetworkHandler.requestOf
  simp only [hs.zone, fun request => (KeyedTable.lookup_perm hs.entries.symm ht.keyed request).symm]

theorem loadSetting_zone {v : String × PTree} (hv : loadSetting h v = .ok g) :
    g.TimeZone = h.TimeZone := by
  unfold loadSetting at hv
  split_ifs at hv
  · obtain rfl := Except.ok.inj hv
    rfl
  · obtain rfl := Except.ok.inj hv
    rfl
  · obtain ⟨_, -, hv⟩ := except_bind_eq_ok.mp hv
    obtain ⟨_, -, hv⟩ := except_bind_eq_ok.mp hv
    obtain ⟨_, -, hv⟩ := except_bind_eq_ok.mp hv
    obtain rfl := Except.ok.inj hv
    rfl
  · obtain rfl := Except.ok.inj hv
    rfl

/-- A run of restarts keeps the settings. -/
theorem Restarts.same (hfresh : fresh.mServerDestinations = []) (ht : h.Tabled)
    (hzone : h.TimeZone = fresh.TimeZone) (hrun : Restarts fresh h g) : SameSettings h g := by
  induction hrun with
  | refl => exact ⟨rfl, rfl, rfl, .refl _⟩
  | next order hrun horder hload ih =>
    rename_i g₀ g₁
    have htabled : g₀.Tabled :=
      ⟨(ih.entries.map Prod.fst).nodup_iff.mpr ht.keyed,
        fun d hd => ht.named d (ih.entries.mem_iff.mp hd)⟩
    rw [load_writeSettings hfresh htabled horder] at hload
    obtain rfl := Except.ok.inj hload
    exact ⟨hzone.symm, ih.address, ih.protocol,
      (order.reverse_perm.trans horder).trans ih.entries⟩

/-- Whatever settings file the sensor was first started with, after any number of stops and starts,
with the table listed in any order each time, the next start succeeds as well, and every message
goes where it went at first. -/
theorem restarts_keep (hfresh : fresh.mServerDestinations = [])
    (hload : loadSettings fresh root = .ok h) (hrun : Restarts fresh h g) :
    SameSettings h g ∧
      (∀ io imencode data, g.requestOf io imencode data = h.requestOf io imencode data) ∧
      ∀ order, order.Perm g.mServerDestinations →
        ∃ g', loadSettings fresh (g.writeSettings order) = .ok g' := by
  have hempty : fresh.Tabled := by
    refine ⟨?_, ?_⟩ <;> simp [hfresh]
  have ht : h.Tabled :=
    loadSettings_keeps (fun _ _ _ hg hv => loadSetting_tabled hg hv) hempty hload
  have hzone : h.TimeZone = fresh.TimeZone :=
    loadSettings_keeps (P := fun g => g.TimeZone = fresh.TimeZone)
      (fun _ _ _ hg hv => (loadSetting_zone hv).trans hg) rfl hload
  have hsame : SameSettings h g := hrun.same hfresh ht hzone
  have hg : g.Tabled := ⟨(hsame.entries.map Prod.fst).nodup_iff.mpr ht.keyed,
    fun d hd => ht.named d (hsame.entries.mem_iff.mp hd)⟩
  exact ⟨hsame, hsame.requestOf ht, fun order horder => ⟨_, load_writeSettings hfresh hg horder⟩⟩

/-- The shipped file, written back once in the order in which it was read. -/
theorem restarts_keep_shipped : ∃ g, Restarts { TimeZone := "+00" } shippedHandler g ∧
    SameSettings shippedHandler g := by
  have hfresh : ({ TimeZone := "+00" } : ServerNetworkHandler).mServerDestinations = [] := rfl
  have hload : loadSettings { TimeZone := "+00" } (shippedHandler.writeSettings
      shippedHandler.mServerDestinations) = .ok { shippedHandler with
        mServerDestinations := shippedHandler.mServerDestinations.reverse } := rfl
  have hrun := (Restarts.refl shippedHandler).next _ (List.Perm.refl _) hload
  exact ⟨_, hrun, (restarts_keep hfresh load_serverdata hrun).1⟩

end ServerNetworkHandler
end VisionSensor
