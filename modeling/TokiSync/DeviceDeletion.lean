import TokiSync.FjallRuns

/-!
# Deletion of a device

A cell belongs to a device when its key is built from one of the device's
dedup keys. In every coherent store a deletion empties exactly the cells of
the device, those whose pointers were pruned included, so it leaves the store
that would be there if the device had never uploaded anything.
-/

namespace TokiSync.DeviceDeletion

open MachineWords ByteKeys ByteCodec BatchedMaps ServerEvents FjallStore FjallCoherence
open FjallBatches FjallRuns Runs

/-- Cells of a device: pointers, rows, sessions and index entries of its dedup
keys. -/
def OfDevice (deviceId : String) (cell : KeyspaceName×Bytes) : Prop :=
  ∃ provider msgId, InLane (idxKey deviceId provider msgId) cell

/-- Two stores hold the same outside the cells of a device. -/
def SameElsewhere (deviceId : String) (db db' : Db) : Prop :=
  ∀ name (k : Bytes), ¬OfDevice deviceId (name,k) → (db name)[k]?=(db' name)[k]?

/-- The same mutation when a device has nothing to upload. -/
def withoutUploads (deviceId : String) : StoreOp → StoreOp
  | .upsert events => .upsert (events.filter fun e => e.deviceId≠deviceId)
  | .cleanup device cutoffMs => .cleanup device cutoffMs
  | .delete device => .delete device

section

variable {bincode : Codec PersistedEvent} {db db' : Db} {deviceId : String}

/-- The lane of an event belongs to its device. -/
theorem ofDevice_of_inLane {e : ServerEvent} {cell : KeyspaceName×Bytes}
    (h : InLane e.idxKey cell) : OfDevice e.deviceId cell :=
  ⟨e.provider,e.msgId,h⟩

/-- A cell belongs to one device. -/
theorem OfDevice.unique {a b : String} {cell : KeyspaceName×Bytes} (ha : OfDevice a cell)
    (hb : OfDevice b cell) (hna : NulFree (utf8 a)) (hnb : NulFree (utf8 b)) : a=b := by
  obtain ⟨provider,msgId,ha⟩ := ha
  obtain ⟨provider',msgId',hb⟩ := hb
  have hkey : idxKey a provider msgId=idxKey b provider' msgId' := ha.unique hb
  exact utf8_injective ((delimited_append_inj hna hnb).mp hkey).1

/-- A cell in the lane of an event belongs to no other device. -/
theorem OfDevice.device_eq {e : ServerEvent} {cell : KeyspaceName×Bytes}
    (h : OfDevice deviceId cell) (hd : NulFree (utf8 deviceId)) (he : NulFree (utf8 e.deviceId))
    (hlane : InLane e.idxKey cell) : e.deviceId=deviceId :=
  OfDevice.unique (ofDevice_of_inLane hlane) h he hd

/-- In a store whose keyspaces are in step every filled cell is in the lane of
a row. -/
theorem exists_row_of_filled (h : Aligned bincode db) (hm : Mirrored bincode db)
    {name : KeyspaceName} {k w : Bytes} (hname : name≠.windows) (hw : (db name)[k]?=some w) :
    ∃ (row v : Bytes) (e : ServerEvent), (db .events)[row]?=some v ∧
      decodeEvent bincode v=some e ∧ e.Delimitable ∧ InLane e.idxKey (name,k) := by
  cases name with
  | events =>
    obtain ⟨e,he,hk,hd⟩ := h.row k w hw
    exact ⟨k,w,e,hw,he,hd,e.tsMs,hk⟩
  | idxMsg =>
    obtain ⟨v,e,hv,he,hek⟩ := h.pointer k w hw
    exact ⟨w,v,e,hv,he,(h.of_decode hv he).2,hek.symm⟩
  | idxUser =>
    obtain ⟨row,e,hv,he,hk⟩ := hm.copy k w hw
    obtain ⟨hrow,hd⟩ := h.of_decode hv he
    exact ⟨row,w,e,hv,he,hd,e.userId,e.tsMs,hd.2,by rw [hk,hrow]; rfl⟩
  | sessions =>
    obtain ⟨v,hv⟩ := hm.session k w hw
    obtain ⟨e,he,hk,hd⟩ := h.row k v hv
    exact ⟨k,v,e,hv,he,hd,e.tsMs,hk⟩
  | windows => exact absurd rfl hname

/-- The cells a deletion empties belong to the device. -/
theorem ofDevice_of_deleted (h : Aligned bincode db) (hd : NulFree (utf8 deviceId))
    {cell : KeyspaceName×Bytes} (hdeleted : Deleted bincode db deviceId cell) :
    OfDevice deviceId cell := by
  rcases hdeleted with ⟨k,v,e,hv,he,rfl,hcell⟩ | ⟨hname,hpre,row,hrow⟩
  · obtain ⟨hk,hed⟩ := h.of_decode hv he
    refine ofDevice_of_inLane ?_
    rcases hcell with rfl | rfl | rfl | rfl
    · exact ⟨e.userId,e.tsMs,hed.2,by rw [hk]; rfl⟩
    · exact rfl
    · exact ⟨e.tsMs,hk⟩
    · exact ⟨e.tsMs,hk⟩
  · obtain ⟨name,k⟩ := cell
    cases hname
    obtain ⟨v,e,hv,he,hek⟩ := h.pointer k row hrow
    obtain ⟨-,hed⟩ := h.of_decode hv he
    rw [←hek,delimited_prefix_of_device hd hed.1] at hpre
    rw [hpre]
    exact ofDevice_of_inLane hek.symm

/-- A deletion leaves the cells of other devices. -/
theorem get_deleteDeviceEvents_of_other (h : Aligned bincode db) (hd : NulFree (utf8 deviceId))
    {name : KeyspaceName} {k : Bytes} (hother : ¬OfDevice deviceId (name,k)) :
    (deleteDeviceEvents bincode db deviceId name)[k]?=(db name)[k]? := by
  ext v
  rw [get_deleteDeviceEvents]
  exact ⟨fun hv => hv.1,fun hv => ⟨hv,fun hdel => hother (ofDevice_of_deleted h hd hdel)⟩⟩

/-- A deletion empties the cells of the device. -/
theorem get_deleteDeviceEvents_of_device (h : Aligned bincode db) (hm : Mirrored bincode db)
    (hd : NulFree (utf8 deviceId)) {name : KeyspaceName} {k : Bytes}
    (hdevice : OfDevice deviceId (name,k)) :
    (deleteDeviceEvents bincode db deviceId name)[k]?=none := by
  have h' := aligned_deleteDeviceEvents h hd
  have hm' := mirrored_deleteDeviceEvents hm h deviceId
  have hname : name≠.windows := by
    rintro rfl
    obtain ⟨provider,msgId,hlane⟩ := hdevice
    exact hlane
  cases hw : (deleteDeviceEvents bincode db deviceId name)[k]? with
  | none => rfl
  | some w =>
    obtain ⟨row,v,e,hv,he,hed,hlane⟩ := exists_row_of_filled h' hm' hname hw
    have hkept := (get_deleteDeviceEvents_events.mp hv).2 e he
    exact absurd (hdevice.device_eq hd hed.1 hlane) hkept

/-- Batches of the same events keep two stores the same outside a device,
whose own events do not matter. -/
theorem SameElsewhere.upsertInOrder (hsame : SameElsewhere deviceId db db')
    (h : Aligned bincode db) (hd : NulFree (utf8 deviceId)) {order : List ServerEvent}
    (horder : ∀ e∈order, e.Delimitable) :
    SameElsewhere deviceId (upsertInOrder bincode db order)
      (upsertInOrder bincode db' (order.filter fun e => e.deviceId≠deviceId)) := by
  have hfold : ∀ acc acc', SameElsewhere deviceId acc acc' →
      SameElsewhere deviceId (commit acc (order.flatMap (upsertOne bincode db)))
        (commit acc' ((order.filter fun e => e.deviceId≠deviceId).flatMap
          (upsertOne bincode db'))) := by
    induction order with
    | nil => exact fun _ _ hacc => hacc
    | cons e order ih =>
      intro acc acc' hacc name k hother
      have hed := horder e List.mem_cons_self
      have ih := ih fun x hx => horder x (List.mem_cons_of_mem _ hx)
      rw [List.flatMap_cons,commit_append]
      by_cases hdev : e.deviceId=deviceId
      · rw [List.filter_cons_of_neg (by rw [decide_eq_true_eq]; exact fun hne => hne hdev)]
        refine ih _ _ (fun name k hother => ?_) name k hother
        rw [←hacc name k hother]
        refine get_commit_of_untouched (fun op hop heq => hother ?_) acc
        rw [←heq,←hdev]
        exact ofDevice_of_inLane (upsertOne_inLane h hed op hop)
      · rw [List.filter_cons_of_pos (by rw [decide_eq_true_eq]; exact hdev),List.flatMap_cons,
          commit_append]
        -- what the event reads is the same on both sides
        have hread : ∀ name k, InLane e.idxKey (name,k) → (db' name)[k]?=(db name)[k]? := by
          intro name k hlane
          exact (hsame name k fun hof => hdev (hof.device_eq hd hed.1 hlane)).symm
        have hwrites : upsertOne bincode db' e=upsertOne bincode db e := by
          refine upsertOne_congr (hread _ _ rfl) fun row hrow => ?_
          obtain ⟨v,x,-,-,hxk,hkey,-⟩ := h.predecessor hrow
          refine hread _ _ ⟨x.tsMs,?_⟩
          rw [hkey,←hxk]
          rfl
        rw [hwrites]
        exact ih _ _ (fun name k hother => get_commit_congr _ (hacc name k hother)) name k hother
  exact hfold db db' hsame

/-- Pruning keeps two stores the same outside a device. -/
theorem SameElsewhere.cleanup (hsame : SameElsewhere deviceId db db') (device : String)
    (cutoffMs : Int64) : SameElsewhere deviceId (cleanupOldDedup db device cutoffMs)
      (cleanupOldDedup db' device cutoffMs) := by
  intro name k hother
  by_cases hname : name=.idxMsg
  · rw [hname] at hother ⊢
    ext row
    rw [get_cleanupOldDedup_idxMsg_iff,get_cleanupOldDedup_idxMsg_iff,hsame _ _ hother]
  · rw [get_cleanupOldDedup_of_ne _ _ _ hname,get_cleanupOldDedup_of_ne _ _ _ hname,
      hsame _ _ hother]

/-- Deletions keep two stores the same outside a device. -/
theorem SameElsewhere.delete (hsame : SameElsewhere deviceId db db') {device : String}
    (hd : NulFree (utf8 device)) (h : Aligned bincode db) (hm : Mirrored bincode db)
    (h' : Aligned bincode db') (hm' : Mirrored bincode db') :
    SameElsewhere deviceId (deleteDeviceEvents bincode db device)
      (deleteDeviceEvents bincode db' device) := by
  intro name k hother
  by_cases hdevice : OfDevice device (name,k)
  · rw [get_deleteDeviceEvents_of_device h hm hd hdevice,
      get_deleteDeviceEvents_of_device h' hm' hd hdevice]
  · rw [get_deleteDeviceEvents_of_other h hd hdevice,get_deleteDeviceEvents_of_other h' hd hdevice,
      hsame _ _ hother]

variable {history : List StoreOp}

/-- The live events of a history in which a device has nothing to upload. -/
theorem live_withoutUploads (deviceId : String) (history : List StoreOp) :
    live (history.map (withoutUploads deviceId))=
      (live history).filter fun e => e.deviceId≠deviceId := by
  induction history with
  | nil => rfl
  | cons op past ih =>
    rw [List.map_cons,live,live,ih]
    cases op with
    | upsert events => rw [withoutUploads,liveAfter,liveAfter,List.filter_append]
    | cleanup device cutoffMs => rfl
    | delete device =>
      rw [withoutUploads,liveAfter,liveAfter,List.filter_filter,List.filter_filter]
      refine List.filter_congr fun e _ => ?_
      rw [Bool.and_comm]

/-- A history stays admissible when a device has nothing to upload. -/
theorem admissible_withoutUploads (h : Admissible history) :
    Admissible (history.map (withoutUploads deviceId)) := by
  constructor
  · intro op hop
    obtain ⟨op,hmem,rfl⟩ := List.mem_map.mp hop
    have hop := h.1 op hmem
    cases op with
    | upsert events => exact fun e he => hop e (List.mem_of_mem_filter he)
    | cleanup device cutoffMs => exact hop
    | delete device => exact hop
  · intro past hpast a ha b hb
    rw [List.mem_tails] at hpast
    obtain ⟨newer,hnewer⟩ := hpast
    obtain ⟨xs,ys,rfl,-,rfl⟩ := List.append_eq_map_iff.mp hnewer
    rw [live_withoutUploads] at ha hb
    have htail : ys∈(xs++ys).tails := (List.mem_tails _ _).mpr (List.suffix_append xs ys)
    exact h.2 ys htail a (List.mem_of_mem_filter ha) b (List.mem_of_mem_filter hb)

/-- A run in which the device has nothing to upload follows every run, and its
state differs from that of the run in cells of the device only. -/
theorem exists_run_withoutUploads (hd : NulFree (utf8 deviceId)) (hA : Admissible history)
    (run : Run (StoreStep bincode) emptyDb history db) :
    ∃ db', Run (StoreStep bincode) emptyDb (history.map (withoutUploads deviceId)) db' ∧
      SameElsewhere deviceId db db' := by
  refine Run.invariant_of admissible_tail
    (I:=fun history db => ∃ db', Run (StoreStep bincode) emptyDb
      (history.map (withoutUploads deviceId)) db' ∧ SameElsewhere deviceId db db')
    ⟨emptyDb,.start,fun _ _ _ => rfl⟩ ?_ hA run
  rintro past s op t hrun hA ⟨s',run',hsame⟩ hstep
  have hpast := admissible_tail op past hA
  have hc := Coherent.of_run hrun hpast.1 hpast.2
  have hpast' : Admissible (past.map (withoutUploads deviceId)) := admissible_withoutUploads hpast
  have hc' := Coherent.of_run run' hpast'.1 hpast'.2
  cases op with
  | upsert events =>
    obtain ⟨order,hperm,rfl⟩ := hstep
    have hevents : ∀ e∈events, e.Delimitable := hA.1 (.upsert events) List.mem_cons_self
    have horder : ∀ e∈order, e.Delimitable := fun e he =>
      hevents e (mem_of_mem_winners (hperm.mem_iff.mp he))
    have hkeys : ∀ a∈events, ∀ b∈events, a.idxKey=b.idxKey →
        decide (a.deviceId≠deviceId)=decide (b.deviceId≠deviceId) := by
      intro a ha b hb heq
      rw [idxKey_device (hevents a ha).1 (hevents b hb).1 heq]
    have hperm' := (hperm.filter fun e => decide (e.deviceId≠deviceId)).trans
      (winners_filter (p:=fun e => decide (e.deviceId≠deviceId)) hkeys)
    exact ⟨_,.next _ run' ⟨_,hperm',rfl⟩,hsame.upsertInOrder hc.aligned hd horder⟩
  | cleanup device cutoffMs =>
    cases hstep
    exact ⟨_,.next _ run' rfl,hsame.cleanup device cutoffMs⟩
  | delete device =>
    cases hstep
    have hdevice : NulFree (utf8 device) := hA.1 (.delete device) List.mem_cons_self
    exact ⟨_,.next _ run' rfl,
      hsame.delete hdevice hc.aligned hc.mirrored hc'.aligned hc'.mirrored⟩

/-- A run in which the device has nothing to upload fills none of its cells. -/
theorem get_of_device_withoutUploads (hd : NulFree (utf8 deviceId)) (hA : Admissible history)
    (run : Run (StoreStep bincode) emptyDb (history.map (withoutUploads deviceId)) db)
    {name : KeyspaceName} {k : Bytes} (hdevice : OfDevice deviceId (name,k)) :
    (db name)[k]?=none := by
  have hA' : Admissible (history.map (withoutUploads deviceId)) := admissible_withoutUploads hA
  have hc := Coherent.of_run run hA'.1 hA'.2
  have hname : name≠.windows := by
    rintro rfl
    obtain ⟨provider,msgId,hlane⟩ := hdevice
    exact hlane
  cases hw : (db name)[k]? with
  | none => rfl
  | some w =>
    obtain ⟨row,v,e,hv,he,hed,hlane⟩ := exists_row_of_filled hc.aligned hc.mirrored hname hw
    have howner := hc.owned row v e hv he
    obtain ⟨x,hx,-⟩ := Option.map_eq_some_iff.mp howner
    have hmem := List.mem_of_find?_eq_some hx
    have hxdev := List.find?_some (p:=fun x : ServerEvent => decide (x.deviceId=e.deviceId)) hx
    rw [live_withoutUploads,List.mem_filter,decide_eq_true_eq] at hmem
    exact absurd ((of_decide_eq_true hxdev).trans (hdevice.device_eq hd hed.1 hlane)) hmem.2

/-- Deleting a device empties all its cells, leaves every other cell, and ends
in the store of the run in which the device never uploaded anything. -/
theorem device_deletion (bincode : Codec PersistedEvent) {history : List StoreOp} {db : Db}
    (run : Run (StoreStep bincode) emptyDb history db) (hA : Admissible history)
    {deviceId : String} (hd : NulFree (utf8 deviceId)) :
    (∀ name (k : Bytes), OfDevice deviceId (name,k) →
      (deleteDeviceEvents bincode db deviceId name)[k]?=none) ∧
    (∀ (k v : Bytes) (e : ServerEvent), decodeEvent bincode v=some e →
      (deleteDeviceEvents bincode db deviceId .events)[k]?=some v ∨
      (deleteDeviceEvents bincode db deviceId .idxUser)[k]?=some v → e.deviceId≠deviceId) ∧
    (∀ name (k : Bytes), ¬OfDevice deviceId (name,k) →
      (deleteDeviceEvents bincode db deviceId name)[k]?=(db name)[k]?) ∧
    Run (StoreStep bincode) emptyDb (history.map (withoutUploads deviceId))
      (deleteDeviceEvents bincode db deviceId) := by
  have hc := Coherent.of_run run hA.1 hA.2
  have hempty : ∀ name (k : Bytes), OfDevice deviceId (name,k) →
      (deleteDeviceEvents bincode db deviceId name)[k]?=none :=
    fun name k hdevice => get_deleteDeviceEvents_of_device hc.aligned hc.mirrored hd hdevice
  have hframe : ∀ name (k : Bytes), ¬OfDevice deviceId (name,k) →
      (deleteDeviceEvents bincode db deviceId name)[k]?=(db name)[k]? :=
    fun name k hother => get_deleteDeviceEvents_of_other hc.aligned hd hother
  refine ⟨hempty,?_,hframe,?_⟩
  · rintro k v e he (hv | hv)
    · exact (get_deleteDeviceEvents_events.mp hv).2 e he
    · obtain ⟨row,x,hrow,hx,-⟩ := (mirrored_deleteDeviceEvents hc.mirrored hc.aligned _).copy k v hv
      exact (get_deleteDeviceEvents_events.mp hrow).2 e he
  · obtain ⟨db',run',hsame⟩ := exists_run_withoutUploads hd hA run
    have heq : deleteDeviceEvents bincode db deviceId=db' := by
      refine maps_ext fun name k => ?_
      by_cases hdevice : OfDevice deviceId (name,k)
      · rw [hempty name k hdevice,get_of_device_withoutUploads hd hA run' hdevice]
      · rw [hframe name k hdevice,hsame name k hdevice]
    rw [heq]
    exact run'

end

/-- Deleting the device of the sample run, whose pointer was pruned in it. -/
theorem device_deletion_sample :
    Run (StoreStep eventLayout.codec) emptyDb (sampleHistory.map (withoutUploads "d1"))
      (deleteDeviceEvents eventLayout.codec sampleDb "d1") := by
  have run : Run (StoreStep eventLayout.codec) emptyDb sampleHistory sampleDb :=
    .next _ (.next _ (.next _ .start ⟨_,.refl _,rfl⟩) rfl) ⟨_,.refl _,rfl⟩
  exact (device_deletion eventLayout.codec run ⟨by decide,by decide⟩ (by decide)).2.2.2

end TokiSync.DeviceDeletion
