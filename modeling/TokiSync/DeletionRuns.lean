import TokiSync.DeletionRaces

/-!
# Runs of a deletion

The last purge of a device comes after its row is gone, so nothing can pass
the cursor check any more; the last purge of a user's windows comes after the
user is inactive and evicted from the cache, so nothing can pass the active
check. What is parked between its check and its write at that instant is
written afterwards. When nothing is, the finished deletion leaves nothing
behind.
-/

namespace TokiSync.DeletionRuns

open MachineWords ByteKeys ByteCodec BatchedMaps ServerEvents WireWindows FjallStore
open FjallRuns DeviceDeletion SyncBatches WindowAcks WindowStore WindowQueries DeletionRaces Runs
open ActiveStatusCache (evict)

/-- After every action of a kind the remaining actions have a property. -/
def Ordered (p : Action → Prop) (q : List Action → Prop) : List Action → Prop
  | [] => True
  | action::rest => (p action → q rest) ∧ Ordered p q rest

/-- Actions that may delete the row of a device. -/
def MayDrop (deviceId : String) : Action → Prop
  | .deleteUserDevice d _ => d=deviceId
  | .deleteDevice d => d=deviceId
  | .deleteUser _ => True
  | _ => False

/-- Actions that delete the row of a device. -/
def Drops (devices : String → Option String) (deviceId : String) : Action → Prop
  | .deleteUserDevice d userId => d=deviceId ∧ devices deviceId=some userId
  | .deleteDevice d => d=deviceId
  | .deleteUser userId => devices deviceId=some userId
  | _ => False

section

variable {p : Action → Prop} {q : List Action → Prop} {action : Action} {rest : List Action}

/-- What follows an action of the kind somewhere in the list. -/
theorem Ordered.mem {b : Action} (h : Ordered p (fun rest => b∈rest) rest) (ha : action∈rest)
    (hp : p action) : b∈rest := by
  induction rest with
  | nil => cases ha
  | cons a rest ih =>
    rcases List.mem_cons.mp ha with rfl | ha
    · exact List.mem_cons_of_mem _ (h.1 hp)
    · exact List.mem_cons_of_mem _ (ih h.2 ha)

/-- A weaker property of the remaining actions. -/
theorem Ordered.mono {q' : List Action → Prop} (h : Ordered p q rest)
    (hq : ∀ rest, q rest → q' rest) : Ordered p q' rest := by
  induction rest with
  | nil => exact trivial
  | cons a rest ih => exact ⟨fun hp => hq rest (h.1 hp),ih h.2⟩

/-- Lists without actions of the kind. -/
theorem ordered_of_none (h : ∀ a∈rest, ¬p a) : Ordered p q rest := by
  induction rest with
  | nil => exact trivial
  | cons a rest ih =>
    exact ⟨fun hp => absurd hp (h a List.mem_cons_self),
      ih fun x hx => h x (List.mem_cons_of_mem _ hx)⟩

/-- Actions before a list that has the action looked for. -/
theorem Ordered.append {b : Action} (h : Ordered p (fun rest => b∈rest) rest) (hb : b∈rest)
    (before : List Action) : Ordered p (fun rest => b∈rest) (before++rest) := by
  induction before with
  | nil => exact h
  | cons a before ih => exact ⟨fun _ => List.mem_append_right _ hb,ih⟩

theorem Drops.mayDrop {devices : String → Option String} {deviceId : String}
    (h : Drops devices deviceId action) : MayDrop deviceId action := by
  cases action with
  | deleteUserDevice d userId => exact h.1
  | deleteDevice d => exact h
  | deleteUser userId => exact trivial
  | _ => exact h

/-- Whether an action drops the row depends on the row only. -/
theorem Drops.congr {devices devices' : String → Option String} {deviceId : String}
    (h : Drops devices deviceId action) (heq : devices' deviceId=devices deviceId) :
    Drops devices' deviceId action := by
  cases action with
  | deleteUserDevice d userId => exact ⟨h.1,heq.trans h.2⟩
  | deleteDevice d => exact h
  | deleteUser userId => exact Eq.trans heq h
  | _ => exact h

end

/-- What one action of the handler changes. -/
structure ActionEffect (eventCodec : Codec PersistedEvent) (s : Shared) (action : Action)
    (s' : Shared) : Prop where
  /-- Devices' rows are dropped only. -/
  devices : ∀ deviceId, s'.devices deviceId=s.devices deviceId ∨ s'.devices deviceId=none
  /-- The row of a device that the action drops. -/
  dropped : ∀ deviceId, Drops s.devices deviceId action → s'.devices deviceId=none
  /-- Events are purged only. -/
  rows : ∀ deviceId, RowFree eventCodec deviceId s.store ∨ action=.deleteDeviceEvents deviceId →
    RowFree eventCodec deviceId s'.store
  /-- No user becomes active. -/
  users : ∀ userId, s'.users userId=some true →
    s.users userId=some true ∧ action≠.setUserInactive userId
  /-- The cache changes by evictions only. -/
  cache : (∀ userId, action≠.evict userId) → s'.cache=s.cache
  /-- An eviction. -/
  evicted : ∀ userId, action=.evict userId → s'.cache=evict s.cache userId
  /-- Windows are purged only. -/
  windows : ∀ userId, WindowFree userId s.store ∨ action=.deleteUserWindows userId →
    WindowFree userId s'.store

section

variable {eventCodec : Codec PersistedEvent} {windowCodec : Codec WireWindow}
variable {windowsSchemaVersion : ℕ} {debug : String → String} {dedupRetentionSecs : Int64}
variable {s s' : Shared} {action : Action}

/-- An action on the relational rows or the cache. -/
theorem ActionEffect.of_store (hstore : s'.store=s.store)
    (hpurge : ∀ id, action≠.deleteDeviceEvents id ∧ action≠.deleteUserWindows id)
    (hdevices : ∀ deviceId, s'.devices deviceId=s.devices deviceId ∨ s'.devices deviceId=none)
    (hdropped : ∀ deviceId, Drops s.devices deviceId action → s'.devices deviceId=none)
    (husers : ∀ userId, s'.users userId=some true →
      s.users userId=some true ∧ action≠.setUserInactive userId)
    (hcache : (∀ userId, action≠.evict userId) → s'.cache=s.cache)
    (hevicted : ∀ userId, action=.evict userId → s'.cache=evict s.cache userId) :
    ActionEffect eventCodec s action s' := by
  refine ⟨hdevices,hdropped,fun deviceId hfree => ?_,husers,hcache,hevicted,fun userId hfree => ?_⟩
  · rw [hstore]
    exact hfree.resolve_right (hpurge deviceId).1
  · rw [hstore]
    exact hfree.resolve_right (hpurge userId).2

/-- The row of a dropped device is gone and no other. -/
theorem dropDevice_devices (s : Shared) (deviceId d : String) :
    (dropDevice s deviceId).devices d=if d=deviceId then none else s.devices d := by
  rw [dropDevice]
  exact Function.update_apply _ _ _ _

/-- An action that drops the row of one device, present or not. -/
theorem ActionEffect.of_drop {deviceId : String} (hs' : s'=dropDevice s deviceId)
    (hdrops : ∀ d, Drops s.devices d action → d=deviceId)
    (haction : ∀ id, action≠.deleteDeviceEvents id ∧ action≠.deleteUserWindows id ∧
      action≠.setUserInactive id ∧ action≠.evict id) : ActionEffect eventCodec s action s' := by
  rw [hs']
  refine .of_store rfl (fun id => ⟨(haction id).1,(haction id).2.1⟩) (fun d => ?_)
    (fun d hdrop => ?_) (fun userId hu => ⟨hu,(haction userId).2.2.1⟩) (fun _ => rfl)
    fun userId heq => absurd heq (haction userId).2.2.2
  · rw [dropDevice_devices]
    split_ifs
    · exact .inr rfl
    · exact .inl rfl
  · rw [dropDevice_devices,if_pos (hdrops d hdrop)]

/-- Every action of the handler has these effects. -/
theorem action_effect (h : perform eventCodec s action=some s') :
    ActionEffect eventCodec s action s' := by
  cases action with
  | setUserInactive userId =>
    cases h
    refine .of_store rfl (by simp) (fun _ => .inl rfl) (fun _ hdrop => absurd hdrop id) ?_
      (fun _ => rfl) (by simp)
    intro u hu
    dsimp only at hu
    by_cases huser : u=userId
    · rw [huser,Function.update_self] at hu
      obtain ⟨x,-,hx⟩ := Option.map_eq_some_iff.mp hu
      cases hx
    · rw [Function.update_of_ne huser] at hu
      refine ⟨hu,fun heq => huser ?_⟩
      rw [Action.setUserInactive.injEq] at heq
      exact heq.symm
  | evict userId =>
    cases h
    refine .of_store rfl (by simp) (fun _ => .inl rfl) (fun _ hdrop => absurd hdrop id)
      (fun u hu => ⟨hu,by simp⟩) (fun hnone => absurd rfl (hnone userId)) fun u heq => ?_
    rw [Action.evict.injEq] at heq
    rw [heq]
  | deleteDeviceEvents deviceId =>
    cases h
    refine ⟨fun _ => .inl rfl,fun _ hdrop => absurd hdrop id,?_,fun u hu => ⟨hu,by simp⟩,
      fun _ => rfl,by simp,?_⟩
    · intro d hfree k v e hv he
      obtain ⟨hv,hkept⟩ := get_deleteDeviceEvents_events.mp hv
      rcases hfree with hfree | hpurge
      · exact hfree k v e hv he
      · rw [Action.deleteDeviceEvents.injEq] at hpurge
        rw [←hpurge]
        exact hkept e he
    · intro userId hfree k hk
      have hfree := hfree.resolve_right (by simp)
      cases hv : (FjallStore.deleteDeviceEvents eventCodec s.store deviceId .windows)[k]? with
      | none => rfl
      | some v =>
        have hbefore := ((get_deleteDeviceEvents _ _ _ _ _).mp hv).1
        rw [hfree k hk] at hbefore
        cases hbefore
  | deleteUserWindows userId =>
    cases h
    refine ⟨fun _ => .inl rfl,fun _ hdrop => absurd hdrop id,?_,fun u hu => ⟨hu,by simp⟩,
      fun _ => rfl,by simp,?_⟩
    · intro d hfree k v e hv
      exact hfree.resolve_right (by simp) k v e (get_deleteUserWindows_iff.mp hv).1
    · intro u hfree k hk
      cases hv : (WindowQueries.deleteUserWindows s.store userId .windows)[k]? with
      | none => rfl
      | some v =>
        obtain ⟨hbefore,hkept⟩ := get_deleteUserWindows_iff.mp hv
        rcases hfree with hfree | hpurge
        · rw [hfree k hk] at hbefore
          cases hbefore
        · rw [Action.deleteUserWindows.injEq] at hpurge
          rw [hpurge] at hkept
          exact absurd ⟨rfl,hk⟩ hkept
  | deleteUserDevice deviceId userId =>
    rw [perform] at h
    split_ifs at h with howner
    · exact .of_drop (Option.some.inj h).symm (fun d hdrop => hdrop.1.symm) (by simp)
    · cases h
      refine .of_store rfl (by simp) (fun _ => .inl rfl) ?_ (fun u hu => ⟨hu,by simp⟩)
        (fun _ => rfl) (by simp)
      rintro d ⟨rfl,hdrop⟩
      exact absurd hdrop howner
  | deleteDevice deviceId =>
    rw [perform] at h
    split_ifs at h with hnone
    exact .of_drop (Option.some.inj h).symm (fun d hdrop => Eq.symm hdrop) (by simp)
  | deleteUser userId =>
    rw [perform] at h
    split_ifs at h with hnone
    cases h
    refine .of_store rfl (by simp) (fun d => ?_) (fun d hdrop => if_pos hdrop) (fun u hu => ?_)
      (fun _ => rfl) (by simp)
    · dsimp only
      split_ifs
      · exact .inr rfl
      · exact .inl rfl
    · dsimp only at hu
      by_cases huser : u=userId
      · rw [huser,Function.update_self] at hu
        cases hu
      · rw [Function.update_of_ne huser] at hu
        exact ⟨hu,by simp⟩

end

/-- What holds of a device under deletion while the handler has actions left. -/
structure DeviceCovered (eventCodec : Codec PersistedEvent) (deviceId : String) (s : Shared)
    (requests : ℕ → RequestPhase) (rest : List Action) : Prop where
  /-- A purge follows when the row may be dropped. -/
  order : Ordered (MayDrop deviceId) (fun rest => .deleteDeviceEvents deviceId∈rest) rest
  /-- The row is gone or will be dropped. -/
  row : s.devices deviceId=none ∨ ∃ action∈rest, Drops s.devices deviceId action
  /-- The device will be purged, or it has no events and none on their way. -/
  free : .deleteDeviceEvents deviceId∈rest ∨
    (RowFree eventCodec deviceId s.store ∧ ∀ i, ¬Parked deviceId (requests i))

section

variable {eventCodec : Codec PersistedEvent} {windowsSchemaVersion : ℕ} {debug : String → String}
variable {deviceId : String} {s s' : Shared} {requests : ℕ → RequestPhase} {action : Action}
variable {rest : List Action}

/-- After the last purge the row is gone. -/
theorem DeviceCovered.gone (h : DeviceCovered eventCodec deviceId s requests rest)
    (hpurged : .deleteDeviceEvents deviceId∉rest) : s.devices deviceId=none := by
  rcases h.row with hnone | ⟨a,ha,hdrop⟩
  · exact hnone
  · exact absurd (h.order.mem ha hdrop.mayDrop) hpurged

/-- Requests keep a device covered. -/
theorem DeviceCovered.request (h : DeviceCovered eventCodec deviceId s requests rest) {i : ℕ}
    {phase : RequestPhase}
    (heffect : RequestEffect eventCodec windowsSchemaVersion debug s (requests i) s' phase) :
    DeviceCovered eventCodec deviceId s' (Function.update requests i phase) rest := by
  refine ⟨h.order,?_,?_⟩
  · rw [heffect.devices]
    exact h.row
  · by_cases hpurge : .deleteDeviceEvents deviceId∈rest
    · exact .inl hpurge
    · obtain ⟨hfree,hparked⟩ := h.free.resolve_left hpurge
      refine .inr ⟨heffect.rows deviceId (hparked i) hfree,fun k hk => ?_⟩
      by_cases hki : k=i
      · rw [hki,Function.update_self] at hk
        rcases heffect.parked deviceId hk with hbefore | hrow
        · exact hparked i hbefore
        · exact hrow (h.gone hpurge)
      · rw [Function.update_of_ne hki] at hk
        exact hparked k hk

/-- Actions keep a device covered, when nothing is parked at the last purge. -/
theorem DeviceCovered.perform (h : DeviceCovered eventCodec deviceId s requests (action::rest))
    (heffect : ActionEffect eventCodec s action s')
    (hlast : action=.deleteDeviceEvents deviceId → action∉rest →
      ∀ i, ¬Parked deviceId (requests i)) :
    DeviceCovered eventCodec deviceId s' requests rest := by
  refine ⟨h.order.2,?_,?_⟩
  · rcases heffect.devices deviceId with hsame | hnone
    · rcases h.row with hrow | ⟨a,ha,hdrop⟩
      · exact .inl (hsame.trans hrow)
      · rcases List.mem_cons.mp ha with rfl | ha
        · exact .inl (heffect.dropped deviceId hdrop)
        · exact .inr ⟨a,ha,hdrop.congr hsame⟩
    · exact .inl hnone
  · by_cases hpurge : .deleteDeviceEvents deviceId∈rest
    · exact .inl hpurge
    · right
      rcases h.free with hnext | ⟨hfree,hparked⟩
      · have haction : action=.deleteDeviceEvents deviceId :=
          ((List.mem_cons.mp hnext).resolve_right hpurge).symm
        refine ⟨heffect.rows deviceId (.inr haction),hlast haction ?_⟩
        rw [haction]
        exact hpurge
      · exact ⟨heffect.rows deviceId (.inl hfree),hparked⟩

/-- Skipping an action that is repeated keeps a device covered. -/
theorem DeviceCovered.skip (h : DeviceCovered eventCodec deviceId s requests (action::rest))
    (hrepeat : action∈rest) : DeviceCovered eventCodec deviceId s requests rest := by
  have hmem : ∀ a∈action::rest, a∈rest := by
    intro a ha
    rcases List.mem_cons.mp ha with rfl | ha
    · exact hrepeat
    · exact ha
  refine ⟨h.order.2,?_,h.free.imp_left (hmem _)⟩
  rcases h.row with hnone | ⟨a,ha,hdrop⟩
  · exact .inl hnone
  · exact .inr ⟨a,hmem a ha,hdrop⟩

end

/-- No answer of the cache and no call on its way says that the user is
active. -/
structure Evicted (userId : String) (s : Shared) (requests : ℕ → RequestPhase) : Prop where
  /-- The row does not say so. -/
  row : s.users userId≠some true
  /-- The cache has no such entry. -/
  entry : ∀ at', s.cache.map userId≠some (true,at')
  /-- Calls that read so belong to an older generation. -/
  call : ∀ i request genAtRead, requests i=.read request genAtRead true →
    request.userId=userId → genAtRead≠s.cache.generation

/-- What holds of a user under deletion while the handler has actions left. -/
structure UserCovered (windowsSchemaVersion : ℕ) (debug : String → String) (userId : String)
    (s : Shared) (requests : ℕ → RequestPhase) (rest : List Action) : Prop where
  /-- The eviction follows the deactivation. -/
  inactiveOrder : Ordered (fun a => a=.setUserInactive userId) (fun rest => .evict userId∈rest) rest
  /-- A purge follows the only eviction. -/
  evictOrder : Ordered (fun a => ∃ u, a=.evict u)
    (fun rest => .deleteUserWindows userId∈rest ∧ ∀ u, .evict u∉rest) rest
  /-- The user will be deactivated or is inactive. -/
  inactive : .setUserInactive userId∈rest ∨ s.users userId≠some true
  /-- The user will be evicted, and all calls are of the current generation, or
  nothing says any more that the user is active. -/
  evicted : (.evict userId∈rest ∧
      ∀ i genAtRead, CallInFlight (requests i) genAtRead → genAtRead=s.cache.generation) ∨
    ((∀ u, .evict u∉rest) ∧ Evicted userId s requests)
  /-- The user will be purged, or has no windows and none on their way. -/
  free : .deleteUserWindows userId∈rest ∨ (WindowFree userId s.store ∧
    ∀ i, ¬WindowsParked windowsSchemaVersion debug userId (requests i))

section

variable {eventCodec : Codec PersistedEvent} {windowsSchemaVersion : ℕ} {debug : String → String}
variable {userId : String} {s s' : Shared} {requests : ℕ → RequestPhase} {action : Action}
variable {rest : List Action}

/-- After the last purge nothing says that the user is active. -/
theorem UserCovered.gone (h : UserCovered windowsSchemaVersion debug userId s requests rest)
    (hpurged : .deleteUserWindows userId∉rest) : Evicted userId s requests := by
  rcases h.evicted with ⟨hevict,-⟩ | ⟨-,hevicted⟩
  · have horder := h.evictOrder.mono fun rest hq => hq.1
    exact absurd (horder.mem hevict ⟨userId,rfl⟩) hpurged
  · exact hevicted

/-- Requests do not make an evicted user active. -/
theorem Evicted.request (h : Evicted userId s requests) {i : ℕ} {phase : RequestPhase}
    (heffect : RequestEffect eventCodec windowsSchemaVersion debug s (requests i) s' phase) :
    Evicted userId s' (Function.update requests i phase) := by
  refine ⟨?_,?_,?_⟩
  · rw [heffect.users]
    exact h.row
  · intro at' hentry
    rcases heffect.cached userId at' hentry with hbefore | ⟨request,huser,hread⟩
    · exact h.entry at' hbefore
    · exact h.call i request _ hread huser rfl
  · intro k request genAtRead hread huser
    rw [heffect.generation]
    by_cases hki : k=i
    · rw [hki,Function.update_self] at hread
      have hactive := heffect.reads request genAtRead hread
      rw [huser] at hactive
      exact absurd hactive h.row
    · rw [Function.update_of_ne hki] at hread
      exact h.call k request genAtRead hread huser

/-- Requests keep a user covered. -/
theorem UserCovered.request (h : UserCovered windowsSchemaVersion debug userId s requests rest)
    (hu : NulFree (utf8 userId)) {i : ℕ} {phase : RequestPhase}
    (heffect : RequestEffect eventCodec windowsSchemaVersion debug s (requests i) s' phase) :
    UserCovered windowsSchemaVersion debug userId s' (Function.update requests i phase) rest := by
  refine ⟨h.inactiveOrder,h.evictOrder,?_,?_,?_⟩
  · rw [heffect.users]
    exact h.inactive
  · rcases h.evicted with ⟨hevict,hcurrent⟩ | ⟨hnone,hevicted⟩
    · refine .inl ⟨hevict,fun k genAtRead hflight => ?_⟩
      rw [heffect.generation]
      by_cases hki : k=i
      · rw [hki,Function.update_self] at hflight
        exact (heffect.loads genAtRead hflight).elim (hcurrent i genAtRead) id
      · rw [Function.update_of_ne hki] at hflight
        exact hcurrent k genAtRead hflight
    · exact .inr ⟨hnone,hevicted.request heffect⟩
  · by_cases hpurge : .deleteUserWindows userId∈rest
    · exact .inl hpurge
    · obtain ⟨hfree,hparked⟩ := h.free.resolve_left hpurge
      refine .inr ⟨heffect.windows userId hu (hparked i) hfree,fun k hk => ?_⟩
      by_cases hki : k=i
      · rw [hki,Function.update_self] at hk
        have hgone := h.gone hpurge
        rcases heffect.windowsParked userId hk with hbefore | hrow | ⟨at',hentry⟩
        · exact hparked i hbefore
        · exact hgone.row hrow
        · exact hgone.entry at' hentry
      · rw [Function.update_of_ne hki] at hk
        exact hparked k hk

/-- An eviction leaves nothing that says that the inactive user is active. -/
theorem evicted_of_evict (hrow : s'.users userId≠some true) (hcache : s'.cache=evict s.cache userId)
    (hcurrent : ∀ i genAtRead, CallInFlight (requests i) genAtRead → genAtRead=s.cache.generation) :
    Evicted userId s' requests := by
  have hmap : s'.cache.map userId=none := by
    rw [hcache]
    exact Function.update_self _ _ _
  have hgeneration : s'.cache.generation=s.cache.generation+1 := by
    rw [hcache]
    rfl
  refine ⟨hrow,fun at' hentry => ?_,fun i request genAtRead hread _ heq => ?_⟩
  · rw [hmap] at hentry
    cases hentry
  · have hgen := hcurrent i genAtRead ⟨request,.inr ⟨true,hread⟩⟩
    have hnext : s.cache.generation=s.cache.generation+1 := by
      rw [←hgeneration,←heq,hgen]
    grind

/-- Actions keep a user covered, when nothing is parked at the last purge. -/
theorem UserCovered.perform
    (h : UserCovered windowsSchemaVersion debug userId s requests (action::rest))
    (heffect : ActionEffect eventCodec s action s')
    (hlast : action=.deleteUserWindows userId → action∉rest →
      ∀ i, ¬WindowsParked windowsSchemaVersion debug userId (requests i)) :
    UserCovered windowsSchemaVersion debug userId s' requests rest := by
  have hinactive : .setUserInactive userId∈rest ∨ s'.users userId≠some true := by
    rcases h.inactive with hnext | hrow
    · rcases List.mem_cons.mp hnext with heq | hmem
      · exact .inr fun hactive => (heffect.users userId hactive).2 heq.symm
      · exact .inl hmem
    · exact .inr fun hactive => hrow (heffect.users userId hactive).1
  refine ⟨h.inactiveOrder.2,h.evictOrder.2,hinactive,?_,?_⟩
  · rcases h.evicted with ⟨hevict,hcurrent⟩ | ⟨hnone,hevicted⟩
    · by_cases hev : ∃ u, action=.evict u
      · obtain ⟨-,hno⟩ := h.evictOrder.1 hev
        have haction : action=.evict userId :=
          ((List.mem_cons.mp hevict).resolve_right (hno userId)).symm
        have hrow : s'.users userId≠some true := by
          refine hinactive.resolve_left fun hlater => ?_
          exact hno userId (h.inactiveOrder.2.mem hlater rfl)
        exact .inr ⟨hno,evicted_of_evict hrow (heffect.evicted userId haction) hcurrent⟩
      · have hmem : .evict userId∈rest :=
          (List.mem_cons.mp hevict).resolve_left fun heq => hev ⟨userId,heq.symm⟩
        refine .inl ⟨hmem,?_⟩
        rw [heffect.cache fun u heq => hev ⟨u,heq⟩]
        exact hcurrent
    · have hcache := heffect.cache fun u heq => hnone u (heq ▸ List.mem_cons_self)
      refine .inr ⟨fun u hmem => hnone u (List.mem_cons_of_mem _ hmem),?_⟩
      refine ⟨fun hactive => hevicted.row (heffect.users userId hactive).1,?_,?_⟩
      · rw [hcache]
        exact hevicted.entry
      · rw [hcache]
        exact hevicted.call
  · by_cases hpurge : .deleteUserWindows userId∈rest
    · exact .inl hpurge
    · right
      rcases h.free with hnext | ⟨hfree,hparked⟩
      · have haction : action=.deleteUserWindows userId :=
          ((List.mem_cons.mp hnext).resolve_right hpurge).symm
        refine ⟨heffect.windows userId (.inr haction),hlast haction ?_⟩
        rw [haction]
        exact hpurge
      · exact ⟨heffect.windows userId (.inl hfree),hparked⟩

/-- Skipping an action that is repeated keeps a user covered. -/
theorem UserCovered.skip
    (h : UserCovered windowsSchemaVersion debug userId s requests (action::rest))
    (hrepeat : action∈rest) : UserCovered windowsSchemaVersion debug userId s requests rest := by
  have hmem : ∀ a∈action::rest, a∈rest := by
    intro a ha
    rcases List.mem_cons.mp ha with rfl | ha
    · exact hrepeat
    · exact ha
  refine ⟨h.inactiveOrder.2,h.evictOrder.2,h.inactive.imp_left (hmem _),?_,
    h.free.imp_left (hmem _)⟩
  rcases h.evicted with ⟨hevict,hcurrent⟩ | ⟨hnone,hevicted⟩
  · exact .inl ⟨hmem _ hevict,hcurrent⟩
  · exact .inr ⟨fun u hu => hnone u (List.mem_cons_of_mem _ hu),hevicted⟩

end

/-- A deletion whose handler has passed its first checks. -/
inductive Deletion where
  /-- A user deletes a device. -/
  | me (deviceId userId : String)
  /-- An administrator deletes a device. -/
  | adminDevice (deviceId : String)
  /-- An administrator deletes a user with the listed devices. -/
  | adminUser (userId : String) (deviceIds : List String)

/-- What the handler does. -/
def Deletion.actions : Deletion → List Action
  | .me deviceId userId => meDeleteDevice deviceId userId
  | .adminDevice deviceId => adminDeleteDevice deviceId
  | .adminUser userId deviceIds => adminDeleteUser userId deviceIds

/-- What the first checks found: the device is the user's, or the devices
listed are all the user's devices. -/
def Deletion.Checked (s : Shared) : Deletion → Prop
  | .me deviceId userId => s.devices deviceId=some userId
  | .adminDevice _ => True
  | .adminUser userId deviceIds => ∀ d, d∈deviceIds ↔ s.devices d=some userId

/-- Devices that are deleted. -/
def Deletion.deviceIds : Deletion → List String
  | .me deviceId _ => [deviceId]
  | .adminDevice deviceId => [deviceId]
  | .adminUser _ deviceIds => deviceIds

/-- Users who are deleted. -/
def Deletion.userIds : Deletion → List String
  | .adminUser userId _ => [userId]
  | _ => []

/-- Nothing disturbs the handler: at its last purge of a device no batch of the
device is parked, at its last purge of a user's windows no request with windows
of the user is, and an action whose failure is only logged fails only when it
is repeated. -/
def Undisturbed (windowsSchemaVersion : ℕ) (debug : String → String) (s : Server) :
    ServerOp → Prop
  | .handler => ∀ action rest, s.handler=some (action::rest) → action∉rest →
    (∀ d, action=.deleteDeviceEvents d → ∀ i, ¬Parked d (s.requests i)) ∧
    ∀ u, action=.deleteUserWindows u →
      ∀ i, ¬WindowsParked windowsSchemaVersion debug u (s.requests i)
  | .handlerFails => ∀ action rest, s.handler=some (action::rest) → action.tolerated=true →
    action∈rest
  | _ => True

/-- What holds of the deleted devices and users unless the handler returned an
error. -/
def Covered (eventCodec : Codec PersistedEvent) (windowsSchemaVersion : ℕ)
    (debug : String → String) (deletion : Deletion) (s : Server) : Prop :=
  ∀ rest, s.handler=some rest →
    (∀ d∈deletion.deviceIds, DeviceCovered eventCodec d s.shared s.requests rest) ∧
    ∀ u∈deletion.userIds, UserCovered windowsSchemaVersion debug u s.shared s.requests rest

section

variable {eventCodec : Codec PersistedEvent} {windowCodec : Codec WireWindow}
variable {windowsSchemaVersion : ℕ} {debug : String → String} {dedupRetentionSecs : Int64}
variable {deletion : Deletion}

/-- The handler of an account deletion purges every listed device last. -/
theorem ordered_adminDeleteUser {userId deviceId : String} {deviceIds : List String}
    (hd : deviceId∈deviceIds) : Ordered (MayDrop deviceId)
      (fun rest => .deleteDeviceEvents deviceId∈rest) (adminDeleteUser userId deviceIds) := by
  have hpurge : .deleteDeviceEvents deviceId∈deviceIds.map Action.deleteDeviceEvents :=
    List.mem_map_of_mem hd
  have hlast : Ordered (MayDrop deviceId) (fun rest => .deleteDeviceEvents deviceId∈rest)
      (deviceIds.map Action.deleteDeviceEvents) := by
    refine ordered_of_none fun a ha hdrop => ?_
    obtain ⟨d,-,rfl⟩ := List.mem_map.mp ha
    exact hdrop
  rw [adminDeleteUser,List.append_assoc]
  exact (hlast.append hpurge _).append (List.mem_append_right _ hpurge) _

/-- A deletion starts covered. -/
theorem covered_start {shared : Shared} (hchecked : deletion.Checked shared) :
    Covered eventCodec windowsSchemaVersion debug deletion
      (Server.start shared deletion.actions) := by
  intro rest hrest
  cases hrest
  cases deletion with
  | me deviceId userId =>
    refine ⟨fun d hd => ?_,fun u hu => by cases hu⟩
    cases List.mem_singleton.mp hd
    have hdrop : Drops shared.devices deviceId (.deleteUserDevice deviceId userId) :=
      ⟨rfl,hchecked⟩
    refine ⟨by simp [Deletion.actions,meDeleteDevice,Ordered,MayDrop],.inr ⟨_,?_,hdrop⟩,.inl ?_⟩
    · simp [Deletion.actions,meDeleteDevice]
    · simp [Deletion.actions,meDeleteDevice]
  | adminDevice deviceId =>
    refine ⟨fun d hd => ?_,fun u hu => by cases hu⟩
    cases List.mem_singleton.mp hd
    have hdrop : Drops shared.devices deviceId (.deleteDevice deviceId) := rfl
    refine ⟨by simp [Deletion.actions,adminDeleteDevice,Ordered,MayDrop],.inr ⟨_,?_,hdrop⟩,.inl ?_⟩
    · simp [Deletion.actions,adminDeleteDevice]
    · simp [Deletion.actions,adminDeleteDevice]
  | adminUser userId deviceIds =>
    constructor
    · intro d hd
      have hdrop : Drops shared.devices d (.deleteUser userId) := (hchecked d).mp hd
      refine ⟨ordered_adminDeleteUser hd,.inr ⟨_,?_,hdrop⟩,.inl ?_⟩
      · simp [Deletion.actions,adminDeleteUser]
      · exact List.mem_append_right _ (List.mem_map_of_mem hd)
    · intro u hu
      cases List.mem_singleton.mp hu
      have hnone : ∀ a∈deviceIds.map Action.deleteDeviceEvents++
          [.deleteUserWindows userId,.deleteUser userId,.deleteUserWindows userId]++
          deviceIds.map Action.deleteDeviceEvents,
          a≠.setUserInactive userId ∧ ∀ u, a≠.evict u := by
        intro a ha
        simp only [List.mem_append,List.mem_map,List.mem_cons,List.not_mem_nil,or_false] at ha
        rcases ha with (⟨d,-,rfl⟩ | rfl | rfl | rfl) | ⟨d,-,rfl⟩ <;> simp
      refine ⟨⟨fun _ => List.mem_cons_self,?_⟩,⟨?_,?_,?_⟩,.inl List.mem_cons_self,
        .inl ⟨by simp [Deletion.actions,adminDeleteUser],fun i genAtRead hflight => ?_⟩,
        .inl (by simp [Deletion.actions,adminDeleteUser])⟩
      · exact ⟨fun heq => (by cases heq),ordered_of_none fun a ha => (hnone a ha).1⟩
      · rintro ⟨v,heq⟩
        cases heq
      · exact fun _ => ⟨by simp,fun v hv => (hnone _ hv).2 v rfl⟩
      · exact ordered_of_none fun a ha hev => hev.elim (hnone a ha).2
      · obtain ⟨request,heq | ⟨active,heq⟩⟩ := hflight
        · cases heq
        · cases heq

/-- Every undisturbed step keeps the deletion covered. -/
theorem Covered.step {s t : Server} {op : ServerOp} (hu : ∀ u∈deletion.userIds, NulFree (utf8 u))
    (h : Covered eventCodec windowsSchemaVersion debug deletion s)
    (hstep : ServerStep eventCodec windowCodec windowsSchemaVersion debug dedupRetentionSecs s op t)
    (hquiet : Undisturbed windowsSchemaVersion debug s op) :
    Covered eventCodec windowsSchemaVersion debug deletion t := by
  intro rest hrest
  cases hstep with
  | request i step =>
    obtain ⟨hdevices,husers⟩ := h rest hrest
    exact ⟨fun d hd => (hdevices d hd).request step.effect,
      fun u hmem => (husers u hmem).request (hu u hmem) step.effect⟩
  | @perform action actions shared next done =>
    cases hrest
    obtain ⟨hdevices,husers⟩ := h _ next
    have heffect := action_effect done
    exact ⟨fun d hd => (hdevices d hd).perform heffect fun ha hlast =>
        (hquiet action rest next hlast).1 d ha,
      fun u hmem => (husers u hmem).perform heffect fun ha hlast =>
        (hquiet action rest next hlast).2 u ha⟩
  | refuse next refused => cases hrest
  | @fail action actions next fallible =>
    dsimp only at hrest
    split_ifs at hrest with htolerated
    cases hrest
    obtain ⟨hdevices,husers⟩ := h _ next
    have hrepeat := hquiet action rest next htolerated
    exact ⟨fun d hd => (hdevices d hd).skip hrepeat,fun u hmem => (husers u hmem).skip hrepeat⟩
  | tick duration =>
    obtain ⟨hdevices,husers⟩ := h rest hrest
    refine ⟨fun d hd => ?_,fun u hmem => ?_⟩
    · have hd := hdevices d hd
      exact ⟨hd.order,hd.row,hd.free⟩
    · have hmem := husers u hmem
      refine ⟨hmem.inactiveOrder,hmem.evictOrder,hmem.inactive,?_,hmem.free⟩
      exact hmem.evicted.imp_right fun hgone => ⟨hgone.1,hgone.2.row,hgone.2.entry,hgone.2.call⟩

/-- In a store whose keyspaces are in step a device without events has no
copies, sessions or pointers either. -/
theorem no_cell_of_rowFree {db : Db} {deviceId : String} (h : RowFree eventCodec deviceId db)
    (ha : FjallCoherence.Aligned eventCodec db) (hm : FjallCoherence.Mirrored eventCodec db)
    (hd : NulFree (utf8 deviceId)) {name : KeyspaceName} {k : Bytes}
    (hcell : OfDevice deviceId (name,k)) : (db name)[k]?=none := by
  have hname : name≠.windows := by
    rintro rfl
    obtain ⟨provider,msgId,hlane⟩ := hcell
    exact hlane
  cases hw : (db name)[k]? with
  | none => rfl
  | some w =>
    obtain ⟨row,v,e,hv,he,hed,hlane⟩ := exists_row_of_filled ha hm hname hw
    exact absurd (hcell.device_eq hd hed.1 hlane) (h row v e hv he)

end

/-- A deletion that nothing disturbs leaves nothing behind: once the handler
has succeeded, the event store has no event of a deleted device, nor any other
cell of it when the keyspaces are in step, and no window of a deleted user. -/
theorem deletion_leaves_nothing (eventCodec : Codec PersistedEvent)
    (windowCodec : Codec WireWindow) (windowsSchemaVersion : ℕ) (debug : String → String)
    (dedupRetentionSecs : Int64) {deletion : Deletion} {shared : Shared}
    (hu : ∀ u∈deletion.userIds, NulFree (utf8 u)) (hchecked : deletion.Checked shared)
    {history : List ServerOp} {s : Server}
    (run : Run (fun a op b => ServerStep eventCodec windowCodec windowsSchemaVersion debug
      dedupRetentionSecs a op b ∧ Undisturbed windowsSchemaVersion debug a op)
      (Server.start shared deletion.actions) history s) (hdone : s.handler=some []) :
    (∀ d∈deletion.deviceIds, RowFree eventCodec d s.shared.store ∧
      (FjallCoherence.Aligned eventCodec s.shared.store →
        FjallCoherence.Mirrored eventCodec s.shared.store → NulFree (utf8 d) →
        ∀ name (k : Bytes), OfDevice d (name,k) → (s.shared.store name)[k]?=none)) ∧
    ∀ u∈deletion.userIds, WindowFree u s.shared.store := by
  have hcovered : Covered eventCodec windowsSchemaVersion debug deletion s := by
    refine Run.invariant (I:=fun _ s => Covered eventCodec windowsSchemaVersion debug deletion s)
      (covered_start hchecked) ?_ run
    exact fun past a op b _ ha hstep => ha.step hu hstep.1 hstep.2
  obtain ⟨hdevices,husers⟩ := hcovered [] hdone
  constructor
  · intro d hd
    have hfree := ((hdevices d hd).free.resolve_left List.not_mem_nil).1
    exact ⟨hfree,fun ha hm hnul name k hcell => no_cell_of_rowFree hfree ha hm hnul hcell⟩
  · exact fun u hmem => ((husers u hmem).free.resolve_left List.not_mem_nil).1

/-- A server with active users, the devices of one user and one write permit. -/
def sampleShared : Shared where
  store := emptyDb
  users _ := some true
  devices _ := some "u1"
  cursors _ _ := none
  cache := .new
  now := 0
  permits := 1

/-- The row of the user's device is dropped. -/
theorem perform_deleteUserDevice {eventCodec : Codec PersistedEvent} {s : Shared}
    {deviceId userId : String} (h : s.devices deviceId=some userId) :
    perform eventCodec s (.deleteUserDevice deviceId userId)=some (dropDevice s deviceId) :=
  if_pos h

/-- The batch of the sample runs. -/
def sampleBatch : Upload := SyncCursor.sampleUpload "codex" 7

/-- The event store when the sample batch is upserted after both purges. -/
def lateDb : Db :=
  upsertEvents eventLayout.codec (deleteDeviceEvents eventLayout.codec
    (deleteDeviceEvents eventLayout.codec emptyDb "d1") "d1") sampleBatch.serverEvents

/-- A batch that is parked while a device is deleted is stored afterwards: its
device is gone, the handler has succeeded, no request is left, and the event
store has the events. -/
theorem parked_batch_stays : ¬∀ (deletion : Deletion) (shared : Shared) (history : List ServerOp)
    (s : Server), (∀ u∈deletion.userIds, NulFree (utf8 u)) → deletion.Checked shared →
    Run (ServerStep eventLayout.codec windowLayout.codec 1 id 2592000)
      (Server.start shared deletion.actions) history s → s.handler=some [] →
    (∀ i, s.requests i=.idle ∨ s.requests i=.finished) →
    (∀ d∈deletion.deviceIds, RowFree eventLayout.codec d s.shared.store) ∧
      ∀ u∈deletion.userIds, WindowFree u s.shared.store := by
  intro hall
  have hfree : (1 : ℕ)=0+1 := rfl
  have hstorable : Storable sampleBatch := ⟨by decide,by decide⟩
  have run : Run (ServerStep eventLayout.codec windowLayout.codec 1 id 2592000)
      (Server.start sampleShared (meDeleteDevice "d1" "u1")) [] _ := .start
  have run := run.next (.request 0) (.request 0 (.miss (.batch sampleBatch) rfl))
  have run := run.next (.request 0) (.request 0 .loadGeneration)
  have run := run.next (.request 0) (.request 0 .readUser)
  have run := run.next (.request 0) (.request 0 .store)
  have run := run.next (.request 0) (.request 0 (.ensureCursor (Option.some_ne_none _)))
  have run := run.next .handler (.perform rfl rfl)
  have run := run.next .handler (.perform rfl (perform_deleteUserDevice rfl))
  have run := run.next .handler (.perform rfl rfl)
  have run := run.next (.request 0) (.request 0 (.acquireBatch hstorable hfree))
  have run := run.next (.request 0) (.request 0 (.upsertEvents ⟨_,.refl _,rfl⟩))
  have run := run.next (.request 0) (.request 0 .advanceCursor)
  have run := run.next (.request 0) (.request 0 .acknowledge)
  have hrow : ∃ e∈sampleBatch.serverEvents, e.deviceId="d1" ∧
      (lateDb .events)[e.eventKey]?=some (encodeEvent eventLayout.codec e) := by
    decide +kernel
  obtain ⟨e,-,hdevice,hstored⟩ := hrow
  have hleft := hall (.me "d1" "u1") sampleShared _ _ (by decide) rfl run rfl ?_
  · exact hleft.1 "d1" List.mem_cons_self e.eventKey _ _ hstored (decodeEvent_encodeEvent _ e)
      hdevice
  · intro i
    cases i with
    | zero => exact .inr rfl
    | succ i => exact .inl rfl

/-- Nothing disturbs the handler when the only request was answered. -/
theorem undisturbed_of_answered {windowsSchemaVersion : ℕ} {debug : String → String} {s : Server}
    (hanswered : s.requests 0=.finished) (hidle : ∀ i, s.requests (i+1)=.idle) :
    Undisturbed windowsSchemaVersion debug s .handler := by
  have hphase : ∀ i, s.requests i=.idle ∨ s.requests i=.finished := by
    intro i
    cases i with
    | zero => exact .inr hanswered
    | succ i => exact .inl (hidle i)
  intro action rest _ _
  refine ⟨fun d _ i => ?_,fun u _ i => ?_⟩
  · rcases hphase i with hi | hi <;> simp [hi,Parked]
  · rcases hphase i with hi | hi <;> simp [hi,WindowsParked]

/-- The deletion of a device after its batch was answered. -/
theorem deletion_leaves_nothing_sample : ∃ s, Run (ServerStep eventLayout.codec windowLayout.codec 1
      id 2592000) (Server.start sampleShared (meDeleteDevice "d1" "u1"))
      [.handler,.handler,.handler,.request 0,.request 0,.request 0,.request 0,.request 0,.request 0,
        .request 0,.request 0,.request 0] s ∧
    RowFree eventLayout.codec "d1" s.shared.store := by
  have hfree : (1 : ℕ)=0+1 := rfl
  have hstorable : Storable sampleBatch := ⟨by decide,by decide⟩
  have run : Run (fun a op b => ServerStep eventLayout.codec windowLayout.codec 1 id 2592000
      a op b ∧ Undisturbed 1 id a op)
      (Server.start sampleShared (meDeleteDevice "d1" "u1")) [] _ := .start
  have run := run.next (ServerOp.request 0) ⟨.request 0 (.miss (.batch sampleBatch) rfl),trivial⟩
  have run := run.next (ServerOp.request 0) ⟨.request 0 .loadGeneration,trivial⟩
  have run := run.next (ServerOp.request 0) ⟨.request 0 .readUser,trivial⟩
  have run := run.next (ServerOp.request 0) ⟨.request 0 .store,trivial⟩
  have hrow : sampleShared.devices "d1"≠none := Option.some_ne_none _
  have run := run.next (ServerOp.request 0) ⟨.request 0 (.ensureCursor hrow),trivial⟩
  have run := run.next (ServerOp.request 0) ⟨.request 0 (.acquireBatch hstorable hfree),trivial⟩
  have run := run.next (ServerOp.request 0) ⟨.request 0 (.upsertEvents ⟨_,.refl _,rfl⟩),trivial⟩
  have run := run.next (ServerOp.request 0) ⟨.request 0 .advanceCursor,trivial⟩
  have run := run.next (ServerOp.request 0) ⟨.request 0 .acknowledge,trivial⟩
  have run := run.next ServerOp.handler ⟨.perform rfl rfl,undisturbed_of_answered rfl fun _ => rfl⟩
  have run := run.next ServerOp.handler ⟨.perform rfl (perform_deleteUserDevice rfl),
    undisturbed_of_answered rfl fun _ => rfl⟩
  have run := run.next ServerOp.handler ⟨.perform rfl rfl,undisturbed_of_answered rfl fun _ => rfl⟩
  have hnone : ∀ u∈(Deletion.me "d1" "u1").userIds, NulFree (utf8 u) := by decide
  have hchecked : (Deletion.me "d1" "u1").Checked sampleShared := rfl
  have hleft := (deletion_leaves_nothing eventLayout.codec windowLayout.codec 1 id 2592000 hnone
    hchecked run rfl).1 "d1" List.mem_cons_self
  exact ⟨_,run.mono fun _ _ _ h => h.1,hleft.1⟩

end TokiSync.DeletionRuns
