import TokiSync.SyncServer

/-!
# What connections may do, and for whom

The events of a connection up to a call are the evidence for the call. Before
anything that is stored is touched, the connection has sent a handshake with a
valid access token, the user has been found active, the device key is a UUID
and the database has found or created the device under it for this very user.
Events and windows are stored only for a user who was found active after the
frame with them arrived, and they are those of the frame.
-/

namespace TokiSync.ConnectionAuth

open Runs ByteKeys ByteCodec ServerEvents WireWindows SyncBatches SyncConnection SyncServer
open InterleavedSessions
open DeviceGrant (Claims)
open OidcAccounts (UserRow)
open SyncCursor (cutoffMs)
open WindowAcks (SyncWindowsPayload answerWindows)

/-- What happens to a connection. -/
abbrev Happening := Event Answer Arrival

/-- Whether an event is a call. -/
def isCall : Happening → Bool
  | .call _ _ => true
  | _ => false

/-- The calls since the last frame arrived. -/
def recent (past : List Happening) : List Happening := past.takeWhile isCall

/-- The calls found a user active. -/
def FoundActive (calls : List Happening) (userId : String) : Prop :=
  .call (.getFresh userId) (some true)∈calls ∨
    ∃ row : UserRow, row.active=true ∧ .call (.getUserById userId) (.ok (some row))∈calls

/-- The frame that arrived last. -/
def lastArrival : List Happening → Option Arrival
  | [] => none
  | .arrive arrival::_ => some arrival
  | _::past => lastArrival past

section

variable (F : Formats)

/-- A handshake proved that it comes from a user. -/
structure Identified (past : List Happening) (auth : AuthPayload) (userId : String) : Prop where
  /-- The handshake arrived. -/
  arrived : ∃ payload, .arrive (.frame .auth payload)∈past ∧ F.authPayload payload=some auth
  /-- It speaks this version of the protocol. -/
  version : auth.protocolVersion=F.protocolVersion
  /-- Its access token was verified and names the user. -/
  verified : ∃ claims : Claims, claims.sub=userId ∧ .call (.verifyAccess auth.jwt) (.ok claims)∈past
  /-- The user was found active. -/
  active : FoundActive past userId
  /-- The device key is a UUID. -/
  uuid : F.isUuid auth.deviceKey=true

/-- The database found or created a device for the user of a handshake. -/
def HasDevice (past : List Happening) (auth : AuthPayload) (userId deviceId : String) : Prop :=
  .call (.findDeviceByKeyAndUser auth.deviceKey userId) (.ok (some deviceId))∈past ∨
    (deviceId=auth.deviceKey ∧
      ∃ name, .call (.createDevice deviceId userId name deviceId) (.ok ())∈past)

/-- The connection is a device of a user. -/
def Claimed (past : List Happening) (userId deviceId : String) : Prop :=
  ∃ auth, Identified F past auth userId ∧ HasDevice past auth userId deviceId

/-- The connection may upload for a device of a user. -/
def Serving (past : List Happening) (userId deviceId : String) : Prop :=
  ∃ auth, Identified F past auth userId ∧ HasDevice past auth userId deviceId ∧
    auth.schemaVersion=F.schemaVersion

/-- The frame that arrived last is a batch. -/
def Carries (past : List Happening) (batch : SyncBatchPayload) : Prop :=
  ∃ msgType payload, lastArrival past=some (.frame msgType payload) ∧
    (msgType=.syncBatch ∨ msgType=.syncBatchZstd) ∧
    (rawBatch F msgType payload).bind F.syncBatchPayload=some batch

/-- The frame that arrived last is a set of windows. -/
def CarriesWindows (past : List Happening) (win : SyncWindowsPayload) : Prop :=
  ∃ payload, lastArrival past=some (.frame .syncWindows payload) ∧
    F.syncWindowsPayload payload=some win

/-- A batch that arrived on a serving connection whose user was found active
since. -/
structure Accepted (past : List Happening) (upload : Upload) : Prop where
  /-- The connection serves the device of the user. -/
  serving : Serving F past upload.userId upload.deviceId
  /-- The user was found active after the batch arrived. -/
  active : FoundActive (recent past) upload.userId
  /-- The batch arrived. -/
  carries : Carries F past upload.batch

/-- Windows that arrived on a serving connection whose user was found active
since. -/
structure AcceptedWindows (past : List Happening) (userId deviceId : String)
    (win : SyncWindowsPayload) : Prop where
  /-- The connection serves a device of the user. -/
  serving : Serving F past userId deviceId
  /-- The user was found active after the windows arrived. -/
  active : FoundActive (recent past) userId
  /-- The windows arrived. -/
  carries : CarriesWindows F past win

/-- The status of a user has just been read, and the generation before it. -/
def ReadSince (past : List Happening) (userId : String) (active : Bool) (genAtRead : UInt64) :
    Prop :=
  ∃ (row : Option UserRow) (rest : List Happening),
    past=.call (.getUserById userId) (.ok row)::.call .generation genAtRead::rest ∧
    active=(row.map UserRow.active).getD false

/-- What must have happened on a connection before a call. -/
def Authorized (past : List Happening) : Call → Prop
  | .insertIfCurrent userId active genAtRead => ReadSince past userId active genAtRead
  | .findDeviceByKeyAndUser deviceKey userId =>
    ∃ auth, Identified F past auth userId ∧ deviceKey=auth.deviceKey
  | .createDevice id userId name deviceKey =>
    ∃ auth, Identified F past auth userId ∧ id=auth.deviceKey ∧ deviceKey=auth.deviceKey ∧
      name=truncateDeviceName auth.deviceName
  | .updateDeviceSeen id _ => ∃ userId, Claimed F past userId id
  | .deleteDeviceEvents deviceId => ∃ auth userId, Identified F past auth userId ∧
      HasDevice past auth userId deviceId ∧ auth.schemaVersion≠F.schemaVersion
  | .resetCursor deviceId provider => ∃ auth userId, Identified F past auth userId ∧
      HasDevice past auth userId deviceId ∧ auth.schemaVersion≠F.schemaVersion ∧
      provider=auth.provider
  | .ensureCursor deviceId _ => ∃ userId, Claimed F past userId deviceId
  | .getLastTs deviceId _ => ∃ userId, Serving F past userId deviceId
  | .advanceCursor deviceId provider ts => ∃ upload : Upload, Accepted F past upload ∧
      deviceId=upload.deviceId ∧ provider=upload.batch.provider ∧ ts=upload.maxTs ∧
      .call (.upsertEvents upload.serverEvents) (.ok ())∈recent past
  | .upsertEvents events => ∃ upload : Upload, Accepted F past upload ∧
      events=upload.serverEvents ∧ upload.batch.items≠[] ∧
      upload.batch.items.length ≤ maxBatchSize
  | .cleanupOldDedup deviceId _ => ∃ userId, Serving F past userId deviceId
  | .allow userId provider deviceId => ∃ win, AcceptedWindows F past userId deviceId win ∧
      provider=win.provider
  | .upsertWindows userId provider items => ∃ deviceId win nowMs,
      AcceptedWindows F past userId deviceId win ∧ provider=win.provider ∧
      .call (.allow userId win.provider deviceId) true∈recent past ∧
      PremergeWindows (sanitizeWindowBatch win.items nowMs).items items
  | .write (.authOk deviceId) => ∃ userId, Serving F past userId deviceId
  | _ => True

/-- What a connection relies on: merged windows come from the uploaded ones. -/
def Reliable : (op : Call) → Answer op → Prop
  | .premergeWindows items, merged => PremergeWindows items merged
  | _, _ => True

/-- A connection remembers its frames and calls and makes authorized calls. -/
def evidence : Contract Answer Arrival (List Happening) where
  start := []
  arrive past arrival := .arrive arrival::past
  mayCall past op := Authorized F past op
  answers _ op reply := Reliable op reply
  called past op reply := .call op reply::past
  quit past := past

/-- What a connection has shown between two frames. -/
def Shown (past : List Happening) : Session → Prop
  | .handshake => True
  | .serving userId deviceId => Serving F past userId deviceId

end

/-- Later calls within the same frame. -/
inductive Later : List Happening → List Happening → Prop where
  | refl (past : List Happening) : Later past past
  | call {past past' : List Happening} (op : Call) (reply : Answer op) (h : Later past past') :
      Later past (.call op reply::past')

section

variable {F : Formats} {past past' : List Happening} {auth : AuthPayload}
variable {userId deviceId : String} {e : Happening}

theorem Later.mem (h : Later past past') (he : e∈past) : e∈past' := by
  induction h with
  | refl => exact he
  | call op reply _ ih => exact List.mem_cons_of_mem _ ih

theorem Later.recent (h : Later past past') (he : e∈recent past) : e∈recent past' := by
  induction h with
  | refl => exact he
  | call op reply _ ih => exact List.mem_cons_of_mem _ ih

theorem Later.lastArrival (h : Later past past') : lastArrival past'=lastArrival past := by
  induction h with
  | refl => rfl
  | call op reply _ ih => exact ih

theorem Later.trans {past'' : List Happening} (h : Later past past') (h' : Later past' past'') :
    Later past past'' := by
  induction h' with
  | refl => exact h
  | call op reply _ ih => exact .call op reply ih

theorem FoundActive.mono {calls calls' : List Happening} (h : FoundActive calls userId)
    (hmem : ∀ e∈calls, e∈calls') : FoundActive calls' userId := by
  rcases h with h | ⟨row,hactive,h⟩
  · exact .inl (hmem _ h)
  · exact .inr ⟨row,hactive,hmem _ h⟩

theorem Identified.later (h : Identified F past auth userId) (hmem : ∀ e∈past, e∈past') :
    Identified F past' auth userId where
  arrived := by
    obtain ⟨payload,hmem',hpayload⟩ := h.arrived
    exact ⟨payload,hmem _ hmem',hpayload⟩
  version := h.version
  verified := by
    obtain ⟨claims,hsub,hmem'⟩ := h.verified
    exact ⟨claims,hsub,hmem _ hmem'⟩
  active := h.active.mono hmem
  uuid := h.uuid

theorem HasDevice.later (h : HasDevice past auth userId deviceId) (hmem : ∀ e∈past, e∈past') :
    HasDevice past' auth userId deviceId := by
  rcases h with h | ⟨hid,name,h⟩
  · exact .inl (hmem _ h)
  · exact .inr ⟨hid,name,hmem _ h⟩

theorem Serving.later (h : Serving F past userId deviceId) (hmem : ∀ e∈past, e∈past') :
    Serving F past' userId deviceId := by
  obtain ⟨auth,hidentified,hdevice,hschema⟩ := h
  exact ⟨auth,hidentified.later hmem,hdevice.later hmem,hschema⟩

theorem Accepted.later {upload : Upload} (h : Accepted F past upload) (hl : Later past past') :
    Accepted F past' upload where
  serving := h.serving.later fun _ => hl.mem
  active := h.active.mono fun _ => hl.recent
  carries := by
    obtain ⟨msgType,payload,hlast,hrest⟩ := h.carries
    exact ⟨msgType,payload,hl.lastArrival.trans hlast,hrest⟩

theorem AcceptedWindows.later {win : SyncWindowsPayload}
    (h : AcceptedWindows F past userId deviceId win) (hl : Later past past') :
    AcceptedWindows F past' userId deviceId win where
  serving := h.serving.later fun _ => hl.mem
  active := h.active.mono fun _ => hl.recent
  carries := by
    obtain ⟨payload,hlast,hrest⟩ := h.carries
    exact ⟨payload,hl.lastArrival.trans hlast,hrest⟩

/-- What a handler leaves: a session that has shown what it is. -/
def Leaves (F : Formats) (past : List Happening) (result : Option Session) : Prop :=
  ∀ s, result=some s → Shown F past s

/-- The rule of a frame for the client. -/
theorem meets_send {reply : Reply} {next : Option Session}
    (hmay : Authorized F past (.write reply))
    (hnext : ∀ past', Later past past' → Leaves F past' next) :
    Meets (evidence F) (Leaves F) past (send reply next) := by
  refine .perform hmay fun result _ => ?_
  cases result with
  | error e => exact fun _ h => nomatch h
  | ok u => exact hnext _ (.call _ _ (.refl past))

theorem recent_subset (he : e∈recent past) : e∈past := (List.takeWhile_sublist _).mem he

/-- The check leaves evidence that an active user is active. -/
theorem meets_active (past : List Happening) (userId : String) :
    Meets (evidence F) (fun past' result => Later past past' ∧
      (result=.ok true → FoundActive (recent past') userId)) past
      (isUserActiveCached userId) := by
  refine .perform True.intro fun fresh _ => ?_
  cases fresh with
  | some active =>
    refine ⟨.call _ _ (.refl past),fun h => ?_⟩
    cases h
    exact .inl List.mem_cons_self
  | none =>
    refine .perform True.intro fun genAtRead _ => ?_
    refine .perform True.intro fun row _ => ?_
    cases row with
    | error e => exact ⟨.call _ _ (.call _ _ (.call _ _ (.refl past))),fun h => nomatch h⟩
    | ok row =>
      refine .perform ⟨row,_,rfl,rfl⟩ fun _ _ => ?_
      refine ⟨.call _ _ (.call _ _ (.call _ _ (.call _ _ (.refl past)))),fun h => ?_⟩
      cases row with
      | none => cases h
      | some row =>
        have hactive : row.active=true := Except.ok.inj h
        exact .inr ⟨row,hactive,List.mem_cons_of_mem _ List.mem_cons_self⟩

/-- The device of an identified user is found or created. -/
theorem meets_device (h : Identified F past auth userId) :
    Meets (evidence F) (fun past' result => Later past past' ∧
      ∀ deviceId, result=.ok deviceId → HasDevice past' auth userId deviceId) past
      (findOrCreateDevice userId (truncateDeviceName auth.deviceName) auth.deviceKey) := by
  refine .perform ⟨auth,h,rfl⟩ fun found _ => ?_
  cases found with
  | error e => exact ⟨.call _ _ (.refl past),fun _ h => nomatch h⟩
  | ok found =>
    cases found with
    | some id =>
      have hdevice : HasDevice (.call (.findDeviceByKeyAndUser auth.deviceKey userId)
          (.ok (some id))::past) auth userId id := .inl List.mem_cons_self
      have hidentified : Identified F (.call (.findDeviceByKeyAndUser auth.deviceKey userId)
          (.ok (some id))::past) auth userId := h.later fun _ => List.mem_cons_of_mem _
      refine .perform ⟨userId,auth,hidentified,hdevice⟩ fun seen _ => ?_
      cases seen with
      | error e => exact ⟨.call _ _ (.call _ _ (.refl past)),fun _ h => nomatch h⟩
      | ok u =>
        refine ⟨.call _ _ (.call _ _ (.refl past)),fun deviceId hid => ?_⟩
        cases hid
        exact hdevice.later fun _ => List.mem_cons_of_mem _
    | none =>
      refine .perform ⟨auth,h.later fun _ => List.mem_cons_of_mem _,rfl,rfl,rfl⟩
        fun created _ => ?_
      cases created with
      | error e => exact ⟨.call _ _ (.call _ _ (.refl past)),fun _ h => nomatch h⟩
      | ok u =>
        refine ⟨.call _ _ (.call _ _ (.refl past)),fun deviceId hid => ?_⟩
        cases hid
        exact .inr ⟨rfl,_,List.mem_cons_self⟩

/-- The rest of the handshake of an identified user. -/
theorem meets_openSession (h : F.isUuid auth.deviceKey=true → Identified F past auth userId) :
    Meets (evidence F) (Leaves F) past (openSession F auth userId) := by
  unfold openSession
  split
  · exact meets_send True.intro fun _ _ _ h => nomatch h
  · rename_i huuid
    have hid := h (by simpa using huuid)
    refine (meets_device hid).bind fun past' device hdevice => ?_
    obtain ⟨hlater,hdevice⟩ := hdevice
    have hid := hid.later fun _ => hlater.mem
    cases device with
    | error e => exact fun _ h => nomatch h
    | ok deviceId =>
      have hdevice := hdevice deviceId rfl
      dsimp only
      split
      · rename_i hschema
        refine .perform ⟨auth,userId,hid,hdevice,hschema⟩ fun deleted _ => ?_
        refine .perform ⟨auth,userId,hid.later fun _ => List.mem_cons_of_mem _,
          hdevice.later fun _ => List.mem_cons_of_mem _,hschema,rfl⟩ fun reset _ => ?_
        exact meets_send True.intro fun _ _ _ h => nomatch h
      · rename_i hschema
        have hserving : Serving F past' userId deviceId :=
          ⟨auth,hid,hdevice,not_not.mp hschema⟩
        refine .perform ⟨userId,auth,hid,hdevice⟩ fun ensured _ => ?_
        cases ensured with
        | error e => exact fun _ h => nomatch h
        | ok u =>
          refine meets_send ⟨userId,hserving.later fun _ => List.mem_cons_of_mem _⟩
            fun past'' hlater s hs => ?_
          cases hs
          exact hserving.later fun _ h => hlater.mem (List.mem_cons_of_mem _ h)

/-- A handshake identifies its user before it opens a session. -/
theorem meets_handshake (past : List Happening) (arrival : Arrival) :
    Meets (evidence F) (Leaves F) (.arrive arrival::past) (handshake F arrival) := by
  cases arrival with
  | failed => exact fun _ h => nomatch h
  | timeout => exact fun _ h => nomatch h
  | frame msgType payload =>
    unfold handshake
    dsimp only
    split
    · exact fun _ h => nomatch h
    split
    · exact fun _ h => nomatch h
    rename_i hauth
    cases hpayload : F.authPayload payload with
    | none => exact fun _ h => nomatch h
    | some auth =>
      dsimp only
      unfold authenticate
      split
      · exact meets_send True.intro fun _ _ _ h => nomatch h
      rename_i hversion
      refine .perform True.intro fun verified _ => ?_
      cases verified with
      | error e => exact meets_send True.intro fun _ _ _ h => nomatch h
      | ok claims =>
        refine (meets_active _ claims.sub).bind fun past' active hactive => ?_
        obtain ⟨hlater,hactive⟩ := hactive
        cases active with
        | error e => exact meets_send True.intro fun _ _ _ h => nomatch h
        | ok active =>
          cases active with
          | false => exact meets_send True.intro fun _ _ _ h => nomatch h
          | true =>
            refine meets_openSession fun huuid => ?_
            exact
              { arrived := by
                  refine ⟨payload,hlater.mem (List.mem_cons_of_mem _ ?_),hpayload⟩
                  rw [not_not.mp hauth]
                  exact List.mem_cons_self
                version := not_not.mp hversion
                verified := ⟨claims,rfl,hlater.mem List.mem_cons_self⟩
                active := (hactive rfl).mono fun _ => recent_subset
                uuid := huuid }

/-- A serving session goes on after further calls. -/
theorem leaves_serving (h : Serving F past userId deviceId) (past'' : List Happening)
    (hlater : Later past past'') : Leaves F past'' (some (.serving userId deviceId)) := by
  intro s hs
  cases hs
  exact h.later fun _ => hlater.mem

/-- The rule of a request that is made for an active user only. -/
theorem meets_whenActive {next : Handling}
    (hnext : ∀ past', Later past past' → FoundActive (recent past') userId →
      Meets (evidence F) (Leaves F) past' next) :
    Meets (evidence F) (Leaves F) past (whenActive userId next) := by
  refine (meets_active past userId).bind fun past' active hactive => ?_
  obtain ⟨hlater,hactive⟩ := hactive
  cases active with
  | error e => exact fun _ h => nomatch h
  | ok active =>
    cases active with
    | false => exact meets_send True.intro fun _ _ _ h => nomatch h
    | true => exact hnext past' hlater (hactive rfl)

/-- An accepted batch is stored for its connection. -/
theorem meets_handleSyncBatch {upload : Upload} (dedupRetentionSecs : Int64)
    (h : Accepted F past upload) : Meets (evidence F) (fun past' _ => Later past past') past
      (handleSyncBatch dedupRetentionSecs upload) := by
  unfold handleSyncBatch
  split
  · exact ⟨⟨_,h.serving⟩,fun reply _ => .call _ _ (.refl past)⟩
  rename_i hitems
  split
  · exact .refl past
  rename_i hsize
  refine .perform True.intro fun permit _ => ?_
  cases permit with
  | error e => exact .call _ _ (.refl past)
  | ok u =>
    refine .perform ⟨upload,h.later (.call _ _ (.refl past)),rfl,hitems,Nat.le_of_not_lt hsize⟩
      fun upserted _ => ?_
    refine .perform True.intro fun _ _ => ?_
    have hlater : ∀ upserted, Later past (.call .release ()::.call (.upsertEvents
        upload.serverEvents) upserted::.call .acquire (.ok u)::past) :=
      fun upserted => .call _ _ (.call _ _ (.call _ _ (.refl past)))
    cases upserted with
    | error e => exact hlater _
    | ok v =>
      refine .perform ⟨upload,h.later (hlater _),rfl,rfl,rfl,
        List.mem_cons_of_mem _ List.mem_cons_self⟩ fun advanced _ => ?_
      cases advanced with
      | error e => exact .call _ _ (hlater _)
      | ok w =>
        dsimp only
        split
        · exact .perform ⟨_,h.serving.later fun _ => (Later.call _ _ (hlater _)).mem⟩
            fun cleaned _ => .call _ _ (.call _ _ (hlater _))
        · exact .call _ _ (hlater _)

/-- A batch is accepted before it is stored. -/
theorem meets_syncBatch {msgType : MsgType} {payload : Bytes} (dedupRetentionSecs : Int64)
    (h : Serving F past userId deviceId)
    (hlast : lastArrival past=some (.frame msgType payload))
    (htype : msgType=.syncBatch ∨ msgType=.syncBatchZstd) :
    Meets (evidence F) (Leaves F) past
      (syncBatch F dedupRetentionSecs userId deviceId msgType payload) := by
  refine meets_whenActive fun past' hlater hactive => ?_
  have hserving := h.later fun _ => hlater.mem
  cases hbatch : (rawBatch F msgType payload).bind F.syncBatchPayload with
  | none => exact fun _ h => nomatch h
  | some batch =>
    dsimp only
    obtain ⟨auth,hid,hdevice,hschema⟩ := hserving
    have haccepted : Accepted F past' ⟨deviceId,userId,batch⟩ :=
      ⟨⟨auth,hid,hdevice,hschema⟩,hactive,
        ⟨msgType,payload,hlater.lastArrival.trans hlast,htype,hbatch⟩⟩
    refine .perform ⟨userId,auth,hid,hdevice⟩ fun ensured _ => ?_
    cases ensured with
    | error e => exact fun _ h => nomatch h
    | ok u =>
      have haccepted := haccepted.later (.call (.ensureCursor deviceId batch.provider) (.ok u)
        (.refl past'))
      refine (meets_handleSyncBatch dedupRetentionSecs haccepted).bind fun past'' result hlater => ?_
      have hserving := haccepted.serving.later fun _ => hlater.mem
      cases result with
      | error reason => exact meets_send True.intro (leaves_serving hserving)
      | ok lastTs => exact meets_send True.intro (leaves_serving hserving)

/-- Accepted windows that passed the limiter are stored for their user. -/
theorem meets_storeWindows {win : SyncWindowsPayload}
    (h : AcceptedWindows F past userId deviceId win)
    (hallowed : .call (.allow userId win.provider deviceId) true∈recent past) :
    Meets (evidence F) (Leaves F) past (storeWindows userId deviceId win) := by
  refine .perform True.intro fun nowMs _ => ?_
  refine .perform True.intro fun permit _ => ?_
  cases permit with
  | error e => exact fun _ h => nomatch h
  | ok u =>
    refine .perform True.intro fun items hitems => ?_
    have hlater : Later past (.call (.premergeWindows (sanitizeWindowBatch win.items nowMs).items)
        items::.call .acquire (.ok u)::.call .nowMs nowMs::past) :=
      .call _ _ (.call _ _ (.call _ _ (.refl past)))
    refine .perform ⟨deviceId,win,nowMs,h.later hlater,rfl,hlater.recent hallowed,hitems⟩
      fun upserted _ => ?_
    refine .perform True.intro fun _ _ => ?_
    have hserving := h.serving.later fun _ => (Later.call .release ()
      (Later.call (.upsertWindows userId win.provider items) upserted hlater)).mem
    cases hreply : windowsReply (answerWindows (sanitizeWindowBatch win.items nowMs)
        win.items.length items upserted) with
    | none => exact fun _ h => nomatch h
    | some reply =>
      refine meets_send ?_ (leaves_serving hserving)
      cases reply with
      | authOk deviceId =>
        unfold windowsReply at hreply
        split at hreply <;> cases hreply
      | _ => exact True.intro

/-- Windows are accepted before they are stored. -/
theorem meets_syncWindows {payload : Bytes} (h : Serving F past userId deviceId)
    (hlast : lastArrival past=some (.frame .syncWindows payload)) :
    Meets (evidence F) (Leaves F) past (syncWindows F userId deviceId payload) := by
  refine meets_whenActive fun past' hlater hactive => ?_
  have hserving := h.later fun _ => hlater.mem
  have hrefused : ∀ reason, Meets (evidence F) (Leaves F) past'
      (send (.syncErr reason) (some (.serving userId deviceId))) :=
    fun reason => meets_send True.intro (leaves_serving hserving)
  split
  · exact hrefused _
  cases hwin : F.syncWindowsPayload payload with
  | none => exact fun _ h => nomatch h
  | some win =>
    dsimp only
    split
    · exact hrefused _
    split
    · exact hrefused _
    have haccepted : AcceptedWindows F past' userId deviceId win :=
      ⟨hserving,hactive,⟨payload,hlater.lastArrival.trans hlast,hwin⟩⟩
    refine .perform ⟨win,haccepted,rfl⟩ fun allowed _ => ?_
    cases allowed with
    | false =>
      exact meets_send True.intro (leaves_serving (hserving.later fun _ => List.mem_cons_of_mem _))
    | true =>
      exact meets_storeWindows (haccepted.later (.call _ _ (.refl past'))) List.mem_cons_self

/-- A serving connection makes authorized calls for every frame. -/
theorem meets_serve (dedupRetentionSecs : Int64) (arrival : Arrival)
    (h : Serving F past userId deviceId) :
    Meets (evidence F) (Leaves F) (.arrive arrival::past)
      (serve F dedupRetentionSecs userId deviceId arrival) := by
  have hserving : Serving F (.arrive arrival::past) userId deviceId :=
    h.later fun _ => List.mem_cons_of_mem _
  cases arrival with
  | failed => exact fun _ h => nomatch h
  | timeout => exact fun _ h => nomatch h
  | frame msgType payload =>
    unfold serve
    dsimp only
    split
    · exact fun _ h => nomatch h
    cases msgType with
    | getLastTs =>
      cases hprovider : F.getLastTsPayload payload with
      | none => exact fun _ h => nomatch h
      | some provider =>
        refine .perform ⟨userId,hserving⟩ fun ts _ => ?_
        cases ts with
        | error e => exact fun _ h => nomatch h
        | ok ts =>
          exact meets_send True.intro
            (leaves_serving (hserving.later fun _ => List.mem_cons_of_mem _))
    | syncBatch => exact meets_syncBatch dedupRetentionSecs hserving rfl (.inl rfl)
    | syncBatchZstd => exact meets_syncBatch dedupRetentionSecs hserving rfl (.inr rfl)
    | syncWindows => exact meets_syncWindows hserving rfl
    | ping => exact meets_send True.intro (leaves_serving hserving)
    | _ => exact leaves_serving hserving _ (.refl _)

/-- The connection makes authorized calls, whatever arrives. -/
theorem handles_evidence (F : Formats) (dedupRetentionSecs : Int64) :
    Handles (evidence F) (Shown F) (handleConnection F dedupRetentionSecs) := by
  intro past s arrival hshown
  cases s with
  | handshake => exact meets_handshake past arrival
  | serving userId deviceId => exact meets_serve dedupRetentionSecs arrival hshown

/-- The memory of the evidence is the frames and calls of the connection. -/
theorem follow_evidence (events : List Happening) :
    (evidence F).follow events=events.filter Event.isInner := by
  induction events with
  | nil => rfl
  | cons e past ih =>
    rw [Contract.follow,ih]
    cases e <;> rfl

end

section

variable {F : Formats} {eventCodec : Codec PersistedEvent} {windowCodec : Codec WireWindow}
variable {backend : OidcAccounts.Backend} {dedupRetentionSecs : Int64}

/-- The services merge windows as connections rely on. -/
theorem upholds_evidence : Upholds (evidence F) (Shown F) (services F eventCodec windowCodec backend)
    fun (_ : List ServerLabel) _ => True where
  opened _ _ _ _ _ _ := True.intro
  arrive _ _ _ _ _ _ _ := True.intro
  call past i op s reply t _ _ heffect := by
    refine ⟨?_,True.intro⟩
    cases op with
    | premergeWindows items => exact heffect.2
    | _ => exact True.intro
  finish _ _ _ _ := True.intro
  closed _ _ _ _ _ _ := True.intro
  dropped _ _ _ _ _ _ := True.intro
  environment _ _ _ _ _ _ := True.intro

variable {init host : SyncHost} {newer older : List ServerLabel} {i : ℕ} {op : Call}
variable {reply : Answer op}

theorem follow_own (i : ℕ) (history : List ServerLabel) :
    (evidence F).follow (own i history)=inner i history := follow_evidence _

/-- In every run the calls are authorized by the events before them. -/
theorem authorized_of_run (hunopened : ∀ i, init.phases i=.unopened)
    (run : Run (ServerStep F eventCodec windowCodec backend dedupRetentionSecs) init
      (newer++.session i (.call op reply)::older) host) : Authorized F (inner i older) op := by
  have hready : Shown F (evidence F).start .handshake := True.intro
  have h := (call_upheld hready (handles_evidence F dedupRetentionSecs) upholds_evidence
    True.intro hunopened run).1
  rw [follow_own] at h
  exact h

/-- Whatever frames arrive on whatever connections and however their steps and
those of the rest of the server interleave, a connection makes every call only
after what the call needs has happened on it. -/
theorem calls_authorized (hunopened : ∀ i, init.phases i=.unopened)
    (run : Run (ServerStep F eventCodec windowCodec backend dedupRetentionSecs) init
      (newer++.session i (.call op reply)::older) host) : Authorized F (inner i older) op :=
  authorized_of_run hunopened run

/-- A batch is stored after the handshake and the check that go before it. -/
theorem calls_authorized_sample : Authorized sampleFormats (inner 0 sampleLabels.tail)
    (.upsertEvents (SyncCursor.sampleUpload "codex" 7).serverEvents) := by
  obtain ⟨s,rest,run,-⟩ := sampleRun
  exact @calls_authorized _ _ _ _ _ _ _ [] _ 0 _ _ (fun _ => rfl) run

end

end TokiSync.ConnectionAuth
