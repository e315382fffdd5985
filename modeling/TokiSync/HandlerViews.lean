import TokiSync.DeletionRaces
import TokiSync.SyncServer
import TokiSync.TableViews

/-!
# The handlers of the server as steps of the smaller models

Deletions and uploads, and cursors and the event store, were modelled with just
the columns they are about. Seen through the columns of its tables, the server
takes the steps of these models: an action of a deletion does what it does
there, and whatever the calls of a connection do while it handles a batch or a
handshake, failures included, is done by steps of one request.
-/

namespace TokiSync.HandlerViews

open ByteCodec DatabaseRepo DatabaseRuns DeletionRaces ServerEvents SyncBatches SyncConnection
open SyncServer TableViews WireWindows
open InterleavedSessions (Follows Program)
open Relation (ReflTransGen)

/-- What deletions and requests share, in the server. -/
def sharedOf (s : SyncServer.Server) : Shared where
  store := s.events
  users := statuses s.db
  devices := owners s.db
  cursors := cursors s.db
  cache := s.cache
  now := s.now
  permits := s.permits

/-- An action of a deletion, in the server. -/
def outsideOf (now : Int64) : Action → Outside
  | .setUserInactive userId => .write (.setUserActive userId false now)
  | .evict userId => .evict userId
  | .deleteDeviceEvents deviceId => .deleteDeviceEvents deviceId
  | .deleteUserWindows userId => .deleteUserWindows userId
  | .deleteUserDevice deviceId userId => .write (.deleteUserDevice deviceId userId)
  | .deleteDevice deviceId => .write (.deleteDevice deviceId)
  | .deleteUser userId => .write (.deleteUser userId)

section

variable {db : Tables} {id userId : String} {now : Int64}

theorem owners_setUserActive (active : Bool) :
    owners (setUserActive db userId active now).2=owners db :=
  funext fun _ => column_updateWhere_other fun row => by cases row <;> rfl

theorem cursors_setUserActive (active : Bool) :
    cursors (setUserActive db userId active now).2=cursors db :=
  funext fun _ => funext fun _ => column_updateWhere_other fun row => by cases row <;> rfl

/-- A device has an owner who has a row. -/
theorem statuses_ne_none (h : owners db id=some userId) : statuses db userId≠none := by
  obtain ⟨row,hrow,hkey,howner⟩ := column_eq_some.mp h
  obtain ⟨device,rfl,-⟩ := key_device hkey
  obtain ⟨parent,hparent,hid⟩ := exists_parent hrow (List.mem_singleton_self _)
  obtain ⟨user,rfl,-⟩ := key_user hid
  have huser : device.userId=userId := Option.some.inj howner
  have hactive : statuses db userId=some user.active :=
    column_eq_some.mpr ⟨_,hparent,hid.trans (congrArg Key.user huser),rfl⟩
  exact fun hnone => nomatch hnone.symm.trans hactive

variable (s : SyncServer.Server)

theorem sharedOf_deleteDevice :
    sharedOf {s with db := (deleteDevice s.db id).2}=dropDevice (sharedOf s) id := by
  simp only [sharedOf,dropDevice,statuses_deleteDevice,owners_deleteDevice,cursors_deleteDevice]

theorem sharedOf_deleteUserDevice :
    sharedOf {s with db := (deleteUserDevice s.db id userId).2}=
      if owners s.db id=some userId then dropDevice (sharedOf s) id else sharedOf s := by
  rw [←sharedOf_deleteDevice]
  split_ifs with howner
  · unfold sharedOf statuses owners cursors
    simp only [column_deleteUserDevice,if_pos howner]
  · unfold sharedOf statuses owners cursors
    simp only [column_deleteUserDevice,if_neg howner]

/-- Without its row nothing goes with a device. -/
theorem dropDevice_of_ownerless (h : owners s.db id=none) :
    dropDevice (sharedOf s) id=sharedOf s := by
  have hcursors : (fun _ => none)=cursors s.db id := by
    funext p
    by_contra hsome
    exact owners_ne_none (Ne.symm hsome) h
  have howners : Function.update (owners s.db) id none=owners s.db := by
    rw [←h,Function.update_eq_self]
  unfold dropDevice sharedOf
  dsimp only
  rw [howners,hcursors,Function.update_eq_self]

theorem sharedOf_deleteUser :
    sharedOf {s with db := (deleteUser s.db userId).2}=
      {sharedOf s with
        users := Function.update (statuses s.db) userId none
        devices := fun id => if owners s.db id=some userId then none else owners s.db id
        cursors := fun id =>
          if owners s.db id=some userId then fun _ => none else cursors s.db id} := by
  simp only [sharedOf,statuses_deleteUser,owners_deleteUser,cursors_deleteUser]

/-- Without its row nothing goes with a user. -/
theorem sharedOf_deleteUser_of_missing (h : statuses s.db userId=none) :
    sharedOf {s with db := (deleteUser s.db userId).2}=sharedOf s := by
  have howner : ∀ id, owners s.db id≠some userId := fun id hid => statuses_ne_none hid h
  have hstatuses : Function.update (statuses s.db) userId none=statuses s.db := by
    rw [←h,Function.update_eq_self]
  rw [sharedOf_deleteUser,hstatuses]
  simp only [howner,if_false]
  rfl

/-- An action of a deletion does in the server what it does there. -/
theorem perform_sharedOf {backend : OidcAccounts.Backend} {eventCodec : Codec PersistedEvent}
    {s t : SyncServer.Server} {action : Action}
    (h : HappensOutside eventCodec backend (outsideOf now action) s t) :
    (DeletionRaces.perform eventCodec (sharedOf s) action).getD (sharedOf s)=sharedOf t := by
  cases action with
  | setUserInactive userId =>
    obtain rfl : t=_ := h
    simp [DeletionRaces.perform,sharedOf,DatabaseRuns.perform,statuses_setUserActive,
      owners_setUserActive,cursors_setUserActive]
  | evict userId =>
    obtain rfl : t=_ := h
    rfl
  | deleteDeviceEvents deviceId =>
    obtain rfl : t=_ := h
    rfl
  | deleteUserWindows userId =>
    obtain rfl : t=_ := h
    rfl
  | deleteUserDevice deviceId userId =>
    obtain rfl : t=_ := h
    refine Eq.trans ?_ (sharedOf_deleteUserDevice s).symm
    unfold DeletionRaces.perform
    change (if owners s.db deviceId=some userId then _ else _ : Option Shared).getD _=_
    split_ifs <;> rfl
  | deleteDevice deviceId =>
    obtain rfl : t=_ := h
    refine Eq.trans ?_ (sharedOf_deleteDevice s).symm
    unfold DeletionRaces.perform
    change (if owners s.db deviceId=none then _ else _ : Option Shared).getD _=_
    split_ifs with hnone
    · exact (dropDevice_of_ownerless s hnone).symm
    · rfl
  | deleteUser userId =>
    obtain rfl : t=_ := h
    unfold DeletionRaces.perform
    change (if statuses s.db userId=none then _ else _ : Option Shared).getD _=_
    split_ifs with hnone
    · exact (sharedOf_deleteUser_of_missing s hnone).symm
    · exact (sharedOf_deleteUser s).symm

end

section

variable {s t : SyncServer.Server} {deviceId provider : String} {now : Int64}

theorem sharedOf_advanceCursor (ts : Int64) :
    sharedOf {s with db := DatabaseRepo.advanceCursor s.db deviceId provider ts now}=
      {sharedOf s with
        cursors := SyncCursor.advanceCursor (cursors s.db) deviceId provider ts} := by
  have hother : ∀ {α : Type} {col : Row → Option α} {k : Key}, (∀ row, col (.cursor row)=none) →
      column col (DatabaseRepo.advanceCursor s.db deviceId provider ts now) k=column col s.db k :=
    fun hcol => column_updateWhere_other fun row => by
      cases row with
      | cursor row => exact (hcol _).trans (hcol _).symm
      | _ => rfl
  have hstatuses : statuses (DatabaseRepo.advanceCursor s.db deviceId provider ts now)=
      statuses s.db := funext fun _ => hother fun _ => rfl
  have howners : owners (DatabaseRepo.advanceCursor s.db deviceId provider ts now)=
      owners s.db := funext fun _ => hother fun _ => rfl
  simp only [sharedOf,hstatuses,howners,cursors_advanceCursor]

theorem sharedOf_ensureCursor {db : Tables}
    (h : DatabaseRepo.ensureCursor s.db deviceId provider now=.ok db) :
    sharedOf {s with db := db}=
      {sharedOf s with cursors := SyncCursor.ensureCursor (cursors s.db) deviceId provider} := by
  have hstatuses : statuses db=statuses s.db :=
    funext fun _ => column_ensureCursor h Key.noConfusion
  have howners : owners db=owners s.db := funext fun _ => column_ensureCursor h Key.noConfusion
  simp only [sharedOf,hstatuses,howners,cursors_ensureCursor h]

end

/-- A request and what it shares with the others. Its permit is back with the
last write, in the server a few calls later. -/
def seen (s : SyncServer.Server) (l : RequestPhase×ℕ) : Shared×RequestPhase :=
  ({sharedOf s with permits := s.permits+l.2},l.1)

section

variable (F : Formats) (eventCodec : Codec PersistedEvent) (windowCodec : Codec WireWindow)
variable (windowsSchemaVersion : ℕ) (debug : String → String) (dedupRetentionSecs : Int64) (i : ℕ)

/-- A step of a request. -/
def RequestTakes (a b : Shared×RequestPhase) : Prop :=
  RequestStep eventCodec windowCodec windowsSchemaVersion debug dedupRetentionSecs a.1 a.2 b.1 b.2

/-- What the calls of a connection do is done by steps of one request. -/
abbrev FollowsRequest {β : Type} (post : RequestPhase×ℕ → β → Prop) :
    RequestPhase×ℕ → Program Answer β → Prop :=
  Follows (Calls F eventCodec windowCodec i) (fun s l a => a=seen s l)
    (RequestTakes eventCodec windowCodec windowsSchemaVersion debug dedupRetentionSecs) post

variable {F eventCodec windowCodec windowsSchemaVersion debug dedupRetentionSecs i} {β : Type}
variable {post : RequestPhase×ℕ → β → Prop} {l : RequestPhase×ℕ}

/-- The rule of a call. -/
theorem follows_call {op : Call} {f : Answer op → Program Answer β}
    (h : ∀ s reply t, Calls F eventCodec windowCodec i op s reply t → ∃ l',
      (seen t l'=seen s l ∨ RequestTakes eventCodec windowCodec windowsSchemaVersion debug
        dedupRetentionSecs (seen s l) (seen t l')) ∧
      FollowsRequest F eventCodec windowCodec windowsSchemaVersion debug dedupRetentionSecs i post
        l' (f reply)) :
    FollowsRequest F eventCodec windowCodec windowsSchemaVersion debug dedupRetentionSecs i post l
      (call op >>= f) := by
  rintro s reply t a hcall rfl
  obtain ⟨l',hsame | htakes,hrest⟩ := h s reply t hcall
  · exact ⟨l',_,.refl,hsame.symm,hrest⟩
  · exact ⟨l',_,.single htakes,rfl,hrest⟩

/-- The end of a frame. -/
theorem follows_send {reply : Reply} {next : Option Session} {phase : RequestPhase} :
    FollowsRequest F eventCodec windowCodec windowsSchemaVersion debug dedupRetentionSecs i
      (fun l _ => l.2=0) (phase,0) (send reply next) := by
  refine follows_call fun s written t hcall => ⟨(phase,0),.inl ?_,?_⟩
  · obtain rfl : t=s := hcall
    rfl
  · cases written <;> exact rfl

/-- The status of the user is found out. -/
theorem follows_isUserActiveCached (request : Request) :
    FollowsRequest F eventCodec windowCodec windowsSchemaVersion debug dedupRetentionSecs i
      (fun l result => l.2=0 ∧ ∀ active, result=.ok active → l.1=answered request active) (.idle,0)
      (isUserActiveCached request.userId) := by
  refine follows_call fun s fresh t hcall => ?_
  obtain ⟨rfl,rfl⟩ := hcall
  cases hfresh : ActiveStatusCache.getFresh t.cache t.now request.userId with
  | some active =>
    refine ⟨(answered request active,0),.inr (.hit request hfresh),rfl,?_⟩
    rintro _ ⟨⟩
    rfl
  | none =>
    refine ⟨(.missed request,0),.inr (.miss request hfresh),?_⟩
    refine follows_call fun s genAtRead t hcall => ?_
    obtain ⟨rfl,rfl⟩ := hcall
    refine ⟨(.loaded request t.cache.generation,0),.inr .loadGeneration,?_⟩
    generalize t.cache.generation=genAtRead
    refine follows_call fun s found t hcall => ?_
    obtain ⟨rfl,hreads⟩ := hcall
    rcases hreads with rfl | ⟨e,rfl⟩
    · have hactive : ((getUserById t.db request.userId).map OidcAccounts.UserRow.active).getD false=
          ((sharedOf t).users request.userId).getD false :=
        congrArg (Option.getD · false) (getUserById_active request.userId)
      refine ⟨(.read request genAtRead (((sharedOf t).users request.userId).getD false),0),
        .inr .readUser,?_⟩
      dsimp only
      rw [hactive]
      generalize ((sharedOf t).users request.userId).getD false=active
      refine follows_call fun s stored t hcall => ?_
      obtain rfl : t=_ := hcall
      refine ⟨(answered request active,0),.inr .store,rfl,?_⟩
      rintro _ ⟨⟩
      rfl
    · refine ⟨(.finished,0),.inr .readFails,rfl,?_⟩
      rintro _ ⟨⟩

theorem seen_release {phase : RequestPhase} (s : SyncServer.Server) :
    seen (s.release i) (phase,0)=seen s (phase,1) := rfl

/-- The dedup index is pruned if need be. -/
theorem follows_prune (upload : Upload) :
    FollowsRequest F eventCodec windowCodec windowsSchemaVersion debug dedupRetentionSecs i
      (fun l _ => l.2=0) (.advanced upload,0)
      (if 0<SyncCursor.cutoffMs dedupRetentionSecs upload then do
        let _ ← call (.cleanupOldDedup upload.deviceId
          (SyncCursor.cutoffMs dedupRetentionSecs upload))
        pure (.ok upload.maxTs)
      else pure (.ok upload.maxTs) : Program Answer (Except String Int64)) := by
  split
  · rename_i hold
    refine follows_call fun s pruned t hcall => ?_
    rcases hcall with ⟨rfl,-⟩ | ⟨rfl,-⟩
    · exact ⟨(.finished,0),.inr (.prune hold),rfl⟩
    · exact ⟨(.finished,0),.inr .acknowledge,rfl⟩
  · exact rfl

/-- The cursor is advanced in a step of the request. -/
theorem takes_advanceCursor (s : SyncServer.Server) (upload : Upload) (now : Int64) :
    RequestTakes eventCodec windowCodec windowsSchemaVersion debug dedupRetentionSecs
      (seen s (.upserted upload,0))
      (seen {s with db :=
          DatabaseRepo.advanceCursor s.db upload.deviceId upload.batch.provider upload.maxTs now}
        (.advanced upload,0)) := by
  unfold seen
  rw [sharedOf_advanceCursor]
  exact .advanceCursor

/-- A batch is handled after its cursor was made sure of. -/
theorem follows_handleSyncBatch (upload : Upload) :
    FollowsRequest F eventCodec windowCodec windowsSchemaVersion debug dedupRetentionSecs i
      (fun l _ => l.2=0) (.cursored upload,0) (handleSyncBatch dedupRetentionSecs upload) := by
  unfold handleSyncBatch
  split
  · intro s reply t a hcall ha
    obtain ⟨rfl,-⟩ := hcall
    exact ⟨_,a,.refl,ha,rfl⟩
  · rename_i hsome
    split
    · exact rfl
    · rename_i hsmall
      refine follows_call fun s acquired t hcall => ?_
      rcases hcall with ⟨permits,hfree,rfl,rfl⟩ | ⟨rfl,e,rfl⟩
      · refine ⟨(.holding (.batch upload),0),
          .inr (.acquireBatch ⟨hsome,Nat.le_of_not_lt hsmall⟩ hfree),?_⟩
        refine follows_call fun s upserted t hcall => ?_
        obtain ⟨db,hdb,⟨rfl,hreads⟩ | ⟨rfl,e,rfl⟩⟩ := hcall
        · refine ⟨(.upserted upload,1),.inr (.upsertEvents hdb),?_⟩
          refine follows_call fun s released t hcall => ?_
          obtain rfl : t=s.release i := hcall
          refine ⟨(.upserted upload,0),.inl (seen_release s),?_⟩
          rcases hreads with rfl | ⟨e,rfl⟩
          · refine follows_call fun s advanced t hcall => ?_
            obtain ⟨now,⟨rfl,hreads⟩ | ⟨rfl,e,rfl⟩⟩ := hcall
            · refine ⟨(.advanced upload,0),.inr (takes_advanceCursor s upload now),?_⟩
              rcases hreads with rfl | ⟨e,rfl⟩
              · exact follows_prune upload
              · exact rfl
            · exact ⟨(.finished,0),.inr .advanceFails,rfl⟩
          · exact rfl
        · refine ⟨(.finished,1),.inr .upsertFails,?_⟩
          refine follows_call fun s released t hcall => ?_
          obtain rfl : t=s.release i := hcall
          exact ⟨(.finished,0),.inl (seen_release s),rfl⟩
      · exact ⟨(.cursored upload,0),.inl rfl,rfl⟩

/-- A batch that can be read is handled as a request is. -/
theorem follows_syncBatch {userId deviceId : String} {msgType : MsgType} {payload : ByteKeys.Bytes}
    {batch : SyncBatchPayload}
    (hread : (rawBatch F msgType payload).bind F.syncBatchPayload=some batch) :
    FollowsRequest F eventCodec windowCodec windowsSchemaVersion debug dedupRetentionSecs i
      (fun l _ => l.2=0) (.idle,0)
      (syncBatch F dedupRetentionSecs userId deviceId msgType payload) := by
  refine (follows_isUserActiveCached (.batch ⟨deviceId,userId,batch⟩)).bind ?_
  rintro ⟨phase,held⟩ result ⟨rfl,hresult⟩
  cases result with
  | error e => exact rfl
  | ok active =>
    obtain rfl : phase=_ := hresult active rfl
    cases active with
    | false => exact follows_send
    | true =>
      dsimp only
      rw [hread]
      refine follows_call fun s ensured t hcall => ?_
      obtain ⟨now,hexecutes⟩ := hcall
      cases hensure : DatabaseRepo.ensureCursor s.db deviceId batch.provider now with
      | error e =>
        rw [hensure] at hexecutes
        obtain ⟨rfl,reason,rfl⟩ := hexecutes
        exact ⟨(.finished,0),.inr (.foreignKey (ensureCursor_refused hensure)),rfl⟩
      | ok db =>
        rw [hensure] at hexecutes
        rcases hexecutes with ⟨rfl,hreads⟩ | ⟨rfl,reason,rfl⟩
        · have hstep : RequestTakes eventCodec windowCodec windowsSchemaVersion debug
              dedupRetentionSecs (seen s (.active (.batch ⟨deviceId,userId,batch⟩),0))
              (seen {s with db := db} (.cursored ⟨deviceId,userId,batch⟩,0)) := by
            unfold seen
            rw [sharedOf_ensureCursor hensure]
            exact .ensureCursor (owner_of_ensureCursor hensure)
          refine ⟨(.cursored ⟨deviceId,userId,batch⟩,0),.inr hstep,?_⟩
          rcases hreads with rfl | ⟨reason,rfl⟩
          · refine (follows_handleSyncBatch ⟨deviceId,userId,batch⟩).bind ?_
            rintro ⟨phase,held⟩ result ⟨⟩
            cases result <;> exact follows_send
          · exact rfl
        · exact ⟨(.active (.batch ⟨deviceId,userId,batch⟩),0),.inl rfl,rfl⟩

end

/-- The cursors and the event store of the server, and how far the upload of a
connection has come. -/
structure Uploading (i : ℕ) (s : SyncServer.Server) (l : Option (Upload×SyncCursor.Phase))
    (a : SyncCursor.SyncState) : Prop where
  /-- The event store is that of the server. -/
  db : a.db=s.events
  /-- The cursors are those of the tables. -/
  cursors : a.cursors=cursors s.db
  /-- The upload has come as far. -/
  request : a.requests i=l

section

variable (F : Formats) (eventCodec : Codec PersistedEvent) (windowCodec : Codec WireWindow)
variable (dedupRetentionSecs : Int64) (i : ℕ) (upload : Upload)

/-- A step of an upload before it is acknowledged. -/
def UploadTakes (a b : SyncCursor.SyncState) : Prop :=
  ∃ op∈[SyncCursor.SyncOp.upsert i upload,.advance i,.prune i,.fail i],
    SyncCursor.SyncStep eventCodec dedupRetentionSecs a op b

/-- Calls of a connection while the cursor of its batch is there. -/
def CursorCalls (op : Call) (s : SyncServer.Server) (reply : Answer op) (t : SyncServer.Server) :
    Prop :=
  (cursors s.db upload.deviceId upload.batch.provider).isSome ∧
    Calls F eventCodec windowCodec i op s reply t

/-- What a batch leaves: an upload to be acknowledged, or none. -/
structure Settled (l : Option (Upload×SyncCursor.Phase)) (result : Except String Int64) :
    Prop where
  /-- Unless it was empty, a batch that succeeds has its cursor advanced. -/
  ok : ∀ ts, result=.ok ts → upload.batch.items≠[] →
    ts=upload.maxTs ∧ l=some (upload,.advanced)
  /-- A batch that fails is over. -/
  error : ∀ e, result=.error e → l=none

/-- What the calls of a batch do is done by steps of one upload. -/
abbrev FollowsUpload {β : Type} (post : Option (Upload×SyncCursor.Phase) → β → Prop) :
    Option (Upload×SyncCursor.Phase) → Program Answer β → Prop :=
  Follows (CursorCalls F eventCodec windowCodec i upload) (Uploading i)
    (UploadTakes eventCodec dedupRetentionSecs i upload) post

variable {F eventCodec windowCodec dedupRetentionSecs i upload}
variable {s t : SyncServer.Server} {a : SyncCursor.SyncState}

theorem settled_error (e : String) : Settled upload none (.error e) where
  ok _ h := nomatch h
  error _ _ := rfl

theorem settled_ok : Settled upload (some (upload,.advanced)) (.ok upload.maxTs) where
  ok _ h _ := ⟨(Except.ok.inj h).symm,rfl⟩
  error _ h := nomatch h

/-- An upload is given up. -/
theorem Uploading.fail {l : Option (Upload×SyncCursor.Phase)} (h : Uploading i s l a) :
    ∃ b, ReflTransGen (UploadTakes eventCodec dedupRetentionSecs i upload) a b ∧
      Uploading i s none b := by
  refine ⟨{a with requests := Function.update a.requests i none},.single ⟨.fail i,?_,rfl⟩,
    h.db,h.cursors,Function.update_self _ _ _⟩
  simp

/-- The events of an upload are upserted. -/
theorem Uploading.upsert {db : FjallStore.Db} (h : Uploading i s none a)
    (hrow : (TableViews.cursors s.db upload.deviceId upload.batch.provider).isSome)
    (hsome : upload.batch.items≠[]) (hsmall : upload.batch.items.length ≤ maxBatchSize)
    (hdb : FjallStore.UpsertEvents eventCodec s.events upload.serverEvents db) :
    ∃ b, ReflTransGen (UploadTakes eventCodec dedupRetentionSecs i upload) a b ∧
      Uploading i {s with events := db} (some (upload,.upserted)) b := by
  rw [←h.cursors] at hrow
  rw [←h.db] at hdb
  refine ⟨{a with
      db := db
      requests := Function.update a.requests i (some (upload,.upserted))
      stored := a.stored++upload.serverEvents},
    .single ⟨.upsert i upload,by simp,h.request,hrow,hsome,hsmall,db,hdb,rfl⟩,
    rfl,h.cursors,Function.update_self _ _ _⟩

/-- The cursor of an upload is advanced. -/
theorem Uploading.advance (h : Uploading i s (some (upload,.upserted)) a) (now : Int64) :
    ∃ b, ReflTransGen (UploadTakes eventCodec dedupRetentionSecs i upload) a b ∧
      Uploading i {s with db :=
          DatabaseRepo.advanceCursor s.db upload.deviceId upload.batch.provider upload.maxTs now}
        (some (upload,.advanced)) b := by
  refine ⟨{a with
      cursors := SyncCursor.advanceCursor a.cursors upload.deviceId upload.batch.provider
        upload.maxTs
      requests := Function.update a.requests i (some (upload,.advanced))},
    .single ⟨.advance i,by simp,upload,h.request,rfl⟩,h.db,?_,Function.update_self _ _ _⟩
  rw [h.cursors,cursors_advanceCursor]

/-- The dedup index is pruned for an upload. -/
theorem Uploading.prune (h : Uploading i s (some (upload,.advanced)) a)
    (hold : 0<SyncCursor.cutoffMs dedupRetentionSecs upload) :
    ∃ b, ReflTransGen (UploadTakes eventCodec dedupRetentionSecs i upload) a b ∧
      Uploading i
        {s with
          events := FjallStore.cleanupOldDedup s.events upload.deviceId
            (SyncCursor.cutoffMs dedupRetentionSecs upload)}
        (some (upload,.advanced)) b := by
  refine ⟨{a with
      db := FjallStore.cleanupOldDedup a.db upload.deviceId
        (SyncCursor.cutoffMs dedupRetentionSecs upload)},
    .single ⟨.prune i,by simp,upload,h.request,(if_pos hold).symm⟩,?_,h.cursors,h.request⟩
  rw [h.db]

/-- The dedup index is pruned if need be. -/
theorem follows_pruned :
    FollowsUpload F eventCodec windowCodec dedupRetentionSecs i upload (Settled upload)
      (some (upload,.advanced))
      (if 0<SyncCursor.cutoffMs dedupRetentionSecs upload then do
        let _ ← call (.cleanupOldDedup upload.deviceId
          (SyncCursor.cutoffMs dedupRetentionSecs upload))
        pure (.ok upload.maxTs)
      else pure (.ok upload.maxTs) : Program Answer (Except String Int64)) := by
  split
  · rename_i hold
    rintro s pruned t a ⟨-,⟨rfl,-⟩ | ⟨rfl,-⟩⟩ ha
    · obtain ⟨b,hsteps,hb⟩ := ha.prune hold
      exact ⟨_,b,hsteps,hb,settled_ok⟩
    · exact ⟨_,a,.refl,ha,settled_ok⟩
  · exact settled_ok

/-- A batch is handled as its upload is: with a result it is to be acknowledged,
with an error it is given up. -/
theorem follows_upload :
    FollowsUpload F eventCodec windowCodec dedupRetentionSecs i upload (Settled upload) none
      (handleSyncBatch dedupRetentionSecs upload) := by
  unfold handleSyncBatch
  split
  · rename_i hempty
    rintro s reply t a ⟨-,rfl,-⟩ ha
    exact ⟨none,a,.refl,ha,fun ts _ hsome => absurd hempty hsome,fun e _ => rfl⟩
  · rename_i hsome
    split
    · exact settled_error _
    · rename_i hsmall
      rintro s acquired t a ⟨-,⟨permits,hfree,rfl,rfl⟩ | ⟨rfl,e,rfl⟩⟩ ha
      · refine ⟨none,a,.refl,⟨ha.db,ha.cursors,ha.request⟩,?_⟩
        rintro s upserted t a ⟨hrow,db,hdb,⟨rfl,hreads⟩ | ⟨rfl,e,rfl⟩⟩ ha
        · obtain ⟨b,hsteps,hb⟩ := ha.upsert hrow hsome (Nat.le_of_not_lt hsmall) hdb
          rcases hreads with rfl | ⟨e,rfl⟩
          · refine ⟨_,b,hsteps,hb,?_⟩
            rintro s released t a ⟨-,rfl⟩ ha
            refine ⟨_,a,.refl,⟨ha.db,ha.cursors,ha.request⟩,?_⟩
            rintro s advanced t a ⟨-,now,⟨rfl,hreads⟩ | ⟨rfl,e,rfl⟩⟩ ha
            · obtain ⟨b,hsteps,hb⟩ := ha.advance now
              rcases hreads with rfl | ⟨e,rfl⟩
              · exact ⟨_,b,hsteps,hb,follows_pruned⟩
              · obtain ⟨c,hfail,hc⟩ := hb.fail
                exact ⟨none,c,hsteps.trans hfail,hc,settled_error e⟩
            · obtain ⟨c,hfail,hc⟩ := ha.fail
              exact ⟨none,c,hfail,hc,settled_error e⟩
          · obtain ⟨c,hfail,hc⟩ := hb.fail
            refine ⟨none,c,hsteps.trans hfail,hc,?_⟩
            rintro s released t a ⟨-,rfl⟩ ha
            exact ⟨none,a,.refl,⟨ha.db,ha.cursors,ha.request⟩,settled_error e⟩
        · refine ⟨none,a,.refl,ha,?_⟩
          rintro s released t a ⟨-,rfl⟩ ha
          exact ⟨none,a,.refl,⟨ha.db,ha.cursors,ha.request⟩,settled_error e⟩
      · exact ⟨none,a,.refl,ha,settled_error _⟩

end

/-- The cursors and the event store of the server while a connection is opened,
and the cursor that is to be reset after a purge. -/
structure Handshaking (s : SyncServer.Server) (l : Option (String×String))
    (a : SyncCursor.SyncState) : Prop where
  /-- The event store is that of the server. -/
  db : a.db=s.events
  /-- The cursors are those of the tables. -/
  cursors : a.cursors=cursors s.db
  /-- The reset is waited for. -/
  resetting : ∀ cursor, l=some cursor → cursor∈a.resetting

section

variable (F : Formats) (eventCodec : Codec PersistedEvent) (windowCodec : Codec WireWindow)
variable (dedupRetentionSecs : Int64) (i : ℕ) (provider : String)

/-- A step of a handshake. -/
def HandshakeTakes (a b : SyncCursor.SyncState) : Prop :=
  ∃ deviceId done, ∃ op∈[SyncCursor.SyncOp.ensure deviceId provider,
      .purge deviceId provider done,.reset deviceId provider done],
    SyncCursor.SyncStep eventCodec dedupRetentionSecs a op b

/-- What the calls of a handshake do is done by its steps. -/
abbrev FollowsHandshake {β : Type} (post : Option (String×String) → β → Prop) :
    Option (String×String) → Program Answer β → Prop :=
  Follows (Calls F eventCodec windowCodec i) Handshaking
    (HandshakeTakes eventCodec dedupRetentionSecs provider) post

variable {F eventCodec windowCodec dedupRetentionSecs i provider}
variable {s t : SyncServer.Server} {a : SyncCursor.SyncState} {deviceId : String}

/-- Only a cursor row has the time of a cursor. -/
theorem cursors_updateDeviceSeen {db : Tables} (id name : String) (now : Int64) :
    cursors (updateDeviceSeen db id name now)=cursors db :=
  funext fun _ => funext fun _ => column_updateWhere_other fun row => by cases row <;> rfl

theorem cursors_createDevice {db db' : Tables} {id userId name deviceKey : String} {now : Int64}
    (h : createDevice db id userId name deviceKey now=.ok db') : cursors db'=cursors db :=
  funext fun _ => funext fun _ => (column_insert h).trans (if_neg Key.noConfusion)

/-- A call that leaves the event store and the cursors. -/
theorem Handshaking.same (h : Handshaking s none a) (hevents : t.events=s.events)
    (hcursors : TableViews.cursors t.db=TableViews.cursors s.db) : Handshaking t none a where
  db := h.db.trans hevents.symm
  cursors := h.cursors.trans hcursors.symm
  resetting _ hnone := nomatch hnone

/-- The cursor of the device is made sure of. -/
theorem Handshaking.ensure {db : Tables} {now : Int64} (h : Handshaking s none a)
    (hensure : DatabaseRepo.ensureCursor s.db deviceId provider now=.ok db) :
    ∃ b, ReflTransGen (HandshakeTakes eventCodec dedupRetentionSecs provider) a b ∧
      Handshaking {s with db := db} none b := by
  refine ⟨{a with cursors := SyncCursor.ensureCursor a.cursors deviceId provider},
    .single ⟨deviceId,true,.ensure deviceId provider,by simp,rfl⟩,h.db,?_,fun _ h => nomatch h⟩
  rw [h.cursors,cursors_ensureCursor hensure]

/-- The events of the device are purged, or their purge has failed. -/
theorem Handshaking.purge (h : Handshaking s none a) {reply : Except String Unit}
    (hcall : Calls F eventCodec windowCodec i (.deleteDeviceEvents deviceId) s reply t) :
    ∃ b, ReflTransGen (HandshakeTakes eventCodec dedupRetentionSecs provider) a b ∧
      Handshaking t (some (deviceId,provider)) b := by
  rcases hcall with ⟨rfl,-⟩ | ⟨rfl,-⟩
  · refine ⟨_,.single ⟨deviceId,true,.purge deviceId provider true,by simp,rfl⟩,?_,h.cursors,?_⟩
    · rw [if_pos rfl,h.db]
    · rintro _ ⟨⟩
      exact List.mem_cons_self
  · refine ⟨_,.single ⟨deviceId,false,.purge deviceId provider false,by simp,rfl⟩,h.db,h.cursors,
      ?_⟩
    rintro _ ⟨⟩
    exact List.mem_cons_self

/-- The cursor is reset, or its reset has failed. -/
theorem Handshaking.reset (h : Handshaking s (some (deviceId,provider)) a)
    {reply : Except String Unit}
    (hcall : Calls F eventCodec windowCodec i (.resetCursor deviceId provider) s reply t) :
    ∃ b, ReflTransGen (HandshakeTakes eventCodec dedupRetentionSecs provider) a b ∧
      Handshaking t none b := by
  have hwaits := h.resetting _ rfl
  obtain ⟨now,⟨rfl,-⟩ | ⟨rfl,-⟩⟩ := hcall
  · refine ⟨_,.single ⟨deviceId,true,.reset deviceId provider true,by simp,hwaits,rfl⟩,h.db,?_,
      fun _ h => nomatch h⟩
    rw [if_pos rfl,h.cursors,cursors_resetCursor]
  · exact ⟨_,.single ⟨deviceId,false,.reset deviceId provider false,by simp,hwaits,rfl⟩,h.db,
      h.cursors,fun _ h => nomatch h⟩

/-- The end of a handshake. -/
theorem follows_answer {reply : Reply} {next : Option Session} :
    FollowsHandshake F eventCodec windowCodec dedupRetentionSecs i provider
      (fun l _ => l=none) none (send reply next) := by
  rintro s written t a rfl ha
  refine ⟨none,a,.refl,ha,?_⟩
  cases written <;> rfl

/-- A device that is found or created has nothing to do with cursors. -/
theorem follows_findOrCreateDevice {userId deviceName deviceKey : String} :
    FollowsHandshake F eventCodec windowCodec dedupRetentionSecs i provider
      (fun l _ => l=none) none (findOrCreateDevice userId deviceName deviceKey) := by
  rintro s found t a ⟨rfl,-⟩ ha
  refine ⟨none,a,.refl,ha,?_⟩
  cases found with
  | error e => rfl
  | ok found =>
    cases found with
    | some id =>
      rintro s updated t a ⟨now,⟨rfl,-⟩ | ⟨rfl,-⟩⟩ ha
      · refine ⟨none,a,.refl,ha.same rfl (cursors_updateDeviceSeen _ _ _),?_⟩
        cases updated <;> rfl
      · refine ⟨none,a,.refl,ha,?_⟩
        cases updated <;> rfl
    | none =>
      rintro s created t a ⟨now,hexecutes⟩ ha
      cases hcreate : createDevice s.db deviceKey userId deviceName deviceKey now with
      | error e =>
        rw [hcreate] at hexecutes
        obtain ⟨rfl,-⟩ := hexecutes
        refine ⟨none,a,.refl,ha,?_⟩
        cases created <;> rfl
      | ok db =>
        rw [hcreate] at hexecutes
        rcases hexecutes with ⟨rfl,-⟩ | ⟨rfl,-⟩
        · refine ⟨none,a,.refl,ha.same rfl (cursors_createDevice hcreate),?_⟩
          cases created <;> rfl
        · refine ⟨none,a,.refl,ha,?_⟩
          cases created <;> rfl

/-- The end of the handshake of an active user makes sure of a cursor, or purges
the device and resets the cursor. -/
theorem follows_openSession (auth : AuthPayload) (userId : String) :
    FollowsHandshake F eventCodec windowCodec dedupRetentionSecs i auth.provider
      (fun l _ => l=none) none (openSession F auth userId) := by
  unfold openSession
  split
  · exact follows_answer
  · refine follows_findOrCreateDevice.bind ?_
    rintro l result rfl
    cases result with
    | error e => rfl
    | ok deviceId =>
      dsimp only
      split
      · rintro s purged t a hpurge ha
        obtain ⟨b,hsteps,hb⟩ := ha.purge hpurge
        refine ⟨_,b,hsteps,hb,?_⟩
        rintro s reset t a hreset ha
        obtain ⟨b,hsteps,hb⟩ := ha.reset hreset
        exact ⟨none,b,hsteps,hb,follows_answer⟩
      · rintro s ensured t a ⟨now,hexecutes⟩ ha
        cases hensure : DatabaseRepo.ensureCursor s.db deviceId auth.provider now with
        | error e =>
          rw [hensure] at hexecutes
          obtain ⟨rfl,reason,rfl⟩ := hexecutes
          exact ⟨none,a,.refl,ha,rfl⟩
        | ok db =>
          rw [hensure] at hexecutes
          rcases hexecutes with ⟨rfl,hreads⟩ | ⟨rfl,reason,rfl⟩
          · obtain ⟨b,hsteps,hb⟩ := ha.ensure hensure
            refine ⟨none,b,hsteps,hb,?_⟩
            rcases hreads with rfl | ⟨reason,rfl⟩
            · exact follows_answer
            · rfl
          · exact ⟨none,a,.refl,ha,rfl⟩

end

section

variable {F : Formats} {eventCodec : Codec PersistedEvent} {windowCodec : Codec WireWindow}
variable {windowsSchemaVersion : ℕ} {debug : String → String} {dedupRetentionSecs : Int64}
variable {backend : OidcAccounts.Backend} {host host' : SyncHost} {i : ℕ} {op : Call}
variable {reply : Answer op} {prog : Program Answer (Option Session)}

/-- While a connection of the server handles a batch, each of its calls is done
by steps of its request. -/
theorem request_of_call {post : RequestPhase×ℕ → Option Session → Prop} {l : RequestPhase×ℕ}
    (h : FollowsRequest F eventCodec windowCodec windowsSchemaVersion debug dedupRetentionSecs i
      post l prog)
    (hphase : host.phases i=.handling prog)
    (taken : ServerStep F eventCodec windowCodec backend dedupRetentionSecs host
      (.session i (.call op reply)) host') :
    ∃ prog' l', host'.phases i=.handling prog' ∧
      ReflTransGen (RequestTakes eventCodec windowCodec windowsSchemaVersion debug
        dedupRetentionSecs) (seen host.shared l) (seen host'.shared l') ∧
      FollowsRequest F eventCodec windowCodec windowsSchemaVersion debug dedupRetentionSecs i
        post l' prog' := by
  obtain ⟨prog',l',_,hphase',hsteps,rfl,hrest⟩ := h.next hphase rfl id taken
  exact ⟨prog',l',hphase',hsteps,hrest⟩

/-- While its cursor is there, each call of a batch is done by steps of its
upload. -/
theorem upload_of_call {upload : Upload} {a : SyncCursor.SyncState}
    {post : Option (Upload×SyncCursor.Phase) → Option Session → Prop}
    {l : Option (Upload×SyncCursor.Phase)}
    (h : FollowsUpload F eventCodec windowCodec dedupRetentionSecs i upload post l prog)
    (hphase : host.phases i=.handling prog) (ha : Uploading i host.shared l a)
    (hrow : (cursors host.shared.db upload.deviceId upload.batch.provider).isSome)
    (taken : ServerStep F eventCodec windowCodec backend dedupRetentionSecs host
      (.session i (.call op reply)) host') :
    ∃ prog' l' a', host'.phases i=.handling prog' ∧
      ReflTransGen (UploadTakes eventCodec dedupRetentionSecs i upload) a a' ∧
      Uploading i host'.shared l' a' ∧
      FollowsUpload F eventCodec windowCodec dedupRetentionSecs i upload post l' prog' :=
  h.next hphase ha (fun hcall => ⟨hrow,hcall⟩) taken

end

end TokiSync.HandlerViews
