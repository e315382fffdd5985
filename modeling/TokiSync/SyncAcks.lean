import TokiSync.DedupRetention

/-!
# What acknowledgements report

A batch is acknowledged with its own newest time, an empty batch with the
cursor that it read. Every request that will be acknowledged is watched from
the update of its cursor on, or from its read: the values that the cursor has
had since and the times that were acknowledged for it meanwhile.
-/

namespace TokiSync.SyncAcks

open MachineWords ByteCodec ServerEvents FjallStore SyncBatches SyncCursor DedupRetention Runs

/-- A request between the update or the read of its cursor and its
acknowledgement. -/
structure Pending where
  /-- Device of the cursor. -/
  deviceId : String
  /-- Provider of the cursor. -/
  provider : String
  /-- Newest time of the batch, or the value read. -/
  value : Int64
  /-- Value of the cursor before the update, or the value read. -/
  found : Int64
  /-- Values of the cursor since, newest first. -/
  seen : List Int64
  /-- Times acknowledged for the cursor since, newest first. -/
  acked : List Int64

/-- An acknowledgement. -/
structure Report where
  /-- Device of the cursor. -/
  deviceId : String
  /-- Provider of the cursor. -/
  provider : String
  /-- The time reported. -/
  lastTsMs : Int64
  /-- Values of the cursor from the update or the read to the
  acknowledgement. -/
  seen : List Int64

/-- The server, the requests to be acknowledged and the acknowledgements. -/
structure AckState where
  /-- The server. -/
  server : SyncState
  /-- The request of each connection that will be acknowledged. -/
  pending : ℕ → Option Pending
  /-- Acknowledgements, newest first. -/
  reports : List Report

/-- A server that was just installed. -/
def AckState.initial : AckState := ⟨SyncCursor.initial,fun _ => none,[]⟩

/-- Steps of the server, and the two steps of an empty batch. -/
inductive AckOp where
  /-- A step of the server. -/
  | server (op : SyncOp)
  /-- An empty batch reads the cursor. -/
  | readEmpty (connection : ℕ) (deviceId provider : String)
  /-- An empty batch is acknowledged. -/
  | ackEmpty (connection : ℕ)

/-- No step of a handshake that resets a cursor. -/
def AckOp.KeepsCursors : AckOp → Prop
  | .server (.reset _ _ _) => False
  | _ => True

/-- See the value that the cursor of a request has now. -/
def Pending.watch (cursors : Cursors) (p : Pending) : Pending :=
  {p with seen := getLastTs cursors p.deviceId p.provider::p.seen}

/-- Note an acknowledgement for the cursor of a request. -/
def Pending.note (r : Report) (p : Pending) : Pending :=
  if p.deviceId=r.deviceId ∧ p.provider=r.provider then {p with acked := r.lastTsMs::p.acked} else p

/-- A request whose cursor is being updated. -/
def opened (s : SyncState) (upload : Upload) : Pending where
  deviceId := upload.deviceId
  provider := upload.batch.provider
  value := upload.maxTs
  found := getLastTs s.cursors upload.deviceId upload.batch.provider
  seen := []
  acked := []

/-- A request that has read a cursor. -/
def readCursor (s : SyncState) (deviceId provider : String) : Pending where
  deviceId := deviceId
  provider := provider
  value := getLastTs s.cursors deviceId provider
  found := getLastTs s.cursors deviceId provider
  seen := [getLastTs s.cursors deviceId provider]
  acked := []

/-- Acknowledge the request of a connection with a time. -/
def AckState.acknowledge (s : AckState) (server : SyncState) (connection : ℕ) (p : Pending)
    (lastTsMs : Int64) : AckState :=
  let r : Report := ⟨p.deviceId,p.provider,lastTsMs,p.seen⟩
  { server := server
    pending := Function.update (fun c => (s.pending c).map (Pending.note r)) connection none
    reports := r::s.reports }

section

variable (bincode : Codec PersistedEvent) (dedupRetentionSecs : Int64)

/-- One step of the server or of an empty batch, and what is watched. A
connection works on one batch at a time. -/
def AckStep (s : AckState) (op : AckOp) (s' : AckState) : Prop :=
  match op with
  | .server (.upsert connection upload) =>
    s.pending connection=none ∧
    ∃ server, SyncStep bincode dedupRetentionSecs s.server (.upsert connection upload) server ∧
      s'={s with server := server}
  | .server (.advance connection) =>
    ∃ server upload, SyncStep bincode dedupRetentionSecs s.server (.advance connection) server ∧
      s.server.requests connection=some (upload,.upserted) ∧
      s'={s with
        server := server
        pending := fun c => (Function.update s.pending connection
          (some (opened s.server upload)) c).map (Pending.watch server.cursors)}
  | .server (.ack connection) =>
    ∃ server upload p, SyncStep bincode dedupRetentionSecs s.server (.ack connection) server ∧
      s.server.requests connection=some (upload,.advanced) ∧ s.pending connection=some p ∧
      s'=s.acknowledge server connection p upload.maxTs
  | .server (.fail connection) =>
    ∃ server, SyncStep bincode dedupRetentionSecs s.server (.fail connection) server ∧
      s'={s with server := server, pending := Function.update s.pending connection none}
  | .server op =>
    ∃ server, SyncStep bincode dedupRetentionSecs s.server op server ∧
      s'={s with
        server := server
        pending := fun c => (s.pending c).map (Pending.watch server.cursors)}
  | .readEmpty connection deviceId provider =>
    s.server.requests connection=none ∧ s.pending connection=none ∧
      s'={s with
        pending := Function.update s.pending connection
          (some (readCursor s.server deviceId provider))}
  | .ackEmpty connection =>
    s.server.requests connection=none ∧ ∃ p, s.pending connection=some p ∧
      s'=s.acknowledge s.server connection p p.value

end

/-- Every acknowledgement reports a value that the cursor had between the
update or the read and the acknowledgement, and no acknowledgement reports
less than an earlier one for the cursor. -/
def ReportsCursor (s : AckState) : Prop :=
  (∀ r∈s.reports, r.lastTsMs∈r.seen) ∧
  s.reports.Pairwise fun newer older =>
    older.deviceId=newer.deviceId → older.provider=newer.provider → older.lastTsMs≤newer.lastTsMs

/-- A request that is acknowledged found a cursor at most at its own time, and
nothing newer was acknowledged for the cursor since. -/
def OnTime (s : AckState) : AckOp → Prop
  | .server (.ack connection) =>
    ∀ p∈s.pending connection, p.found≤p.value ∧ ∀ ts∈p.acked, ts≤p.value
  | .ackEmpty connection =>
    ∀ p∈s.pending connection, p.found≤p.value ∧ ∀ ts∈p.acked, ts≤p.value
  | _ => True

/-- What is known about a request that will be acknowledged. -/
structure Watched (s : AckState) (p : Pending) : Prop where
  /-- The cursor after the update was seen. -/
  updated : max p.found p.value∈p.seen
  /-- The cursor has not fallen below it since. -/
  above : ∀ ts∈p.seen, max p.found p.value≤ts
  /-- It is not below it now. -/
  now : max p.found p.value≤getLastTs s.server.cursors p.deviceId p.provider
  /-- Acknowledgements for the cursor came since or reported at most the value
  that the update found. -/
  split : ∀ r∈s.reports, r.deviceId=p.deviceId → r.provider=p.provider →
    r.lastTsMs∈p.acked ∨ r.lastTsMs≤p.found
  /-- What was noted was acknowledged. -/
  noted : ∀ ts∈p.acked, ∃ r∈s.reports, r.deviceId=p.deviceId ∧ r.provider=p.provider ∧
    r.lastTsMs=ts

/-- What holds in every state that is reached without resets. -/
structure Observed (s : AckState) : Prop where
  /-- Uploads in flight have a cursor row. -/
  rows : ∀ connection upload phase, s.server.requests connection=some (upload,phase) →
    (s.server.cursors upload.deviceId upload.batch.provider).isSome
  /-- An upload whose cursor is updated is watched. -/
  linked : ∀ connection upload, s.server.requests connection=some (upload,.advanced) →
    ∃ p, s.pending connection=some p ∧ p.value=upload.maxTs
  /-- What is known about the requests that will be acknowledged. -/
  watched : ∀ connection p, s.pending connection=some p → Watched s p
  /-- No acknowledgement reports more than the cursor. -/
  reported : ∀ r∈s.reports, r.lastTsMs≤getLastTs s.server.cursors r.deviceId r.provider

section

variable {bincode : Codec PersistedEvent} {dedupRetentionSecs : Int64}

section

variable {s s' : SyncState} {op : SyncOp}

/-- No step but a reset lowers a cursor. -/
theorem getLastTs_le_step (hrows : ∀ connection upload phase,
      s.requests connection=some (upload,phase) →
        (s.cursors upload.deviceId upload.batch.provider).isSome)
    (hstep : SyncStep bincode dedupRetentionSecs s op s') (hop : (AckOp.server op).KeepsCursors)
    (d p : String) : getLastTs s.cursors d p≤getLastTs s'.cursors d p := by
  cases op with
  | ensure deviceId provider =>
    cases hstep
    exact (getLastTs_ensureCursor d p).ge
  | getLastTs deviceId provider =>
    cases hstep
    exact le_rfl
  | upsert connection upload =>
    obtain ⟨-,-,-,-,db',-,rfl⟩ := hstep
    exact le_rfl
  | advance connection =>
    obtain ⟨upload,hreq,rfl⟩ := hstep
    by_cases hpair : (d,p)=(upload.deviceId,upload.batch.provider)
    · rw [Prod.mk.injEq] at hpair
      rw [hpair.1,hpair.2]
      refine le_of_le_of_eq (le_max_left _ upload.maxTs) ?_
      exact (getLastTs_advanceCursor_self _ (hrows connection upload _ hreq)).symm
    · rw [SyncCursor.getLastTs,SyncCursor.getLastTs]
      dsimp only
      rw [advanceCursor,update_cursor_of_ne hpair]
  | prune connection =>
    obtain ⟨upload,-,rfl⟩ := hstep
    split_ifs
    · exact le_rfl
    · exact le_rfl
  | ack connection =>
    obtain ⟨upload,-,rfl⟩ := hstep
    exact le_rfl
  | fail connection =>
    cases hstep
    exact le_rfl
  | purge deviceId provider deleted =>
    cases hstep
    cases deleted with
    | false => exact le_rfl
    | true => exact le_rfl
  | reset deviceId provider done => exact hop.elim

end

section

variable {s s' : AckState} {p : Pending} {r : Report} {op : AckOp}

/-- What is known about a request when neither the cursors nor the
acknowledgements change. -/
theorem Watched.congr (h : Watched s p) (hreports : s'.reports=s.reports)
    (hcursors : s'.server.cursors=s.server.cursors) : Watched s' p where
  updated := h.updated
  above := h.above
  now := by
    rw [hcursors]
    exact h.now
  split := by
    rw [hreports]
    exact h.split
  noted := by
    rw [hreports]
    exact h.noted

/-- Watching a cursor that does not fall. -/
theorem Watched.watch (h : Watched s p) (hreports : s'.reports=s.reports)
    (hle : getLastTs s.server.cursors p.deviceId p.provider≤
      getLastTs s'.server.cursors p.deviceId p.provider) :
    Watched s' (p.watch s'.server.cursors) where
  updated := List.mem_cons_of_mem _ h.updated
  above := by
    intro ts hts
    rcases List.mem_cons.mp hts with rfl | hts
    · exact h.now.trans hle
    · exact h.above ts hts
  now := h.now.trans hle
  split := by
    rw [hreports]
    exact h.split
  noted := by
    rw [hreports]
    exact h.noted

/-- Noting an acknowledgement. -/
theorem Watched.note (h : Watched s p) (hreports : s'.reports=r::s.reports)
    (hcursors : s'.server.cursors=s.server.cursors) : Watched s' (p.note r) := by
  rw [Pending.note]
  split_ifs with hsame
  · refine ⟨h.updated,h.above,?_,?_,?_⟩
    · rw [hcursors]
      exact h.now
    · intro r' hr' hdevice hprovider
      rw [hreports] at hr'
      rcases List.mem_cons.mp hr' with rfl | hr'
      · exact Or.inl List.mem_cons_self
      · exact (h.split r' hr' hdevice hprovider).imp_left (List.mem_cons_of_mem _)
    · intro ts hts
      rw [hreports]
      rcases List.mem_cons.mp hts with rfl | hts
      · exact ⟨r,List.mem_cons_self,hsame.1.symm,hsame.2.symm,rfl⟩
      · obtain ⟨r',hr',hrest⟩ := h.noted ts hts
        exact ⟨r',List.mem_cons_of_mem _ hr',hrest⟩
  · refine ⟨h.updated,h.above,?_,?_,?_⟩
    · rw [hcursors]
      exact h.now
    · intro r' hr' hdevice hprovider
      rw [hreports] at hr'
      rcases List.mem_cons.mp hr' with rfl | hr'
      · exact absurd ⟨hdevice.symm,hprovider.symm⟩ hsame
      · exact h.split r' hr' hdevice hprovider
    · intro ts hts
      rw [hreports]
      obtain ⟨r',hr',hrest⟩ := h.noted ts hts
      exact ⟨r',List.mem_cons_of_mem _ hr',hrest⟩

/-- A cursor that was just updated. -/
theorem watched_opened (h : Observed s) (hreports : s'.reports=s.reports) {upload : Upload}
    (hupdated : getLastTs s'.server.cursors upload.deviceId upload.batch.provider=
      max (getLastTs s.server.cursors upload.deviceId upload.batch.provider) upload.maxTs) :
    Watched s' ((opened s.server upload).watch s'.server.cursors) where
  updated := by
    rw [Pending.watch]
    exact List.mem_cons.mpr (Or.inl hupdated.symm)
  above := by
    intro ts hts
    rw [List.mem_singleton.mp hts]
    exact hupdated.ge
  now := hupdated.ge
  split := by
    intro r hr hdevice hprovider
    rw [hreports] at hr
    refine Or.inr (le_of_le_of_eq (h.reported r hr) ?_)
    rw [hdevice,hprovider]
    rfl
  noted := fun ts hts => absurd hts List.not_mem_nil

/-- A cursor that was just read. -/
theorem watched_readCursor (h : Observed s) (hserver : s'.server=s.server)
    (hreports : s'.reports=s.reports) (deviceId provider : String) :
    Watched s' (readCursor s.server deviceId provider) where
  updated := List.mem_singleton.mpr (max_self _)
  above := by
    intro ts hts
    rw [List.mem_singleton.mp hts]
    exact (max_self _).le
  now := by
    rw [hserver]
    exact (max_self _).le
  split := by
    intro r hr hdevice hprovider
    rw [hreports] at hr
    refine Or.inr (le_of_le_of_eq (h.reported r hr) ?_)
    rw [hdevice,hprovider]
    rfl
  noted := fun ts hts => absurd hts List.not_mem_nil

/-- Noting an acknowledgement leaves the time to report. -/
theorem note_value (r : Report) (p : Pending) : (p.note r).value=p.value := by
  rw [Pending.note]
  split_ifs
  · rfl
  · rfl

/-- The time that an acknowledgement reports is at most the cursor. -/
theorem Watched.value_le (h : Watched s p) :
    p.value≤getLastTs s.server.cursors p.deviceId p.provider :=
  (le_max_right _ _).trans h.now

/-- An acknowledgement of a watched request with its time. -/
theorem Observed.acknowledge (h : Observed s) {server : SyncState} {connection : ℕ}
    (hp : s.pending connection=some p) (hcursors : server.cursors=s.server.cursors)
    (hrequests : ∀ c upload phase, server.requests c=some (upload,phase) →
      c≠connection ∧ s.server.requests c=some (upload,phase)) :
    Observed (s.acknowledge server connection p p.value) where
  rows := by
    intro c upload phase hreq
    rw [AckState.acknowledge]
    dsimp only
    rw [hcursors]
    exact h.rows c upload phase (hrequests c upload phase hreq).2
  linked := by
    intro c upload hreq
    obtain ⟨hne,hreq⟩ := hrequests c upload _ hreq
    obtain ⟨q,hq,hvalue⟩ := h.linked c upload hreq
    refine ⟨q.note ⟨p.deviceId,p.provider,p.value,p.seen⟩,?_,(note_value _ _).trans hvalue⟩
    rw [AckState.acknowledge]
    dsimp only
    rw [Function.update_of_ne hne,hq,Option.map_some]
  watched := by
    intro c q hq
    rw [AckState.acknowledge] at hq
    dsimp only at hq
    obtain ⟨-,hnew⟩ | ⟨-,hq⟩ := update_eq_some_iff.mp hq
    · cases hnew
    · obtain ⟨before,hbefore,rfl⟩ := Option.map_eq_some_iff.mp hq
      exact (h.watched c before hbefore).note rfl hcursors
  reported := by
    intro r hr
    rw [AckState.acknowledge]
    dsimp only
    rw [hcursors]
    rcases List.mem_cons.mp hr with rfl | hr
    · exact (h.watched connection p hp).value_le
    · exact h.reported r hr

/-- A step of the server that works on no request of its own. -/
theorem Observed.watching (h : Observed s) {op : SyncOp} {server : SyncState}
    (hstep : SyncStep bincode dedupRetentionSecs s.server op server)
    (hkeeps : (AckOp.server op).KeepsCursors) (hrequests : server.requests=s.server.requests) :
    Observed {s with
      server := server
      pending := fun c => (s.pending c).map (Pending.watch server.cursors)} where
  rows := rows_step h.rows hstep
  linked := by
    intro c upload hreq
    dsimp only at hreq
    rw [hrequests] at hreq
    obtain ⟨p,hp,hvalue⟩ := h.linked c upload hreq
    refine ⟨p.watch server.cursors,?_,hvalue⟩
    dsimp only
    rw [hp,Option.map_some]
  watched := by
    intro c q hq
    obtain ⟨p,hp,rfl⟩ := Option.map_eq_some_iff.mp hq
    exact (h.watched c p hp).watch rfl (getLastTs_le_step h.rows hstep hkeeps _ _)
  reported := fun r hr =>
    (h.reported r hr).trans (getLastTs_le_step h.rows hstep hkeeps _ _)

/-- An upload is stored; its cursor is not updated yet. -/
theorem Observed.upsert (h : Observed s) {connection : ℕ} {upload : Upload}
    (hstep : AckStep bincode dedupRetentionSecs s (.server (.upsert connection upload)) s') :
    Observed s' := by
  obtain ⟨-,server,hserver,rfl⟩ := hstep
  have hrows := rows_step h.rows hserver
  obtain ⟨-,-,-,-,db',-,rfl⟩ := hserver
  refine ⟨hrows,fun c u hreq => ?_,fun c p hp => (h.watched c p hp).congr rfl rfl,h.reported⟩
  obtain ⟨-,hnew⟩ | ⟨-,hreq⟩ := update_eq_some_iff.mp hreq
  · cases hnew
  · exact h.linked c u hreq

/-- The cursor of an upload is updated. -/
theorem Observed.advance (h : Observed s) {connection : ℕ}
    (hstep : AckStep bincode dedupRetentionSecs s (.server (.advance connection)) s') :
    Observed s' := by
  obtain ⟨server,upload,hserver,hreq,rfl⟩ := hstep
  have hrows := rows_step h.rows hserver
  have hle := getLastTs_le_step h.rows hserver trivial
  obtain ⟨u,hu,rfl⟩ := hserver
  have hsame : upload=u := by
    rw [hreq,Option.some.injEq,Prod.mk.injEq] at hu
    exact hu.1
  subst hsame
  have hupdated := getLastTs_advanceCursor_self upload.maxTs (h.rows _ _ _ hreq)
  refine ⟨hrows,fun c u hreq' => ?_,fun c q hq => ?_,fun r hr =>
    (h.reported r hr).trans (hle _ _)⟩
  · dsimp only
    obtain ⟨rfl,hnew⟩ | ⟨hc,hreq'⟩ := update_eq_some_iff.mp hreq'
    · cases hnew
      rw [Function.update_self]
      exact ⟨_,rfl,rfl⟩
    · obtain ⟨p,hp,hvalue⟩ := h.linked c u hreq'
      rw [Function.update_of_ne hc,hp]
      exact ⟨_,rfl,hvalue⟩
  · obtain ⟨p,hp,rfl⟩ := Option.map_eq_some_iff.mp hq
    obtain ⟨rfl,hnew⟩ | ⟨-,hp⟩ := update_eq_some_iff.mp hp
    · cases hnew
      refine watched_opened h ?_ ?_
      · rfl
      · exact hupdated
    · exact (h.watched c p hp).watch rfl (hle _ _)

/-- An upload is acknowledged. -/
theorem Observed.ack (h : Observed s) {connection : ℕ}
    (hstep : AckStep bincode dedupRetentionSecs s (.server (.ack connection)) s') :
    Observed s' := by
  obtain ⟨server,upload,p,hserver,hreq,hp,rfl⟩ := hstep
  obtain ⟨q,hq,hvalue⟩ := h.linked connection upload hreq
  rw [hp] at hq
  cases hq
  rw [←hvalue]
  obtain ⟨u,-,rfl⟩ := hserver
  refine h.acknowledge hp rfl fun c u phase hreq' => ?_
  obtain ⟨-,hnew⟩ | hkept := update_eq_some_iff.mp hreq'
  · cases hnew
  · exact hkept

/-- An upload is given up. -/
theorem Observed.fail (h : Observed s) {connection : ℕ}
    (hstep : AckStep bincode dedupRetentionSecs s (.server (.fail connection)) s') :
    Observed s' := by
  obtain ⟨server,hserver,rfl⟩ := hstep
  have hrows := rows_step h.rows hserver
  cases hserver
  refine ⟨hrows,fun c u hreq => ?_,fun c p hp => ?_,h.reported⟩
  · obtain ⟨-,hnew⟩ | ⟨hc,hreq⟩ := update_eq_some_iff.mp hreq
    · cases hnew
    · dsimp only
      rw [Function.update_of_ne hc]
      exact h.linked c u hreq
  · obtain ⟨-,hnew⟩ | ⟨-,hp⟩ := update_eq_some_iff.mp hp
    · cases hnew
    · exact (h.watched c p hp).congr rfl rfl

/-- An empty batch reads the cursor. -/
theorem Observed.readEmpty (h : Observed s) {connection : ℕ} {deviceId provider : String}
    (hstep : AckStep bincode dedupRetentionSecs s (.readEmpty connection deviceId provider) s') :
    Observed s' := by
  obtain ⟨hfree,-,rfl⟩ := hstep
  refine ⟨h.rows,fun c u hreq => ?_,fun c p hp => ?_,h.reported⟩
  · have hc : c≠connection := by
      rintro rfl
      rw [hfree] at hreq
      cases hreq
    dsimp only
    rw [Function.update_of_ne hc]
    exact h.linked c u hreq
  · obtain ⟨-,hnew⟩ | ⟨-,hp⟩ := update_eq_some_iff.mp hp
    · cases hnew
      refine watched_readCursor h ?_ ?_ deviceId provider
      · rfl
      · rfl
    · exact (h.watched c p hp).congr rfl rfl

/-- An empty batch is acknowledged. -/
theorem Observed.ackEmpty (h : Observed s) {connection : ℕ}
    (hstep : AckStep bincode dedupRetentionSecs s (.ackEmpty connection) s') : Observed s' := by
  obtain ⟨hfree,p,hp,rfl⟩ := hstep
  refine h.acknowledge hp rfl fun c u phase hreq => ⟨?_,hreq⟩
  rintro rfl
  rw [hfree] at hreq
  cases hreq

/-- Every step but a reset keeps what is observed. -/
theorem Observed.step (h : Observed s) (hkeeps : op.KeepsCursors)
    (hstep : AckStep bincode dedupRetentionSecs s op s') : Observed s' := by
  cases op with
  | server op =>
    cases op with
    | upsert connection upload => exact h.upsert hstep
    | advance connection => exact h.advance hstep
    | ack connection => exact h.ack hstep
    | fail connection => exact h.fail hstep
    | ensure deviceId provider =>
      obtain ⟨server,hserver,rfl⟩ := hstep
      refine h.watching hserver hkeeps ?_
      cases hserver
      rfl
    | getLastTs deviceId provider =>
      obtain ⟨server,hserver,rfl⟩ := hstep
      refine h.watching hserver hkeeps ?_
      cases hserver
      rfl
    | prune connection =>
      obtain ⟨server,hserver,rfl⟩ := hstep
      refine h.watching hserver hkeeps ?_
      obtain ⟨upload,-,rfl⟩ := hserver
      split_ifs
      · rfl
      · rfl
    | purge deviceId provider deleted =>
      obtain ⟨server,hserver,rfl⟩ := hstep
      refine h.watching hserver hkeeps ?_
      cases hserver
      cases deleted with
      | false => rfl
      | true => rfl
    | reset deviceId provider done => exact hkeeps.elim
  | readEmpty connection deviceId provider => exact h.readEmpty hstep
  | ackEmpty connection => exact h.ackEmpty hstep

/-- An acknowledgement reports the cursor when the request is on time. -/
theorem reportsCursor_acknowledge (h : Observed s) {server : SyncState} {connection : ℕ}
    (hp : s.pending connection=some p) :
    ReportsCursor (s.acknowledge server connection p p.value) ↔
      ReportsCursor s ∧ p.found≤p.value ∧ ∀ ts∈p.acked, ts≤p.value := by
  have hw := h.watched connection p hp
  have hseen : p.value∈p.seen ↔ p.found≤p.value := by
    constructor
    · intro hmem
      exact (le_max_left _ _).trans (hw.above p.value hmem)
    · intro hle
      have hmem := hw.updated
      rwa [max_eq_right hle] at hmem
  have hearlier : p.found≤p.value → ((∀ r∈s.reports, r.deviceId=p.deviceId →
      r.provider=p.provider → r.lastTsMs≤p.value) ↔ ∀ ts∈p.acked, ts≤p.value) := by
    intro hle
    constructor
    · intro hall ts hts
      obtain ⟨r,hr,hdevice,hprovider,rfl⟩ := hw.noted ts hts
      exact hall r hr hdevice hprovider
    · intro hall r hr hdevice hprovider
      rcases hw.split r hr hdevice hprovider with hmem | hbefore
      · exact hall _ hmem
      · exact hbefore.trans hle
  unfold ReportsCursor AckState.acknowledge
  dsimp only
  rw [List.forall_mem_cons,List.pairwise_cons,hseen]
  constructor
  · rintro ⟨⟨hle,hold⟩,hlast,hpairs⟩
    exact ⟨⟨hold,hpairs⟩,hle,(hearlier hle).mp hlast⟩
  · rintro ⟨⟨hold,hpairs⟩,hle,hacked⟩
    exact ⟨⟨hle,hold⟩,(hearlier hle).mpr hacked,hpairs⟩

/-- After a step the acknowledgements report the cursor if they did before and
the step is on time. -/
theorem reportsCursor_step (h : Observed s) (hstep : AckStep bincode dedupRetentionSecs s op s') :
    ReportsCursor s' ↔ ReportsCursor s ∧ OnTime s op := by
  have hsame : OnTime s op → s'.reports=s.reports →
      (ReportsCursor s' ↔ ReportsCursor s ∧ OnTime s op) := by
    intro htime hreports
    unfold ReportsCursor
    rw [hreports]
    exact ⟨fun hs => ⟨hs,htime⟩,And.left⟩
  have hack : ∀ {connection : ℕ} {q : Pending}, s.pending connection=some q →
      ((∀ p∈s.pending connection, p.found≤p.value ∧ ∀ ts∈p.acked, ts≤p.value) ↔
        q.found≤q.value ∧ ∀ ts∈q.acked, ts≤q.value) := by
    intro connection q hq
    rw [hq]
    exact ⟨fun hall => hall q rfl,fun hq p hp => by cases hp; exact hq⟩
  cases op with
  | server op =>
    cases op with
    | ack connection =>
      obtain ⟨server,upload,p,-,hreq,hp,rfl⟩ := hstep
      obtain ⟨q,hq,hvalue⟩ := h.linked connection upload hreq
      rw [hp] at hq
      cases hq
      rw [←hvalue,reportsCursor_acknowledge h hp,OnTime,hack hp]
    | upsert connection upload =>
      obtain ⟨-,server,-,rfl⟩ := hstep
      exact hsame trivial rfl
    | advance connection =>
      obtain ⟨server,upload,-,-,rfl⟩ := hstep
      exact hsame trivial rfl
    | fail connection =>
      obtain ⟨server,-,rfl⟩ := hstep
      exact hsame trivial rfl
    | ensure deviceId provider =>
      obtain ⟨server,-,rfl⟩ := hstep
      exact hsame trivial rfl
    | getLastTs deviceId provider =>
      obtain ⟨server,-,rfl⟩ := hstep
      exact hsame trivial rfl
    | prune connection =>
      obtain ⟨server,-,rfl⟩ := hstep
      exact hsame trivial rfl
    | purge deviceId provider deleted =>
      obtain ⟨server,-,rfl⟩ := hstep
      exact hsame trivial rfl
    | reset deviceId provider done =>
      obtain ⟨server,-,rfl⟩ := hstep
      exact hsame trivial rfl
  | readEmpty connection deviceId provider =>
    obtain ⟨-,-,rfl⟩ := hstep
    exact hsame trivial rfl
  | ackEmpty connection =>
    obtain ⟨-,p,hp,rfl⟩ := hstep
    rw [reportsCursor_acknowledge h hp,OnTime,hack hp]

/-- What is observed of a server that was just installed. -/
theorem observed_initial : Observed .initial where
  rows := fun _ _ _ hreq => by cases hreq
  linked := fun _ _ hreq => by cases hreq
  watched := fun _ _ hp => by cases hp
  reported := fun _ hr => absurd hr List.not_mem_nil

end

/-- What is observed in every run without resets. -/
theorem Observed.of_run {history : List AckOp} {s : AckState}
    (hkeeps : ∀ op∈history, op.KeepsCursors)
    (run : Run (AckStep bincode dedupRetentionSecs) .initial history s) : Observed s := by
  refine Run.invariant_of (A:=fun history => ∀ op∈history, AckOp.KeepsCursors op)
    forall_mem_tail (I:=fun _ => Observed) observed_initial ?_ hkeeps run
  intro past t op t' _ hA ht hstep
  exact ht.step (hA op List.mem_cons_self) hstep

/-- In every run without resets, the acknowledgements report the cursor if and
only if every request was acknowledged on time. -/
theorem acks_report_cursor_iff (bincode : Codec PersistedEvent) (dedupRetentionSecs : Int64)
    {history : List AckOp} {s : AckState} (hkeeps : ∀ op∈history, op.KeepsCursors)
    (run : Run (AckStep bincode dedupRetentionSecs) .initial history s) :
    ReportsCursor s ↔
      Run (fun a op b => AckStep bincode dedupRetentionSecs a op b ∧ OnTime a op) .initial
        history s := by
  constructor
  · intro hreports
    induction run with
    | start => exact .start
    | next op run taken ih =>
      have hpast := forall_mem_tail op _ hkeeps
      obtain ⟨hbefore,htime⟩ := (reportsCursor_step (Observed.of_run hpast run) taken).mp hreports
      exact .next op (ih hpast hbefore) ⟨taken,htime⟩
  · intro hguarded
    refine Run.invariant_of (A:=fun history => ∀ op∈history, AckOp.KeepsCursors op)
      forall_mem_tail (I:=fun _ => ReportsCursor) ?_ ?_ hkeeps hguarded
    · exact ⟨fun r hr => absurd hr List.not_mem_nil,List.Pairwise.nil⟩
    · intro past t op t' hrun hA ht hstep
      have hobserved := Observed.of_run (forall_mem_tail op past hA)
        (hrun.mono fun _ _ _ hstep => hstep.1)
      exact (reportsCursor_step hobserved hstep.1).mpr ⟨ht,hstep.2⟩

end

/-- A batch and an empty batch, newest step first. -/
def orderedAcks : List AckOp :=
  [.ackEmpty 0,.readEmpty 0 "d1" "codex",.server (.ack 0),.server (.advance 0),
    .server (.upsert 0 (sampleUpload "codex" 10)),.server (.ensure "d1" "codex")]

/-- An empty batch after a batch is acknowledged with the cursor. -/
theorem acks_report_cursor_iff_sample : ∃ s,
    Run (AckStep eventLayout.codec 2592000) .initial orderedAcks s ∧ ReportsCursor s ∧
    s.reports.map Report.lastTsMs=[10,10] := by
  have hup : ∀ db ts, UpsertEvents eventLayout.codec db (sampleUpload "codex" ts).serverEvents
      (upsertEvents eventLayout.codec db (sampleUpload "codex" ts).serverEvents) :=
    fun db ts => ⟨_,.refl _,rfl⟩
  have run : Run (fun a op b => AckStep eventLayout.codec 2592000 a op b ∧ OnTime a op) .initial
      [.server (.ensure "d1" "codex")] _ := .next _ .start ⟨⟨_,rfl,rfl⟩,trivial⟩
  have run := run.next (AckOp.server (.upsert 0 (sampleUpload "codex" 10)))
    ⟨⟨rfl,_,⟨rfl,rfl,by decide,by decide,_,hup _ _,rfl⟩,rfl⟩,trivial⟩
  have run := run.next (AckOp.server (.advance 0)) ⟨⟨_,_,⟨_,rfl,rfl⟩,rfl,rfl⟩,trivial⟩
  have run := run.next (AckOp.server (.ack 0))
    ⟨⟨_,_,_,⟨_,rfl,rfl⟩,rfl,rfl,rfl⟩,fun p hp => by
      rw [←Option.some.inj hp]
      exact ⟨by decide,fun ts hts => by cases hts⟩⟩
  have run := run.next (AckOp.readEmpty 0 "d1" "codex") ⟨⟨rfl,rfl,rfl⟩,trivial⟩
  have run := run.next (AckOp.ackEmpty 0) ⟨⟨rfl,_,rfl,rfl⟩,fun p hp => by
      rw [←Option.some.inj hp]
      exact ⟨by decide,fun ts hts => by cases hts⟩⟩
  have hkeeps : ∀ op∈orderedAcks, op.KeepsCursors := by
    intro op hop
    simp only [orderedAcks,List.mem_cons,List.not_mem_nil,or_false] at hop
    rcases hop with rfl | rfl | rfl | rfl | rfl | rfl <;> trivial
  have hall := run.mono fun _ _ _ hstep => hstep.1
  exact ⟨_,hall,(acks_report_cursor_iff eventLayout.codec 2592000 hkeeps hall).mpr run,by decide⟩

/-- An older batch after a newer one, newest step first. -/
def olderBatch : List AckOp :=
  [.server (.ack 0),.server (.advance 0),.server (.upsert 0 (sampleUpload "codex" 5)),
    .server (.ack 0),.server (.advance 0),.server (.upsert 0 (sampleUpload "codex" 10)),
    .server (.ensure "d1" "codex")]

/-- The older batch is acknowledged with its own time, which the cursor has not
had since. -/
theorem olderBatch_misreports : ∃ s,
    Run (AckStep eventLayout.codec 2592000) .initial olderBatch s ∧
    (∀ op∈olderBatch, op.KeepsCursors) ∧ ¬ReportsCursor s := by
  have hup : ∀ db ts, UpsertEvents eventLayout.codec db (sampleUpload "codex" ts).serverEvents
      (upsertEvents eventLayout.codec db (sampleUpload "codex" ts).serverEvents) :=
    fun db ts => ⟨_,.refl _,rfl⟩
  have run : Run (AckStep eventLayout.codec 2592000) .initial
      [.server (.ensure "d1" "codex")] _ := .next _ .start ⟨_,rfl,rfl⟩
  have run := run.next (AckOp.server (.upsert 0 (sampleUpload "codex" 10)))
    ⟨rfl,_,⟨rfl,rfl,by decide,by decide,_,hup _ _,rfl⟩,rfl⟩
  have run := run.next (AckOp.server (.advance 0)) ⟨_,_,⟨_,rfl,rfl⟩,rfl,rfl⟩
  have run := run.next (AckOp.server (.ack 0)) ⟨_,_,_,⟨_,rfl,rfl⟩,rfl,rfl,rfl⟩
  have run := run.next (AckOp.server (.upsert 0 (sampleUpload "codex" 5)))
    ⟨rfl,_,⟨rfl,rfl,by decide,by decide,_,hup _ _,rfl⟩,rfl⟩
  have run := run.next (AckOp.server (.advance 0)) ⟨_,_,⟨_,rfl,rfl⟩,rfl,rfl⟩
  have run := run.next (AckOp.server (.ack 0)) ⟨_,_,_,⟨_,rfl,rfl⟩,rfl,rfl,rfl⟩
  refine ⟨_,run,?_,fun hreports => ?_⟩
  · intro op hop
    simp only [olderBatch,List.mem_cons,List.not_mem_nil,or_false] at hop
    rcases hop with rfl | rfl | rfl | rfl | rfl | rfl | rfl <;> trivial
  · exact absurd (hreports.1 _ List.mem_cons_self) (by decide)

end TokiSync.SyncAcks
