import TokiSync.FjallContents
import TokiSync.SyncBatches

/-!
# Cursors and the event store

The cursor of a device and provider lives in the relational database, the
events in the event store, and no transaction spans both. Requests of any
connections interleave: an upload upserts its events, advances the cursor and
is acknowledged in separate steps and may fail between any two of them; a
handshake with another schema version purges the device and then resets the
cursor of the provider it authenticates for. The observer's record adds which
events were acknowledged and which were upserted since the last purge of their
device.
-/

namespace TokiSync.SyncCursor

open MachineWords ByteKeys ByteCodec BatchedMaps ServerEvents FjallStore FjallRuns FjallContents
open SyncBatches Runs

/-- Last acknowledged time per device and provider. -/
abbrev Cursors := String → String → Option Int64

/-- Create the cursor row when there is none. -/
def ensureCursor (cursors : Cursors) (deviceId provider : String) : Cursors :=
  Function.update cursors deviceId (Function.update (cursors deviceId) provider
    (some ((cursors deviceId provider).getD 0)))

/-- Stored time of a cursor, zero without a row. -/
def getLastTs (cursors : Cursors) (deviceId provider : String) : Int64 :=
  (cursors deviceId provider).getD 0

/-- Raise the time of an existing cursor row. -/
def advanceCursor (cursors : Cursors) (deviceId provider : String) (ts : Int64) : Cursors :=
  Function.update cursors deviceId (Function.update (cursors deviceId) provider
    ((cursors deviceId provider).map fun lastTs => max lastTs ts))

/-- Set an existing cursor row to zero. -/
def resetCursor (cursors : Cursors) (deviceId provider : String) : Cursors :=
  Function.update cursors deviceId (Function.update (cursors deviceId) provider
    ((cursors deviceId provider).map fun _ => 0))

/-- How far an upload has come. -/
inductive Phase where
  /-- Its events are upserted. -/
  | upserted
  /-- Its cursor is advanced. -/
  | advanced

/-- The two stores, the requests between their steps and the observer's record. -/
structure SyncState where
  /-- The event store. -/
  db : Db
  /-- The cursor rows. -/
  cursors : Cursors
  /-- Upload that each connection is working on. -/
  requests : ℕ → Option (Upload×Phase)
  /-- Handshakes between their purge and their reset. -/
  resetting : List (String×String)
  /-- Events of acknowledged batches. -/
  acked : List ServerEvent
  /-- Events upserted since the last purge of their device. -/
  stored : List ServerEvent

/-- A server that was just installed. -/
def initial : SyncState where
  db := emptyDb
  cursors _ _ := none
  requests _ := none
  resetting := []
  acked := []
  stored := []

/-- Steps of the server. -/
inductive SyncOp where
  /-- Make sure that a cursor row exists. -/
  | ensure (deviceId provider : String)
  /-- Read a cursor. -/
  | getLastTs (deviceId provider : String)
  /-- Upsert the events of a batch. -/
  | upsert (connection : ℕ) (upload : Upload)
  /-- Advance the cursor to the greatest time of the batch. -/
  | advance (connection : ℕ)
  /-- Prune old dedup pointers of the device. -/
  | prune (connection : ℕ)
  /-- Acknowledge the batch. -/
  | ack (connection : ℕ)
  /-- Give up a request: a crash or an error. -/
  | fail (connection : ℕ)
  /-- First half of a handshake with another schema version. -/
  | purge (deviceId provider : String) (deleted : Bool)
  /-- Second half of such a handshake. -/
  | reset (deviceId provider : String) (done : Bool)

/-- Ids that contain no key delimiter. -/
def SyncOp.Delimitable : SyncOp → Prop
  | .upsert _ upload => NulFree (utf8 upload.deviceId) ∧ NulFree (utf8 upload.userId)
  | .purge deviceId _ _ => NulFree (utf8 deviceId)
  | _ => True

/-- Time before which an upload prunes dedup pointers. -/
def cutoffMs (dedupRetentionSecs : Int64) (upload : Upload) : Int64 :=
  upload.maxTs-dedupRetentionSecs*1000

section

variable (bincode : Codec PersistedEvent) (dedupRetentionSecs : Int64)

/-- One step of the server. An upload starts on an idle connection, after its
cursor row was made sure of, with a batch that is neither empty nor too large;
empty batches are answered by the cursor alone and larger ones are refused. -/
def SyncStep (s : SyncState) (op : SyncOp) (s' : SyncState) : Prop :=
  match op with
  | .ensure deviceId provider =>
    s'={s with cursors := ensureCursor s.cursors deviceId provider}
  | .getLastTs _ _ => s'=s
  | .upsert connection upload =>
    s.requests connection=none ∧
    (s.cursors upload.deviceId upload.batch.provider).isSome ∧
    upload.batch.items≠[] ∧ upload.batch.items.length ≤ maxBatchSize ∧
    ∃ db', UpsertEvents bincode s.db upload.serverEvents db' ∧
      s'={s with
        db := db'
        requests := Function.update s.requests connection (some (upload,.upserted))
        stored := s.stored++upload.serverEvents}
  | .advance connection =>
    ∃ upload, s.requests connection=some (upload,.upserted) ∧
      s'={s with
        cursors := advanceCursor s.cursors upload.deviceId upload.batch.provider upload.maxTs
        requests := Function.update s.requests connection (some (upload,.advanced))}
  | .prune connection =>
    ∃ upload, s.requests connection=some (upload,.advanced) ∧
      s'=if 0<cutoffMs dedupRetentionSecs upload then
          {s with db := cleanupOldDedup s.db upload.deviceId (cutoffMs dedupRetentionSecs upload)}
        else s
  | .ack connection =>
    ∃ upload, s.requests connection=some (upload,.advanced) ∧
      s'={s with
        requests := Function.update s.requests connection none
        acked := s.acked++upload.serverEvents}
  | .fail connection => s'={s with requests := Function.update s.requests connection none}
  | .purge deviceId provider deleted =>
    s'=if deleted then
        {s with
          db := deleteDeviceEvents bincode s.db deviceId
          resetting := (deviceId,provider)::s.resetting
          stored := s.stored.filter fun e => e.deviceId≠deviceId}
      else {s with resetting := (deviceId,provider)::s.resetting}
  | .reset deviceId provider done =>
    (deviceId,provider)∈s.resetting ∧
    s'={s with
      cursors := if done then resetCursor s.cursors deviceId provider else s.cursors
      resetting := s.resetting.erase (deviceId,provider)}

/-- The cursor claims no data the store does not hold: outside a handshake for
the same device and provider, every acknowledged event up to the cursor is
held. -/
def Sound (s : SyncState) : Prop :=
  ∀ e∈s.acked, (e.deviceId,e.provider)∉s.resetting →
    e.tsMs≤getLastTs s.cursors e.deviceId e.provider → Held bincode s.db e.idxKey e.tsMs

end

/-- An acknowledged or uploaded event was purged and not uploaded again. -/
def Dropped (s : SyncState) (e : ServerEvent) : Prop :=
  ¬Covered s.stored e.idxKey e.tsMs

/-- What a step must respect. A purge finds no other provider of the device
with an acknowledged event at or below its cursor; the cursor a handshake
leaves behind, and the one an upload advances to, are below every acknowledged
event that a purge dropped; no purge drops an upload before it is
acknowledged. -/
def Careful (s : SyncState) : SyncOp → Prop
  | .advance connection =>
    ∀ upload, s.requests connection=some (upload,.upserted) →
      (upload.deviceId,upload.batch.provider)∉s.resetting →
      ∀ e∈s.acked, e.deviceId=upload.deviceId → e.provider=upload.batch.provider → Dropped s e →
        max (getLastTs s.cursors upload.deviceId upload.batch.provider) upload.maxTs<e.tsMs
  | .ack connection =>
    ∀ upload, s.requests connection=some (upload,.advanced) →
      (upload.deviceId,upload.batch.provider)∉s.resetting →
      ∀ e∈upload.serverEvents, Dropped s e →
        getLastTs s.cursors upload.deviceId upload.batch.provider<e.tsMs
  | .purge deviceId provider deleted =>
    deleted=true → ∀ e∈s.acked, e.deviceId=deviceId → e.provider≠provider →
      (deviceId,e.provider)∉s.resetting → getLastTs s.cursors deviceId e.provider<e.tsMs
  | .reset deviceId provider done =>
    (deviceId,provider)∉s.resetting.erase (deviceId,provider) →
      ∀ e∈s.acked, e.deviceId=deviceId → e.provider=provider → Dropped s e →
        (if done then 0 else getLastTs s.cursors deviceId provider)<e.tsMs
  | _ => True

/-- What holds in every reachable state, sound or not. -/
structure Consistent (bincode : Codec PersistedEvent) (s : SyncState) : Prop where
  /-- The rows are the events upserted since the last purge. -/
  agrees : Agrees bincode s.db s.stored
  /-- Acknowledged events have delimiter-free ids. -/
  acked : ∀ e∈s.acked, e.Delimitable
  /-- Uploads in flight have delimiter-free ids. -/
  upload : ∀ connection u phase, s.requests connection=some (u,phase) →
    NulFree (utf8 u.deviceId) ∧ NulFree (utf8 u.userId)
  /-- Uploads in flight have a cursor row. -/
  cursor : ∀ connection u phase, s.requests connection=some (u,phase) →
    (s.cursors u.deviceId u.batch.provider).isSome

section

variable {cursors : Cursors} {deviceId provider : String}

/-- Making sure of a cursor changes no stored time. -/
theorem getLastTs_ensureCursor (d p : String) :
    getLastTs (ensureCursor cursors deviceId provider) d p=getLastTs cursors d p := by
  unfold getLastTs ensureCursor
  by_cases hd : d=deviceId
  · by_cases hp : p=provider
    · rw [hd,hp,Function.update_self,Function.update_self,Option.getD_some]
    · rw [hd,Function.update_self,Function.update_of_ne hp]
  · rw [Function.update_of_ne hd]

/-- An advanced cursor. -/
theorem getLastTs_advanceCursor_self (ts : Int64) (h : (cursors deviceId provider).isSome) :
    getLastTs (advanceCursor cursors deviceId provider ts) deviceId provider=
      max (getLastTs cursors deviceId provider) ts := by
  obtain ⟨lastTs,hlast⟩ := Option.isSome_iff_exists.mp h
  simp only [getLastTs,advanceCursor,Function.update_self,hlast,Option.map_some,Option.getD_some]

/-- A reset cursor. -/
theorem getLastTs_resetCursor_self :
    getLastTs (resetCursor cursors deviceId provider) deviceId provider=0 := by
  simp only [getLastTs,resetCursor,Function.update_self]
  cases cursors deviceId provider with
  | none => rfl
  | some lastTs => rfl

/-- Writing one cursor row leaves the others. -/
theorem update_cursor_of_ne {d p : String} (h : (d,p)≠(deviceId,provider))
    (row : Option Int64) :
    Function.update cursors deviceId (Function.update (cursors deviceId) provider row) d p=
      cursors d p := by
  by_cases hd : d=deviceId
  · have hp : p≠provider := fun hp => h (by rw [hd,hp])
    rw [hd,Function.update_self,Function.update_of_ne hp]
  · rw [Function.update_of_ne hd]

end

section

variable {bincode : Codec PersistedEvent} {dedupRetentionSecs : Int64} {s s' : SyncState}
variable {op : SyncOp}

/-- A new server is consistent. -/
theorem consistent_initial : Consistent bincode initial := by
  refine ⟨agrees_emptyDb,fun e he => absurd he List.not_mem_nil,?_,?_⟩
  · intro c u ph h
    cases h
  · intro c u ph h
    cases h

/-- Events of an upload with delimiter-free ids. -/
theorem Upload.delimitable {u : Upload} (h : NulFree (utf8 u.deviceId) ∧ NulFree (utf8 u.userId)) :
    ∀ e∈u.serverEvents, e.Delimitable := by
  intro e he
  obtain ⟨hd,hu,-⟩ := Upload.ids_of_mem he
  rw [ServerEvent.Delimitable,hd,hu]
  exact h

/-- A cursor row that exists survives every rewriting of cursor rows. -/
theorem isSome_update_cursor {cursors : Cursors} {deviceId provider d p : String}
    {row : Option Int64} (hrow : (cursors deviceId provider).isSome → row.isSome)
    (h : (cursors d p).isSome) :
    (Function.update cursors deviceId (Function.update (cursors deviceId) provider row)
      d p).isSome := by
  by_cases hdp : (d,p)=(deviceId,provider)
  · rw [Prod.mk.injEq] at hdp
    rw [hdp.1,hdp.2] at h ⊢
    rw [Function.update_self,Function.update_self]
    exact hrow h
  · rw [update_cursor_of_ne hdp]
    exact h

/-- A row of a table of requests of which one was written. -/
theorem update_eq_some_iff {α β : Type} [DecidableEq α] {f : α → Option β} {i c : α}
    {row : Option β} {x : β} :
    Function.update f i row c=some x ↔ c=i ∧ row=some x ∨ c≠i ∧ f c=some x := by
  by_cases hc : c=i
  · rw [hc,Function.update_self]
    simp only [ne_eq,not_true_eq_false,false_and,or_false,true_and]
  · rw [Function.update_of_ne hc]
    simp only [hc,ne_eq,not_false_eq_true,false_and,false_or,true_and]

/-- What a step of the server can do to the event store, to the events that
should be stored and to the uploads that are under way. -/
theorem syncStep_cases (hstep : SyncStep bincode dedupRetentionSecs s op s') :
    ((s'.db=s.db ∧ s'.stored=s.stored) ∨
      (∃ connection upload, op=.upsert connection upload ∧
        UpsertEvents bincode s.db upload.serverEvents s'.db ∧
        s'.stored=liveAfter (.upsert upload.serverEvents) s.stored) ∨
      (∃ connection upload phase, s.requests connection=some (upload,phase) ∧
        0<cutoffMs dedupRetentionSecs upload ∧
        s'.db=cleanupOldDedup s.db upload.deviceId (cutoffMs dedupRetentionSecs upload) ∧
        s'.stored=s.stored) ∨
      ∃ device provider, op=.purge device provider true ∧
        s'.db=deleteDeviceEvents bincode s.db device ∧
        s'.stored=liveAfter (.delete device) s.stored) ∧
    ∀ connection upload phase, s'.requests connection=some (upload,phase) →
      (∃ phase', s.requests connection=some (upload,phase')) ∨ op=.upsert connection upload := by
  have hkept : ∀ connection row, (∀ upload phase, row=some (upload,phase) →
      (∃ phase', s.requests connection=some (upload,phase')) ∨ op=.upsert connection upload) →
      ∀ c u ph, Function.update s.requests connection row c=some (u,ph) →
        (∃ ph', s.requests c=some (u,ph')) ∨ op=.upsert c u := by
    intro connection row hrow c u ph hreq
    obtain ⟨rfl,hnew⟩ | ⟨-,hreq⟩ := update_eq_some_iff.mp hreq
    · exact hrow u ph hnew
    · exact Or.inl ⟨ph,hreq⟩
  have hsame : ∀ c u ph, s.requests c=some (u,ph) →
      (∃ ph', s.requests c=some (u,ph')) ∨ op=.upsert c u := fun c u ph hreq => Or.inl ⟨ph,hreq⟩
  cases op with
  | ensure deviceId provider =>
    cases hstep
    exact ⟨Or.inl ⟨rfl,rfl⟩,hsame⟩
  | getLastTs deviceId provider =>
    cases hstep
    exact ⟨Or.inl ⟨rfl,rfl⟩,hsame⟩
  | upsert connection upload =>
    obtain ⟨-,-,-,-,db',hup,rfl⟩ := hstep
    refine ⟨Or.inr (Or.inl ⟨connection,upload,rfl,hup,rfl⟩),hkept _ _ fun u ph hrow => Or.inr ?_⟩
    rw [Option.some.injEq,Prod.mk.injEq] at hrow
    rw [hrow.1]
  | advance connection =>
    obtain ⟨upload,hreq0,rfl⟩ := hstep
    refine ⟨Or.inl ⟨rfl,rfl⟩,hkept _ _ fun u ph hrow => Or.inl ⟨.upserted,?_⟩⟩
    rw [Option.some.injEq,Prod.mk.injEq] at hrow
    rw [hreq0,hrow.1]
  | prune connection =>
    obtain ⟨upload,hreq0,hs⟩ := hstep
    by_cases hcutoff : 0<cutoffMs dedupRetentionSecs upload
    · rw [if_pos hcutoff] at hs
      cases hs
      exact ⟨Or.inr (Or.inr (Or.inl ⟨connection,upload,_,hreq0,hcutoff,rfl,rfl⟩)),hsame⟩
    · rw [if_neg hcutoff] at hs
      cases hs
      exact ⟨Or.inl ⟨rfl,rfl⟩,hsame⟩
  | ack connection =>
    obtain ⟨upload,hreq0,rfl⟩ := hstep
    exact ⟨Or.inl ⟨rfl,rfl⟩,hkept _ _ fun u ph hrow => by cases hrow⟩
  | fail connection =>
    cases hstep
    exact ⟨Or.inl ⟨rfl,rfl⟩,hkept _ _ fun u ph hrow => by cases hrow⟩
  | purge deviceId provider deleted =>
    cases hstep
    cases deleted with
    | false => exact ⟨Or.inl ⟨rfl,rfl⟩,hsame⟩
    | true => exact ⟨Or.inr (Or.inr (Or.inr ⟨deviceId,provider,rfl,rfl,rfl⟩)),hsame⟩
  | reset deviceId provider done =>
    obtain ⟨-,rfl⟩ := hstep
    exact ⟨Or.inl ⟨rfl,rfl⟩,hsame⟩

/-- Cursor rows stay. -/
theorem isSome_cursor_step (hstep : SyncStep bincode dedupRetentionSecs s op s') {d p : String}
    (h : (s.cursors d p).isSome) : (s'.cursors d p).isSome := by
  cases op with
  | ensure deviceId provider =>
    cases hstep
    exact isSome_update_cursor (fun _ => rfl) h
  | getLastTs deviceId provider =>
    cases hstep
    exact h
  | upsert connection upload =>
    obtain ⟨-,-,-,-,db',-,rfl⟩ := hstep
    exact h
  | advance connection =>
    obtain ⟨upload,-,rfl⟩ := hstep
    refine isSome_update_cursor (fun hrow => ?_) h
    rwa [Option.isSome_map]
  | prune connection =>
    obtain ⟨upload,-,rfl⟩ := hstep
    split_ifs
    · exact h
    · exact h
  | ack connection =>
    obtain ⟨upload,-,rfl⟩ := hstep
    exact h
  | fail connection =>
    cases hstep
    exact h
  | purge deviceId provider deleted =>
    cases hstep
    cases deleted with
    | false => exact h
    | true => exact h
  | reset deviceId provider done =>
    obtain ⟨-,rfl⟩ := hstep
    cases done with
    | false => exact h
    | true =>
      refine isSome_update_cursor (fun hrow => ?_) h
      rwa [Option.isSome_map]

/-- Uploads in flight keep their cursor rows. -/
theorem rows_step (hrows : ∀ connection upload phase,
      s.requests connection=some (upload,phase) →
        (s.cursors upload.deviceId upload.batch.provider).isSome)
    (hstep : SyncStep bincode dedupRetentionSecs s op s') (connection : ℕ) (upload : Upload)
    (phase : Phase) (hreq : s'.requests connection=some (upload,phase)) :
    (s'.cursors upload.deviceId upload.batch.provider).isSome := by
  refine isSome_cursor_step hstep ?_
  rcases (syncStep_cases hstep).2 connection upload phase hreq with ⟨phase',hbefore⟩ | rfl
  · exact hrows connection upload phase' hbefore
  · exact hstep.2.1

/-- What is acknowledged was acknowledged before or belongs to an upload under
way. -/
theorem mem_acked_step (hstep : SyncStep bincode dedupRetentionSecs s op s') {e : ServerEvent}
    (he : e∈s'.acked) : e∈s.acked ∨ ∃ connection upload phase,
      s.requests connection=some (upload,phase) ∧ e∈upload.serverEvents := by
  cases op with
  | ensure deviceId provider =>
    cases hstep
    exact Or.inl he
  | getLastTs deviceId provider =>
    cases hstep
    exact Or.inl he
  | upsert connection upload =>
    obtain ⟨-,-,-,-,db',-,rfl⟩ := hstep
    exact Or.inl he
  | advance connection =>
    obtain ⟨upload,-,rfl⟩ := hstep
    exact Or.inl he
  | prune connection =>
    obtain ⟨upload,-,rfl⟩ := hstep
    split_ifs at he
    · exact Or.inl he
    · exact Or.inl he
  | ack connection =>
    obtain ⟨upload,hreq,rfl⟩ := hstep
    exact (List.mem_append.mp he).imp_right fun hnew => ⟨connection,upload,_,hreq,hnew⟩
  | fail connection =>
    cases hstep
    exact Or.inl he
  | purge deviceId provider deleted =>
    cases hstep
    cases deleted with
    | false => exact Or.inl he
    | true => exact Or.inl he
  | reset deviceId provider done =>
    obtain ⟨-,rfl⟩ := hstep
    exact Or.inl he

/-- Every step keeps the state consistent. -/
theorem Consistent.step (h : Consistent bincode s) (hd : op.Delimitable)
    (hstep : SyncStep bincode dedupRetentionSecs s op s') : Consistent bincode s' := by
  obtain ⟨hdb,hrequests⟩ := syncStep_cases hstep
  refine ⟨?_,fun e he => ?_,fun c u phase hreq => ?_,rows_step h.cursor hstep⟩
  · obtain ⟨hdb,hstored⟩ | ⟨c,u,rfl,hup,hstored⟩ | ⟨c,u,phase,hreq,-,hdb,hstored⟩ |
      ⟨device,provider,rfl,hdb,hstored⟩ := hdb
    · rw [hdb,hstored]
      exact h.agrees
    · rw [hstored]
      exact h.agrees.step (.upsert u.serverEvents) (Upload.delimitable hd) hup
    · rw [hdb,hstored]
      exact h.agrees.step (.cleanup u.deviceId (cutoffMs dedupRetentionSecs u))
        (h.upload c u phase hreq).1 rfl
    · rw [hdb,hstored]
      exact h.agrees.step (.delete device) hd rfl
  · obtain hbefore | ⟨c,u,phase,hreq,hnew⟩ := mem_acked_step hstep he
    · exact h.acked e hbefore
    · exact Upload.delimitable (h.upload c u phase hreq) e hnew
  · obtain ⟨phase',hbefore⟩ | rfl := hrequests c u phase hreq
    · exact h.upload c u phase' hbefore
    · exact hd

/-- Outside handshakes the cursors are below every dropped acknowledged event. -/
def Respects (s : SyncState) : Prop :=
  ∀ e∈s.acked, (e.deviceId,e.provider)∉s.resetting → Dropped s e →
    getLastTs s.cursors e.deviceId e.provider<e.tsMs

/-- Soundness says that dropped events are above the cursors. -/
theorem Consistent.sound_iff (h : Consistent bincode s) : Sound bincode s ↔ Respects s := by
  unfold Sound Respects Dropped
  constructor
  · intro hs e he hexp hdrop
    by_contra hle
    exact hdrop ((h.agrees.held_iff _ _).mp (hs e he hexp (not_lt.mp hle)))
  · intro hr e he hexp hle
    by_contra hheld
    refine absurd (hr e he hexp fun hcov => ?_) (not_lt.mpr hle)
    exact hheld ((h.agrees.held_iff _ _).mpr hcov)

/-- A purge drops the events of its device and no others. -/
theorem dropped_purge {deviceId : String} (hs : ∀ e∈s.stored, e.Delimitable) {e : ServerEvent}
    (he : e.Delimitable) : ¬Covered (s.stored.filter fun x => x.deviceId≠deviceId) e.idxKey e.tsMs ↔
      e.deviceId=deviceId ∨ Dropped s e := by
  constructor
  · intro hnot
    by_cases hdev : e.deviceId=deviceId
    · exact Or.inl hdev
    · refine Or.inr fun hcov => hnot ?_
      obtain ⟨x,hx,hkey,hts⟩ := hcov
      have hxd := idxKey_device (hs x hx).1 he.1 hkey
      refine ⟨x,List.mem_filter.mpr ⟨hx,decide_eq_true ?_⟩,hkey,hts⟩
      rw [hxd]
      exact hdev
  · rintro hor ⟨x,hx,hkey,hts⟩
    obtain ⟨hmem,hne⟩ := List.mem_filter.mp hx
    have hxd := idxKey_device (hs x hmem).1 he.1 hkey
    rcases hor with hdev | hdrop
    · exact of_decide_eq_true hne (hxd.trans hdev)
    · exact hdrop ⟨x,hmem,hkey,hts⟩

/-- An advance respects dropped events exactly when it is careful. -/
theorem respects_advance (h : Consistent bincode s) (hr : Respects s) {connection : ℕ}
    {upload : Upload} (hreq : s.requests connection=some (upload,.upserted)) :
    Careful s (.advance connection) ↔ Respects {s with
      cursors := advanceCursor s.cursors upload.deviceId upload.batch.provider upload.maxTs
      requests := Function.update s.requests connection (some (upload,.advanced))} := by
  have hrow := h.cursor _ _ _ hreq
  constructor
  · intro hc e he hexp hdrop
    dsimp only
    by_cases hpair : (e.deviceId,e.provider)=(upload.deviceId,upload.batch.provider)
    · rw [Prod.mk.injEq] at hpair
      rw [hpair.1,hpair.2,getLastTs_advanceCursor_self _ hrow]
      refine hc upload hreq ?_ e he hpair.1 hpair.2 hdrop
      rw [←hpair.1,←hpair.2]
      exact hexp
    · have hsame := hr e he hexp hdrop
      rwa [getLastTs,advanceCursor,update_cursor_of_ne hpair]
  · intro hr' u hu hexp e he hdev hprov hdrop
    rw [hreq,Option.some.injEq,Prod.mk.injEq] at hu
    rw [←hu.1] at hexp hdev hprov ⊢
    have hlt := hr' e he (by rw [hdev,hprov]; exact hexp) hdrop
    dsimp only at hlt
    rwa [hdev,hprov,getLastTs_advanceCursor_self _ hrow] at hlt

/-- An acknowledgement respects dropped events exactly when it is careful. -/
theorem respects_ack (hr : Respects s) {connection : ℕ} {upload : Upload}
    (hreq : s.requests connection=some (upload,.advanced)) :
    Careful s (.ack connection) ↔ Respects {s with
      requests := Function.update s.requests connection none
      acked := s.acked++upload.serverEvents} := by
  constructor
  · intro hc e he hexp hdrop
    rcases List.mem_append.mp he with he | he
    · exact hr e he hexp hdrop
    · obtain ⟨hdev,-,hprov⟩ := Upload.ids_of_mem he
      dsimp only at hexp ⊢
      rw [hdev,hprov] at hexp ⊢
      exact hc upload hreq hexp e he hdrop
  · intro hr' u hu hexp e he hdrop
    rw [hreq,Option.some.injEq,Prod.mk.injEq] at hu
    rw [←hu.1] at hexp he ⊢
    obtain ⟨hdev,-,hprov⟩ := Upload.ids_of_mem he
    have hlt := hr' e (List.mem_append_right _ he) (by rw [hdev,hprov]; exact hexp) hdrop
    dsimp only at hlt
    rwa [hdev,hprov] at hlt

/-- A purge respects dropped events exactly when it is careful. -/
theorem respects_purge (h : Consistent bincode s) (hr : Respects s) (deviceId provider : String) :
    Careful s (.purge deviceId provider true) ↔ Respects {s with
      db := deleteDeviceEvents bincode s.db deviceId
      resetting := (deviceId,provider)::s.resetting
      stored := s.stored.filter fun e => e.deviceId≠deviceId} := by
  constructor
  · intro hc e he hexp hdrop
    rw [List.mem_cons,not_or,Prod.mk.injEq,not_and] at hexp
    rcases (dropped_purge h.agrees.delimitable (h.acked e he)).mp hdrop with hdev | hdrop
    · have hlt := hc rfl e he hdev (hexp.1 hdev) (by rw [←hdev]; exact hexp.2)
      rwa [hdev]
    · exact hr e he hexp.2 hdrop
  · intro hr' _ e he hdev hprov hexp
    have hexp' : (e.deviceId,e.provider)∉(deviceId,provider)::s.resetting := by
      rw [List.mem_cons,not_or,Prod.mk.injEq,not_and,hdev]
      exact ⟨fun _ => hprov,hexp⟩
    have hdrop := (dropped_purge h.agrees.delimitable (h.acked e he)).mpr (Or.inl hdev)
    have hlt := hr' e he hexp' hdrop
    rwa [hdev] at hlt

/-- A reset respects dropped events exactly when it is careful. -/
theorem respects_reset (hr : Respects s) (deviceId provider : String) (done : Bool) :
    Careful s (.reset deviceId provider done) ↔ Respects {s with
      cursors := if done then resetCursor s.cursors deviceId provider else s.cursors
      resetting := s.resetting.erase (deviceId,provider)} := by
  have hself : getLastTs (if done then resetCursor s.cursors deviceId provider else s.cursors)
      deviceId provider=if done then 0 else getLastTs s.cursors deviceId provider := by
    cases done with
    | false => rfl
    | true => exact getLastTs_resetCursor_self
  constructor
  · intro hc e he hexp hdrop
    dsimp only at hexp ⊢
    by_cases hpair : (e.deviceId,e.provider)=(deviceId,provider)
    · rw [hpair] at hexp
      rw [Prod.mk.injEq] at hpair
      rw [hpair.1,hpair.2,hself]
      exact hc hexp e he hpair.1 hpair.2 hdrop
    · have hlt := hr e he (fun hmem => hexp ((List.mem_erase_of_ne hpair).mpr hmem)) hdrop
      cases done with
      | false => exact hlt
      | true =>
        rw [if_pos rfl,getLastTs,resetCursor,update_cursor_of_ne hpair]
        exact hlt
  · intro hr' hexp e he hdev hprov hdrop
    have hlt := hr' e he (by rw [hdev,hprov]; exact hexp) hdrop
    dsimp only at hlt
    rwa [hdev,hprov,hself] at hlt

/-- From a sound state a step leads to a sound state exactly when it is
careful. -/
theorem sound_step_iff (h : Consistent bincode s) (hs : Sound bincode s) (hd : op.Delimitable)
    (hstep : SyncStep bincode dedupRetentionSecs s op s') :
    Careful s op ↔ Sound bincode s' := by
  have hr := h.sound_iff.mp hs
  have h' := h.step hd hstep
  rw [h'.sound_iff]
  cases op with
  | ensure deviceId provider =>
    cases hstep
    refine iff_of_true trivial fun e he hexp hdrop => ?_
    rw [getLastTs_ensureCursor]
    exact hr e he hexp hdrop
  | getLastTs deviceId provider =>
    cases hstep
    exact iff_of_true trivial hr
  | upsert connection upload =>
    obtain ⟨-,-,-,-,db',-,rfl⟩ := hstep
    refine iff_of_true trivial fun e he hexp hdrop => hr e he hexp fun hcov => hdrop ?_
    obtain ⟨x,hx,hrest⟩ := hcov
    exact ⟨x,List.mem_append_left _ hx,hrest⟩
  | advance connection =>
    obtain ⟨upload,hreq,rfl⟩ := hstep
    exact respects_advance h hr hreq
  | prune connection =>
    obtain ⟨upload,hreq,rfl⟩ := hstep
    refine iff_of_true trivial ?_
    split_ifs
    · exact hr
    · exact hr
  | ack connection =>
    obtain ⟨upload,hreq,rfl⟩ := hstep
    exact respects_ack hr hreq
  | fail connection =>
    cases hstep
    exact iff_of_true trivial hr
  | purge deviceId provider deleted =>
    cases hstep
    cases deleted with
    | false =>
      refine iff_of_true (fun hfalse => by cases hfalse) fun e he hexp hdrop => ?_
      exact hr e he (fun hmem => hexp (List.mem_cons_of_mem _ hmem)) hdrop
    | true => exact respects_purge h hr deviceId provider
  | reset deviceId provider done =>
    obtain ⟨-,rfl⟩ := hstep
    exact respects_reset hr deviceId provider done

/-- Every state reached is consistent. -/
theorem Consistent.of_run {history : List SyncOp} (hd : ∀ op∈history, op.Delimitable)
    (run : Run (SyncStep bincode dedupRetentionSecs) initial history s) : Consistent bincode s := by
  refine Run.invariant_of (A:=fun h => ∀ op∈h, SyncOp.Delimitable op) forall_mem_tail
    (I:=fun _ t => Consistent bincode t) consistent_initial ?_ hd run
  intro past t op t' _ hA ht hstep
  exact ht.step (hA op List.mem_cons_self) hstep

/-- A server that was just installed claims nothing. -/
theorem sound_initial : Sound bincode initial := fun _ he => absurd he List.not_mem_nil

/-- The cursor never claims data the store does not hold, in every run whose
steps are careful; and a run that is sound in every state is careful. -/
theorem cursor_sound (bincode : Codec PersistedEvent) (dedupRetentionSecs : Int64)
    {history : List SyncOp} {s : SyncState} (hd : ∀ op∈history, op.Delimitable) :
    (Run (fun a op b => SyncStep bincode dedupRetentionSecs a op b ∧ Careful a op)
        initial history s → Sound bincode s) ∧
    (Run (fun a op b => SyncStep bincode dedupRetentionSecs a op b ∧ Careful a op)
        initial history s ↔
      Run (fun a op b => SyncStep bincode dedupRetentionSecs a op b ∧ Sound bincode b)
        initial history s) := by
  have hforward : ∀ past a op b, (∀ x∈op::past, SyncOp.Delimitable x) →
      Consistent bincode a ∧ Sound bincode a → SyncStep bincode dedupRetentionSecs a op b →
      Careful a op → Sound bincode b ∧ Consistent bincode b ∧ Sound bincode b := by
    intro past a op b hA ha hstep hcareful
    have hop := hA op List.mem_cons_self
    have hsound := (sound_step_iff ha.1 ha.2 hop hstep).mp hcareful
    exact ⟨hsound,ha.1.step hop hstep,hsound⟩
  have hbackward : ∀ past a op b, (∀ x∈op::past, SyncOp.Delimitable x) →
      Consistent bincode a ∧ Sound bincode a → SyncStep bincode dedupRetentionSecs a op b →
      Sound bincode b → Careful a op ∧ Consistent bincode b ∧ Sound bincode b := by
    intro past a op b hA ha hstep hsound
    have hop := hA op List.mem_cons_self
    exact ⟨(sound_step_iff ha.1 ha.2 hop hstep).mpr hsound,ha.1.step hop hstep,hsound⟩
  have hinit : Consistent bincode initial ∧ Sound bincode initial :=
    ⟨consistent_initial,sound_initial⟩
  refine ⟨fun run => ?_,fun run => ?_,fun run => ?_⟩
  · exact (Run.change_guard (A:=fun h => ∀ op∈h, SyncOp.Delimitable op) forall_mem_tail
      (I:=fun t => Consistent bincode t ∧ Sound bincode t) hinit hforward hd run).1.2
  · exact (Run.change_guard (A:=fun h => ∀ op∈h, SyncOp.Delimitable op) forall_mem_tail
      (I:=fun t => Consistent bincode t ∧ Sound bincode t) hinit hforward hd run).2
  · exact (Run.change_guard (A:=fun h => ∀ op∈h, SyncOp.Delimitable op) forall_mem_tail
      (I:=fun t => Consistent bincode t ∧ Sound bincode t) hinit hbackward hd run).2

end

instance : DecidablePred SyncOp.Delimitable
  | .upsert _ upload =>
    inferInstanceAs (Decidable (NulFree (utf8 upload.deviceId) ∧ NulFree (utf8 upload.userId)))
  | .purge deviceId _ _ => inferInstanceAs (Decidable (NulFree (utf8 deviceId)))
  | .ensure _ _ => isTrue trivial
  | .getLastTs _ _ => isTrue trivial
  | .advance _ => isTrue trivial
  | .prune _ => isTrue trivial
  | .ack _ => isTrue trivial
  | .fail _ => isTrue trivial
  | .reset _ _ _ => isTrue trivial

/-- One item of one device, for a provider. -/
def sampleUpload (provider : String) (tsMs : Int64) : Upload where
  deviceId := "d1"
  userId := "u1"
  batch :=
    { provider := provider
      tokenColumns := ["input","output"]
      dict := fun id => if id=1 then some "gpt-5" else none
      items := [⟨tsMs,"m1:7",⟨1,0,0,[10,2]⟩,12⟩] }

/-- A client only uploads events newer than the cursor. -/
def Newer (s : SyncState) : SyncOp → Prop
  | .upsert _ upload => ∀ item∈upload.batch.items,
    getLastTs s.cursors upload.deviceId upload.batch.provider < item.tsMs
  | _ => True

/-- Upload one item of a provider and acknowledge it, newest step first. -/
def uploadSteps (provider : String) (tsMs : Int64) : List SyncOp :=
  [.ack 0,.advance 0,.upsert 0 (sampleUpload provider tsMs),.ensure "d1" provider]

/-- One provider alone: upload, handshake with another schema, upload again.
The cursor is sound although the upload was purged in between. -/
theorem cursor_sound_sample : ∃ s,
    Run (SyncStep eventLayout.codec 2592000) initial (uploadSteps "codex" 7++
      [.reset "d1" "codex" true,.purge "d1" "codex" true]++uploadSteps "codex" 7) s ∧
    Sound eventLayout.codec s := by
  have hd : ∀ op∈uploadSteps "codex" 7++[.reset "d1" "codex" true,.purge "d1" "codex" true]++
      uploadSteps "codex" 7, SyncOp.Delimitable op := by decide
  have hup : ∀ db, UpsertEvents eventLayout.codec db (sampleUpload "codex" 7).serverEvents
      (upsertEvents eventLayout.codec db (sampleUpload "codex" 7).serverEvents) :=
    fun db => ⟨_,.refl _,rfl⟩
  have run : Run (fun a op b => SyncStep eventLayout.codec 2592000 a op b ∧ Careful a op) initial
      [.ensure "d1" "codex"] _ := .next _ .start ⟨rfl,trivial⟩
  have run := run.next (SyncOp.upsert 0 (sampleUpload "codex" 7))
    ⟨⟨rfl,rfl,by decide,by decide,_,hup _,rfl⟩,trivial⟩
  have run := run.next (SyncOp.advance 0)
    ⟨⟨_,rfl,rfl⟩,fun _ _ _ e he => absurd he List.not_mem_nil⟩
  have run := run.next (SyncOp.ack 0) ⟨⟨_,rfl,rfl⟩,by
    intro u hu _ e he hdrop
    cases hu
    exact absurd ⟨e,he,rfl,le_rfl⟩ hdrop⟩
  have run := run.next (SyncOp.purge "d1" "codex" true) ⟨rfl,by
    intro _ e he _ hprov
    exact absurd (Upload.ids_of_mem he).2.2 hprov⟩
  have run := run.next (SyncOp.reset "d1" "codex" true) ⟨⟨List.mem_cons_self,rfl⟩,by
    intro _ e he _ _ _
    have hpositive : ∀ e∈(sampleUpload "codex" 7).serverEvents, 0<e.tsMs := by decide
    exact hpositive e he⟩
  have run := run.next (SyncOp.ensure "d1" "codex") ⟨rfl,trivial⟩
  have run := run.next (SyncOp.upsert 0 (sampleUpload "codex" 7))
    ⟨⟨rfl,rfl,by decide,by decide,_,hup _,rfl⟩,trivial⟩
  have run := run.next (SyncOp.advance 0) ⟨⟨_,rfl,rfl⟩,by
    intro _ _ _ e he _ _ hdrop
    exact absurd ⟨e,List.mem_append_right _ he,rfl,le_rfl⟩ hdrop⟩
  have run := run.next (SyncOp.ack 0) ⟨⟨_,rfl,rfl⟩,by
    intro u hu _ e he hdrop
    cases hu
    exact absurd ⟨e,List.mem_append_right _ he,rfl,le_rfl⟩ hdrop⟩
  exact ⟨_,run.mono fun _ _ _ h => h.1,(cursor_sound eventLayout.codec 2592000 hd).1 run⟩

/-- A handshake of one provider purges the events of the other one, whose
cursor stays: soundness fails although every upload is newer than its cursor
and both calls of the handshake succeed. -/
theorem purge_unsound : ∃ s,
    Run (fun a op b => SyncStep eventLayout.codec 2592000 a op b ∧ Newer a op) initial
      ([.reset "d1" "codex" true,.purge "d1" "codex" true]++uploadSteps "claude_code" 7) s ∧
    ¬Sound eventLayout.codec s := by
  have hd : ∀ op∈[.reset "d1" "codex" true,.purge "d1" "codex" true]++
      uploadSteps "claude_code" 7, SyncOp.Delimitable op := by decide
  have hrow : UpsertEvents eventLayout.codec emptyDb (sampleUpload "claude_code" 7).serverEvents
      (upsertEvents eventLayout.codec emptyDb (sampleUpload "claude_code" 7).serverEvents) :=
    ⟨_,.refl _,rfl⟩
  have hnewer : ∀ item∈(sampleUpload "claude_code" 7).batch.items,
      getLastTs (ensureCursor initial.cursors "d1" "claude_code") "d1" "claude_code"
        < item.tsMs := by decide
  have run : Run (fun a op b => SyncStep eventLayout.codec 2592000 a op b ∧ Newer a op) initial
      [.ensure "d1" "claude_code"] _ := .next _ .start ⟨rfl,trivial⟩
  have run := run.next (SyncOp.upsert 0 (sampleUpload "claude_code" 7))
    ⟨⟨rfl,rfl,by decide,by decide,_,hrow,rfl⟩,hnewer⟩
  have run := run.next (SyncOp.advance 0) ⟨⟨_,rfl,rfl⟩,trivial⟩
  have run := run.next (SyncOp.ack 0) ⟨⟨_,rfl,rfl⟩,trivial⟩
  have run := run.next (SyncOp.purge "d1" "codex" true) ⟨rfl,trivial⟩
  have run := run.next (SyncOp.reset "d1" "codex" true) ⟨⟨List.mem_cons_self,rfl⟩,trivial⟩
  refine ⟨_,run,fun hsound => ?_⟩
  have hcons := Consistent.of_run hd (run.mono fun _ _ _ h => h.1)
  have hbelow := hcons.sound_iff.mp hsound
    (serverEvent "d1" "u1" (sampleUpload "claude_code" 7).batch ⟨7,"m1:7",⟨1,0,0,[10,2]⟩,12⟩)
    (by decide) (by decide) (by unfold Dropped; decide)
  revert hbelow
  decide

end TokiSync.SyncCursor
