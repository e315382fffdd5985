import TokiSync.SyncServer

/-!
# Frames and their replies

A connection works in lockstep with its client. The first frame is answered by
the outcome of the handshake. Later every frame that asks for something is
answered by one frame of a fitting type before the next frame is read, and the
other frames are not answered. Only the frame a connection ends with may go
without its reply.
-/

namespace TokiSync.ConnectionReplies

open Runs ByteCodec ServerEvents WireWindows SyncBatches SyncConnection SyncServer
open InterleavedSessions

/-- A frame with the replies to it, and whether each was written. -/
structure Exchange where
  /-- What arrived. -/
  arrival : Arrival
  /-- The replies in their order. -/
  replies : List (Reply×Bool)

/-- The frames of a connection with their replies, newest first. -/
def exchanges : List (Event Answer Arrival) → List Exchange
  | [] => []
  | .arrive arrival::past => ⟨arrival,[]⟩::exchanges past
  | .call (.write reply) written::past =>
    match exchanges past with
    | x::rest => {x with replies := x.replies++[(reply,written.isOk)]}::rest
    | [] => []
  | _::past => exchanges past

/-- Whether a reply fits a frame. -/
def fits (first : Bool) : Arrival → Reply → Bool
  | .frame .auth _, .authOk _ => first
  | .frame .auth _, .authErr _ _ => first
  | .frame .getLastTs _, .lastTs _ => !first
  | .frame .syncBatch _, .syncAck _ => !first
  | .frame .syncBatch _, .syncErr _ => !first
  | .frame .syncBatchZstd _, .syncAck _ => !first
  | .frame .syncBatchZstd _, .syncErr _ => !first
  | .frame .syncWindows _, .syncAck _ => !first
  | .frame .syncWindows _, .syncErr _ => !first
  | .frame .ping _, .pong => !first
  | _, _ => false

/-- Whether a connection may go on after a frame and its replies. -/
def Completed (first : Bool) (x : Exchange) : Prop :=
  match first, x.arrival with
  | true, .frame .auth _ => ∃ deviceId, x.replies=[(.authOk deviceId,true)]
  | true, _ => False
  | false, .frame .getLastTs _ => ∃ tsMs, x.replies=[(.lastTs tsMs,true)]
  | false, .frame .syncBatch _ => ∃ reply, x.replies=[(reply,true)] ∧ fits false x.arrival reply
  | false, .frame .syncBatchZstd _ =>
    ∃ reply, x.replies=[(reply,true)] ∧ fits false x.arrival reply
  | false, .frame .syncWindows _ => ∃ reply, x.replies=[(reply,true)] ∧ fits false x.arrival reply
  | false, .frame .ping _ => x.replies=[(.pong,true)]
  | false, _ => x.replies=[]

/-- All frames of a list are completed; the last one is the first frame. -/
def AllCompleted : List Exchange → Prop
  | [] => True
  | x::rest => Completed rest.isEmpty x ∧ AllCompleted rest

/-- The newest frame has at most one reply, which fits it, and the earlier
frames are completed. -/
def InStep : List Exchange → Prop
  | [] => True
  | x::rest => (x.replies=[] ∨ ∃ reply written, x.replies=[(reply,written)] ∧
      fits rest.isEmpty x.arrival reply=true) ∧ AllCompleted rest

/-- A reply may be written when it is the first one to its frame and fits. -/
def MayReply (past : List Exchange) (reply : Reply) : Prop :=
  ∃ arrival rest, past=⟨arrival,[]⟩::rest ∧ fits rest.isEmpty arrival reply=true

/-- A connection remembers its frames and their replies. -/
def lockstep : Contract Answer Arrival (List Exchange) where
  start := []
  arrive past arrival := ⟨arrival,[]⟩::past
  mayCall past
    | .write reply => MayReply past reply
    | _ => True
  answers _ _ _ := True
  called past op answer :=
    match op, answer with
    | .write reply, written =>
      match past with
      | x::rest => {x with replies := x.replies++[(reply,written.isOk)]}::rest
      | [] => []
    | _, _ => past
  quit past := past

/-- Between two frames everything so far is completed. -/
def Caught (past : List Exchange) : Session → Prop
  | .handshake => past=[]
  | .serving _ _ => past≠[] ∧ AllCompleted past

/-- What a handler leaves: a session that has caught up. -/
def LeavesCaught (past : List Exchange) (result : Option Session) : Prop :=
  ∀ s, result=some s → Caught past s

theorem follow_lockstep (events : List (Event Answer Arrival)) :
    lockstep.follow events=exchanges events := by
  induction events with
  | nil => rfl
  | cons e past ih =>
    rw [Contract.follow,ih]
    cases e with
    | call op reply => cases op <;> rfl
    | _ => rfl

section

variable {rest past : List Exchange} {arrival : Arrival} {userId deviceId : String}

/-- The rule of a reply after which the connection ends. -/
theorem meets_last {reply : Reply} (hfits : fits rest.isEmpty arrival reply=true) :
    Meets lockstep LeavesCaught (⟨arrival,[]⟩::rest) (send reply none) := by
  refine .perform ⟨arrival,rest,rfl,hfits⟩ fun written _ => ?_
  cases written <;> exact fun _ h => nomatch h

/-- The rule of a reply after which the connection goes on. -/
theorem meets_reply {reply : Reply} (hfits : fits rest.isEmpty arrival reply=true)
    (hcompleted : Completed rest.isEmpty ⟨arrival,[(reply,true)]⟩) (hrest : AllCompleted rest) :
    Meets lockstep LeavesCaught (⟨arrival,[]⟩::rest)
      (send reply (some (.serving userId deviceId))) := by
  refine .perform ⟨arrival,rest,rfl,hfits⟩ fun written _ => ?_
  cases written with
  | error e => exact fun _ h => nomatch h
  | ok u =>
    intro s hs
    cases hs
    exact ⟨List.cons_ne_nil _ _,hcompleted,hrest⟩

/-- The check whether a user is active replies nothing. -/
theorem meets_active (userId : String) :
    Meets lockstep (fun past' _ => past'=past) past (isUserActiveCached userId) := by
  refine .perform True.intro fun fresh _ => ?_
  cases fresh with
  | some active => exact rfl
  | none =>
    refine .perform True.intro fun genAtRead _ => ?_
    refine .perform True.intro fun row _ => ?_
    cases row with
    | error e => exact rfl
    | ok row => exact .perform True.intro fun _ _ => rfl

theorem meets_device (userId deviceName deviceKey : String) :
    Meets lockstep (fun past' _ => past'=past) past
      (findOrCreateDevice userId deviceName deviceKey) := by
  refine .perform True.intro fun found _ => ?_
  cases found with
  | error e => exact rfl
  | ok found =>
    cases found with
    | some id =>
      refine .perform True.intro fun seen _ => ?_
      cases seen <;> exact rfl
    | none =>
      refine .perform True.intro fun created _ => ?_
      cases created <;> exact rfl

/-- The first frame is answered by the outcome of the handshake. -/
theorem meets_handshake (F : Formats) (arrival : Arrival) :
    Meets lockstep LeavesCaught [⟨arrival,[]⟩] (handshake F arrival) := by
  cases arrival with
  | failed => exact fun _ h => nomatch h
  | timeout => exact fun _ h => nomatch h
  | frame msgType payload =>
    unfold handshake
    dsimp only
    split
    · exact fun _ h => nomatch h
    split
    · exact fun _ h => nomatch h
    rename_i hauth
    rw [not_not.mp hauth]
    split
    · exact fun _ h => nomatch h
    unfold authenticate
    split
    · exact meets_last rfl
    refine .perform True.intro fun verified _ => ?_
    cases verified with
    | error e => exact meets_last rfl
    | ok claims =>
      refine (meets_active claims.sub).bind fun past active hpast => ?_
      subst hpast
      cases active with
      | error e => exact meets_last rfl
      | ok active =>
        cases active with
        | false => exact meets_last rfl
        | true =>
          dsimp only
          unfold openSession
          split
          · exact meets_last rfl
          refine (meets_device _ _ _).bind fun past device hpast => ?_
          subst hpast
          cases device with
          | error e => exact fun _ h => nomatch h
          | ok deviceId =>
            dsimp only
            split
            · exact .perform True.intro fun _ _ => .perform True.intro fun _ _ => meets_last rfl
            refine .perform True.intro fun ensured _ => ?_
            cases ensured with
            | error e => exact fun _ h => nomatch h
            | ok u => exact meets_reply rfl ⟨deviceId,rfl⟩ True.intro

/-- A frame that is answered by an acknowledgement or an error. -/
structure Uploads (arrival : Arrival) : Prop where
  /-- Both kinds of replies fit. -/
  ack : ∀ lastTsMs, fits false arrival (.syncAck lastTsMs)=true
  /-- Both kinds of replies fit. -/
  err : ∀ reason, fits false arrival (.syncErr reason)=true
  /-- Either completes it. -/
  completed : ∀ reply, fits false arrival reply=true →
    Completed false ⟨arrival,[(reply,true)]⟩

theorem Uploads.reply (h : Uploads arrival) (hfirst : rest.isEmpty=false)
    (hrest : AllCompleted rest) {reply : Reply} (hfits : fits false arrival reply=true) :
    Meets lockstep LeavesCaught (⟨arrival,[]⟩::rest)
      (send reply (some (.serving userId deviceId))) := by
  refine meets_reply ?_ ?_ hrest
  · rw [hfirst]
    exact hfits
  · rw [hfirst]
    exact h.completed reply hfits

theorem Uploads.whenActive (h : Uploads arrival) (hfirst : rest.isEmpty=false)
    {next : Handling} (hnext : Meets lockstep LeavesCaught (⟨arrival,[]⟩::rest) next) :
    Meets lockstep LeavesCaught (⟨arrival,[]⟩::rest) (whenActive userId next) := by
  refine (meets_active userId).bind fun past active hpast => ?_
  subst hpast
  cases active with
  | error e => exact fun _ h => nomatch h
  | ok active =>
    cases active with
    | false =>
      refine meets_last ?_
      rw [hfirst]
      exact h.err _
    | true => exact hnext

/-- Storing a batch replies nothing. -/
theorem meets_handleSyncBatch (dedupRetentionSecs : Int64) (upload : Upload) :
    Meets lockstep (fun past' _ => past'=past) past
      (handleSyncBatch dedupRetentionSecs upload) := by
  unfold handleSyncBatch
  split
  · exact ⟨True.intro,fun _ _ => rfl⟩
  split
  · exact rfl
  refine .perform True.intro fun permit _ => ?_
  cases permit with
  | error e => exact rfl
  | ok u =>
    refine .perform True.intro fun upserted _ => ?_
    refine .perform True.intro fun _ _ => ?_
    cases upserted with
    | error e => exact rfl
    | ok v =>
      refine .perform True.intro fun advanced _ => ?_
      cases advanced with
      | error e => exact rfl
      | ok w =>
        dsimp only
        split
        · exact .perform True.intro fun _ _ => rfl
        · exact rfl

theorem Uploads.batch (h : Uploads arrival) (hfirst : rest.isEmpty=false)
    (hrest : AllCompleted rest) (F : Formats) (dedupRetentionSecs : Int64)
    (msgType : MsgType) (payload : ByteKeys.Bytes) :
    Meets lockstep LeavesCaught (⟨arrival,[]⟩::rest)
      (syncBatch F dedupRetentionSecs userId deviceId msgType payload) := by
  refine h.whenActive hfirst ?_
  split
  · exact fun _ h => nomatch h
  refine .perform True.intro fun ensured _ => ?_
  cases ensured with
  | error e => exact fun _ h => nomatch h
  | ok u =>
    refine (meets_handleSyncBatch dedupRetentionSecs _).bind fun past result hpast => ?_
    subst hpast
    cases result with
    | error reason => exact h.reply hfirst hrest (h.err reason)
    | ok lastTs => exact h.reply hfirst hrest (h.ack lastTs)

theorem Uploads.windows (h : Uploads arrival) (hfirst : rest.isEmpty=false)
    (hrest : AllCompleted rest) (F : Formats) (payload : ByteKeys.Bytes) :
    Meets lockstep LeavesCaught (⟨arrival,[]⟩::rest) (syncWindows F userId deviceId payload) := by
  refine h.whenActive hfirst ?_
  split
  · exact h.reply hfirst hrest (h.err _)
  split
  · exact fun _ h => nomatch h
  split
  · exact h.reply hfirst hrest (h.err _)
  split
  · exact h.reply hfirst hrest (h.err _)
  refine .perform True.intro fun allowed _ => ?_
  cases allowed with
  | false => exact h.reply hfirst hrest (h.err _)
  | true =>
    refine .perform True.intro fun nowMs _ => ?_
    refine .perform True.intro fun permit _ => ?_
    cases permit with
    | error e => exact fun _ h => nomatch h
    | ok u =>
      refine .perform True.intro fun items _ => ?_
      refine .perform True.intro fun upserted _ => ?_
      refine .perform True.intro fun _ _ => ?_
      split
      · rename_i reply hreply
        refine h.reply hfirst hrest ?_
        unfold windowsReply at hreply
        split at hreply
        · cases hreply
          exact h.ack _
        · cases hreply
          exact h.err _
        · cases hreply
      · exact fun _ h => nomatch h

/-- Every later frame is answered as its type asks. -/
theorem meets_serve (F : Formats) (dedupRetentionSecs : Int64) (hfirst : rest.isEmpty=false)
    (hrest : AllCompleted rest) (arrival : Arrival) :
    Meets lockstep LeavesCaught (⟨arrival,[]⟩::rest)
      (serve F dedupRetentionSecs userId deviceId arrival) := by
  have hignored : Completed false ⟨arrival,[]⟩ →
      Meets lockstep LeavesCaught (⟨arrival,[]⟩::rest)
        (pure (some (.serving userId deviceId))) := by
    intro hcompleted s hs
    cases hs
    rw [←hfirst] at hcompleted
    exact ⟨List.cons_ne_nil _ _,hcompleted,hrest⟩
  cases arrival with
  | failed => exact fun _ h => nomatch h
  | timeout => exact fun _ h => nomatch h
  | frame msgType payload =>
    unfold serve
    dsimp only
    split
    · exact fun _ h => nomatch h
    cases msgType with
    | getLastTs =>
      dsimp only
      split
      · exact fun _ h => nomatch h
      refine .perform True.intro fun ts _ => ?_
      cases ts with
      | error e => exact fun _ h => nomatch h
      | ok ts =>
        refine meets_reply ?_ ?_ hrest
        · rw [hfirst]
          rfl
        · rw [hfirst]
          exact ⟨ts,rfl⟩
    | syncBatch =>
      have h : Uploads (.frame .syncBatch payload) :=
        ⟨fun _ => rfl,fun _ => rfl,fun reply hfits => ⟨reply,rfl,hfits⟩⟩
      exact h.batch hfirst hrest F dedupRetentionSecs _ _
    | syncBatchZstd =>
      have h : Uploads (.frame .syncBatchZstd payload) :=
        ⟨fun _ => rfl,fun _ => rfl,fun reply hfits => ⟨reply,rfl,hfits⟩⟩
      exact h.batch hfirst hrest F dedupRetentionSecs _ _
    | syncWindows =>
      have h : Uploads (.frame .syncWindows payload) :=
        ⟨fun _ => rfl,fun _ => rfl,fun reply hfits => ⟨reply,rfl,hfits⟩⟩
      exact h.windows hfirst hrest F _
    | ping =>
      refine meets_reply ?_ ?_ hrest
      · rw [hfirst]
        rfl
      · rw [hfirst]
        exact rfl
    | _ => exact hignored rfl

/-- Connections answer their frames one by one. -/
theorem handles_lockstep (F : Formats) (dedupRetentionSecs : Int64) :
    Handles lockstep Caught (handleConnection F dedupRetentionSecs) := by
  intro past s arrival hcaught
  cases s with
  | handshake =>
    have hpast : past=[] := hcaught
    subst hpast
    exact meets_handshake F arrival
  | serving userId deviceId =>
    obtain ⟨hne,hcompleted⟩ := hcaught
    refine meets_serve F dedupRetentionSecs ?_ hcompleted arrival
    rw [List.isEmpty_eq_false_iff]
    exact hne

end

section

variable {F : Formats} {eventCodec : Codec PersistedEvent} {windowCodec : Codec WireWindow}
variable {backend : OidcAccounts.Backend} {dedupRetentionSecs : Int64}

/-- What one connection remembers does not depend on the others. -/
theorem inStep_session {past : List ServerLabel} {i : ℕ} {e : Event Answer Arrival}
    (h : ∀ j, InStep (lockstep.follow (own j past)))
    (hi : InStep (lockstep.observe (lockstep.follow (own i past)) e)) (j : ℕ) :
    InStep (lockstep.follow (own j (.session i e::past))) := by
  by_cases hj : j=i
  · subst hj
    rw [own_session]
    exact hi
  · rw [own_session_of_ne (Ne.symm hj)]
    exact h j

/-- Every step keeps all connections in step. -/
theorem upholds_lockstep : Upholds lockstep Caught (services F eventCodec windowCodec backend)
    fun past _ => ∀ i, InStep (lockstep.follow (own i past)) where
  opened past i s t h _ := inStep_session h (h i)
  arrive past i arrival s waiting h hcaught := by
    refine inStep_session h ⟨.inl rfl,?_⟩
    cases waiting with
    | handshake =>
      have hpast : lockstep.follow (own i past)=[] := hcaught
      rw [hpast]
      exact True.intro
    | serving userId deviceId => exact hcaught.2
  call past i op s reply t h hmay _ := by
    refine ⟨True.intro,inStep_session h ?_⟩
    cases op with
    | write r =>
      obtain ⟨arrival,rest,hpast,hfits⟩ := hmay
      have hi := h i
      rw [hpast] at hi ⊢
      exact ⟨.inr ⟨r,_,rfl,hfits⟩,hi.2⟩
    | _ => exact h i
  finish past i s h := inStep_session h (h i)
  closed past i s t h _ := inStep_session h (h i)
  dropped past i s t h _ := inStep_session h (h i)
  environment past e s t h _ := h

/-- On every connection of every run, however the connections interleave, each
frame but the newest has been answered as its type asks, once and before the
next frame was read, and the newest frame has at most one reply, which fits
it. -/
theorem replies_in_step {init host : SyncHost} {history : List ServerLabel}
    (hunopened : ∀ i, init.phases i=.unopened)
    (run : Run (ServerStep F eventCodec windowCodec backend dedupRetentionSecs) init history host)
    (i : ℕ) : InStep (exchanges (own i history)) := by
  have hready : Caught lockstep.start .handshake := rfl
  have h := (upheld hready (handles_lockstep F dedupRetentionSecs) upholds_lockstep
    (fun _ => True.intro) hunopened run).1 i
  rw [follow_lockstep] at h
  exact h

/-- While a batch is stored, its frame has no reply and the handshake is
answered. -/
theorem replies_in_step_sample : InStep (exchanges (own 0 sampleLabels)) ∧
    exchanges (own 0 sampleLabels)=
      [⟨.frame .syncBatch [2],[]⟩,⟨.frame .auth [1],[(.authOk "d1",true)]⟩] := by
  obtain ⟨s,rest,run,-⟩ := sampleRun
  exact ⟨replies_in_step (fun _ => rfl) run 0,rfl⟩

end

end TokiSync.ConnectionReplies
