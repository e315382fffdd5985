import TokiSync.DeactivatedUsers

/-!
# Administrators are appointed

The role of an administrator is written by few calls of the repository, and a
request makes these only when it bears the token of an administrator, whose role
it has looked up. So every administrator goes back, through such requests, to
one who was there at the start.
-/

namespace TokiSync.AppointedAdmins

open AnsweredQueries ByteCodec DatabaseCalls DatabaseRuns DeactivatedUsers InactiveUsers
open InterleavedSessions Runs ServerEvents SyncServer WebRequests WebServer WireWindows
open DatabaseRepo hiding CursorRow
open OidcAccounts (UserRow)
open SyncConnection (Formats)

/-- Calls that make a user an administrator. -/
def Promotes (userId : String) : DatabaseRuns.Write → Prop
  | .createUser id _ _ role _ => id=userId ∧ role="admin"
  | .updateUserRole id role _ => id=userId ∧ role="admin"
  | .createOidcUser user _ => user.id=userId ∧ user.role="admin"
  | .seed id _ _ => id=userId
  | _ => False

/-- A user was an administrator at the start, or was made one by a request that
bears the token of an appointed administrator. -/
inductive Appointed (start : Tables) : List WebLabel → String → Prop where
  | initial {history : List WebLabel} {userId : String} (admin : userIsAdmin start userId=true) :
    Appointed start history userId
  | promoted {newer older later earlier : List WebLabel} {userId adminId : String} {i : ℕ}
    {w : DatabaseRuns.Write} {reply : Except String (Write.Result w)} (promotes : Promotes userId w)
    (authenticated : WebEvidence.Authenticated (InterleavedSessions.inner i older) adminId)
    (checked : older=later++.session i (.call (.read (.userIsAdmin adminId)) (.ok true))::earlier)
    (appointed : Appointed start earlier adminId) :
    Appointed start (newer++.session i (.call (.write w) reply)::older) userId

section

variable {backend : OidcAccounts.Backend} {db db' : Tables} {w : DatabaseRuns.Write}
variable {userId : String}

/-- An administrator has a row with the role. -/
theorem userIsAdmin_iff : userIsAdmin db userId=true ↔
    ∃ row : UserRow, .user row∈db.rows ∧ row.id=userId ∧ row.role="admin" := by
  unfold userIsAdmin getUserById
  constructor
  · intro h
    split at h
    · rename_i row hfind
      obtain ⟨hmem,hkey⟩ := ReferencedRows.Database.find_eq_some.mp hfind
      exact ⟨row,hmem,Key.user.inj hkey,of_decide_eq_true h⟩
    · cases h
  · rintro ⟨row,hmem,hid,hrole⟩
    have hfind : db.find (.user userId)=some (.user row) :=
      ReferencedRows.Database.find_eq_some.mpr ⟨hmem,congrArg Key.user hid⟩
    rw [hfind]
    exact decide_eq_true hrole

/-- An update that keeps the roles makes nobody an administrator. -/
theorem admin_of_updated {p : Row → Bool} {f : UserRow → UserRow}
    (h : userIsAdmin (updateWhere db p _ (onUser_invisible f)).2 userId=true)
    (hf : ∀ row, (f row).role=row.role) :
    userIsAdmin db userId=true := by
  obtain ⟨row,hrow,hid,hrole⟩ := userIsAdmin_iff.mp h
  rcases user_of_updated hrow with ⟨old,hold,hsame,-,-,hold'⟩ | ⟨hold,-⟩
  · exact userIsAdmin_iff.mpr ⟨old,hold,hsame.trans hid,by rw [←hf,←hold',hrole]⟩
  · exact userIsAdmin_iff.mpr ⟨row,hold,hid,hrole⟩

/-- A new row makes its user an administrator, if it says so. -/
theorem admin_of_inserted {row : UserRow} (h : DatabaseRepo.insert db (.user row)=.ok db')
    (hadmin : userIsAdmin db' userId=true) :
    userIsAdmin db userId=true ∨ (row.id=userId ∧ row.role="admin") := by
  obtain ⟨other,hother,hid,hrole⟩ := userIsAdmin_iff.mp hadmin
  rcases mem_of_inserted h hother with hother | hsame
  · exact .inl (userIsAdmin_iff.mpr ⟨other,hother,hid,hrole⟩)
  · cases hsame
    exact .inr ⟨hid,hrole⟩

/-- A deletion makes nobody an administrator. -/
theorem admin_of_deleted {p : Row → Bool} (h : userIsAdmin (deleteWhere db p).2 userId=true) :
    userIsAdmin db userId=true := by
  obtain ⟨row,hrow,hid,hrole⟩ := userIsAdmin_iff.mp h
  exact userIsAdmin_iff.mpr ⟨row,(ReferencedRows.Database.mem_delete.mp hrow).1,hid,hrole⟩

/-- Neither does a call that leaves the rows of users. -/
theorem admin_of_untouched (hupdate : ∀ user : UserRow, ¬w.MayUpdate (.user user))
    (hinsert : Key.user userId∉w.inserts) (h : userIsAdmin (perform backend db w) userId=true) :
    userIsAdmin db userId=true := by
  obtain ⟨row,hrow,hid,hrole⟩ := userIsAdmin_iff.mp h
  obtain ⟨statements,run,hall⟩ := perform_does backend db w
  refine userIsAdmin_iff.mpr ⟨row,?_,hid,hrole⟩
  refine unedited run hall (fun other hkey => ?_) hinsert hrow (congrArg Key.user hid)
  obtain ⟨user,rfl,-⟩ := key_user hkey
  exact hupdate user

/-- A call that is refused makes nobody an administrator. -/
theorem admin_of_unrefused {α : Type} {result : Except Refusal α} {tables : α → Tables}
    (h : userIsAdmin (unlessRefused db result tables) userId=true) :
    userIsAdmin db userId=true ∨
      ∃ value, result=.ok value ∧ userIsAdmin (tables value) userId=true := by
  cases result with
  | ok value => exact .inr ⟨value,rfl,h⟩
  | error e => exact .inl h

/-- Nobody becomes an administrator but by the calls that make one. -/
theorem admin_before (h : userIsAdmin (perform backend db w) userId=true) :
    userIsAdmin db userId=true ∨ Promotes userId w := by
  cases w with
  | createUser id username passwordHash role now =>
    rcases admin_of_unrefused h with hadmin | ⟨created,hresult,hadmin⟩
    · exact .inl hadmin
    · exact admin_of_inserted hresult hadmin
  | updatePassword id passwordHash now => exact .inl (admin_of_updated h fun _ => rfl)
  | setUserActive id active now => exact .inl (admin_of_updated h fun _ => rfl)
  | updateUserRole id role now =>
    obtain ⟨row,hrow,hid,hrole⟩ := userIsAdmin_iff.mp h
    rcases user_of_updated hrow with ⟨old,hold,hsame,hselected,-,hold'⟩ | ⟨hold,-⟩
    · have hkey : old.id=id := Key.user.inj (of_decide_eq_true hselected)
      exact .inr ⟨hkey.symm.trans (hsame.trans hid),hold'.symm.trans hrole⟩
    · exact .inl (userIsAdmin_iff.mpr ⟨row,hold,hid,hrole⟩)
  | createOidcUser user now =>
    rcases admin_of_unrefused h with hadmin | ⟨created,hresult,hadmin⟩
    · exact .inl hadmin
    · unfold createOidcUser at hresult
      split_ifs at hresult
      · cases hresult
        exact .inl (admin_of_updated hadmin fun _ => rfl)
      · exact admin_of_inserted hresult hadmin
  | approveRegistration id user now =>
    rcases admin_of_unrefused h with hadmin | ⟨result,hresult,hadmin⟩
    · exact .inl hadmin
    · unfold approveRegistration at hresult
      split at hresult
      · split_ifs at hresult
        obtain ⟨created,hcreated,hdone⟩ := DatabaseRuns.bind_eq_ok.mp hresult
        cases hdone
        rcases admin_of_inserted hcreated (admin_of_deleted hadmin) with hadmin | ⟨-,hrole⟩
        · exact .inl hadmin
        · exact absurd hrole (by simp)
      · cases hresult
        exact .inl hadmin
  | seed id passwordHash now =>
    rcases admin_of_unrefused h with hadmin | ⟨seeded,hresult,hadmin⟩
    · exact .inl hadmin
    · unfold seed at hresult
      split_ifs at hresult
      · cases hresult
        exact .inl hadmin
      · exact (admin_of_inserted hresult hadmin).imp_right And.left
  | _ =>
    exact .inl (admin_of_untouched (fun user hrow => by cases hrow) (by simp [Write.inserts]) h)

end

section

variable {E : Environment} {F : Formats} {eventCodec : Codec PersistedEvent}
variable {windowCodec : Codec WireWindow} {backend : OidcAccounts.Backend} {L : Libraries}
variable {dedupRetentionSecs : Int64} {init host : WebHost} {label : WebLabel}
variable {newer older history : List WebLabel} {w : DatabaseRuns.Write} {userId : String} {i : ℕ}

/-- Neither a connection nor a task makes an administrator. -/
theorem request_of_promotes (hasks : Asks label w) (hw : Promotes userId w) :
    ∃ i reply, label=.session i (.call (.write w) reply) := by
  cases label with
  | session i e =>
    obtain ⟨reply,rfl⟩ := write_of_asks hasks
    exact ⟨i,reply,rfl⟩
  | environment e =>
    obtain ⟨l,hstem,hl⟩ := hasks
    cases hstem with
    | beside =>
      cases e with
      | connection i e =>
        rcases hl with hl | ⟨j,op,reply,now,hl,hop⟩
        · cases hl
        · cases op <;> cases hop <;> exact hw.elim
      | task task =>
        rcases hl with hl | ⟨j,op,reply,now,hl,-⟩
        · cases task <;> cases hl <;> exact hw.elim
        · cases hl

/-- A request makes an administrator only for an administrator. -/
theorem byAdmin_of_promotes {past : List WebEvidence.Happening}
    (hpermitted : WebEvidence.Permitted E past w) (hw : Promotes userId w) :
    WebEvidence.ByAdmin past := by
  cases w with
  | createUser id username hash role now =>
    obtain ⟨password,-,-,-,⟨r,hadmin,-⟩ | ⟨-,hrole,-⟩⟩ := hpermitted
    · exact hadmin
    · exact absurd (hrole.symm.trans hw.2) (by simp)
  | updateUserRole id role now => exact hpermitted.1
  | createOidcUser user now => exact absurd (hpermitted.2.symm.trans hw.2) (by simp)
  | seed id hash now => exact hpermitted.elim
  | _ => exact hw.elim

/-- A role that a request has looked up is that of the database. -/
theorem admin_of_checked {adminId : String} {later earlier : List WebLabel}
    (run : Run (WebStep E F eventCodec windowCodec backend L dedupRetentionSecs) init
      (later++.session i (.call (.read (.userIsAdmin adminId)) (.ok true))::earlier) host) :
    ∃ mid, Run (WebStep E F eventCodec windowCodec backend L dedupRetentionSecs) init earlier mid ∧
      userIsAdmin mid.shared.server.db adminId=true := by
  obtain ⟨checked,hchecked,-⟩ := run.split
  cases hchecked with
  | next _ hpast taken =>
    refine ⟨_,hpast,?_⟩
    cases taken with
    | call phase effect =>
      rcases effect.2 with ⟨r,hanswers,hreply⟩ | ⟨e,hreply⟩
      · cases hreply
        exact Eq.symm hanswers
      · cases hreply

/-- Who has been appointed stays so when more happens. -/
theorem Appointed.later {start : Tables} (h : Appointed start older userId) :
    Appointed start (newer++older) userId := by
  cases h with
  | initial admin => exact .initial admin
  | promoted promotes authenticated checked appointed =>
    rw [←List.append_assoc]
    exact .promoted promotes authenticated checked appointed

/-- The administrators of a state are those of the state before and those that a
request of an administrator has made. -/
theorem promoted_of_step {s t : WebHost} (hunopened : ∀ i, init.phases i=.unopened)
    (run : Run (WebStep E F eventCodec windowCodec backend L dedupRetentionSecs) init older s)
    (taken : WebStep E F eventCodec windowCodec backend L dedupRetentionSecs s label t)
    (hadmin : userIsAdmin t.shared.server.db userId=true) :
    userIsAdmin s.shared.server.db userId=true ∨ ∃ i w reply adminId,
      label=.session i (.call (.write w) reply) ∧ Promotes userId w ∧
      WebEvidence.Admin (InterleavedSessions.inner i older) adminId := by
  rcases db_of_step taken with hsame | ⟨w,hasks,hdone⟩
  · exact .inl (hsame ▸ hadmin)
  · rw [hdone] at hadmin
    rcases admin_before hadmin with hbefore | hw
    · exact .inl hbefore
    · obtain ⟨i,reply,rfl⟩ := request_of_promotes hasks hw
      have hpermitted : WebEvidence.Permitted E (InterleavedSessions.inner i older) w :=
        @WebRuns.authorized_of_run _ _ _ _ _ _ _ _ _ [] _ _ _ _ hunopened (.next _ run taken)
      obtain ⟨adminId,hadminId⟩ := byAdmin_of_promotes hpermitted hw
      exact .inr ⟨i,w,reply,adminId,rfl,hw,hadminId⟩

/-- However requests, connections and tasks interleave, an administrator was one
at the start or was made one by a request that bore the token of an
administrator, found that user active and looked up the role, and so on back to
the start. -/
theorem admins_appointed (hunopened : ∀ i, init.phases i=.unopened)
    (run : Run (WebStep E F eventCodec windowCodec backend L dedupRetentionSecs) init history host)
    (hadmin : userIsAdmin host.shared.server.db userId=true) :
    Appointed init.shared.server.db history userId := by
  induction hlength : history.length using Nat.strong_induction_on
    generalizing history host userId with
  | _ n ih =>
    cases run with
    | start => exact .initial hadmin
    | @next past s _ label run taken =>
      have hless : past.length<n := by
        rw [←hlength]
        exact Nat.lt_succ_self _
      rcases promoted_of_step hunopened run taken hadmin with hbefore |
        ⟨i,w,reply,adminId,rfl,hw,hadminId⟩
      · show Appointed _ ([label]++past) userId
        exact (ih past.length hless run hbefore rfl).later
      · obtain ⟨later,earlier,rfl⟩ := split_of_mem_own (List.mem_filter.mp hadminId.2).1
        obtain ⟨mid,hmid,hadminMid⟩ := admin_of_checked run
        have hearlier : earlier.length<n := by
          refine Nat.lt_of_le_of_lt ?_ hless
          simp only [List.length_append,List.length_cons]
          omega
        have happointed := ih earlier.length hearlier hmid hadminMid rfl
        exact @Appointed.promoted _ [] _ _ _ _ _ _ _ _ hw hadminId.1 rfl happointed

end

/-- A request of the administrator to make the user one. -/
def sampleAppointment : Request :=
  ⟨⟨some "Bearer admin",none,"127.0.0.1"⟩,.adminChangeUserRole "u1" "admin"⟩

/-- What happens to the request up to the write, newest event first. -/
def sampleAppointing : List WebEvidence.Happening :=
  [.call (.write (.updateUserRole "u1" "admin" 1)) (.ok true),.call .timestamp 1,
    .call (.read (.userIsAdmin "u2")) (.ok true),.call (.lookup (.insertIfCurrent "u2" true 0)) (),
    .call (.lookup (.getUserById "u2"))
      (.ok (some ⟨"u2","root","hash","admin",1,1,none,none,true⟩)),
    .call (.lookup .generation) 0,.call (.lookup (.getFresh "u2")) none,
    .call (.lookup (.verifyAccess "admin")) (.ok ⟨"u2","j2","access",3600,0,none,none⟩),
    .arrive sampleAppointment,.opened]

/-- The server takes these steps and the user becomes an administrator. -/
theorem sampleAppointed : ∃ host, Run (WebStep sampleEnvironment sampleTokens eventLayout.codec
      WindowStore.windowLayout.codec .sqlite sampleLibraries 2592000) sampleStart
      (sampleAppointing.map (.session 0)) host ∧
    userIsAdmin host.shared.server.db "u1"=true := by
  have run : Run (WebStep sampleEnvironment sampleTokens eventLayout.codec
      WindowStore.windowLayout.codec .sqlite sampleLibraries 2592000) sampleStart [] sampleStart :=
    .start
  have run := run_at 0 rfl run
  have run := opens_next run rfl
  have run := arrive_next sampleAppointment run
  have run := call_next (.ok _) run ⟨True.intro,_,⟨rfl,0,rfl⟩,rfl⟩
  have run := call_next none run ⟨True.intro,_,⟨rfl,rfl⟩,rfl⟩
  have run := call_next 0 run ⟨True.intro,_,⟨rfl,rfl⟩,rfl⟩
  have run := call_next (.ok (some _)) run ⟨True.intro,_,⟨rfl,.inl rfl⟩,rfl⟩
  have run := call_next () run ⟨True.intro,_,rfl,rfl⟩
  have run := call_next (.ok true) run ⟨rfl,.inl ⟨true,rfl,rfl⟩⟩
  have run := call_next (1 : Int64) run rfl
  have run := call_next (.ok true) run ⟨_,.inl ⟨rfl,rfl⟩,rfl⟩
  exact ⟨_,run,rfl⟩

/-- The new administrator goes back to the one who was there at the start. -/
theorem admins_appointed_sample :
    Appointed sampleStart.shared.server.db (sampleAppointing.map (.session 0)) "u1" := by
  obtain ⟨host,run,hadmin⟩ := sampleAppointed
  exact admins_appointed (fun _ => rfl) run hadmin

end TokiSync.AppointedAdmins
