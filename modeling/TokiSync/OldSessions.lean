import TokiSync.PasswordRevocation

/-!
# Password changes on both backends

The runs of the requests on each backend are runs of a token ledger. On SQLite
the sweep is over as soon as it has started, so no rotation of an old token
commits after it. On PostgreSQL it ends when every row it has seen is locked.
-/

namespace TokiSync.OldSessions

open RefreshTokens RowVersions SnapshotWrites Runs TokenEffects SqliteTokens PostgresTokens
open TokenLedger PasswordRevocation

/-- The tokens of the user at the start, as a ledger. -/
def startLedger (req : Requests) : Ledger String :=
  .start (lineage req [])
    {k | ∃ row, req.tokens k=some row ∧ row.userId=req.user.id ∧ row.revoked=false}

/-- The ledger at the start is in order. -/
theorem ledgerInv_of_run {req : Requests} {u : List Unit} {l : Ledger String}
    (run : Run LedgerStep (startLedger req) u l) : LedgerInv l := by
  refine LedgerInv.of_run ?_ run
  rintro k ⟨row,hrow,huser,-⟩
  exact ⟨row,hrow,huser⟩

section

variable {req : Requests} {history : List SessionOp} {op : SessionOp}

/-- The table at the start is the ledger at the start. -/
theorem tracks_start (B : Backend) (hB : B.table (B.start req.tokens)=req.tokens) :
    Tracks req [] (B.table (Sessions.start B req).db) (Sessions.start B req).change
      (startLedger req) := by
  have htable : B.table (Sessions.start B req).db=req.tokens := hB
  rw [htable]
  refine ⟨fun k => Iff.rfl,fun k => Iff.rfl,rfl,?_,?_,?_,?_,?_,?_⟩
  · refine iff_of_false List.not_mem_nil ?_
    rintro ⟨seen,hs⟩
    cases hs
  · intro seen hs
    cases hs
  · rintro (hphase | hmem)
    · cases hphase
    · exact absurd hmem List.not_mem_nil
  · intro hphase
    cases hphase
  · exact fun hmem => absurd hmem List.not_mem_nil
  · intro hphase
    cases hphase

/-- Quiet steps that leave the table alone leave the ledger alone, apart from
the return of the change. -/
theorem Tracks.quiet_step {B : Backend} {s s' : Sessions B} {l : Ledger String}
    (h : Tracks req history (B.table s.db) s.change l) (hstep : SessionStep B req s op s')
    (hop : Quiet op) (htable : B.table s'.db=B.table s.db)
    (hfinish : op=.revokeUserFinish → l.swept) :
    Tracks req (op::history) (B.table s'.db) s'.change l := by
  rw [htable]
  cases hstep with
  | commit i => exact absurd hop id
  | loginStore n => exact absurd hop id
  | revokeUserStart => exact absurd hop id
  | changeRead hidle outcome =>
    refine h.quiet hop ?_ ?_ ?_ ?_
    · intro hphase
      rw [outcome] at hphase
      split_ifs at hphase
    · intro hphase
      rw [outcome] at hphase
      split_ifs at hphase
    · intro hphase
      rw [hidle] at hphase
      simp only [reduceCtorEq,or_self] at hphase
    · intro hphase
      dsimp only at hphase
      rw [outcome] at hphase
      split_ifs at hphase
  | changeUpdate hauthorized =>
    refine h.quiet hop (fun _ => Or.inr rfl) ChangePhase.noConfusion ?_ ChangePhase.noConfusion
    intro hphase
    rw [hauthorized] at hphase
    simp only [reduceCtorEq,or_self] at hphase
  | revokeUserFinish hrevoking run =>
    exact h.quiet hop ChangePhase.noConfusion ChangePhase.noConfusion
      (fun _ => Or.inr (Or.inl rfl)) (fun _ => hfinish rfl)
  | revokeUserAbort hrevoking run =>
    exact h.quiet hop ChangePhase.noConfusion ChangePhase.noConfusion
      (fun _ => Or.inr (Or.inr rfl)) ChangePhase.noConfusion
  | changeFail hbegun =>
    exact h.quiet hop ChangePhase.noConfusion ChangePhase.noConfusion
      (fun _ => Or.inr (Or.inr rfl)) ChangePhase.noConfusion
  | _ => exact h.quiet hop Or.inl id id h.returned

/-- The ledger that a run on SQLite follows. Its sweep is over as soon as it
has started, so a rotation comes too late only after a login has. -/
def FollowsSqlite (req : Requests) (history : List SessionOp) (s : Sessions sqlite) : Prop :=
  ∃ u l, Run LedgerStep (startLedger req) u l ∧ Tracks req history s.db.committed s.change l ∧
    (.revokeUserStart∈history → l.swept) ∧ (LoginsInTime history → RotationsInTime req history)

/-- Every run on SQLite follows a ledger. -/
theorem followsSqlite_of_run (huser : ∀ i, (req.rotation i).userId=req.user.id)
    {s : Sessions sqlite} (run : Run (SessionStep sqlite req) (.start sqlite req) history s) :
    FollowsSqlite req history s := by
  refine Run.invariant (I:=FollowsSqlite req) ?_ ?_ run
  · exact ⟨[],_,.start,tracks_start sqlite rfl,fun h => absurd h List.not_mem_nil,
      fun _ => trivial⟩
  · rintro past s op s' hrun ⟨u,l,lrun,htracks,hswept,htime⟩ hstep
    have hid := user_id_of_run hrun
    have heffect := (SqliteInv.of_run hrun).effect hid hstep
    have inv := ledgerInv_of_run lrun
    have hmem : op≠.revokeUserStart → .revokeUserStart∈op::past → .revokeUserStart∈past :=
      fun hne hmem => (List.mem_cons.mp hmem).resolve_left (Ne.symm hne)
    -- quiet steps leave the table and the ledger alone
    have hquiet : Quiet op → s'.db.committed=s.db.committed → FollowsSqlite req (op::past) s' := by
      intro hop htable
      have hne : op≠.revokeUserStart := by
        rintro rfl
        exact hop
      have hfinish : op=.revokeUserFinish → l.swept := by
        rintro rfl
        cases hstep with
        | revokeUserFinish hrevoking run => exact hswept (htracks.begun hrevoking)
      refine ⟨u,l,lrun,Tracks.quiet_step htracks hstep hop htable hfinish,
        fun hstart => hswept (hmem hne hstart),fun hl => ⟨?_,htime hl.2⟩⟩
      rintro i rfl
      exact absurd hop id
    cases op with
    | commit i =>
      obtain ⟨hfree,-⟩ := (SqliteInv.of_run hrun).commit_effect hstep
      obtain ⟨l',lstep,htracks',-,hsame⟩ := htracks.commit inv (huser i) heffect
      have hchange : s'.change=s.change := by
        cases hstep
        rfl
      rw [←hchange] at htracks'
      refine ⟨()::u,l',.next () lrun lstep,htracks',?_,fun hl => ⟨?_,htime hl.2⟩⟩
      · rw [hsame]
        exact fun hstart => hswept (hmem SessionOp.noConfusion hstart)
      · -- the token that is exchanged is unrevoked, so it is none of the old ones
        intro j heq hstart hold
        rw [SessionOp.commit.injEq] at heq
        rw [←heq] at hold
        have hended := (htracks.ended_iff inv (hswept hstart)).mpr ⟨hl.2,htime hl.2⟩
        obtain ⟨row,hrow,hunrevoked⟩ := isRevoked_eq_false.mp hfree
        rw [hended _ hold row hrow] at hunrevoked
        cases hunrevoked
    | loginStore n =>
      obtain ⟨l',lstep,htracks',-,hsame⟩ := htracks.loginStore inv heffect
      have hchange : s'.change=s.change := by
        cases hstep
        rfl
      rw [←hchange] at htracks'
      refine ⟨()::u,l',.next () lrun lstep,htracks',?_,fun hl => ⟨?_,htime hl.2⟩⟩
      · rw [hsame]
        exact fun hstart => hswept (hmem SessionOp.noConfusion hstart)
      · exact fun i heq => SessionOp.noConfusion heq
    | revokeUserStart =>
      have htable := revokeUserStart_effect hstep
      have hphase : s.change=.updated ∧ s'.change=.revoking := by
        cases hstep with
        | revokeUserStart hupdated run => exact ⟨hupdated,rfl⟩
      rw [hphase.1] at htracks
      obtain ⟨l₁,step₁,hseen₁,htracks₁⟩ := htracks.start inv
      have hknown : ∀ k, s'.db.committed k≠s.db.committed k → k∈l.present := by
        intro k hk
        rcases heffect k with hsame | ⟨row,hrow,hrowUser,-⟩
        · exact absurd hsame hk
        · exact (htracks.present k).mpr ⟨row,hrow,hrowUser⟩
      obtain ⟨l₂,step₂,hseen₂,htracks₂⟩ := htracks₁.drop hseen₁ heffect hknown
      have hall : ∀ k∈l.present, ∃ row, s'.db.committed k=some row ∧ row.revoked=true := by
        intro k hk
        obtain ⟨row,hrow,hrowUser⟩ := (htracks.present k).mp hk
        rw [htable,revokeUserRefreshTokens,hrow,hid,Option.map_some]
        split_ifs with hrev
        · exact ⟨_,rfl,rfl⟩
        · refine ⟨row,rfl,?_⟩
          rw [revocable,decide_eq_true hrowUser,Bool.true_and,Bool.not_eq_true',
            Bool.not_eq_false] at hrev
          exact hrev
      obtain ⟨l₃,step₃,-,hswept₃,htracks₃⟩ := htracks₂.finish hseen₂ hall
      rw [←hphase.2] at htracks₃
      refine ⟨_,l₃,.next () (.next () (.next () lrun step₁) step₂) step₃,htracks₃,
        fun _ => hswept₃,fun hl => ⟨?_,htime hl.2⟩⟩
      exact fun i heq => SessionOp.noConfusion heq
    | revokeUserFinish =>
      refine hquiet trivial ?_
      cases hstep with
      | revokeUserFinish hrevoking run =>
        cases run
        rfl
    | _ => exact hquiet trivial heffect

/-- The rows of the user while PostgreSQL revokes them: each row that was there
at the start is yet to be processed, written, or revoked by someone else. -/
structure Sweeping (s : Sessions postgres) (seen : Set String) : Prop where
  /-- No row is forgotten. -/
  covered : ∀ k∈seen, s.db.todo k=true ∨ (∃ v, s.db.rows.pending k=some (none,v)) ∨
    ∃ row, s.db.rows.committed k=some row ∧ row.revoked=true
  /-- Rows yet to be processed were there. -/
  todo : ∀ k, s.db.todo k=true → k∈seen
  /-- Rows that are written were there. -/
  written : ∀ k v, s.db.rows.pending k=some (none,v) → k∈seen

/-- Steps outside the revocation let it go on. -/
theorem Sweeping.keep {s s' : Sessions postgres} {seen : Set String} (h : Sweeping s seen)
    (htodo : s'.db.todo=s.db.todo)
    (hpending : ∀ k v, s'.db.rows.pending k=some (none,v) ↔ s.db.rows.pending k=some (none,v))
    (hextends : Extends s.db.rows.committed s'.db.rows.committed) : Sweeping s' seen := by
  refine ⟨?_,?_,?_⟩
  · intro k hk
    rw [htodo]
    rcases h.covered k hk with hdue | ⟨v,hv⟩ | hrevoked
    · exact Or.inl hdue
    · exact Or.inr (Or.inl ⟨v,(hpending k v).mpr hv⟩)
    · exact Or.inr (Or.inr (hextends.revoked hrevoked))
  · rw [htodo]
    exact h.todo
  · exact fun k v hv => h.written k v ((hpending k v).mp hv)

/-- The ledger that a run on PostgreSQL follows. -/
def FollowsPostgres (req : Requests) (history : List SessionOp) (s : Sessions postgres) : Prop :=
  ∃ u l, Run LedgerStep (startLedger req) u l ∧
    Tracks req history s.db.rows.committed s.change l ∧
    (s.change=.revoking → ∃ seen, l.seen=some seen ∧ Sweeping s seen)

/-- A write of a rotation leaves what the revocation has written. -/
theorem pending_none_write {rows : Versions String TokenRow (Option ℕ)} {i : ℕ} {jti : String}
    (hfree : rows.Free (some i) jti) (row : TokenRow) (k : String) (v : TokenRow) :
    (rows.write (some i) jti row).pending k=some (none,v) ↔ rows.pending k=some (none,v) := by
  rw [pending_write]
  split_ifs with hk
  · rw [hk]
    refine iff_of_false (fun h => by cases h) (fun h => ?_)
    cases hfree none v h
  · rfl

/-- Every step that stays within the revocation lets it go on. -/
theorem Sweeping.step {s s' : Sessions postgres} {seen : Set String} (h : Sweeping s seen)
    (hrows : ∀ k∈seen, ∃ row, s.db.rows.committed k=some row ∧ row.userId=s.user.id)
    (hextends : Extends s.db.rows.committed s'.db.rows.committed)
    (hstep : SessionStep postgres req s op s') (hrevoking : s.change=.revoking)
    (hrevoking' : s'.change=.revoking) : Sweeping s' seen := by
  cases hstep with
  | check i hidle run =>
    obtain ⟨-,rfl⟩ := run
    exact h.keep rfl (fun _ _ => Iff.rfl) hextends
  | update i hpassed run =>
    rcases run with ⟨-,rfl⟩ | ⟨row,hfree,-,rfl⟩
    · exact h.keep rfl (fun _ _ => Iff.rfl) hextends
    · exact h.keep rfl (pending_none_write hfree _) hextends
  | insert i hupdated run =>
    obtain ⟨-,hnone,rfl⟩ := run
    exact h.keep rfl (pending_none_write (free_of_not_pending hnone) _) hextends
  | commit i hinserted run =>
    cases run
    refine h.keep rfl (fun k v => ?_) hextends
    exact pending_commit.trans (and_iff_left (Option.some_ne_none i).symm)
  | abort i hopen run =>
    cases run
    refine h.keep rfl (fun k v => ?_) hextends
    exact pending_rollback.trans (and_iff_left (Option.some_ne_none i).symm)
  | loginRead n hidle outcome => exact h.keep rfl (fun _ _ => Iff.rfl) hextends
  | loginStore n hverified run =>
    obtain ⟨-,-,rfl⟩ := run
    exact h.keep rfl (fun _ _ => Iff.rfl) hextends
  | revokeUserRow jti _ run =>
    obtain ⟨hdue,hfree,rfl⟩ := run
    obtain ⟨row,hrow,huser⟩ := hrows jti (h.todo jti hdue)
    have htodo : ∀ k, Function.update s.db.todo jti false k=true → k≠jti ∧ s.db.todo k=true := by
      intro k hk
      rw [Function.update_apply] at hk
      split_ifs at hk with hkj
      exact ⟨hkj,hk⟩
    dsimp only at *
    rw [hrow] at hextends ⊢
    dsimp only at *
    -- the row is written, unless someone else has revoked it
    split_ifs with hrev
    · refine ⟨?_,fun k hk => h.todo k (htodo k hk).2,?_⟩
      · intro k hk
        dsimp only
        rw [pending_write,Function.update_apply]
        split_ifs with hkj
        · exact Or.inr (Or.inl ⟨_,rfl⟩)
        · exact h.covered k hk
      · intro k v hv
        dsimp only at hv
        rw [pending_write] at hv
        split_ifs at hv with hkj
        · rw [hkj]
          exact h.todo jti hdue
        · exact h.written k v hv
    · refine ⟨?_,fun k hk => h.todo k (htodo k hk).2,h.written⟩
      intro k hk
      dsimp only
      rw [Function.update_apply]
      split_ifs with hkj
      · rw [revocable,decide_eq_true huser,Bool.true_and,Bool.not_eq_true',
          Bool.not_eq_false] at hrev
        rw [hkj]
        exact Or.inr (Or.inr ⟨row,hrow,hrev⟩)
      · exact h.covered k hk
  | changeRead hidle outcome =>
    rw [hidle] at hrevoking
    cases hrevoking
  | revokeUserStart hupdated run =>
    rw [hupdated] at hrevoking
    cases hrevoking
  | _ => cases hrevoking'

/-- The revocation starts with the unrevoked rows of the user. -/
theorem sweeping_start {s s' : Sessions postgres} {seen : Set String} (inv : PostgresInv req s)
    (hseen : ∀ k, k∈seen ↔ ∃ row, s.db.rows.committed k=some row ∧ row.userId=s.user.id)
    (hstep : SessionStep postgres req s .revokeUserStart s') : Sweeping s' seen := by
  cases hstep with
  | revokeUserStart hupdated run =>
    cases run
    refine ⟨?_,?_,?_⟩
    · intro k hk
      obtain ⟨row,hrow,huser⟩ := (hseen k).mp hk
      cases hrevoked : row.revoked with
      | true => exact Or.inr (Or.inr ⟨row,hrow,hrevoked⟩)
      | false =>
        refine Or.inl ?_
        dsimp only
        rw [hrow,Option.any_some,revocable,decide_eq_true huser,hrevoked]
        rfl
    · intro k hk
      dsimp only at hk
      rw [Option.any_eq_true] at hk
      obtain ⟨row,hrow,hrev⟩ := hk
      rw [revocable,Bool.and_eq_true,decide_eq_true_eq] at hrev
      exact (hseen k).mpr ⟨row,hrow,hrev.1⟩
    · intro k v hv
      obtain ⟨hphase,-⟩ := inv.swept k v hv
      rw [hupdated] at hphase
      cases hphase

/-- What the revocation writes was there at its start. -/
theorem Sweeping.known {s : Sessions postgres} {seen : Set String} (h : Sweeping s seen)
    {k : String} (hk : s.db.rows.visible none k≠s.db.rows.committed k) : k∈seen := by
  by_contra hunseen
  exact hk (visible_of_not_pending fun v hv => hunseen (h.written k v hv))

/-- Once all rows are processed the revocation finds them revoked. -/
theorem Sweeping.all_revoked {s : Sessions postgres} {seen : Set String} (h : Sweeping s seen)
    (inv : PostgresInv req s) (hdone : ∀ k, s.db.todo k=false) {k : String} (hk : k∈seen) :
    ∃ row, s.db.rows.visible none k=some row ∧ row.revoked=true := by
  have hpending : ∀ v, s.db.rows.pending k=some (none,v) →
      ∃ row, s.db.rows.visible none k=some row ∧ row.revoked=true := by
    intro v hv
    obtain ⟨-,row,-,-,rfl⟩ := inv.swept k v hv
    exact ⟨_,visible_of_pending hv,rfl⟩
  rcases h.covered k hk with hdue | ⟨v,hv⟩ | ⟨row,hrow,hrevoked⟩
  · rw [hdone k] at hdue
    cases hdue
  · exact hpending v hv
  · by_cases hv : ∃ v, s.db.rows.pending k=some (none,v)
    · obtain ⟨v,hv⟩ := hv
      exact hpending v hv
    · exact ⟨row,(visible_of_not_pending fun v h => hv ⟨v,h⟩).trans hrow,hrevoked⟩

/-- Only its start makes a change revoke. -/
theorem revoking_before {s s' : Sessions postgres} (hstep : SessionStep postgres req s op s')
    (hne : op≠.revokeUserStart) (hphase : s'.change=.revoking) : s.change=.revoking := by
  cases hstep with
  | changeRead hidle outcome =>
    dsimp only at hphase
    rw [outcome] at hphase
    split_ifs at hphase
  | revokeUserStart => exact absurd rfl hne
  | revokeUserRow jti hrevoking run => exact hrevoking
  | changeUpdate => cases hphase
  | revokeUserFinish => cases hphase
  | revokeUserAbort => cases hphase
  | changeFail => cases hphase
  | _ => exact hphase

/-- Every run on PostgreSQL follows a ledger. -/
theorem followsPostgres_of_run (huser : ∀ i, (req.rotation i).userId=req.user.id)
    {s : Sessions postgres} (run : Run (SessionStep postgres req) (.start postgres req) history s) :
    FollowsPostgres req history s := by
  refine Run.invariant (I:=FollowsPostgres req) ?_ ?_ run
  · exact ⟨[],_,.start,tracks_start postgres rfl,fun h => ChangePhase.noConfusion h⟩
  · rintro past s op s' hrun ⟨u,l,lrun,htracks,hsweeping⟩ hstep
    have pinv := PostgresInv.of_run hrun
    have hid := user_id_of_run hrun
    have heffect := pinv.effect hid hstep
    have inv := ledgerInv_of_run lrun
    have hrows : ∀ seen, l.seen=some seen → ∀ k∈seen,
        ∃ row, s.db.rows.committed k=some row ∧ row.userId=s.user.id := by
      intro seen hs k hk
      rw [hid]
      exact (htracks.present k).mp (inv.seen seen hs k hk)
    -- the revocation goes on when the ledger has seen the same tokens
    have hgoes : op≠.revokeUserStart → s'.change=.revoking → ∀ l' : Ledger String,
        l'.seen=l.seen → ∃ seen, l'.seen=some seen ∧ Sweeping s' seen := by
      intro hne hphase l' hsame
      have hbefore := revoking_before hstep hne hphase
      obtain ⟨seen,hs,hsweep⟩ := hsweeping hbefore
      exact ⟨seen,hsame.trans hs,
        hsweep.step (hrows seen hs) heffect.extends hstep hbefore hphase⟩
    -- quiet steps leave the table and the ledger alone
    have hquiet : Quiet op → op≠.revokeUserFinish →
        s'.db.rows.committed=s.db.rows.committed → FollowsPostgres req (op::past) s' := by
      intro hop hfinish htable
      have hne : op≠.revokeUserStart := by
        rintro rfl
        exact hop
      exact ⟨u,l,lrun,Tracks.quiet_step htracks hstep hop htable
        (fun heq => absurd heq hfinish),fun hphase => hgoes hne hphase l rfl⟩
    cases op with
    | commit i =>
      obtain ⟨l',lstep,htracks',hseen,-⟩ := htracks.commit inv (huser i) heffect
      have hchange : s'.change=s.change := by
        cases hstep
        rfl
      rw [←hchange] at htracks'
      exact ⟨()::u,l',.next () lrun lstep,htracks',
        fun hphase => hgoes SessionOp.noConfusion hphase l' hseen⟩
    | loginStore n =>
      obtain ⟨l',lstep,htracks',hseen,-⟩ := htracks.loginStore inv heffect
      have hchange : s'.change=s.change := by
        cases hstep
        rfl
      rw [←hchange] at htracks'
      exact ⟨()::u,l',.next () lrun lstep,htracks',
        fun hphase => hgoes SessionOp.noConfusion hphase l' hseen⟩
    | revokeUserStart =>
      have hphase : s.change=.updated ∧ s'.change=.revoking ∧
          s'.db.rows.committed=s.db.rows.committed := by
        cases hstep with
        | revokeUserStart hupdated run =>
          cases run
          exact ⟨hupdated,rfl,rfl⟩
      rw [hphase.1] at htracks
      obtain ⟨l',lstep,hseen,htracks'⟩ := htracks.start inv
      rw [←hphase.2.1,←hphase.2.2] at htracks'
      refine ⟨()::u,l',.next () lrun lstep,htracks',fun _ => ⟨_,hseen,?_⟩⟩
      refine sweeping_start pinv (fun k => ?_) hstep
      rw [hid]
      exact htracks.present k
    | revokeUserFinish =>
      cases hstep with
      | revokeUserFinish hrevoking run =>
        obtain ⟨hdone,rfl⟩ := run
        obtain ⟨seen,hs,hsweep⟩ := hsweeping hrevoking
        obtain ⟨l₁,step₁,hseen₁,htracks₁⟩ := htracks.drop hs heffect fun k => hsweep.known
        have hall : ∀ k∈seen, ∃ row, s.db.rows.visible none k=some row ∧ row.revoked=true :=
          fun k => hsweep.all_revoked pinv hdone
        obtain ⟨l₂,step₂,-,hswept₂,htracks₂⟩ := htracks₁.finish hseen₁ hall
        refine ⟨_,l₂,.next () (.next () lrun step₁) step₂,?_,fun h => ChangePhase.noConfusion h⟩
        have hop : Quiet .revokeUserFinish := trivial
        exact htracks₂.quiet hop ChangePhase.noConfusion ChangePhase.noConfusion
          (fun _ => Or.inr (Or.inl rfl)) (fun _ => hswept₂)
    | _ => exact hquiet trivial SessionOp.noConfusion heffect

/-- A returned password change has ended the old sessions: on SQLite exactly
when no login that read the old password stored its token after the
revocation; on PostgreSQL exactly when moreover no rotation of an old token
committed after the revocation had started. -/
theorem old_sessions_ended_iff (huser : ∀ i, (req.rotation i).userId=req.user.id)
    {s : Sessions sqlite} {history' : List SessionOp} {s' : Sessions postgres}
    (onSqlite : Run (SessionStep sqlite req) (.start sqlite req) history s)
    (onPostgres : Run (SessionStep postgres req) (.start postgres req) history' s')
    (returned : s.change=.returned) (returned' : s'.change=.returned) :
    (OldSessionsEnded req history s.db.committed ↔ LoginsInTime history) ∧
    (OldSessionsEnded req history' s'.db.rows.committed ↔
      LoginsInTime history' ∧ RotationsInTime req history') := by
  obtain ⟨u,l,lrun,htracks,-,htime⟩ := followsSqlite_of_run huser onSqlite
  obtain ⟨u',l',lrun',htracks',-⟩ := followsPostgres_of_run huser onPostgres
  refine ⟨?_,htracks'.ended_iff (ledgerInv_of_run lrun') (htracks'.returned returned')⟩
  rw [htracks.ended_iff (ledgerInv_of_run lrun) (htracks.returned returned)]
  exact ⟨fun h => h.1,fun h => ⟨h,htime h⟩⟩

end

/-- A password change with nothing in flight, on SQLite. -/
def changeOnSqlite : List SessionOp :=
  [.revokeUserFinish,.revokeUserStart,.changeUpdate,.changeRead]

/-- A password change with nothing in flight, on PostgreSQL. -/
def changeOnPostgres : List SessionOp :=
  [.revokeUserFinish,.revokeUserRow "t0",.revokeUserStart,.changeUpdate,.changeRead]

/-- A login that stores its token after the change has returned. -/
def lateLogin : List SessionOp :=
  .loginStore 0::changeOnSqlite++[.loginRead 0]

/-- A rotation that looks its token up before the change and goes on after it. -/
def lateRotation : List SessionOp :=
  [.commit 0,.insert 0,.update 0]++changeOnPostgres++[.check 0]

/-- The change on SQLite runs and returns, also after another step that leaves
the requests of the change alone. -/
theorem run_changeOnSqlite {past : List SessionOp} {s : Sessions sqlite}
    (run : Run (SessionStep sqlite sampleRequests) (.start sqlite sampleRequests) past s)
    (hidle : s.change=.idle) (hwriter : s.db.writer=none) :
    Run (SessionStep sqlite sampleRequests) (.start sqlite sampleRequests) (changeOnSqlite++past)
      {s with
        db := s.db.put (revokeUserRefreshTokens s.db.committed s.user.id)
        user := {s.user with passwordHash := sampleRequests.change.newHash}
        change := .returned} := by
  have read := Run.next SessionOp.changeRead run (SessionStep.changeRead hidle rfl)
  have updated := Run.next SessionOp.changeUpdate read (SessionStep.changeUpdate rfl)
  have revoked := Run.next SessionOp.revokeUserStart updated
    (SessionStep.revokeUserStart rfl ⟨hwriter,rfl⟩)
  exact Run.next SessionOp.revokeUserFinish revoked (SessionStep.revokeUserFinish rfl rfl)

/-- The change on PostgreSQL runs and returns, while the one token is
committed and nobody writes. -/
theorem run_changeOnPostgres {past : List SessionOp} {s : Sessions postgres}
    (run : Run (SessionStep postgres sampleRequests) (.start postgres sampleRequests) past s)
    (hidle : s.change=.idle) (huser : s.user=sampleRequests.user)
    (hrows : s.db.rows=.start sampleRequests.tokens) :
    ∃ todo, Run (SessionStep postgres sampleRequests) (.start postgres sampleRequests)
      (changeOnPostgres++past)
      {s with
        db := ⟨(s.db.rows.write none "t0" (freshRow "u1" none 100 5).revoke).commit none,todo⟩
        user := {s.user with passwordHash := sampleRequests.change.newHash}
        change := .returned} := by
  have read := Run.next SessionOp.changeRead run (SessionStep.changeRead hidle rfl)
  rw [huser] at read
  have updated := Run.next SessionOp.changeUpdate read (SessionStep.changeUpdate rfl)
  have started := Run.next SessionOp.revokeUserStart updated (SessionStep.revokeUserStart rfl rfl)
  have hone : ∀ k, (sampleRequests.tokens k).any (revocable "u1")=decide (k="t0") := by
    intro k
    dsimp only [sampleRequests]
    split_ifs with hk
    · rw [hk]
      rfl
    · rw [decide_eq_false hk]
      rfl
  have processed := Run.next (SessionOp.revokeUserRow "t0") started
    (SessionStep.revokeUserRow "t0" rfl ⟨?_,?_,rfl⟩)
  · have hrow : s.db.rows.committed "t0"=some (freshRow "u1" none 100 5) := by
      rw [hrows]
      rfl
    dsimp only at processed
    rw [hrow] at processed
    have finished := Run.next SessionOp.revokeUserFinish processed
      (SessionStep.revokeUserFinish rfl ⟨?_,rfl⟩)
    · rw [huser]
      exact ⟨_,finished⟩
    · intro k
      dsimp only
      rw [Function.update_apply,hrows]
      split_ifs with hk
      · rfl
      · exact (hone k).trans (decide_eq_false hk)
  · dsimp only
    rw [hrows]
    exact (hone "t0").trans (decide_eq_true rfl)
  · dsimp only
    rw [hrows]
    exact free_of_not_pending rfl

/-- A login with the old password that stores its token while the change is under
way, before the revocation. -/
def loginMeanwhile : List SessionOp :=
  [.revokeUserFinish,.revokeUserStart,.loginStore 0,.changeUpdate,.changeRead,.loginRead 0]

/-- A rotation that looks its token up before the change and commits before the
revocation. -/
def rotationMeanwhile : List SessionOp :=
  [.revokeUserFinish,.revokeUserRow "t1",.revokeUserStart,.commit 0,.insert 0,.update 0,
    .changeUpdate,.changeRead,.check 0]

/-- The login runs beside the change. -/
theorem run_loginMeanwhile : ∃ s : Sessions sqlite,
    Run (SessionStep sqlite sampleRequests) (.start sqlite sampleRequests) loginMeanwhile s ∧
    s.change=.returned := by
  have run : Run (SessionStep sqlite sampleRequests) (.start sqlite sampleRequests) [] _ := .start
  have run := Run.next SessionOp.changeRead (Run.next (SessionOp.loginRead 0) run
    (SessionStep.loginRead 0 rfl rfl)) (SessionStep.changeRead rfl rfl)
  have run := Run.next SessionOp.changeUpdate run (SessionStep.changeUpdate rfl)
  have run := Run.next (SessionOp.loginStore 0) run (SessionStep.loginStore 0 rfl ⟨rfl,rfl,rfl⟩)
  have run := Run.next SessionOp.revokeUserStart run (SessionStep.revokeUserStart rfl ⟨rfl,rfl⟩)
  have run := Run.next SessionOp.revokeUserFinish run (SessionStep.revokeUserFinish rfl rfl)
  exact ⟨_,run,rfl⟩

/-- The rotation runs beside the change, whose revocation finds its new token. -/
theorem run_rotationMeanwhile : ∃ s : Sessions postgres,
    Run (SessionStep postgres sampleRequests) (.start postgres sampleRequests) rotationMeanwhile s ∧
    s.change=.returned := by
  have run : Run (SessionStep postgres sampleRequests) (.start postgres sampleRequests) [] _ :=
    .start
  have run := Run.next SessionOp.changeRead (Run.next (SessionOp.check 0) run
    (SessionStep.check 0 rfl ⟨rfl,rfl⟩)) (SessionStep.changeRead rfl rfl)
  have run := Run.next SessionOp.changeUpdate run (SessionStep.changeUpdate rfl)
  have run := Run.next (SessionOp.update 0) run
    (SessionStep.update 0 rfl (Or.inr ⟨_,free_of_not_pending rfl,rfl,rfl⟩))
  have run := Run.next (SessionOp.insert 0) run (SessionStep.insert 0 rfl ⟨rfl,rfl,rfl⟩)
  have run := Run.next (SessionOp.commit 0) run (SessionStep.commit 0 rfl rfl)
  have run := Run.next SessionOp.revokeUserStart run (SessionStep.revokeUserStart rfl rfl)
  have run := Run.next (SessionOp.revokeUserRow "t1") run
    (SessionStep.revokeUserRow "t1" rfl ⟨rfl,free_of_not_pending rfl,rfl⟩)
  have run := Run.next SessionOp.revokeUserFinish run (SessionStep.revokeUserFinish rfl ⟨?_,rfl⟩)
  · exact ⟨_,run,rfl⟩
  · intro k
    dsimp only
    rw [Function.update_apply]
    split_ifs with hk
    · rfl
    · by_cases hold : k="t0"
      · rw [hold]
        rfl
      · simp [Versions.commit,Versions.visible,Versions.write,Function.update_apply,hk,hold,
          postgres,Sessions.start,Versions.start,sampleRequests]

/-- The change ends the sessions of a login and of a rotation that go on beside it. -/
theorem old_sessions_ended_sample : ∃ (s : Sessions sqlite) (s' : Sessions postgres),
    Run (SessionStep sqlite sampleRequests) (.start sqlite sampleRequests) loginMeanwhile s ∧
    Run (SessionStep postgres sampleRequests) (.start postgres sampleRequests) rotationMeanwhile
      s' ∧
    OldSessionsEnded sampleRequests loginMeanwhile s.db.committed ∧
    OldSessionsEnded sampleRequests rotationMeanwhile s'.db.rows.committed := by
  obtain ⟨s,run,hreturned⟩ := run_loginMeanwhile
  obtain ⟨s',run',hreturned'⟩ := run_rotationMeanwhile
  obtain ⟨onSqlite,onPostgres⟩ :=
    old_sessions_ended_iff (fun _ => rfl) run run' hreturned hreturned'
  have hlogins : LoginsInTime loginMeanwhile := by
    simp [LoginsInTime,Always,loginMeanwhile]
  have hlogins' : LoginsInTime rotationMeanwhile := by
    simp [LoginsInTime,Always,rotationMeanwhile]
  have hrotations' : RotationsInTime sampleRequests rotationMeanwhile := by
    simp [RotationsInTime,Always,rotationMeanwhile]
  exact ⟨s,s',run,run',onSqlite.mpr hlogins,onPostgres.mpr ⟨hlogins',hrotations'⟩⟩

/-- A token of the old password outlives the change: one of a login on SQLite,
one of a rotation on PostgreSQL. -/
theorem old_session_survives :
    (∃ s : Sessions sqlite,
      Run (SessionStep sqlite sampleRequests) (.start sqlite sampleRequests) lateLogin s ∧
      s.change=.returned ∧ ¬OldSessionsEnded sampleRequests lateLogin s.db.committed) ∧
    (∃ s : Sessions postgres,
      Run (SessionStep postgres sampleRequests) (.start postgres sampleRequests) lateRotation s ∧
      s.change=.returned ∧ ¬OldSessionsEnded sampleRequests lateRotation s.db.rows.committed) := by
  constructor
  · have read : Run (SessionStep sqlite sampleRequests) (.start sqlite sampleRequests)
        [.loginRead 0] _ := .next _ .start (.loginRead 0 rfl rfl)
    have changed := run_changeOnSqlite read rfl rfl
    have stored := Run.next (SessionOp.loginStore 0) changed
      (SessionStep.loginStore 0 rfl ⟨rfl,rfl,rfl⟩)
    refine ⟨_,stored,rfl,fun hended => ?_⟩
    have hold : ¬VerifiedNew (changeOnSqlite++[.loginRead 0]) 0 := by
      simp only [changeOnSqlite,List.cons_append,List.nil_append,verifiedNew_cons,reduceCtorEq,
        false_and,List.not_mem_nil,and_false,not_verifiedNew_nil,or_self,not_false_eq_true]
    cases hended "t3" (Or.inr ⟨hold,rfl⟩) _ rfl
  · have checked : Run (SessionStep postgres sampleRequests) (.start postgres sampleRequests)
        [.check 0] _ := .next _ .start (.check 0 rfl ⟨rfl,rfl⟩)
    obtain ⟨todo,changed⟩ := run_changeOnPostgres checked rfl rfl rfl
    have updated := Run.next (SessionOp.update 0) changed
      (SessionStep.update 0 rfl (Or.inr ⟨_,free_of_not_pending rfl,rfl,rfl⟩))
    have inserted := Run.next (SessionOp.insert 0) updated (SessionStep.insert 0 rfl ⟨rfl,rfl,rfl⟩)
    have committed := Run.next (SessionOp.commit 0) inserted (SessionStep.commit 0 rfl rfl)
    refine ⟨_,committed,rfl,fun hended => ?_⟩
    have hold : "t0"∈lineage sampleRequests (changeOnPostgres++[.check 0]) := ⟨_,rfl,rfl⟩
    cases hended "t1" (Or.inr ⟨Or.inl hold,rfl⟩) _ rfl

end TokiSync.OldSessions
