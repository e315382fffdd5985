import TokiSync.TokenEffects

/-!
# Refresh tokens on SQLite

A rotation that has written is the one writer, and what it has written is the
committed table with its own changes. So a rotation commits only over a table
in which its old token is still unrevoked.
-/

namespace TokiSync.SqliteTokens

open RefreshTokens RowVersions SnapshotWrites Runs TokenEffects

/-- The transactions of the rotations, as the writer and its snapshot see
them. -/
structure SqliteInv (req : Requests) (s : Sessions sqlite) : Prop where
  /-- Snapshots and writer fit the committed table. -/
  sound : Sound s.db
  /-- A check read the snapshot of its transaction. -/
  checked : ∀ i b, s.rotations i=.checked b →
    ∃ n t, s.db.snapshot i=some (n,t) ∧ isRevoked (t (req.rotation i).oldJti)=b
  /-- A rotation that has revoked its token is the writer. -/
  updated : ∀ i, s.rotations i=.updated →
    isRevoked (s.db.committed (req.rotation i).oldJti)=false ∧
    s.db.writer=some (i,revokeRefreshToken s.db.committed (req.rotation i).oldJti)
  /-- A rotation that has inserted its token is the writer. -/
  inserted : ∀ i, s.rotations i=.inserted →
    isRevoked (s.db.committed (req.rotation i).oldJti)=false ∧
    s.db.committed (req.rotation i).newJti=none ∧
    s.db.writer=some (i,storeRefreshToken
      (revokeRefreshToken s.db.committed (req.rotation i).oldJti)
      (req.rotation i).newJti (req.rotation i).row)
  /-- Only such rotations write. -/
  owner : ∀ i t, s.db.writer=some (i,t) → s.rotations i=.updated ∨ s.rotations i=.inserted

/-- Nothing is open at the start. -/
theorem sqliteInv_start (req : Requests) : SqliteInv req (.start sqlite req) := by
  refine ⟨sound_start _,?_,?_,?_,?_⟩
  · intro i b h
    cases h
  · intro i h
    cases h
  · intro i h
    cases h
  · intro i t h
    cases h

section

variable {req : Requests} {s s' : Sessions sqlite} {op : SessionOp}

/-- The step of a statement outside the rotations that replaces the committed
table while nobody writes. -/
theorem SqliteInv.put (inv : SqliteInv req s) (hw : s.db.writer=none) (t : TokenTable)
    (user : User) (logins : ℕ → LoginPhase) (change : ChangePhase) :
    SqliteInv req ⟨s.db.put t,user,s.rotations,logins,change⟩ := by
  have hnone : ∀ i, s.rotations i≠.updated ∧ s.rotations i≠.inserted := by
    intro i
    refine ⟨fun h => ?_,fun h => ?_⟩
    · have hwriter := (inv.updated i h).2
      rw [hw] at hwriter
      cases hwriter
    · have hwriter := (inv.inserted i h).2.2
      rw [hw] at hwriter
      cases hwriter
  refine ⟨inv.sound.put hw t,inv.checked,?_,?_,?_⟩
  · exact fun i h => absurd h (hnone i).1
  · exact fun i h => absurd h (hnone i).2
  · exact inv.owner

/-- What a check leaves. -/
theorem SqliteInv.check (inv : SqliteInv req s) {row : Option TokenRow} (i : ℕ)
    (hrow : row=s.db.committed (req.rotation i).oldJti) (hidle : s.rotations i=.idle) :
    SqliteInv req {s with
      db := s.db.read i
      rotations := Function.update s.rotations i (.checked (isRevoked row))} := by
  have hother : ∀ j phase, phase=.updated ∨ phase=.inserted →
      Function.update s.rotations i (.checked (isRevoked row)) j=phase → s.rotations j=phase := by
    intro j phase hphase h
    rw [Function.update_apply] at h
    split_ifs at h with hj
    · rw [←h] at hphase
      rcases hphase with hphase | hphase
      · cases hphase
      · cases hphase
    · exact h
  refine ⟨inv.sound.read i,?_,?_,?_,?_⟩
  · intro j b h
    simp only [Function.update_apply,Snapshots.read] at h ⊢
    split_ifs at h ⊢ with hj
    · cases h
      rw [hj,hrow]
      exact ⟨_,_,rfl,rfl⟩
    · exact inv.checked j b h
  · exact fun j h => inv.updated j (hother j _ (Or.inl rfl) h)
  · exact fun j h => inv.inserted j (hother j _ (Or.inr rfl) h)
  · intro j t hj
    have hphase := inv.owner j t hj
    have hne : j≠i := by
      rintro rfl
      rw [hidle] at hphase
      rcases hphase with hphase | hphase
      · cases hphase
      · cases hphase
    dsimp only
    rw [Function.update_of_ne hne]
    exact hphase

/-- What a write of a rotation leaves, when nobody else wrote. -/
theorem SqliteInv.write (inv : SqliteInv req s) {i : ℕ} {base t : TokenTable}
    (hbase : s.db.Writable i base) (hsole : ∀ j t, s.db.writer=some (j,t) → j=i)
    {phase : RotationPhase} (hphase : phase=.updated ∨ phase=.inserted)
    (hupdated : phase=.updated → isRevoked (s.db.committed (req.rotation i).oldJti)=false ∧
      t=revokeRefreshToken s.db.committed (req.rotation i).oldJti)
    (hinserted : phase=.inserted → isRevoked (s.db.committed (req.rotation i).oldJti)=false ∧
      s.db.committed (req.rotation i).newJti=none ∧
      t=storeRefreshToken (revokeRefreshToken s.db.committed (req.rotation i).oldJti)
        (req.rotation i).newJti (req.rotation i).row) :
    SqliteInv req {s with
      db := s.db.write i t
      rotations := Function.update s.rotations i phase} := by
  refine ⟨inv.sound.write hbase t,?_,?_,?_,?_⟩
  · intro j b h
    simp only [Function.update_apply] at h
    split_ifs at h with hj
    · rw [h] at hphase
      rcases hphase with hphase | hphase
      · cases hphase
      · cases hphase
    · exact inv.checked j b h
  · intro j h
    simp only [Function.update_apply] at h
    split_ifs at h with hj
    · obtain ⟨hfree,ht⟩ := hupdated h
      rw [hj,ht]
      exact ⟨hfree,rfl⟩
    · exact absurd (hsole j _ (inv.updated j h).2) hj
  · intro j h
    simp only [Function.update_apply] at h
    split_ifs at h with hj
    · obtain ⟨hfree,hnew,ht⟩ := hinserted h
      rw [hj,ht]
      exact ⟨hfree,hnew,rfl⟩
    · exact absurd (hsole j _ (inv.inserted j h).2.2) hj
  · intro j t' hj
    cases hj
    dsimp only
    rw [Function.update_self]
    exact hphase

/-- What the end of a rotation leaves. -/
theorem SqliteInv.finish (inv : SqliteInv req s) {i : ℕ} {db : Snapshots TokenTable ℕ}
    {phase : RotationPhase} (hphase : phase=.committed ∨ phase=.failed) (hsound : Sound db)
    (hsnap : ∀ j, j≠i → db.snapshot j=s.db.snapshot j)
    (hwriter : ∀ j t, db.writer=some (j,t) ↔ s.db.writer=some (j,t) ∧ j≠i)
    (hcommitted : ∀ j t, db.writer=some (j,t) → db.committed=s.db.committed) :
    SqliteInv req {s with
      db := db
      rotations := Function.update s.rotations i phase} := by
  have hother : ∀ j phase', (¬(phase'=.committed ∨ phase'=.failed)) →
      Function.update s.rotations i phase j=phase' → j≠i ∧ s.rotations j=phase' := by
    intro j phase' hne h
    rw [Function.update_apply] at h
    split_ifs at h with hj
    · rw [h] at hphase
      exact absurd hphase hne
    · exact ⟨hj,h⟩
  refine ⟨hsound,?_,?_,?_,?_⟩
  · intro j b h
    obtain ⟨hne,h⟩ := hother j _ (by simp only [reduceCtorEq,or_self,not_false_eq_true]) h
    obtain ⟨n,t,hn,ht⟩ := inv.checked j b h
    exact ⟨n,t,(hsnap j hne).trans hn,ht⟩
  · intro j h
    obtain ⟨hne,h⟩ := hother j _ (by simp only [reduceCtorEq,or_self,not_false_eq_true]) h
    obtain ⟨hfree,hw⟩ := inv.updated j h
    have hw' := (hwriter j _).mpr ⟨hw,hne⟩
    dsimp only
    rw [hcommitted j _ hw']
    exact ⟨hfree,hw'⟩
  · intro j h
    obtain ⟨hne,h⟩ := hother j _ (by simp only [reduceCtorEq,or_self,not_false_eq_true]) h
    obtain ⟨hfree,hnew,hw⟩ := inv.inserted j h
    have hw' := (hwriter j _).mpr ⟨hw,hne⟩
    dsimp only
    rw [hcommitted j _ hw']
    exact ⟨hfree,hnew,hw'⟩
  · intro j t hj
    obtain ⟨hw,hne⟩ := (hwriter j t).mp hj
    dsimp only
    rw [Function.update_of_ne hne]
    exact inv.owner j t hw

/-- What a rotation that may write writes upon. -/
theorem SqliteInv.base_of_passed (inv : SqliteInv req s) {i : ℕ} {base : TokenTable}
    (hpassed : s.rotations i=.checked false) (hbase : s.db.Writable i base) :
    s.db.writer=none ∧ base=s.db.committed ∧
      isRevoked (s.db.committed (req.rotation i).oldJti)=false := by
  rcases hbase with hw | ⟨hnone,hsnap⟩
  · have hphase := inv.owner i base hw
    rw [hpassed] at hphase
    rcases hphase with hphase | hphase
    · cases hphase
    · cases hphase
  · obtain ⟨n,t,hn,ht⟩ := inv.checked i false hpassed
    rw [hsnap] at hn
    cases hn
    have hcommitted := inv.sound.current i base hsnap
    rw [hcommitted] at ht
    exact ⟨hnone,hcommitted,ht⟩

/-- A writer writes upon what it has written. -/
theorem base_of_writer {i : ℕ} {base t : TokenTable} (hw : s.db.writer=some (i,t))
    (hbase : s.db.Writable i base) : base=t := by
  rcases hbase with hw' | ⟨hnone,-⟩
  · rw [hw] at hw'
    cases hw'
    rfl
  · rw [hnone] at hw
    cases hw

/-- Every step keeps the transactions in order. -/
theorem SqliteInv.step (inv : SqliteInv req s) (h : SessionStep sqlite req s op s') :
    SqliteInv req s' := by
  cases h with
  | check i hidle run =>
    obtain ⟨hrow,rfl⟩ := run
    exact inv.check i hrow hidle
  | update i hpassed run =>
    obtain ⟨base,hbase,rfl⟩ := run
    obtain ⟨hnone,rfl,hfree⟩ := inv.base_of_passed hpassed hbase
    refine inv.write hbase ?_ (Or.inl rfl) (fun _ => ⟨hfree,rfl⟩) (fun h => by cases h)
    intro j t hj
    rw [hnone] at hj
    cases hj
  | insert i hupdated run =>
    obtain ⟨base,hbase,habsent,rfl⟩ := run
    obtain ⟨hfree,hw⟩ := inv.updated i hupdated
    obtain rfl := base_of_writer hw hbase
    refine inv.write hbase ?_ (Or.inr rfl) (fun h => by cases h)
      (fun _ => ⟨hfree,revokeRefreshToken_eq_none.mp habsent,rfl⟩)
    intro j t hj
    rw [hw] at hj
    cases hj
    rfl
  | commit i hinserted run =>
    obtain ⟨t,hw,rfl⟩ := run
    refine inv.finish (Or.inl rfl) (inv.sound.commit i t) ?_ ?_ ?_
    · intro j hne
      exact Function.update_of_ne hne _ _
    · intro j t'
      refine iff_of_false (fun h => by cases h) ?_
      rintro ⟨hj,hne⟩
      rw [hw] at hj
      cases hj
      exact hne rfl
    · intro j t' hj
      cases hj
  | abort i hopen run =>
    cases run
    refine inv.finish (Or.inr rfl) (inv.sound.rollback i) ?_ ?_ ?_
    · intro j hne
      exact Function.update_of_ne hne _ _
    · exact fun j t => writer_rollback
    · exact fun _ _ _ => rfl
  | loginStore l hverified run =>
    obtain ⟨hw,-,rfl⟩ := run
    exact inv.put hw _ _ _ _
  | revokeUserStart hphase run =>
    obtain ⟨hw,rfl⟩ := run
    exact inv.put hw _ _ _ _
  | revokeUserRow jti hphase run => exact absurd run id
  | revokeUserAbort hphase run => exact absurd run id
  | revokeUserFinish hphase run =>
    cases run
    exact ⟨inv.sound,inv.checked,inv.updated,inv.inserted,inv.owner⟩
  | _ => exact ⟨inv.sound,inv.checked,inv.updated,inv.inserted,inv.owner⟩

/-- A rotation commits over a table in which its old token is unrevoked. -/
theorem SqliteInv.commit_effect (inv : SqliteInv req s) {i : ℕ}
    (h : SessionStep sqlite req s (.commit i) s') :
    isRevoked (s.db.committed (req.rotation i).oldJti)=false ∧
      TableEffect req (.commit i) s.db.committed s'.db.committed := by
  cases h with
  | commit i hinserted run =>
    obtain ⟨t,hw,rfl⟩ := run
    obtain ⟨hfree,hnew,hw'⟩ := inv.inserted i hinserted
    rw [hw] at hw'
    cases hw'
    obtain ⟨row,hrow,-⟩ := isRevoked_eq_false.mp hfree
    exact ⟨hfree,⟨row,hrow⟩,hnew,rfl⟩

/-- The revocation of a user revokes all of its rows at once. -/
theorem revokeUserStart_effect (h : SessionStep sqlite req s .revokeUserStart s') :
    s'.db.committed=revokeUserRefreshTokens s.db.committed s.user.id := by
  cases h with
  | revokeUserStart hphase run =>
    obtain ⟨-,rfl⟩ := run
    rfl

/-- Every step has its effect on the committed table. -/
theorem SqliteInv.effect (inv : SqliteInv req s) (huser : s.user.id=req.user.id)
    (h : SessionStep sqlite req s op s') : TableEffect req op s.db.committed s'.db.committed := by
  cases op with
  | commit i => exact (inv.commit_effect h).2
  | revokeUserStart =>
    rw [revokeUserStart_effect h,huser]
    exact sweeps_revokeUser _ _
  | loginStore l =>
    cases h with
    | loginStore l hverified run =>
      obtain ⟨-,habsent,rfl⟩ := run
      rw [huser]
      exact ⟨habsent,rfl⟩
  | revokeUserFinish =>
    cases h with
    | revokeUserFinish hphase run =>
      cases run
      exact fun k => Or.inl rfl
  | check i =>
    cases h with
    | check i hidle run =>
      obtain ⟨-,rfl⟩ := run
      rfl
  | update i =>
    cases h with
    | update i hpassed run =>
      obtain ⟨base,-,rfl⟩ := run
      rfl
  | insert i =>
    cases h with
    | insert i hupdated run =>
      obtain ⟨base,-,-,rfl⟩ := run
      rfl
  | abort i =>
    cases h with
    | abort i hopen run =>
      cases run
      rfl
  | revokeUserRow jti =>
    cases h with
    | revokeUserRow jti hphase run => exact absurd run id
  | revokeUserAbort =>
    cases h with
    | revokeUserAbort hphase run => exact absurd run id
  | _ =>
    cases h
    rfl

/-- The transactions are in order in every state of a run. -/
theorem SqliteInv.of_run {history : List SessionOp}
    (run : Run (SessionStep sqlite req) (.start sqlite req) history s) : SqliteInv req s := by
  refine Run.invariant (I:=fun _ s => SqliteInv req s) (sqliteInv_start req) ?_ run
  intro past s op s' _ inv hstep
  exact inv.step hstep

end

end TokiSync.SqliteTokens
