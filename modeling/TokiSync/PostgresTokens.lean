import TokiSync.TokenEffects

/-!
# Refresh tokens on PostgreSQL

A rotation that has revoked its token holds the lock of that row, and one that
has inserted its token holds the lock of the new id, until it ends. So two
rotations of one token are never past their updates at the same time; but the
second one's update waits for the first one's commit and then goes on without
looking at the revocation.
-/

namespace TokiSync.PostgresTokens

open RefreshTokens RowVersions SnapshotWrites Runs TokenEffects

/-- The transactions of the rotations and of the revocation, as the row
versions see them. -/
structure PostgresInv (req : Requests) (s : Sessions postgres) : Prop where
  /-- A passed check found the token. -/
  checked : ∀ i, s.rotations i=.checked false →
    ∃ row, s.db.rows.committed (req.rotation i).oldJti=some row
  /-- A rotation past its update has written its old token. -/
  held : ∀ i, s.rotations i=.updated ∨ s.rotations i=.inserted →
    ∃ row, s.db.rows.committed (req.rotation i).oldJti=some row ∧
      s.db.rows.pending (req.rotation i).oldJti=some (some i,row.revoke)
  /-- A rotation past its insertion has written its new token. -/
  inserted : ∀ i, s.rotations i=.inserted →
    s.db.rows.committed (req.rotation i).newJti=none ∧
      s.db.rows.pending (req.rotation i).newJti=some (some i,(req.rotation i).row)
  /-- A rotation has written nothing else. -/
  owned : ∀ i k v, s.db.rows.pending k=some (some i,v) →
    (s.rotations i=.updated ∨ s.rotations i=.inserted) ∧ k=(req.rotation i).oldJti ∨
      s.rotations i=.inserted ∧ k=(req.rotation i).newJti
  /-- The revocation has written rows of the user, revoked. -/
  swept : ∀ k v, s.db.rows.pending k=some (none,v) → s.change=.revoking ∧
    ∃ row, s.db.rows.committed k=some row ∧ row.userId=s.user.id ∧ v=row.revoke

/-- Nothing is open at the start. -/
theorem postgresInv_start (req : Requests) : PostgresInv req (.start postgres req) := by
  refine ⟨?_,?_,?_,?_,?_⟩
  · intro i h
    cases h
  · intro i h
    rcases h with h | h
    · cases h
    · cases h
  · intro i h
    cases h
  · intro i k v h
    cases h
  · intro k v h
    cases h

section

variable {req : Requests} {s s' : Sessions postgres} {op : SessionOp}

/-- A rotation before its update has written nothing. -/
theorem PostgresInv.visible_eq (inv : PostgresInv req s) {i : ℕ}
    (hupdated : s.rotations i≠.updated) (hinserted : s.rotations i≠.inserted) (k : String) :
    s.db.rows.visible (some i) k=s.db.rows.committed k := by
  refine visible_of_not_pending fun v hv => ?_
  rcases inv.owned i k v hv with ⟨hphase,-⟩ | ⟨hphase,-⟩
  · rcases hphase with hphase | hphase
    · exact hupdated hphase
    · exact hinserted hphase
  · exact hinserted hphase

/-- What a rotation has written becomes the committed table with the old token
revoked and the new one added. -/
theorem PostgresInv.visible_inserted (inv : PostgresInv req s) {i : ℕ}
    (hinserted : s.rotations i=.inserted) :
    s.db.rows.visible (some i)=storeRefreshToken
      (revokeRefreshToken s.db.rows.committed (req.rotation i).oldJti)
      (req.rotation i).newJti (req.rotation i).row := by
  funext k
  rw [rotated_apply]
  obtain ⟨row,hrow,hold⟩ := inv.held i (Or.inr hinserted)
  obtain ⟨-,hnew⟩ := inv.inserted i hinserted
  split_ifs with hkn hko
  · rw [hkn]
    exact visible_of_pending hnew
  · rw [hko,visible_of_pending hold,hrow]
    rfl
  · refine visible_of_not_pending fun v hv => ?_
    rcases inv.owned i k v hv with ⟨-,hk⟩ | ⟨-,hk⟩
    · exact hko hk
    · exact hkn hk

/-- The committed table after the revocation ends is swept. -/
theorem PostgresInv.visible_sweeps (inv : PostgresInv req s) :
    Sweeps s.user.id s.db.rows.committed (s.db.rows.visible none) := by
  intro k
  by_cases hv : ∃ v, s.db.rows.pending k=some (none,v)
  · obtain ⟨v,hv⟩ := hv
    obtain ⟨-,row,hrow,huser,rfl⟩ := inv.swept k v hv
    exact Or.inr ⟨row,hrow,huser,visible_of_pending hv⟩
  · exact Or.inl (visible_of_not_pending fun v h => hv ⟨v,h⟩)

/-- What a transaction leaves that ends with the given committed rows, when
these extend the table and agree with it where others write. -/
theorem PostgresInv.finish (inv : PostgresInv req s) {rows : Versions String TokenRow (Option ℕ)}
    {x : Option ℕ}
    (hpending : ∀ k y v, rows.pending k=some (y,v) ↔ s.db.rows.pending k=some (y,v) ∧ y≠x)
    (hextends : Extends s.db.rows.committed rows.committed)
    (hothers : ∀ k y v, s.db.rows.pending k=some (y,v) → y≠x →
      rows.committed k=s.db.rows.committed k)
    {todo : String → Bool} {rotations : ℕ → RotationPhase} {change : ChangePhase}
    (hrotations : ∀ j phase, rotations j=phase →
      phase=.checked false ∨ phase=.updated ∨ phase=.inserted → some j≠x ∧ s.rotations j=phase)
    (hkeep : ∀ j, some j≠x → rotations j=s.rotations j)
    (hchange : x=none ∨ change=s.change) :
    PostgresInv req ⟨⟨rows,todo⟩,s.user,rotations,s.logins,change⟩ := by
  refine ⟨?_,?_,?_,?_,?_⟩
  · intro j h
    obtain ⟨-,h⟩ := hrotations j _ h (Or.inl rfl)
    exact hextends.present (inv.checked j h)
  · intro j h
    have hj : some j≠x ∧ (s.rotations j=.updated ∨ s.rotations j=.inserted) := by
      rcases h with h | h
      · obtain ⟨hne,h⟩ := hrotations j _ h (Or.inr (Or.inl rfl))
        exact ⟨hne,Or.inl h⟩
      · obtain ⟨hne,h⟩ := hrotations j _ h (Or.inr (Or.inr rfl))
        exact ⟨hne,Or.inr h⟩
    obtain ⟨row,hrow,hpend⟩ := inv.held j hj.2
    refine ⟨row,?_,(hpending _ _ _).mpr ⟨hpend,hj.1⟩⟩
    exact (hothers _ _ _ hpend hj.1).trans hrow
  · intro j h
    obtain ⟨hne,h⟩ := hrotations j _ h (Or.inr (Or.inr rfl))
    obtain ⟨hnew,hpend⟩ := inv.inserted j h
    exact ⟨(hothers _ _ _ hpend hne).trans hnew,(hpending _ _ _).mpr ⟨hpend,hne⟩⟩
  · intro j k v h
    obtain ⟨hpend,hne⟩ := (hpending _ _ _).mp h
    dsimp only
    rw [hkeep j hne]
    exact inv.owned j k v hpend
  · intro k v h
    obtain ⟨hpend,hne⟩ := (hpending _ _ _).mp h
    obtain ⟨hphase,row,hrow,huser,hv⟩ := inv.swept k v hpend
    refine ⟨?_,row,(hothers _ _ _ hpend hne).trans hrow,huser,hv⟩
    rcases hchange with hx | hchange
    · exact absurd hx.symm hne
    · exact hchange.trans hphase

/-- What the end of a rotation leaves. -/
theorem PostgresInv.finishRotation (inv : PostgresInv req s)
    {rows : Versions String TokenRow (Option ℕ)} {i : ℕ}
    (hpending : ∀ k y v, rows.pending k=some (y,v) ↔ s.db.rows.pending k=some (y,v) ∧ y≠some i)
    (hextends : Extends s.db.rows.committed rows.committed)
    (hothers : ∀ k y v, s.db.rows.pending k=some (y,v) → y≠some i →
      rows.committed k=s.db.rows.committed k)
    {phase : RotationPhase} (hphase : phase=.committed ∨ phase=.failed) :
    PostgresInv req {s with
      db := {s.db with rows := rows}
      rotations := Function.update s.rotations i phase} := by
  refine inv.finish hpending hextends hothers ?_ ?_ (Or.inr rfl)
  · intro j phase' h hphase'
    rw [Function.update_apply] at h
    split_ifs at h with hj
    · rw [h] at hphase
      rcases hphase with rfl | rfl
      · simp only [reduceCtorEq,or_self] at hphase'
      · simp only [reduceCtorEq,or_self] at hphase'
    · exact ⟨fun heq => hj (Option.some.inj heq),h⟩
  · intro j hne
    exact Function.update_of_ne (fun heq => hne (congrArg some heq)) _ _

/-- What an end of the revocation leaves. -/
theorem PostgresInv.finishSweep (inv : PostgresInv req s)
    {rows : Versions String TokenRow (Option ℕ)} {todo : String → Bool} (change : ChangePhase)
    (hpending : ∀ k y v, rows.pending k=some (y,v) ↔ s.db.rows.pending k=some (y,v) ∧ y≠none)
    (hextends : Extends s.db.rows.committed rows.committed)
    (hothers : ∀ k y v, s.db.rows.pending k=some (y,v) → y≠none →
      rows.committed k=s.db.rows.committed k) :
    PostgresInv req {s with
      db := ⟨rows,todo⟩
      change := change} :=
  inv.finish hpending hextends hothers (fun _ _ h _ => ⟨Option.some_ne_none _,h⟩) (fun _ _ => rfl)
    (Or.inl rfl)

/-- Rows that a transaction publishes agree with the table where others
write. -/
theorem committed_commit_of_other {rows : Versions String TokenRow (Option ℕ)} {x y : Option ℕ}
    {k : String} {v : TokenRow} (h : rows.pending k=some (y,v)) (hne : y≠x) :
    (rows.commit x).committed k=rows.committed k := by
  refine visible_of_not_pending fun w hw => ?_
  rw [h] at hw
  cases hw
  exact hne rfl

/-- What a check leaves. -/
theorem PostgresInv.check (inv : PostgresInv req s) {i : ℕ} {row : Option TokenRow}
    (hidle : s.rotations i=.idle)
    (hrow : row=s.db.rows.visible (some i) (req.rotation i).oldJti) :
    PostgresInv req {s with
      rotations := Function.update s.rotations i (.checked (isRevoked row))} := by
  rw [inv.visible_eq (by rw [hidle]; exact RotationPhase.noConfusion)
    (by rw [hidle]; exact RotationPhase.noConfusion)] at hrow
  have hother : ∀ j phase, phase=.updated ∨ phase=.inserted →
      Function.update s.rotations i (.checked (isRevoked row)) j=phase → s.rotations j=phase := by
    intro j phase hphase h
    rw [Function.update_apply] at h
    split_ifs at h with hj
    · rw [←h] at hphase
      simp only [reduceCtorEq,or_self] at hphase
    · exact h
  refine ⟨?_,?_,?_,?_,inv.swept⟩
  · intro j h
    dsimp only at h
    rw [Function.update_apply] at h
    split_ifs at h with hj
    · rw [RotationPhase.checked.injEq,isRevoked_eq_false] at h
      obtain ⟨r,hr,-⟩ := h
      rw [hj]
      exact ⟨r,hrow.symm.trans hr⟩
    · exact inv.checked j h
  · intro j h
    rcases h with h | h
    · exact inv.held j (Or.inl (hother j _ (Or.inl rfl) h))
    · exact inv.held j (Or.inr (hother j _ (Or.inr rfl) h))
  · exact fun j h => inv.inserted j (hother j _ (Or.inr rfl) h)
  · intro j k v h
    have howned := inv.owned j k v h
    have hj : j≠i := by
      rintro rfl
      rw [hidle] at howned
      simp only [reduceCtorEq,or_self,false_and] at howned
    dsimp only
    rw [Function.update_of_ne hj]
    exact howned

/-- What the update of a rotation leaves. -/
theorem PostgresInv.update (inv : PostgresInv req s) {i : ℕ} {row : TokenRow}
    (hpassed : s.rotations i=.checked false)
    (hfree : s.db.rows.Free (some i) (req.rotation i).oldJti)
    (hrow : s.db.rows.committed (req.rotation i).oldJti=some row) :
    PostgresInv req {s with
      db := {s.db with rows := s.db.rows.write (some i) (req.rotation i).oldJti row.revoke}
      rotations := Function.update s.rotations i .updated} := by
  have hpending : ∀ j k v, j≠some i → s.db.rows.pending k=some (j,v) →
      (s.db.rows.write (some i) (req.rotation i).oldJti row.revoke).pending k=some (j,v) := by
    intro j k v hne hv
    rw [pending_write,if_neg]
    · exact hv
    · rintro rfl
      exact hne (hfree j v hv)
  have hother : ∀ j, j≠i → Function.update s.rotations i .updated j=s.rotations j :=
    fun j hne => Function.update_of_ne hne _ _
  refine ⟨?_,?_,?_,?_,?_⟩
  · intro j h
    by_cases hj : j=i
    · rw [hj]
      exact ⟨row,hrow⟩
    · exact inv.checked j ((hother j hj).symm.trans h)
  · intro j h
    by_cases hj : j=i
    · rw [hj]
      exact ⟨row,hrow,pending_write.trans (if_pos rfl)⟩
    · dsimp only at h
      rw [hother j hj] at h
      obtain ⟨row',hrow',hheld⟩ := inv.held j h
      exact ⟨row',hrow',hpending _ _ _ (fun heq => hj (Option.some.inj heq)) hheld⟩
  · intro j h
    by_cases hj : j=i
    · rw [hj] at h
      dsimp only at h
      rw [Function.update_self] at h
      cases h
    · obtain ⟨hnew,hheld⟩ := inv.inserted j ((hother j hj).symm.trans h)
      exact ⟨hnew,hpending _ _ _ (fun heq => hj (Option.some.inj heq)) hheld⟩
  · intro j k v h
    dsimp only at h
    rw [pending_write] at h
    split_ifs at h with hk
    · cases h
      dsimp only
      rw [Function.update_self]
      exact Or.inl ⟨Or.inl rfl,hk⟩
    · have howned := inv.owned j k v h
      have hj : j≠i := by
        rintro rfl
        rw [hpassed] at howned
        simp only [reduceCtorEq,or_self,false_and] at howned
      dsimp only
      rw [hother j hj]
      exact howned
  · intro k v h
    dsimp only at h
    rw [pending_write] at h
    split_ifs at h with hk
    · cases h
    · exact inv.swept k v h

/-- What the insertion of a rotation leaves. -/
theorem PostgresInv.insert (inv : PostgresInv req s) {i : ℕ} (hupdated : s.rotations i=.updated)
    (habsent : s.db.rows.committed (req.rotation i).newJti=none)
    (hfree : s.db.rows.pending (req.rotation i).newJti=none) :
    PostgresInv req {s with
      db := {s.db with
        rows := s.db.rows.write (some i) (req.rotation i).newJti (req.rotation i).row}
      rotations := Function.update s.rotations i .inserted} := by
  have hpending : ∀ j k v, s.db.rows.pending k=some (j,v) →
      (s.db.rows.write (some i) (req.rotation i).newJti (req.rotation i).row).pending k=
        some (j,v) := by
    intro j k v hv
    rw [pending_write,if_neg]
    · exact hv
    · rintro rfl
      rw [hfree] at hv
      cases hv
  have hother : ∀ j, j≠i → Function.update s.rotations i .inserted j=s.rotations j :=
    fun j hne => Function.update_of_ne hne _ _
  refine ⟨?_,?_,?_,?_,?_⟩
  · intro j h
    by_cases hj : j=i
    · rw [hj] at h
      dsimp only at h
      rw [Function.update_self] at h
      cases h
    · exact inv.checked j ((hother j hj).symm.trans h)
  · intro j h
    by_cases hj : j=i
    · obtain ⟨row,hrow,hheld⟩ := inv.held i (Or.inl hupdated)
      rw [hj]
      exact ⟨row,hrow,hpending _ _ _ hheld⟩
    · dsimp only at h
      rw [hother j hj] at h
      obtain ⟨row,hrow,hheld⟩ := inv.held j h
      exact ⟨row,hrow,hpending _ _ _ hheld⟩
  · intro j h
    by_cases hj : j=i
    · rw [hj]
      exact ⟨habsent,pending_write.trans (if_pos rfl)⟩
    · obtain ⟨hnew,hheld⟩ := inv.inserted j ((hother j hj).symm.trans h)
      exact ⟨hnew,hpending _ _ _ hheld⟩
  · intro j k v h
    dsimp only at h
    rw [pending_write] at h
    split_ifs at h with hk
    · cases h
      dsimp only
      rw [Function.update_self]
      exact Or.inr ⟨rfl,hk⟩
    · by_cases hj : j=i
      · have howned := inv.owned j k v h
        rw [hj,hupdated] at howned
        dsimp only
        rw [hj,Function.update_self]
        simp only [reduceCtorEq,or_false,true_and,false_and] at howned
        exact Or.inl ⟨Or.inr rfl,howned⟩
      · dsimp only
        rw [hother j hj]
        exact inv.owned j k v h
  · intro k v h
    dsimp only at h
    rw [pending_write] at h
    split_ifs at h with hk
    · cases h
    · exact inv.swept k v h

/-- What a login leaves. -/
theorem PostgresInv.store (inv : PostgresInv req s) {jti : String} (row : TokenRow)
    (habsent : s.db.rows.committed jti=none) (hfree : s.db.rows.pending jti=none)
    (logins : ℕ → LoginPhase) :
    PostgresInv req {s with
      db := {s.db with rows := s.db.rows.put jti row}
      logins := logins} := by
  have hsame : ∀ k, k≠jti → (s.db.rows.put jti row).committed k=s.db.rows.committed k :=
    fun k hne => Function.update_of_ne hne _ _
  have hpresent : ∀ k r, s.db.rows.committed k=some r → k≠jti := by
    rintro k r hr rfl
    rw [habsent] at hr
    cases hr
  refine ⟨?_,?_,?_,inv.owned,?_⟩
  · intro i h
    obtain ⟨r,hr⟩ := inv.checked i h
    exact ⟨r,(hsame _ (hpresent _ r hr)).trans hr⟩
  · intro i h
    obtain ⟨r,hr,hheld⟩ := inv.held i h
    exact ⟨r,(hsame _ (hpresent _ r hr)).trans hr,hheld⟩
  · intro i h
    obtain ⟨hnew,hheld⟩ := inv.inserted i h
    refine ⟨(hsame _ ?_).trans hnew,hheld⟩
    intro heq
    rw [heq,hfree] at hheld
    cases hheld
  · intro k v h
    obtain ⟨hphase,r,hr,huser,hv⟩ := inv.swept k v h
    exact ⟨hphase,r,(hsame _ (hpresent _ r hr)).trans hr,huser,hv⟩

/-- What the revocation leaves when it writes a row. -/
theorem PostgresInv.revokeUserRow (inv : PostgresInv req s) {k : String} {row : TokenRow}
    (hrevoking : s.change=.revoking) (hfree : s.db.rows.Free none k)
    (hrow : s.db.rows.committed k=some row) (huser : row.userId=s.user.id) (todo : String → Bool) :
    PostgresInv req {s with db := ⟨s.db.rows.write none k row.revoke,todo⟩} := by
  have hpending : ∀ i l v, s.db.rows.pending l=some (some i,v) →
      (s.db.rows.write none k row.revoke).pending l=some (some i,v) := by
    intro i l v hv
    rw [pending_write,if_neg]
    · exact hv
    · rintro rfl
      cases hfree (some i) v hv
  refine ⟨inv.checked,?_,?_,?_,?_⟩
  · intro i h
    obtain ⟨r,hr,hheld⟩ := inv.held i h
    exact ⟨r,hr,hpending _ _ _ hheld⟩
  · intro i h
    obtain ⟨hnew,hheld⟩ := inv.inserted i h
    exact ⟨hnew,hpending _ _ _ hheld⟩
  · intro i l v h
    dsimp only at h
    rw [pending_write] at h
    split_ifs at h with hl
    · cases h
    · exact inv.owned i l v h
  · intro l v h
    dsimp only at h
    rw [pending_write] at h
    split_ifs at h with hl
    · cases h
      rw [hl]
      exact ⟨hrevoking,row,hrow,huser,rfl⟩
    · exact inv.swept l v h

/-- What a step outside the table leaves that does not leave the revocation. -/
theorem PostgresInv.outside (inv : PostgresInv req s) (user : User) (huser : user.id=s.user.id)
    (logins : ℕ → LoginPhase) {change : ChangePhase} (hchange : s.change≠.revoking ∨ change=s.change)
    (todo : String → Bool) :
    PostgresInv req ⟨⟨s.db.rows,todo⟩,user,s.rotations,logins,change⟩ := by
  refine ⟨inv.checked,inv.held,inv.inserted,inv.owned,?_⟩
  intro k v h
  obtain ⟨hphase,row,hrow,huser',hv⟩ := inv.swept k v h
  rcases hchange with hne | hsame
  · exact absurd hphase hne
  · exact ⟨hsame.trans hphase,row,hrow,huser'.trans huser.symm,hv⟩

/-- The effect of a commit. -/
theorem PostgresInv.commit_effect (inv : PostgresInv req s) {i : ℕ}
    (hinserted : s.rotations i=.inserted) :
    TableEffect req (.commit i) s.db.rows.committed (s.db.rows.commit (some i)).committed := by
  obtain ⟨row,hrow,-⟩ := inv.held i (Or.inr hinserted)
  obtain ⟨hnew,-⟩ := inv.inserted i hinserted
  exact ⟨⟨row,hrow⟩,hnew,inv.visible_inserted hinserted⟩

/-- Every step has its effect on the committed table. -/
theorem PostgresInv.effect (inv : PostgresInv req s) (huser : s.user.id=req.user.id)
    (h : SessionStep postgres req s op s') :
    TableEffect req op s.db.rows.committed s'.db.rows.committed := by
  cases h with
  | check i hidle run =>
    obtain ⟨-,rfl⟩ := run
    rfl
  | update i hpassed run =>
    rcases run with ⟨-,rfl⟩ | ⟨row,-,-,rfl⟩
    · rfl
    · rfl
  | insert i hupdated run =>
    obtain ⟨-,-,rfl⟩ := run
    rfl
  | commit i hinserted run =>
    cases run
    exact inv.commit_effect hinserted
  | abort i hopen run =>
    cases run
    rfl
  | loginStore l hverified run =>
    obtain ⟨habsent,-,rfl⟩ := run
    rw [huser]
    exact ⟨habsent,rfl⟩
  | revokeUserStart hphase run =>
    cases run
    exact fun k => Or.inl rfl
  | revokeUserRow jti hphase run =>
    obtain ⟨-,-,rfl⟩ := run
    dsimp only
    split
    · split_ifs
      · rfl
      · rfl
    · rfl
  | revokeUserFinish hphase run =>
    obtain ⟨-,rfl⟩ := run
    have hsweeps := inv.visible_sweeps
    rw [huser] at hsweeps
    exact hsweeps
  | revokeUserAbort hphase run =>
    cases run
    rfl
  | _ => rfl

/-- Every step keeps the transactions in order. -/
theorem PostgresInv.step (inv : PostgresInv req s) (h : SessionStep postgres req s op s') :
    PostgresInv req s' := by
  cases h with
  | @check row db i hidle run =>
    obtain ⟨hrow,rfl⟩ := run
    exact inv.check hidle hrow
  | update i hpassed run =>
    have hvisible := inv.visible_eq (by rw [hpassed]; exact RotationPhase.noConfusion)
      (by rw [hpassed]; exact RotationPhase.noConfusion) (req.rotation i).oldJti
    obtain ⟨row,hrow⟩ := inv.checked i hpassed
    rcases run with ⟨hnone,-⟩ | ⟨row',hfree,hrow',rfl⟩
    · rw [hvisible,hrow] at hnone
      cases hnone
    · rw [hvisible] at hrow'
      exact inv.update hpassed hfree hrow'
  | insert i hupdated run =>
    obtain ⟨habsent,hfree,rfl⟩ := run
    exact inv.insert hupdated habsent hfree
  | commit i hinserted run =>
    cases run
    exact inv.finishRotation (fun _ _ _ => pending_commit) (inv.commit_effect hinserted).extends
      (fun _ _ _ => committed_commit_of_other) (Or.inl rfl)
  | abort i hopen run =>
    cases run
    exact inv.finishRotation (fun _ _ _ => pending_rollback) (fun _ _ => Or.inl)
      (fun _ _ _ _ _ => rfl) (Or.inr rfl)
  | loginRead l hidle outcome => exact inv.outside _ rfl _ (Or.inr rfl) _
  | loginStore l hverified run =>
    obtain ⟨habsent,hfree,rfl⟩ := run
    exact inv.store _ habsent hfree _
  | changeRead hidle outcome =>
    exact inv.outside _ rfl _ (Or.inl (by rw [hidle]; exact ChangePhase.noConfusion)) _
  | changeUpdate hauthorized =>
    have hne : s.change≠.revoking := by
      rw [hauthorized]
      exact ChangePhase.noConfusion
    exact inv.outside {s.user with passwordHash := req.change.newHash} rfl _ (Or.inl hne) _
  | revokeUserStart hupdated run =>
    cases run
    exact inv.outside _ rfl _ (Or.inl (by rw [hupdated]; exact ChangePhase.noConfusion)) _
  | revokeUserRow jti hrevoking run =>
    obtain ⟨-,hfree,rfl⟩ := run
    split
    · next row hrow =>
      split_ifs with hrev
      · rw [revocable,Bool.and_eq_true,decide_eq_true_eq] at hrev
        exact inv.revokeUserRow hrevoking hfree hrow hrev.1 _
      · exact inv.outside _ rfl _ (Or.inr rfl) _
    · exact inv.outside _ rfl _ (Or.inr rfl) _
  | revokeUserFinish hrevoking run =>
    obtain ⟨-,rfl⟩ := run
    exact inv.finishSweep _ (fun _ _ _ => pending_commit) inv.visible_sweeps.extends
      (fun _ _ _ => committed_commit_of_other)
  | revokeUserAbort hrevoking run =>
    cases run
    exact inv.finishSweep _ (fun _ _ _ => pending_rollback) (fun _ _ => Or.inl)
      (fun _ _ _ _ _ => rfl)
  | changeFail hbegun =>
    refine inv.outside _ rfl _ (Or.inl ?_) _
    rcases hbegun with hbegun | hbegun
    · rw [hbegun]
      exact ChangePhase.noConfusion
    · rw [hbegun]
      exact ChangePhase.noConfusion

/-- The transactions are in order in every state of a run. -/
theorem PostgresInv.of_run {history : List SessionOp}
    (run : Run (SessionStep postgres req) (.start postgres req) history s) :
    PostgresInv req s := by
  refine Run.invariant (I:=fun _ s => PostgresInv req s) (postgresInv_start req) ?_ run
  intro past s op s' _ inv hstep
  exact inv.step hstep

end

end TokiSync.PostgresTokens
