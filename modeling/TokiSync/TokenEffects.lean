import TokiSync.RefreshTokens

/-!
# What a step does to the committed tokens

On both backends a committed rotation revokes its old token and adds its new
one, a login adds its token, the revocation of a user revokes rows of that user
only, and no other step changes a committed row. So rows stay, and stay
revoked. Each backend is shown to keep its transactions in a state from which
this follows.
-/

namespace TokiSync.TokenEffects

open RefreshTokens RowVersions SnapshotWrites Runs

/-- Rows stay, and are revoked at most. -/
def Extends (t t' : TokenTable) : Prop :=
  ∀ k row, t k=some row → t' k=some row ∨ t' k=some row.revoke

/-- Some rows of the user are revoked, nothing else changes. -/
def Sweeps (userId : String) (t t' : TokenTable) : Prop :=
  ∀ k, t' k=t k ∨ ∃ row, t k=some row ∧ row.userId=userId ∧ t' k=some row.revoke

/-- The committed rows before and after a step. -/
def TableEffect (req : Requests) : SessionOp → TokenTable → TokenTable → Prop
  | .commit i,t,t' => (∃ row, t (req.rotation i).oldJti=some row) ∧
      t (req.rotation i).newJti=none ∧
      t'=storeRefreshToken (revokeRefreshToken t (req.rotation i).oldJti)
        (req.rotation i).newJti (req.rotation i).row
  | .loginStore l,t,t' => t (req.login l).jti=none ∧
      t'=storeRefreshToken t (req.login l).jti ((req.login l).row req.user.id)
  | .revokeUserStart,t,t' => Sweeps req.user.id t t'
  | .revokeUserFinish,t,t' => Sweeps req.user.id t t'
  | _,t,t' => t'=t

@[simp] theorem revoke_revoke (row : TokenRow) : row.revoke.revoke=row.revoke := rfl

@[simp] theorem revoked_revoke (row : TokenRow) : row.revoke.revoked=true := rfl

@[simp] theorem userId_revoke (row : TokenRow) : row.revoke.userId=row.userId := rfl

/-- A token whose check passes is in the table, unrevoked. -/
theorem isRevoked_eq_false {row : Option TokenRow} :
    isRevoked row=false ↔ ∃ r, row=some r ∧ r.revoked=false := by
  cases row with
  | none => simp only [isRevoked,Option.map_none,Option.getD_none,reduceCtorEq,false_and,exists_false]
  | some r => simp only [isRevoked,Option.map_some,Option.getD_some,Option.some.injEq,exists_eq_left']

/-- The table after storing a token. -/
theorem storeRefreshToken_apply (t : TokenTable) (jti k : String) (row : TokenRow) :
    storeRefreshToken t jti row k=if k=jti then some row else t k := by
  rw [storeRefreshToken,Function.update_apply]

/-- Revoking a token leaves absent rows absent. -/
theorem revokeRefreshToken_eq_none {t : TokenTable} {jti k : String} :
    revokeRefreshToken t jti k=none ↔ t k=none := by
  unfold revokeRefreshToken
  split_ifs
  · exact Option.map_eq_none_iff
  · rfl

/-- The table after a rotation. -/
theorem rotated_apply (t : TokenTable) (r : Rotation) (k : String) :
    storeRefreshToken (revokeRefreshToken t r.oldJti) r.newJti r.row k=
      if k=r.newJti then some r.row else if k=r.oldJti then (t k).map TokenRow.revoke else t k := by
  rw [storeRefreshToken_apply]
  rfl

/-- Revocations of a user sweep the table. -/
theorem sweeps_revokeUser (t : TokenTable) (userId : String) :
    Sweeps userId t (revokeUserRefreshTokens t userId) := by
  intro k
  unfold revokeUserRefreshTokens
  cases hrow : t k with
  | none => exact Or.inl rfl
  | some row =>
    rw [Option.map_some]
    split_ifs with hrev
    · rw [revocable,Bool.and_eq_true,decide_eq_true_eq] at hrev
      exact Or.inr ⟨row,rfl,hrev.1,rfl⟩
    · exact Or.inl rfl

/-- Sweeping extends the table. -/
theorem Sweeps.extends {userId : String} {t t' : TokenTable} (h : Sweeps userId t t') :
    Extends t t' := by
  intro k row hk
  rcases h k with hsame | ⟨row',hrow',-,hrevoked⟩
  · exact Or.inl (hsame.trans hk)
  · rw [hk,Option.some.injEq] at hrow'
    rw [hrow']
    exact Or.inr hrevoked

/-- Every step extends the committed table. -/
theorem TableEffect.extends {req : Requests} {op : SessionOp} {t t' : TokenTable}
    (h : TableEffect req op t t') : Extends t t' := by
  intro k row hk
  cases op with
  | commit i =>
    obtain ⟨-,hnew,rfl⟩ := h
    rw [rotated_apply]
    split_ifs with hkn hko
    · rw [hkn,hnew] at hk
      cases hk
    · rw [hk]
      exact Or.inr rfl
    · exact Or.inl hk
  | loginStore l =>
    obtain ⟨hnew,rfl⟩ := h
    rw [storeRefreshToken_apply]
    split_ifs with hkn
    · rw [hkn,hnew] at hk
      cases hk
    · exact Or.inl hk
  | revokeUserStart => exact Sweeps.extends h k row hk
  | revokeUserFinish => exact Sweeps.extends h k row hk
  | _ =>
    cases h
    exact Or.inl hk

/-- Revoked rows stay revoked. -/
theorem Extends.revoked {t t' : TokenTable} (h : Extends t t') {k : String}
    (hk : ∃ row, t k=some row ∧ row.revoked=true) : ∃ row, t' k=some row ∧ row.revoked=true := by
  obtain ⟨row,hrow,hrevoked⟩ := hk
  rcases h k row hrow with hsame | hrev
  · exact ⟨row,hsame,hrevoked⟩
  · exact ⟨row.revoke,hrev,rfl⟩

/-- Rows present stay present. -/
theorem Extends.present {t t' : TokenTable} (h : Extends t t') {k : String}
    (hk : ∃ row, t k=some row) : ∃ row, t' k=some row := by
  obtain ⟨row,hrow⟩ := hk
  rcases h k row hrow with hsame | hrev
  · exact ⟨row,hsame⟩
  · exact ⟨row.revoke,hrev⟩

section

variable {B : Backend} {req : Requests} {s s' : Sessions B} {op : SessionOp}

/-- No step changes the id of the user. -/
theorem user_id_step (h : SessionStep B req s op s') : s'.user.id=s.user.id := by
  cases h <;> rfl

/-- The user's id stays that of the requests. -/
theorem user_id_of_run {history : List SessionOp}
    (run : Run (SessionStep B req) (.start B req) history s) : s.user.id=req.user.id := by
  refine Run.invariant (I:=fun _ s => s.user.id=req.user.id) rfl ?_ run
  intro past s op s' _ ih hstep
  exact (user_id_step hstep).trans ih

/-- A rotation has committed exactly when its commit is in the history. -/
theorem commit_mem_iff {history : List SessionOp}
    (run : Run (SessionStep B req) (.start B req) history s) (i : ℕ) :
    .commit i∈history ↔ s.rotations i=.committed := by
  refine Run.invariant (I:=fun h s => .commit i∈h ↔ s.rotations i=.committed) ?_ ?_ run
  · exact iff_of_false List.not_mem_nil (fun h => by cases h)
  · intro past s op s' _ ih hstep
    rw [List.mem_cons,ih]
    cases hstep with
    | commit j hphase =>
      simp only [Function.update_apply,SessionOp.commit.injEq]
      split_ifs with hij
      · exact iff_of_true (Or.inl hij) rfl
      · exact ⟨fun h => h.resolve_left hij,Or.inr⟩
    | check j hphase | update j hphase | insert j hphase =>
      simp only [Function.update_apply]
      split_ifs with hij
      · rw [hij,hphase]
        simp only [reduceCtorEq,or_self]
      · simp only [false_or]
    | abort j hopen =>
      simp only [Function.update_apply]
      split_ifs with hij
      · rw [hij]
        refine iff_of_false ?_ (fun h => by cases h)
        rintro (h | h)
        · cases h
        · rw [h] at hopen
          exact hopen
      · simp only [false_or]
    | _ => simp only [reduceCtorEq,false_or]

end

end TokiSync.TokenEffects
