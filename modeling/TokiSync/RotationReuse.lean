import TokiSync.SqliteTokens
import TokiSync.PostgresTokens

/-!
# Single use of refresh tokens

On SQLite at most one rotation of a token commits, in every interleaving with
any other requests. On PostgreSQL this holds exactly as long as no rotation
that commits runs its update after another rotation of the same token has
committed: the update does not repeat the check.
-/

namespace TokiSync.RotationReuse

open RefreshTokens RowVersions SnapshotWrites Runs TokenEffects SqliteTokens PostgresTokens

/-- At most one rotation of a token has committed. -/
def SingleUse (req : Requests) (history : List SessionOp) : Prop :=
  ∀ i j, .commit i∈history → .commit j∈history →
    (req.rotation i).oldJti=(req.rotation j).oldJti → i=j

/-- A rotation ran its update after the commit of another one; the history has
the newest step first. -/
def UpdatedAfter (history : List SessionOp) (i j : ℕ) : Prop :=
  ∃ later past, history=later++.update j::past ∧ .commit i∈past

/-- No rotation that commits runs its update after another rotation of its
token has committed. -/
def UpdatesFirst (req : Requests) (history : List SessionOp) : Prop :=
  ∀ i j, i≠j → (req.rotation i).oldJti=(req.rotation j).oldJti → .commit j∈history →
    ¬UpdatedAfter history i j

/-- An update that came after a commit still does. -/
theorem UpdatedAfter.cons {history : List SessionOp} {i j : ℕ} (h : UpdatedAfter history i j)
    (op : SessionOp) : UpdatedAfter (op::history) i j := by
  obtain ⟨later,past,rfl,hcommit⟩ := h
  exact ⟨op::later,past,rfl,hcommit⟩

/-- The commit before an update is in the history. -/
theorem UpdatedAfter.committed {history : List SessionOp} {i j : ℕ}
    (h : UpdatedAfter history i j) : .commit i∈history := by
  obtain ⟨later,past,rfl,hcommit⟩ := h
  exact List.mem_append_right _ (List.mem_cons_of_mem _ hcommit)

section

variable {req : Requests}

/-- A committed rotation on SQLite has left its token revoked. -/
theorem revoked_of_commit {history : List SessionOp} {s : Sessions sqlite}
    (run : Run (SessionStep sqlite req) (.start sqlite req) history s) :
    ∀ i, .commit i∈history →
      ∃ row, s.db.committed (req.rotation i).oldJti=some row ∧ row.revoked=true := by
  refine Run.invariant (I:=fun h s => ∀ i, .commit i∈h →
    ∃ row, s.db.committed (req.rotation i).oldJti=some row ∧ row.revoked=true) ?_ ?_ run
  · exact fun i h => absurd h List.not_mem_nil
  · intro past s op s' hrun ih hstep i hi
    have inv := SqliteInv.of_run hrun
    have heffect := inv.effect (user_id_of_run hrun) hstep
    rcases List.mem_cons.mp hi with rfl | hi
    · obtain ⟨⟨row,hrow⟩,hnew,htable⟩ := heffect
      have hne : (req.rotation i).oldJti≠(req.rotation i).newJti := by
        intro heq
        rw [heq,hnew] at hrow
        cases hrow
      rw [htable,rotated_apply,if_neg hne,if_pos rfl,hrow]
      exact ⟨row.revoke,rfl,rfl⟩
    · exact heffect.extends.revoked (ih i hi)

/-- SQLite: at most one rotation of a token commits. -/
theorem singleUse_sqlite {history : List SessionOp} {s : Sessions sqlite}
    (run : Run (SessionStep sqlite req) (.start sqlite req) history s) : SingleUse req history := by
  refine Run.invariant (I:=fun h _ => SingleUse req h) ?_ ?_ run
  · exact fun i j h => absurd h List.not_mem_nil
  · intro past s op s' hrun ih hstep
    -- a commit finds the token unrevoked, so no rotation of it has committed
    have hfirst : ∀ i j, op=.commit i → .commit j∈past →
        (req.rotation i).oldJti≠(req.rotation j).oldJti := by
      rintro i j rfl hj hold
      obtain ⟨row,hrow,hrevoked⟩ := revoked_of_commit hrun j hj
      obtain ⟨hfree,-⟩ := (SqliteInv.of_run hrun).commit_effect hstep
      obtain ⟨row',hrow',hunrevoked⟩ := isRevoked_eq_false.mp hfree
      rw [hold,hrow] at hrow'
      cases hrow'
      rw [hrevoked] at hunrevoked
      cases hunrevoked
    intro i j hi hj hold
    rcases List.mem_cons.mp hi with hi | hi
    · rcases List.mem_cons.mp hj with hj | hj
      · rw [←hi,SessionOp.commit.injEq] at hj
        exact hj.symm
      · exact absurd hold (hfirst i j hi.symm hj)
    · rcases List.mem_cons.mp hj with hj | hj
      · exact absurd hold.symm (hfirst j i hj.symm hi)
      · exact ih i j hi hj hold

/-- Rotations of one token are not past their updates at the same time. -/
theorem eq_of_held {s : Sessions postgres} (inv : PostgresInv req s) {i j : ℕ}
    (hi : s.rotations i=.updated ∨ s.rotations i=.inserted)
    (hj : s.rotations j=.updated ∨ s.rotations j=.inserted)
    (hold : (req.rotation i).oldJti=(req.rotation j).oldJti) : i=j := by
  obtain ⟨row,-,hpendi⟩ := inv.held i hi
  obtain ⟨row',-,hpendj⟩ := inv.held j hj
  rw [hold,hpendj,Option.some.injEq,Prod.mk.injEq] at hpendi
  exact (Option.some.inj hpendi.1).symm

/-- PostgreSQL: when a rotation has committed and another one of its token is
past its update, one of them ran its update after the other's commit. -/
theorem updatedAfter_of_commit {history : List SessionOp} {s : Sessions postgres}
    (run : Run (SessionStep postgres req) (.start postgres req) history s) :
    ∀ i j, i≠j → (req.rotation i).oldJti=(req.rotation j).oldJti → .commit i∈history →
      s.rotations j=.updated ∨ s.rotations j=.inserted ∨ s.rotations j=.committed →
        UpdatedAfter history i j ∨ UpdatedAfter history j i := by
  refine Run.invariant (I:=fun h s => ∀ i j, i≠j →
    (req.rotation i).oldJti=(req.rotation j).oldJti → .commit i∈h →
    s.rotations j=.updated ∨ s.rotations j=.inserted ∨ s.rotations j=.committed →
      UpdatedAfter h i j ∨ UpdatedAfter h j i) ?_ ?_ run
  · exact fun i j _ _ h => absurd h List.not_mem_nil
  · intro past s op s' hrun ih hstep i j hne hold hi hj
    -- steps that bring no rotation past its update and commit none
    have hquiet : .commit i∈past →
        s.rotations j=.updated ∨ s.rotations j=.inserted ∨ s.rotations j=.committed →
          UpdatedAfter (op::past) i j ∨ UpdatedAfter (op::past) j i := by
      intro hi hj
      exact (ih i j hne hold hi hj).imp (fun h => h.cons op) (fun h => h.cons op)
    cases hstep with
    | update k hpassed run =>
      have hi' := (List.mem_cons.mp hi).resolve_left SessionOp.noConfusion
      by_cases hjk : j=k
      · rw [hjk]
        exact Or.inl ⟨[],past,rfl,hi'⟩
      · dsimp only at hj
        rw [Function.update_of_ne hjk] at hj
        exact hquiet hi' hj
    | insert k hupdated run =>
      have hi' := (List.mem_cons.mp hi).resolve_left SessionOp.noConfusion
      by_cases hjk : j=k
      · rw [hjk] at hquiet hne hold ⊢
        exact hquiet hi' (Or.inl hupdated)
      · dsimp only at hj
        rw [Function.update_of_ne hjk] at hj
        exact hquiet hi' hj
    | commit k hinserted run =>
      by_cases hik : i=k
      · -- the committing rotation held the lock, so the other one has committed
        have hjk : j≠k := fun h => hne (hik.trans h.symm)
        dsimp only at hj
        rw [Function.update_of_ne hjk] at hj
        rw [hik] at hne hold ⊢
        have inv := PostgresInv.of_run hrun
        have hcommitted : s.rotations j=.committed := by
          rcases hj with hj | hj | hj
          · exact absurd (eq_of_held inv (Or.inr hinserted) (Or.inl hj) hold) hne
          · exact absurd (eq_of_held inv (Or.inr hinserted) (Or.inr hj) hold) hne
          · exact hj
        have hprevious := ih j k (Ne.symm hne) hold.symm ((commit_mem_iff hrun j).mpr hcommitted)
          (Or.inr (Or.inl hinserted))
        exact hprevious.symm.imp (fun h => h.cons _) (fun h => h.cons _)
      · have hi' := (List.mem_cons.mp hi).resolve_left
          (fun h => hik (SessionOp.commit.inj h))
        by_cases hjk : j=k
        · rw [hjk] at hquiet hne hold ⊢
          exact hquiet hi' (Or.inr (Or.inl hinserted))
        · dsimp only at hj
          rw [Function.update_of_ne hjk] at hj
          exact hquiet hi' hj
    | check k hidle run =>
      have hi' := (List.mem_cons.mp hi).resolve_left SessionOp.noConfusion
      by_cases hjk : j=k
      · rw [hjk] at hj
        dsimp only at hj
        rw [Function.update_self] at hj
        simp only [reduceCtorEq,or_self] at hj
      · dsimp only at hj
        rw [Function.update_of_ne hjk] at hj
        exact hquiet hi' hj
    | abort k hopen run =>
      have hi' := (List.mem_cons.mp hi).resolve_left SessionOp.noConfusion
      by_cases hjk : j=k
      · rw [hjk] at hj
        dsimp only at hj
        rw [Function.update_self] at hj
        simp only [reduceCtorEq,or_self] at hj
      · dsimp only at hj
        rw [Function.update_of_ne hjk] at hj
        exact hquiet hi' hj
    | _ => exact hquiet ((List.mem_cons.mp hi).resolve_left SessionOp.noConfusion) hj

/-- Rotation is single use: on SQLite in every run, on PostgreSQL exactly in
the runs in which no rotation that commits runs its update after another
rotation of the same token has committed. -/
theorem rotation_single_use {history : List SessionOp} {s : Sessions sqlite}
    {history' : List SessionOp} {s' : Sessions postgres}
    (onSqlite : Run (SessionStep sqlite req) (.start sqlite req) history s)
    (onPostgres : Run (SessionStep postgres req) (.start postgres req) history' s') :
    SingleUse req history ∧ (SingleUse req history' ↔ UpdatesFirst req history') := by
  refine ⟨singleUse_sqlite onSqlite,?_,?_⟩
  · intro hsingle i j hne hold hj hafter
    exact hne (hsingle i j hafter.committed hj hold)
  · intro hfirst i j hi hj hold
    by_contra hne
    have hphase := (commit_mem_iff onPostgres j).mp hj
    rcases updatedAfter_of_commit onPostgres i j hne hold hi (Or.inr (Or.inr hphase)) with h | h
    · exact hfirst i j hne hold hj h
    · exact hfirst j i (Ne.symm hne) hold.symm hi h

end

/-- Two rotations that both check, of which one gives up. -/
def overlappingRotations : List SessionOp :=
  [.abort 1,.commit 0,.insert 0,.update 0,.check 1,.check 0]

/-- Two rotations that both check before either updates. -/
def twoRotations : List SessionOp :=
  [.commit 1,.insert 1,.update 1,.commit 0,.insert 0,.update 0,.check 1,.check 0]

/-- The overlapping rotations on SQLite, whose second one finds its snapshot stale. -/
theorem run_overlapping_sqlite : ∃ s, Run (SessionStep sqlite sampleRequests)
    (.start sqlite sampleRequests) overlappingRotations s := by
  have run : Run (SessionStep sqlite sampleRequests) (.start sqlite sampleRequests) [] _ := .start
  have run := Run.next (SessionOp.check 0) run (SessionStep.check 0 rfl ⟨rfl,rfl⟩)
  have run := Run.next (SessionOp.check 1) run (SessionStep.check 1 rfl ⟨rfl,rfl⟩)
  have run := Run.next (SessionOp.update 0) run
    (SessionStep.update 0 rfl ⟨_,Or.inr ⟨rfl,rfl⟩,rfl⟩)
  have run := Run.next (SessionOp.insert 0) run
    (SessionStep.insert 0 rfl ⟨_,Or.inl rfl,rfl,rfl⟩)
  have run := Run.next (SessionOp.commit 0) run (SessionStep.commit 0 rfl ⟨_,rfl,rfl⟩)
  exact ⟨_,Run.next (SessionOp.abort 1) run (SessionStep.abort 1 trivial rfl)⟩

/-- The overlapping rotations on PostgreSQL. -/
theorem run_overlapping_postgres : ∃ s, Run (SessionStep postgres sampleRequests)
    (.start postgres sampleRequests) overlappingRotations s := by
  have run : Run (SessionStep postgres sampleRequests) (.start postgres sampleRequests) [] _ :=
    .start
  have run := Run.next (SessionOp.check 0) run (SessionStep.check 0 rfl ⟨rfl,rfl⟩)
  have run := Run.next (SessionOp.check 1) run (SessionStep.check 1 rfl ⟨rfl,rfl⟩)
  have run := Run.next (SessionOp.update 0) run
    (SessionStep.update 0 rfl (Or.inr ⟨_,free_of_not_pending rfl,rfl,rfl⟩))
  have run := Run.next (SessionOp.insert 0) run (SessionStep.insert 0 rfl ⟨rfl,rfl,rfl⟩)
  have run := Run.next (SessionOp.commit 0) run (SessionStep.commit 0 rfl rfl)
  exact ⟨_,Run.next (SessionOp.abort 1) run (SessionStep.abort 1 trivial rfl)⟩

/-- The two rotations on PostgreSQL, with both new tokens left unrevoked. -/
theorem run_twoRotations : ∃ s,
    Run (SessionStep postgres sampleRequests) (.start postgres sampleRequests) twoRotations s ∧
    isRevoked (s.db.rows.committed "t1")=false ∧ isRevoked (s.db.rows.committed "t2")=false := by
  have checked : Run (SessionStep postgres sampleRequests) (.start postgres sampleRequests)
      [.check 1,.check 0] _ := .next _ (.next _ .start (.check 0 rfl ⟨rfl,rfl⟩))
        (.check 1 rfl ⟨rfl,rfl⟩)
  have updated := Run.next (SessionOp.update 0) checked
    (SessionStep.update 0 rfl (Or.inr ⟨_,free_of_not_pending rfl,rfl,rfl⟩))
  have inserted := Run.next (SessionOp.insert 0) updated (SessionStep.insert 0 rfl ⟨rfl,rfl,rfl⟩)
  have committed := Run.next (SessionOp.commit 0) inserted (SessionStep.commit 0 rfl rfl)
  have updated' := Run.next (SessionOp.update 1) committed
    (SessionStep.update 1 rfl (Or.inr ⟨_,free_of_not_pending rfl,rfl,rfl⟩))
  have inserted' := Run.next (SessionOp.insert 1) updated' (SessionStep.insert 1 rfl ⟨rfl,rfl,rfl⟩)
  have committed' := Run.next (SessionOp.commit 1) inserted' (SessionStep.commit 1 rfl rfl)
  exact ⟨_,committed',rfl,rfl⟩

/-- Overlapping rotations on either backend, of which one commits. -/
theorem rotation_single_use_sample : ∃ s s',
    Run (SessionStep sqlite sampleRequests) (.start sqlite sampleRequests) overlappingRotations s ∧
    Run (SessionStep postgres sampleRequests) (.start postgres sampleRequests) overlappingRotations
      s' ∧
    SingleUse sampleRequests overlappingRotations ∧
    UpdatesFirst sampleRequests overlappingRotations := by
  obtain ⟨s,run⟩ := run_overlapping_sqlite
  obtain ⟨s',run'⟩ := run_overlapping_postgres
  obtain ⟨hsingle,hiff⟩ := rotation_single_use run run'
  exact ⟨s,s',run,run',hsingle,hiff.mp hsingle⟩

/-- Both rotations of one token commit on PostgreSQL. -/
theorem twoRotations_reuse : (∃ s,
    Run (SessionStep postgres sampleRequests) (.start postgres sampleRequests) twoRotations s ∧
    isRevoked (s.db.rows.committed "t1")=false ∧ isRevoked (s.db.rows.committed "t2")=false) ∧
    ¬SingleUse sampleRequests twoRotations := by
  refine ⟨run_twoRotations,fun h => ?_⟩
  have hsame : (0 : ℕ)=1 := h 0 1 (by simp only [twoRotations,List.mem_cons,reduceCtorEq,
    SessionOp.commit.injEq,false_or,true_or,or_true]) List.mem_cons_self rfl
  cases hsame

end TokiSync.RotationReuse
