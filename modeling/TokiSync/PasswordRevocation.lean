import TokiSync.TokenLedger
import TokiSync.SqliteTokens
import TokiSync.PostgresTokens

/-!
# What a password change leaves

A password change updates the password and then revokes the tokens of the
user. A login that verified the old password can store its token after that;
on PostgreSQL a rotation can also commit a new token that the revocation, with
its snapshot from before, does not see. When the change has returned, every
token of the old password is revoked exactly if neither has happened.
-/

namespace TokiSync.PasswordRevocation

open RefreshTokens RowVersions SnapshotWrites Runs TokenEffects SqliteTokens PostgresTokens
open TokenLedger

/-- A login read the user after the password was updated; the history has the
newest step first. -/
def VerifiedNew (history : List SessionOp) (l : ℕ) : Prop :=
  ∃ later past, history=later++.loginRead l::past ∧ .changeUpdate∈past

/-- Tokens of the old password: those issued before the update, those of
logins that read the user before it, and those exchanged for one of them. -/
def lineage (req : Requests) : List SessionOp → Set String
  | [] => {k | ∃ row, req.tokens k=some row ∧ row.userId=req.user.id}
  | .loginStore l::past =>
    {k | k∈lineage req past ∨ (¬VerifiedNew past l ∧ k=(req.login l).jti)}
  | .commit i::past =>
    {k | k∈lineage req past ∨
      (((req.rotation i).oldJti∈lineage req past ∨ .changeUpdate∉past) ∧
        k=(req.rotation i).newJti)}
  | _::past => lineage req past

/-- No token of the old password can be used. -/
def OldSessionsEnded (req : Requests) (history : List SessionOp) (table : TokenTable) : Prop :=
  ∀ k∈lineage req history, ∀ row, table k=some row → row.revoked=true

/-- Logins that store their tokens after the revocation has started read the
user after the password was updated. -/
def LoginsInTime : List SessionOp → Prop :=
  Always fun op past => ∀ l, op=.loginStore l → .revokeUserStart∈past → VerifiedNew past l

/-- Rotations that commit after the revocation has started are not of tokens of
the old password. -/
def RotationsInTime (req : Requests) : List SessionOp → Prop :=
  Always fun op past => ∀ i, op=.commit i → .revokeUserStart∈past →
    (req.rotation i).oldJti∉lineage req past

/-- No token of the old password is added after the revocation has started. -/
def InTime (req : Requests) (history : List SessionOp) : Prop :=
  LoginsInTime history ∧ RotationsInTime req history

/-- Steps that add no token and start no revocation. -/
def Quiet : SessionOp → Prop
  | .commit _ | .loginStore _ | .revokeUserStart => False
  | _ => True

/-- The table and the history as a ledger: its tokens are those of the user,
its marked tokens those of the old password. -/
structure Tracks (req : Requests) (history : List SessionOp) (table : TokenTable)
    (change : ChangePhase) (l : Ledger String) : Prop where
  /-- Tokens of the user are present. -/
  present : ∀ k, k∈l.present ↔ ∃ row, table k=some row ∧ row.userId=req.user.id
  /-- Unrevoked tokens of the user are live. -/
  live : ∀ k, k∈l.live ↔ ∃ row, table k=some row ∧ row.userId=req.user.id ∧ row.revoked=false
  /-- Tokens of the old password are marked. -/
  marked : l.marked=lineage req history
  /-- The sweep starts with the revocation. -/
  started : .revokeUserStart∈history ↔ ∃ seen, l.seen=some seen
  /-- The sweep has seen every token of the old password exactly when none came
  too late. -/
  inTime : ∀ seen, l.seen=some seen → ((∀ k∈lineage req history, k∈seen) ↔ InTime req history)
  /-- The revocation comes after the update. -/
  updated : change=.updated ∨ .revokeUserStart∈history → .changeUpdate∈history
  /-- The change revokes after it has started to. -/
  begun : change=.revoking → .revokeUserStart∈history
  /-- There is one revocation. -/
  once : .revokeUserStart∈history → change=.revoking ∨ change=.returned ∨ change=.failed
  /-- The change returns after the sweep. -/
  returned : change=.returned → l.swept

section

variable {req : Requests} {history : List SessionOp} {table table' : TokenTable}
variable {change : ChangePhase} {l : Ledger String} {op : SessionOp}

/-- Nobody has read anything yet. -/
theorem not_verifiedNew_nil (l : ℕ) : ¬VerifiedNew [] l := by
  rintro ⟨later,past,heq,-⟩
  cases later with
  | nil => cases heq
  | cons op later => cases heq

/-- A login reads the new password when its read comes after the update. -/
theorem verifiedNew_cons {past : List SessionOp} {l : ℕ} :
    VerifiedNew (op::past) l ↔ (op=.loginRead l ∧ .changeUpdate∈past) ∨ VerifiedNew past l := by
  constructor
  · rintro ⟨later,earlier,heq,hmem⟩
    cases later with
    | nil =>
      rw [List.nil_append,List.cons.injEq] at heq
      rw [heq.2]
      exact Or.inl ⟨heq.1,hmem⟩
    | cons op' later =>
      rw [List.cons_append,List.cons.injEq] at heq
      exact Or.inr ⟨later,earlier,heq.2,hmem⟩
  · rintro (⟨rfl,hmem⟩ | ⟨later,earlier,rfl,hmem⟩)
    · exact ⟨[],past,rfl,hmem⟩
    · exact ⟨op::later,earlier,rfl,hmem⟩

/-- Quiet steps add no token of the old password. -/
theorem lineage_quiet (h : Quiet op) : lineage req (op::history)=lineage req history := by
  cases op with
  | commit i => exact absurd h id
  | loginStore l => exact absurd h id
  | revokeUserStart => exact absurd h id
  | _ => rfl

/-- Quiet steps come in time. -/
theorem inTime_quiet (h : Quiet op) : InTime req (op::history) ↔ InTime req history := by
  have hlogin : ∀ l, op≠.loginStore l := by
    rintro l rfl
    exact h
  have hcommit : ∀ i, op≠.commit i := by
    rintro i rfl
    exact h
  constructor
  · rintro ⟨hl,hr⟩
    exact ⟨hl.2,hr.2⟩
  · rintro ⟨hl,hr⟩
    exact ⟨⟨fun l heq => absurd heq (hlogin l),hl⟩,⟨fun i heq => absurd heq (hcommit i),hr⟩⟩

/-- Before the revocation everything is in time. -/
theorem inTime_of_not_started (req : Requests) (h : .revokeUserStart∉history) : InTime req history := by
  induction history with
  | nil => exact ⟨trivial,trivial⟩
  | cons op past ih =>
    have hpast : .revokeUserStart∉past := fun hmem => h (List.mem_cons_of_mem _ hmem)
    obtain ⟨hl,hr⟩ := ih hpast
    exact ⟨⟨fun l _ hstart => absurd hstart hpast,hl⟩,⟨fun i _ hstart => absurd hstart hpast,hr⟩⟩

/-- A quiet step that leaves the table alone leaves the ledger alone. -/
theorem Tracks.quiet (h : Tracks req history table change l) (hop : Quiet op)
    {change' : ChangePhase}
    (hupdated : change'=.updated → change=.updated ∨ op=.changeUpdate)
    (hbegun : change'=.revoking → change=.revoking)
    (honce : change=.revoking ∨ change=.returned ∨ change=.failed →
      change'=.revoking ∨ change'=.returned ∨ change'=.failed)
    (hreturned : change'=.returned → l.swept) :
    Tracks req (op::history) table change' l := by
  have hstart : .revokeUserStart∈op::history ↔ .revokeUserStart∈history := by
    rw [List.mem_cons]
    refine or_iff_right ?_
    rintro rfl
    exact hop
  refine ⟨h.present,h.live,?_,?_,?_,?_,?_,?_,hreturned⟩
  · rw [lineage_quiet hop]
    exact h.marked
  · rw [hstart]
    exact h.started
  · intro seen hs
    rw [lineage_quiet hop,inTime_quiet hop]
    exact h.inTime seen hs
  · rw [hstart]
    rintro (hphase | hmem)
    · rcases hupdated hphase with hold | rfl
      · exact List.mem_cons_of_mem _ (h.updated (Or.inl hold))
      · exact List.mem_cons_self
    · exact List.mem_cons_of_mem _ (h.updated (Or.inr hmem))
  · rw [hstart]
    exact fun hphase => h.begun (hbegun hphase)
  · rw [hstart]
    exact fun hmem => honce (h.once hmem)

/-- A login issues a token of the ledger. -/
theorem Tracks.loginStore (h : Tracks req history table change l) (inv : LedgerInv l) {n : ℕ}
    (heffect : TableEffect req (.loginStore n) table table') : ∃ l', LedgerStep l () l' ∧
      Tracks req (.loginStore n::history) table' change l' ∧ l'.seen=l.seen ∧
        l'.swept=l.swept := by
  obtain ⟨habsent,rfl⟩ := heffect
  have hfresh : (req.login n).jti∉l.present := by
    rw [h.present,habsent]
    rintro ⟨row,hrow,-⟩
    cases hrow
  have hstart : .revokeUserStart∈SessionOp.loginStore n::history ↔ .revokeUserStart∈history := by
    rw [List.mem_cons]
    exact or_iff_right SessionOp.noConfusion
  refine ⟨_,.issue (req.login n).jti (¬VerifiedNew history n) hfresh,⟨?_,?_,?_,?_,?_,?_,?_,?_,?_⟩,rfl,rfl⟩
  · intro k
    rw [Set.mem_insert_iff,storeRefreshToken_apply]
    split_ifs with hk
    · exact iff_of_true (Or.inl hk) ⟨_,rfl,rfl⟩
    · rw [or_iff_right hk]
      exact h.present k
  · intro k
    rw [Set.mem_insert_iff,storeRefreshToken_apply]
    split_ifs with hk
    · exact iff_of_true (Or.inl hk) ⟨_,rfl,rfl,rfl⟩
    · rw [or_iff_right hk]
      exact h.live k
  · dsimp only
    rw [h.marked]
    rfl
  · rw [hstart]
    exact h.started
  · intro seen hs
    have hmem : .revokeUserStart∈history := h.started.mpr ⟨seen,hs⟩
    have hunseen : (req.login n).jti∉seen := inv.unseen hfresh hs
    have htime := h.inTime seen hs
    constructor
    · intro hall
      have hpast : InTime req history := htime.mp fun k hk => hall k (Or.inl hk)
      refine ⟨⟨?_,hpast.1⟩,⟨fun i heq => SessionOp.noConfusion heq,hpast.2⟩⟩
      intro m heq _
      rw [SessionOp.loginStore.injEq] at heq
      rw [←heq]
      by_contra hold
      exact hunseen (hall _ (Or.inr ⟨hold,rfl⟩))
    · rintro ⟨⟨hlogin,hl⟩,⟨-,hr⟩⟩ k (hk | ⟨hold,-⟩)
      · exact htime.mpr ⟨hl,hr⟩ k hk
      · exact absurd (hlogin n rfl hmem) hold
  · rw [hstart]
    exact fun hor => List.mem_cons_of_mem _ (h.updated hor)
  · rw [hstart]
    exact h.begun
  · rw [hstart]
    exact h.once
  · exact h.returned

/-- A committed rotation exchanges a token of the ledger. -/
theorem Tracks.commit (h : Tracks req history table change l) (inv : LedgerInv l) {i : ℕ}
    (huser : (req.rotation i).userId=req.user.id)
    (heffect : TableEffect req (.commit i) table table') : ∃ l', LedgerStep l () l' ∧
      Tracks req (.commit i::history) table' change l' ∧ l'.seen=l.seen ∧ l'.swept=l.swept := by
  obtain ⟨⟨oldRow,hold⟩,habsent,rfl⟩ := heffect
  have hfresh : (req.rotation i).newJti∉l.present := by
    rw [h.present,habsent]
    rintro ⟨row,hrow,-⟩
    cases hrow
  have hstart : .revokeUserStart∈SessionOp.commit i::history ↔ .revokeUserStart∈history := by
    rw [List.mem_cons]
    exact or_iff_right SessionOp.noConfusion
  have hinherit : (req.rotation i).oldJti∈l.marked →
      (req.rotation i).oldJti∈lineage req history ∨ .changeUpdate∉history := by
    intro hmem
    rw [h.marked] at hmem
    exact Or.inl hmem
  refine ⟨_,.exchange (req.rotation i).oldJti (req.rotation i).newJti _ hfresh hinherit,
    ⟨?_,?_,?_,?_,?_,?_,?_,?_,?_⟩,rfl,rfl⟩
  · intro k
    rw [Set.mem_insert_iff,rotated_apply]
    split_ifs with hk hko
    · exact iff_of_true (Or.inl hk) ⟨_,rfl,huser⟩
    · rw [or_iff_right hk,h.present k,hko,hold]
      simp only [Option.map_some,Option.some.injEq,exists_eq_left',userId_revoke]
    · rw [or_iff_right hk]
      exact h.present k
  · intro k
    rw [Set.mem_insert_iff,Set.mem_sdiff,Set.mem_singleton_iff,rotated_apply]
    split_ifs with hk hko
    · exact iff_of_true (Or.inl hk) ⟨_,rfl,huser,rfl⟩
    · rw [or_iff_right hk]
      refine iff_of_false (fun hlive => hlive.2 hko) ?_
      rw [hko,hold]
      rintro ⟨row,hrow,-,hrevoked⟩
      cases hrow
      cases hrevoked
    · rw [or_iff_right hk,and_iff_left hko]
      exact h.live k
  · dsimp only
    rw [h.marked]
    rfl
  · rw [hstart]
    exact h.started
  · intro seen hs
    have hmem : .revokeUserStart∈history := h.started.mpr ⟨seen,hs⟩
    have hunseen : (req.rotation i).newJti∉seen := inv.unseen hfresh hs
    have htime := h.inTime seen hs
    constructor
    · intro hall
      have hpast : InTime req history := htime.mp fun k hk => hall k (Or.inl hk)
      refine ⟨⟨fun m heq => SessionOp.noConfusion heq,hpast.1⟩,⟨?_,hpast.2⟩⟩
      intro j heq _ hj
      rw [SessionOp.commit.injEq] at heq
      rw [←heq] at hj
      exact hunseen (hall _ (Or.inr ⟨Or.inl hj,rfl⟩))
    · rintro ⟨⟨-,hl⟩,⟨hrotation,hr⟩⟩ k (hk | ⟨hmark,-⟩)
      · exact htime.mpr ⟨hl,hr⟩ k hk
      · -- the password was updated before the revocation started
        have hmarked := hmark.resolve_right fun hno => hno (h.updated (Or.inr hmem))
        exact absurd hmarked (hrotation i rfl hmem)
  · rw [hstart]
    exact fun hor => List.mem_cons_of_mem _ (h.updated hor)
  · rw [hstart]
    exact h.begun
  · rw [hstart]
    exact h.once
  · exact h.returned

/-- The start of the revocation starts the sweep. -/
theorem Tracks.start (h : Tracks req history table .updated l) (inv : LedgerInv l) :
    ∃ l', LedgerStep l () l' ∧ l'.seen=some l.present ∧
      Tracks req (.revokeUserStart::history) table .revoking l' := by
  have hnot : .revokeUserStart∉history := by
    intro hmem
    have hphase := h.once hmem
    simp only [reduceCtorEq,or_self] at hphase
  have hnone : l.seen=none := by
    cases hs : l.seen with
    | none => rfl
    | some seen => exact absurd (h.started.mpr ⟨seen,hs⟩) hnot
  refine ⟨_,.start hnone,rfl,⟨h.present,h.live,h.marked,?_,?_,?_,
    fun _ => List.mem_cons_self,fun _ => Or.inl rfl,?_⟩⟩
  · exact iff_of_true List.mem_cons_self ⟨_,rfl⟩
  · intro seen hs
    cases hs
    obtain ⟨hl,hr⟩ := inTime_of_not_started req hnot
    refine iff_of_true ?_ ⟨⟨fun m heq => SessionOp.noConfusion heq,hl⟩,
      ⟨fun i heq => SessionOp.noConfusion heq,hr⟩⟩
    intro k hk
    change k∈lineage req history at hk
    rw [←h.marked] at hk
    exact inv.marked k hk
  · exact fun _ => List.mem_cons_of_mem _ (h.updated (Or.inl rfl))
  · exact fun hphase => ChangePhase.noConfusion hphase

/-- Revoking rows that the sweep has seen drops tokens. -/
theorem Tracks.drop (h : Tracks req history table change l) {seen : Set String}
    (hs : l.seen=some seen) (hsweeps : Sweeps req.user.id table table')
    (hknown : ∀ k, table' k≠table k → k∈seen) : ∃ l', LedgerStep l () l' ∧ l'.seen=some seen ∧
      Tracks req history table' change l' := by
  have hrow : ∀ k row, table' k=some row → ∃ row', table k=some row' ∧ row'.userId=row.userId ∧
      (row.revoked=false → row'.revoked=false) := by
    intro k row hk
    rcases hsweeps k with hsame | ⟨row',hrow',-,hrevoked⟩
    · exact ⟨row,hsame.symm.trans hk,rfl,id⟩
    · rw [hrevoked,Option.some.injEq] at hk
      rw [←hk]
      exact ⟨row',hrow',rfl,fun hfalse => by cases hfalse⟩
  refine ⟨_,.drop {k | k∈seen ∧ ∃ row, table' k=some row ∧ row.revoked=true} hs (fun k hk => hk.1),
    hs,⟨?_,?_,h.marked,h.started,h.inTime,h.updated,h.begun,h.once,h.returned⟩⟩
  · intro k
    rw [h.present k]
    constructor
    · rintro ⟨row,hk,huser⟩
      rcases hsweeps.extends k row hk with hsame | hrevoked
      · exact ⟨row,hsame,huser⟩
      · exact ⟨row.revoke,hrevoked,huser⟩
    · rintro ⟨row,hk,huser⟩
      obtain ⟨row',hk',hid,-⟩ := hrow k row hk
      exact ⟨row',hk',hid.trans huser⟩
  · intro k
    rw [Set.mem_sdiff,h.live k]
    constructor
    · rintro ⟨⟨row,hk,huser,hfree⟩,hnot⟩
      rcases hsweeps k with hsame | ⟨row',hrow',-,hrevoked⟩
      · exact ⟨row,hsame.trans hk,huser,hfree⟩
      · have hk' : table' k≠table k := by
          rw [hrevoked,hk]
          intro heq
          rw [←Option.some.inj heq] at hfree
          cases hfree
        exact absurd ⟨hknown k hk',_,hrevoked,rfl⟩ hnot
    · rintro ⟨row,hk,huser,hfree⟩
      obtain ⟨row',hk',hid,hrev⟩ := hrow k row hk
      refine ⟨⟨row',hk',hid.trans huser,hrev hfree⟩,?_⟩
      rintro ⟨-,row'',hk'',hrevoked⟩
      rw [hk] at hk''
      cases hk''
      rw [hfree] at hrevoked
      cases hrevoked

/-- When every row that the sweep has seen is revoked, it ends. -/
theorem Tracks.finish (h : Tracks req history table change l) {seen : Set String}
    (hs : l.seen=some seen) (hall : ∀ k∈seen, ∃ row, table k=some row ∧ row.revoked=true) :
    ∃ l', LedgerStep l () l' ∧ l'.seen=some seen ∧ l'.swept ∧ Tracks req history table change l' := by
  refine ⟨_,.finish hs ?_,hs,trivial,
    ⟨h.present,h.live,h.marked,h.started,h.inTime,h.updated,h.begun,h.once,fun _ => trivial⟩⟩
  intro k hlive hseen
  obtain ⟨row,hk,-,hfree⟩ := (h.live k).mp hlive
  obtain ⟨row',hk',hrevoked⟩ := hall k hseen
  rw [hk] at hk'
  cases hk'
  rw [hfree] at hrevoked
  cases hrevoked

/-- After the sweep the old sessions have ended exactly when every token of the
old password came in time. -/
theorem Tracks.ended_iff (h : Tracks req history table change l) (inv : LedgerInv l)
    (hswept : l.swept) : OldSessionsEnded req history table ↔ InTime req history := by
  obtain ⟨seen,hs,-⟩ := inv.swept hswept
  rw [←h.inTime seen hs,←h.marked,←inv.swept_iff hswept hs,OldSessionsEnded,←h.marked]
  constructor
  · intro hended k hk hlive
    obtain ⟨row,hrow,-,hfree⟩ := (h.live k).mp hlive
    rw [hended k hk row hrow] at hfree
    cases hfree
  · intro hnone k hk row hrow
    by_contra hfree
    obtain ⟨row',hrow',huser⟩ := (h.present k).mp (inv.marked k hk)
    rw [hrow] at hrow'
    cases hrow'
    exact hnone k hk ((h.live k).mpr ⟨row,hrow,huser,Bool.eq_false_of_not_eq_true hfree⟩)

end

end TokiSync.PasswordRevocation
