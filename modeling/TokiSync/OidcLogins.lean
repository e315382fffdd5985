import TokiSync.OidcAccounts

/-!
# Concurrent logins of one OIDC subject

Two first logins may both find no account. One insert adds the account, the
other touches its row and still reports success, so the loser goes on with a
user id that no row has. The refresh token of such an id is refused by the
foreign key to the users. The conflict clause is taken as one that some index
may or may not arbitrate.
-/

namespace TokiSync.OidcLogins

open Runs OidcAccounts
open RefreshTokens (TokenTable)

/-- Steps of callbacks. -/
inductive LoginOp where
  /-- A callback looks its subject up. -/
  | find (i : ℕ)
  /-- A callback creates an account. -/
  | create (i : ℕ)
  /-- A callback looks its subject up again. -/
  | retry (i : ℕ)
  /-- A callback issues tokens. -/
  | issue (i : ℕ)

/-- The tables and the progress of all callbacks. -/
structure Logins where
  /-- Table of users. -/
  users : UsersTable
  /-- Table of refresh tokens. -/
  tokens : TokenTable
  /-- Progress of the callbacks. -/
  phases : ℕ → LoginPhase

/-- State before any callback has started. -/
def Logins.start (users : UsersTable) (tokens : TokenTable) : Logins :=
  ⟨users,tokens,fun _ => .idle⟩

/-- One step of one callback. -/
inductive LoginStep (schema : Schema) (inputs : ℕ → LoginInput) :
    Logins → LoginOp → Logins → Prop where
  /-- Look the subject up. -/
  | find {s : Logins} (i : ℕ) (idle : s.phases i=.idle) :
      LoginStep schema inputs s (.find i)
        {s with phases := Function.update s.phases i (findUser s.users (inputs i))}
  /-- Create an account after none was found. -/
  | create {s : Logins} (i : ℕ) (missing : s.phases i=.missing) :
      LoginStep schema inputs s (.create i)
        {s with
          users := (createUser schema s.users (inputs i)).2,
          phases := Function.update s.phases i (createUser schema s.users (inputs i)).1}
  /-- Look the subject up again after a conflict. -/
  | retry {s : Logins} (i : ℕ) (conflicted : s.phases i=.conflicted) :
      LoginStep schema inputs s (.retry i)
        {s with phases := Function.update s.phases i (retryUser s.users (inputs i))}
  /-- Issue tokens for the id settled. -/
  | issue {s : Logins} {id : String} (i : ℕ) (identified : s.phases i=.identified id) :
      LoginStep schema inputs s (.issue i)
        {s with
          tokens := (issueTokens s.users s.tokens (inputs i) id).2,
          phases := Function.update s.phases i (issueTokens s.users s.tokens (inputs i) id).1}

section

variable {schema : Schema} {inputs : ℕ → LoginInput} {users : UsersTable} {tokens : TokenTable}
variable {issuer sub : String} {s t : Logins} {op : LoginOp}

/-- A row of the subject has the id. -/
def HasAccount (users : UsersTable) (issuer sub id : String) : Prop :=
  ∃ row∈users.rows, row.id=id ∧ row.subject=some (issuer,sub)

/-- What is known of the ids that callbacks work with. -/
structure LoginInv (inputs : ℕ → LoginInput) (issuer sub : String) (s : Logins) : Prop where
  /-- Rows with a generated id are rows of the subject. -/
  generated : ∀ i, ∀ row∈s.users.rows, row.id=(inputs i).id → row.subject=some (issuer,sub)
  /-- A settled id is that of a row of the subject, or was generated. -/
  identified : ∀ i id, s.phases i=.identified id →
    HasAccount s.users issuer sub id ∨ id=(inputs i).id
  /-- Tokens are issued for the id of a row of the subject. -/
  issued : ∀ i id, s.phases i=.issued id → HasAccount s.users issuer sub id

/-- A touch keeps the accounts. -/
theorem hasAccount_touch {id issuer' sub' : String} {now : Int64}
    (h : HasAccount users issuer sub id) :
    HasAccount (users.touch issuer' sub' now) issuer sub id := by
  obtain ⟨row,hrow,hid,hsubject⟩ := h
  exact ⟨row.touch issuer' sub' now,List.mem_map_of_mem hrow,(touch_id _ _ _ _).trans hid,
    (touch_subject _ _ _ _).trans hsubject⟩

/-- What creating an account does to the table: nothing, a touch, or a new row
with the generated id and the subject. -/
theorem createUser_cases (schema : Schema) (users : UsersTable) (input : LoginInput) :
    (createUser schema users input).2=users ∨
    (createUser schema users input).2=users.touch input.issuer input.info.sub input.now ∨
    ∃ row, (createUser schema users input).2.rows=users.rows++[row] ∧ row.id=input.id ∧
      row.subject=some (input.issuer,input.info.sub) := by
  unfold createUser
  cases deriveUsername input.info with
  | none => exact .inl rfl
  | some username =>
    dsimp only
    unfold createOidcUser
    by_cases hindex : schema.indexes.any (·.arbitrates ⟨[.oidcIssuer,.oidcSub],none⟩)=true
    · rw [if_pos hindex]
      unfold upsertOidcUser
      cases hfind : findUserByOidc users input.issuer input.info.sub with
      | some row => exact .inr (.inl rfl)
      | none =>
        dsimp only
        split_ifs with htaken
        · dsimp only
          split_ifs <;> exact .inl rfl
        · exact .inr (.inr ⟨_,rfl,rfl,rfl⟩)
    · rw [if_neg hindex]
      dsimp only
      split_ifs <;> exact .inl rfl

/-- A settled id after creating an account is the generated one, and no tokens
are issued by then. -/
theorem createUser_phase {input : LoginInput} {id : String} :
    ((createUser schema users input).1=.identified id → id=input.id) ∧
      (createUser schema users input).1≠.issued id := by
  unfold createUser
  cases deriveUsername input.info with
  | none => simp
  | some username =>
    dsimp only
    split
    · refine ⟨?_,LoginPhase.noConfusion⟩
      intro h
      exact (LoginPhase.identified.inj h).symm
    · split_ifs <;> simp

/-- An id settled by a lookup is that of a row of the subject. -/
theorem useAccount_found {row : UserRow} {id : String}
    (h : findUserByOidc users issuer sub=some row) :
    (useAccount row=.identified id → HasAccount users issuer sub id) ∧
      useAccount row≠.issued id := by
  obtain ⟨hrow,hsubject⟩ := findUserByOidc_eq_some_iff.mp h
  unfold useAccount
  by_cases hactive : row.active
  · rw [if_pos hactive]
    refine ⟨?_,LoginPhase.noConfusion⟩
    intro h
    exact ⟨row,hrow,LoginPhase.identified.inj h,hsubject⟩
  · rw [if_neg hactive]
    simp

theorem findUser_phase {input : LoginInput} {id : String} :
    (findUser users input=.identified id →
      HasAccount users input.issuer input.info.sub id) ∧ findUser users input≠.issued id := by
  unfold findUser
  cases hfind : findUserByOidc users input.issuer input.info.sub with
  | some row => exact useAccount_found hfind
  | none => simp

theorem retryUser_phase {input : LoginInput} {id : String} :
    (retryUser users input=.identified id →
      HasAccount users input.issuer input.info.sub id) ∧ retryUser users input≠.issued id := by
  unfold retryUser
  cases hfind : findUserByOidc users input.issuer input.info.sub with
  | some row => exact useAccount_found hfind
  | none => simp

/-- A step that moves one callback and keeps the accounts. -/
theorem LoginInv.move (h : LoginInv inputs issuer sub s) {i : ℕ} {phase : LoginPhase}
    (hphases : t.phases=Function.update s.phases i phase)
    (hgenerated : ∀ i, ∀ row∈t.users.rows, row.id=(inputs i).id → row.subject=some (issuer,sub))
    (hkept : ∀ id, HasAccount s.users issuer sub id → HasAccount t.users issuer sub id)
    (hidentified : ∀ id, phase=.identified id →
      HasAccount t.users issuer sub id ∨ id=(inputs i).id)
    (hissued : ∀ id, phase=.issued id → HasAccount t.users issuer sub id) :
    LoginInv inputs issuer sub t := by
  refine ⟨hgenerated,?_,?_⟩
  · intro k id hphase
    rw [hphases] at hphase
    by_cases hk : k=i
    · rw [hk,Function.update_self] at hphase
      rw [hk]
      exact hidentified id hphase
    · rw [Function.update_of_ne hk] at hphase
      exact (h.identified k id hphase).imp_left (hkept id)
  · intro k id hphase
    rw [hphases] at hphase
    by_cases hk : k=i
    · rw [hk,Function.update_self] at hphase
      exact hissued id hphase
    · rw [Function.update_of_ne hk] at hphase
      exact hkept id (h.issued k id hphase)

/-- Every step keeps the ids right. -/
theorem LoginInv.step (h : LoginInv inputs issuer sub s)
    (hinputs : ∀ i, (inputs i).issuer=issuer ∧ (inputs i).info.sub=sub)
    (hstep : LoginStep schema inputs s op t) : LoginInv inputs issuer sub t := by
  cases hstep with
  | find i idle =>
    refine h.move rfl h.generated (fun _ => id) ?_ ?_
    · intro id hphase
      have hfound := findUser_phase.1 hphase
      rw [(hinputs i).1,(hinputs i).2] at hfound
      exact .inl hfound
    · intro id hphase
      exact absurd hphase findUser_phase.2
  | create i missing =>
    have hkept : ∀ id, HasAccount s.users issuer sub id →
        HasAccount (createUser schema s.users (inputs i)).2 issuer sub id := by
      intro id hid
      rcases createUser_cases schema s.users (inputs i) with heq | heq | ⟨row,heq,_,_⟩
      · rw [heq]
        exact hid
      · rw [heq]
        exact hasAccount_touch hid
      · obtain ⟨found,hfound,hfid,hsubject⟩ := hid
        refine ⟨found,?_,hfid,hsubject⟩
        rw [heq]
        exact List.mem_append_left _ hfound
    have hgenerated : ∀ k, ∀ row∈(createUser schema s.users (inputs i)).2.rows,
        row.id=(inputs k).id → row.subject=some (issuer,sub) := by
      intro k row hrow hid
      rcases createUser_cases schema s.users (inputs i) with heq | heq | ⟨new,heq,_,hsubject⟩
      · rw [heq] at hrow
        exact h.generated k row hrow hid
      · rw [heq] at hrow
        obtain ⟨old,hold,hrow⟩ := List.mem_map.mp hrow
        rw [← hrow,touch_id] at hid
        rw [← hrow,touch_subject]
        exact h.generated k old hold hid
      · rw [heq] at hrow
        rcases List.mem_append.mp hrow with hrow | hrow
        · exact h.generated k row hrow hid
        · rw [List.mem_singleton.mp hrow,hsubject,(hinputs i).1,(hinputs i).2]
    refine h.move rfl hgenerated hkept ?_ ?_
    · intro id hphase
      exact .inr (createUser_phase.1 hphase)
    · intro id hphase
      exact absurd hphase createUser_phase.2
  | retry i conflicted =>
    refine h.move rfl h.generated (fun _ => id) ?_ ?_
    · intro id hphase
      have hfound := retryUser_phase.1 hphase
      rw [(hinputs i).1,(hinputs i).2] at hfound
      exact .inl hfound
    · intro id hphase
      exact absurd hphase retryUser_phase.2
  | @issue id i identified =>
    refine h.move rfl h.generated (fun _ => fun hid => hid) ?_ ?_
    · intro id' hphase
      unfold issueTokens at hphase
      split_ifs at hphase
    · intro id' hphase
      unfold issueTokens at hphase
      split_ifs at hphase with hstored
      cases hphase
      obtain ⟨⟨row,hrow,hid⟩,_⟩ := hstored
      rcases h.identified i id identified with hid' | hid'
      · exact hid'
      · -- the foreign key: a generated id is issued only when its row is there
        exact ⟨row,hrow,hid,h.generated i row hrow (hid.trans hid')⟩

/-- Every callback that issues tokens issues them for the user id stored for
the subject. -/
theorem issued_for_account {history : List LoginOp}
    (run : Run (LoginStep schema inputs) (.start users tokens) history s)
    (hinputs : ∀ i, (inputs i).issuer=issuer ∧ (inputs i).info.sub=sub)
    (hfresh : ∀ i, ∀ row∈users.rows, row.id≠(inputs i).id) {i : ℕ} {id : String}
    (hissued : s.phases i=.issued id) :
    (findUserByOidc s.users issuer sub).map UserRow.id=some id := by
  have inv : LoginInv inputs issuer sub s := by
    refine Run.invariant (I:=fun _ => LoginInv inputs issuer sub) ?_ ?_ run
    · refine ⟨?_,fun _ _ => LoginPhase.noConfusion,fun _ _ => LoginPhase.noConfusion⟩
      intro i row hrow hid
      exact absurd hid (hfresh i row hrow)
    · intro _ _ _ _ _ h hstep
      exact h.step hinputs hstep
  obtain ⟨row,hrow,hid,hsubject⟩ := inv.issued i id hissued
  rw [findUserByOidc_eq_some_iff.mpr ⟨hrow,hsubject⟩,Option.map_some,hid]

end

/-- First logins of one subject, with generated ids of their own. -/
def firstLogins (i : ℕ) : LoginInput :=
  {firstLogin with id := if i=0 then "id-0" else "id-1",jti := if i=0 then "jti-0" else "jti-1"}

/-- A schema whose index arbitrates the conflict clause. -/
def arbitrated : Schema := ⟨[⟨[.oidcIssuer,.oidcSub],none⟩],"unmatched","duplicate"⟩

/-- Two first logins at once: the one whose insert came first gets tokens for
the account, the other fails. -/
theorem issued_for_account_first :
    ∃ s id, Run (LoginStep arbitrated firstLogins) (.start noUsers fun _ => none)
      [.issue 1,.issue 0,.create 1,.create 0,.find 1,.find 0] s ∧
      s.phases 0=.issued id ∧ s.phases 1=.failed ∧
      (findUserByOidc s.users "https://idp" "subject-1").map UserRow.id=some id := by
  have run : Run (LoginStep arbitrated firstLogins) (.start noUsers fun _ => none)
      [.issue 1,.issue 0,.create 1,.create 0,.find 1,.find 0] _ :=
    .next _ (.next _ (.next _ (.next _ (.next _ (.next _ .start (.find 0 rfl)) (.find 1 rfl))
      (.create 0 rfl)) (.create 1 rfl)) (.issue 0 (rfl : _=LoginPhase.identified "id-0")))
      (.issue 1 (rfl : _=LoginPhase.identified "id-1"))
  refine ⟨_,"id-0",run,by decide +kernel,by decide +kernel,?_⟩
  refine issued_for_account run (fun _ => ⟨rfl,rfl⟩) ?_ (i := 0) (by decide +kernel)
  intro _ row hrow
  exact absurd hrow List.not_mem_nil

end TokiSync.OidcLogins
