import TokiSync.DatabaseRuns

/-!
# Users who are not active

The status of a user is a column that only one statement writes; other changes
of the row keep it. So a user who has been deactivated or deleted stays out of
use through every call that neither sets the status again nor inserts a row
under the same id.
-/

namespace TokiSync.InactiveUsers

open Runs ReferencedRows DatabaseRepo DatabaseRuns
open OidcAccounts (UserRow)

/-- A user has no row, or one that is not active. -/
def Inactive (db : Tables) (userId : String) : Prop :=
  ∀ row : UserRow, .user row∈db.rows → row.id=userId → row.active=false

/-- Calls after which a user may be active. -/
def Revives (userId : String) (w : Write) : Prop :=
  Key.user userId∈w.inserts ∨ ∃ now, w=.setUserActive userId true now

/-- Calls after which a user is not active. -/
def Deactivates (userId : String) : Write → Prop
  | .setUserActive id active _ => id=userId ∧ active=false
  | .deleteUser id => id=userId
  | _ => False

section

variable {backend : OidcAccounts.Backend} {db db' : Tables} {w : Write} {userId : String}

/-- A row that no statement of a call selects for an update, or inserts, was
there before. -/
theorem unedited {statements : List (Statement schema)} (run : Run Executes db statements db')
    (hall : ∀ s∈statements, s.Inserts w.MayInsert ∧ s.Selects w.MayUpdate w.MayDelete) {k : Key}
    (hupdate : ∀ row : Row, row.key=k → ¬w.MayUpdate row) (hinsert : k∉w.inserts) {row : Row}
    (hrow : row∈db'.rows) (hkey : row.key=k) : row∈db.rows := by
  induction run generalizing row with
  | start => exact hrow
  | next s run taken ih =>
    have hpast := fun other hother => hall other (List.mem_cons_of_mem s hother)
    obtain ⟨hinserts,hselects⟩ := hall s List.mem_cons_self
    cases s with
    | insert inserted =>
      rcases (Database.mem_of_insert taken).mp hrow with hrow | rfl
      · exact ih hpast hrow hkey
      · exact absurd (hkey ▸ hinserts.1) hinsert
    | update p f hf =>
      cases taken
      obtain ⟨old,hold,rfl⟩ := Database.mem_update.mp hrow
      have holdkey : old.key=k := ((hf.editWhere p).key old).symm.trans hkey
      have hsame : editWhere p f old=old := by
        unfold editWhere
        exact if_neg fun hp => hupdate old holdkey (hselects old hp)
      rw [hsame]
      exact ih hpast hold holdkey
    | delete p =>
      cases taken
      exact ih hpast (Database.mem_delete.mp hrow).1 hkey

/-- A user after an update was there before, and is changed if selected. -/
theorem user_of_updated {p : Row → Bool} {f : UserRow → UserRow} {row : UserRow}
    (hrow : .user row∈(updateWhere db p _ (onUser_invisible f)).2.rows) :
    (∃ old : UserRow, .user old∈db.rows ∧ old.id=row.id ∧ p (.user old)=true ∧
        row.active=(f old).active ∧ row.role=(f old).role) ∨
      (.user row∈db.rows ∧ p (.user row)=false) := by
  obtain ⟨old,hold,hedit⟩ : ∃ old∈db.rows, editWhere p (onUser f) old=.user row :=
    List.mem_map.mp hrow
  unfold editWhere at hedit
  split at hedit
  · rename_i hselected
    cases old with
    | user old =>
      cases hedit
      exact .inl ⟨old,hold,rfl,hselected,rfl,rfl⟩
    | _ => cases hedit
  · rename_i hselected
    subst hedit
    exact .inr ⟨hold,Bool.eq_false_iff.mpr hselected⟩

/-- An insertion adds one row. -/
theorem mem_of_inserted {row other : Row} (h : insert db row=.ok db') (hother : other∈db'.rows) :
    other∈db.rows ∨ other=row := by
  unfold DatabaseRepo.insert at h
  cases hresult : Database.insert db row with
  | error e =>
    rw [hresult] at h
    cases h
  | ok t =>
    rw [hresult] at h
    cases h
    exact (Database.mem_of_insert hresult).mp hother

/-- A call that does not touch the row of a user leaves the user inactive. -/
theorem Inactive.untouched (h : Inactive db userId)
    (hupdate : ∀ user : UserRow, ¬w.MayUpdate (.user user)) (hinsert : Key.user userId∉w.inserts) :
    Inactive (perform backend db w) userId := by
  intro row hrow hid
  obtain ⟨statements,run,hall⟩ := perform_does backend db w
  refine h row (unedited run hall (fun other hkey => ?_) hinsert hrow (congrArg Key.user hid)) hid
  obtain ⟨user,rfl,-⟩ := key_user hkey
  exact hupdate user

/-- So does an update that keeps the status. -/
theorem Inactive.update (h : Inactive db userId) {p : Row → Bool} {f : UserRow → UserRow}
    (hf : ∀ row, (f row).active=row.active) :
    Inactive (updateWhere db p _ (onUser_invisible f)).2 userId := by
  intro row hrow hid
  rcases user_of_updated hrow with ⟨old,hold,hsame,-,hactive,-⟩ | ⟨hold,-⟩
  · rw [hactive,hf]
    exact h old hold (hsame.trans hid)
  · exact h row hold hid

/-- A user stays inactive through every call that does not say otherwise. -/
theorem Inactive.perform (h : Inactive db userId) (hw : ¬Revives userId w) :
    Inactive (perform backend db w) userId := by
  have hinsert : Key.user userId∉w.inserts := fun hmem => hw (.inl hmem)
  cases w with
  | updatePassword id passwordHash now => exact h.update fun _ => rfl
  | updateUserRole id role now => exact h.update fun _ => rfl
  | setUserActive id active now =>
    cases active with
    | true =>
      intro row hrow hid
      rcases user_of_updated hrow with ⟨old,hold,hsame,hselected,-⟩ | ⟨hold,-⟩
      · have hkey : old.id=id := Key.user.inj (of_decide_eq_true hselected)
        exact absurd (.inr ⟨now,by rw [←hkey,hsame,hid]⟩) hw
      · exact h row hold hid
    | false =>
      intro row hrow hid
      rcases user_of_updated hrow with ⟨old,hold,hsame,-,hactive,-⟩ | ⟨hold,-⟩
      · exact hactive
      · exact h row hold hid
  | createOidcUser user now =>
    show Inactive (unlessRefused db (createOidcUser db backend user now) id) userId
    cases hresult : createOidcUser db backend user now with
    | error e => exact h
    | ok created =>
      unfold createOidcUser at hresult
      split_ifs at hresult
      · cases hresult
        exact h.update fun _ => rfl
      · intro row hrow hid
        rcases mem_of_inserted hresult hrow with hrow | hnew
        · exact h row hrow hid
        · cases hnew
          exact absurd (List.mem_singleton.mpr (congrArg Key.user hid).symm) hinsert
  | _ => exact h.untouched (fun user hrow => by cases hrow) hinsert

/-- The row of an inactive user is not active. -/
theorem Inactive.of_found (h : Inactive db userId) {row : UserRow}
    (hfound : getUserById db userId=some row) : row.active=false := by
  unfold getUserById at hfound
  split at hfound
  · rename_i found hfind
    obtain ⟨hmem,hkey⟩ := Database.find_eq_some.mp hfind
    cases hfound
    exact h _ hmem (Key.user.inj hkey)
  · cases hfound

/-- A user who was deactivated or deleted is not active. -/
theorem inactive_of_deactivates (hw : Deactivates userId w) :
    Inactive (perform backend db w) userId := by
  cases w with
  | setUserActive id active now =>
    obtain ⟨rfl,rfl⟩ := hw
    intro row hrow hid
    rcases user_of_updated hrow with ⟨old,hold,hsame,-,hactive,-⟩ | ⟨hold,hselected⟩
    · exact hactive
    · exact absurd (congrArg Key.user hid) (of_decide_eq_false hselected)
  | deleteUser id =>
    intro row hrow hid
    exact absurd (hid.trans hw.symm) (mem_deleteUser.mp hrow).2
  | _ => exact hw.elim

end

end TokiSync.InactiveUsers
