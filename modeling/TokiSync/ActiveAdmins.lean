import TokiSync.AdminAccounts
import TokiSync.Runs

/-!
# Active administrators

Among the successful calls of active administrators only those in which a
caller deletes or demotes its own account can take away an active
administrator without leaving the caller. Such a call leaves the server with
one exactly when there was another. Deactivating one's own account is refused.
-/

namespace TokiSync.ActiveAdmins

open KeyedRows ByteKeys AdminAccounts Runs

/-- The account is active and has the role of an administrator. -/
def ActiveAdmin (accounts : Accounts) (id : String) : Prop :=
  ∃ user, accounts.users.find id=some user ∧ user.role="admin" ∧ user.active=true

/-- Some account is an active administrator. -/
def HasActiveAdmin (accounts : Accounts) : Prop := ∃ id, ActiveAdmin accounts id

/-- Some other account is an active administrator. -/
def HasOtherActiveAdmin (accounts : Accounts) (id : String) : Prop :=
  ∃ other, other≠id ∧ ActiveAdmin accounts other

/-- Administrative calls are made by active administrators. -/
def ByActiveAdmin (accounts : Accounts) : Call → Prop
  | .admin caller _ _ => ActiveAdmin accounts caller
  | .register _ _ _ _ _ => True

/-- The caller deletes or demotes its own account. -/
def RemovesItself (caller : String) : AdminCall → Prop
  | .deleteUser userId _ => userId=caller
  | .changeUserRole userId role => userId=caller ∧ role≠"admin"
  | _ => False

/-- A caller that deletes or demotes its own account is not the only active
administrator. -/
def Guarded (accounts : Accounts) : Call → Prop
  | .admin caller _ call => RemovesItself caller call → HasOtherActiveAdmin accounts caller
  | .register _ _ _ _ _ => True

/-- One successful call, by an active administrator when it is administrative. -/
def CallStep (isAlphanumeric : Char → Bool) (accounts : Accounts) (call : Call)
    (accounts' : Accounts) : Prop :=
  ByActiveAdmin accounts call ∧ handleCall isAlphanumeric accounts call=.ok accounts'

section

variable {accounts accounts' : Accounts} {caller id : String}

/-- New accounts leave the administrators that are there. -/
theorem ActiveAdmin.createUser {user : User} (h : ActiveAdmin accounts id)
    (hcreated : createUser accounts user=some accounts') : ActiveAdmin accounts' id := by
  unfold AdminAccounts.createUser at hcreated
  split_ifs at hcreated with hexists
  cases hcreated
  obtain ⟨admin,hfind,hrole,hactive⟩ := h
  refine ⟨admin,?_,hrole,hactive⟩
  have hmem := Table.find_eq_some.mp hfind
  have hne : user.id≠id := by
    intro heq
    refine hexists (List.any_eq_true.mpr ⟨admin,hmem.1,?_⟩)
    rw [hmem.2,heq,decide_eq_true rfl,Bool.true_or]
  rw [Table.find_put_of_ne _ hne,hfind]

/-- Putting a changed account back changes no other one. -/
theorem find_put_changed {table : Table User.id} {user changed : User}
    (hfind : table.find id=some user) (hid : changed.id=user.id) :
    (table.put changed).find id=some changed ∧
      ∀ other, other≠id → (table.put changed).find other=table.find other := by
  have hkey : changed.id=id := hid.trans (Table.find_eq_some.mp hfind).2
  constructor
  · exact Table.find_eq_some.mpr ⟨Table.mem_put.mpr (Or.inr rfl),hkey⟩
  · intro other hne
    refine Table.find_put_of_ne _ ?_
    rw [hkey]
    exact hne.symm

/-- Changing a role or an active flag changes one account. -/
theorem find_changed {userId : String} (change : User → User)
    (hid : ∀ user, (change user).id=user.id) (hchanged :
      ((getUserById accounts userId).map fun user =>
        {accounts with users := accounts.users.put (change user)})=some accounts') :
    ∃ user, accounts.users.find userId=some user ∧
      accounts'.users.find userId=some (change user) ∧
      ∀ other, other≠userId → accounts'.users.find other=accounts.users.find other := by
  obtain ⟨user,hfind,rfl⟩ := Option.map_eq_some_iff.mp hchanged
  obtain ⟨hself,hother⟩ := find_put_changed hfind (hid user)
  exact ⟨user,hfind,hself,hother⟩

/-- A deletion removes one account. -/
theorem find_deleteUser {userId : String} (hdeleted : deleteUser accounts userId=some accounts') :
    accounts'.users.find userId=none ∧
      ∀ other, other≠userId → accounts'.users.find other=accounts.users.find other := by
  obtain ⟨user,-,rfl⟩ := Option.map_eq_some_iff.mp hdeleted
  constructor
  · refine Table.find_eq_none.mpr fun row hrow hkey => ?_
    exact of_decide_eq_true (Table.mem_keep.mp hrow).2 hkey
  · intro other hne
    dsimp only
    rw [Table.find_keep]
    cases hfind : accounts.users.find other with
    | none => rfl
    | some row =>
      have hkey : row.id=other := (Table.find_eq_some.mp hfind).2
      rw [Option.filter_some,hkey,decide_eq_true hne,if_pos rfl]

/-- Administrators that are found as before are administrators as before. -/
theorem activeAdmin_congr (hfind : accounts'.users.find id=accounts.users.find id) :
    ActiveAdmin accounts' id ↔ ActiveAdmin accounts id := by
  rw [ActiveAdmin,ActiveAdmin,hfind]

/-- Creating an account leaves the caller an active administrator. -/
theorem ActiveAdmin.adminCreateUser {isAlphanumeric : Char → Bool} {username password : String}
    {role : Option String} {newId hash : String} (h : ActiveAdmin accounts caller)
    (hok : adminCreateUser isAlphanumeric accounts username password role newId hash=
      .ok accounts') : ActiveAdmin accounts' caller := by
  unfold AdminAccounts.adminCreateUser at hok
  obtain ⟨-,-,hok⟩ := bind_eq_ok.mp hok
  obtain ⟨-,-,hok⟩ := bind_eq_ok.mp hok
  obtain ⟨-,-,hok⟩ := bind_eq_ok.mp hok
  split at hok
  · rename_i created hcreated
    cases hok
    exact h.createUser hcreated
  · cases hok

/-- Deleting an account takes away that account alone. -/
theorem activeAdmin_adminDeleteUser {userId : String} {readable : Bool}
    (hok : adminDeleteUser accounts userId readable=.ok accounts') :
    ActiveAdmin accounts' id ↔ id≠userId ∧ ActiveAdmin accounts id := by
  unfold adminDeleteUser at hok
  split_ifs at hok with hbuiltin
  have hdeactivated : ∀ other, other≠userId →
      ((setUserActive accounts userId false).getD accounts).users.find other=
        accounts.users.find other := by
    intro other hne
    cases hset : setUserActive accounts userId false with
    | none => rfl
    | some deactivated =>
      obtain ⟨user,-,-,hother⟩ := find_changed (fun user => {user with active := false})
        (fun _ => rfl) hset
      exact hother other hne
  split at hok
  · rename_i deleted hdeleted
    cases hok
    obtain ⟨hgone,hother⟩ := find_deleteUser hdeleted
    by_cases hid : id=userId
    · refine iff_of_false ?_ fun hne => hne.1 hid
      rintro ⟨user,hfind,-⟩
      rw [hid,hgone] at hfind
      cases hfind
    · have hsame := activeAdmin_congr ((hother id hid).trans (hdeactivated id hid))
      exact hsame.trans ⟨fun hactive => ⟨hid,hactive⟩,fun hboth => hboth.2⟩
  · cases hok

/-- Changing a role decides whether that account is an administrator. -/
theorem activeAdmin_adminChangeUserRole {userId role : String}
    (hok : adminChangeUserRole accounts userId role=.ok accounts') :
    (∀ other, other≠userId → (ActiveAdmin accounts' other ↔ ActiveAdmin accounts other)) ∧
      (role="admin" → ActiveAdmin accounts userId → ActiveAdmin accounts' userId) ∧
      (role≠"admin" → ¬ActiveAdmin accounts' userId) := by
  unfold adminChangeUserRole at hok
  obtain ⟨-,-,hok⟩ := bind_eq_ok.mp hok
  split at hok
  · rename_i updated hupdated
    cases hok
    obtain ⟨user,hfind,hself,hother⟩ := find_changed (fun user => {user with role := role})
      (fun _ => rfl) hupdated
    refine ⟨fun other hne => activeAdmin_congr (hother other hne),?_,?_⟩
    · rintro hrole ⟨admin,hadmin,-,hactive⟩
      rw [hfind,Option.some.injEq] at hadmin
      rw [←hadmin] at hactive
      exact ⟨_,hself,hrole,hactive⟩
    · rintro hrole ⟨admin,hadmin,hadminRole,-⟩
      rw [hself,Option.some.injEq] at hadmin
      rw [←hadmin] at hadminRole
      exact hrole hadminRole
  · cases hok

/-- Changing an active flag leaves the caller an active administrator. -/
theorem ActiveAdmin.adminSetUserActive {userId : String} {active : Bool}
    (h : ActiveAdmin accounts caller)
    (hok : adminSetUserActive accounts caller userId active=.ok accounts') :
    ActiveAdmin accounts' caller := by
  unfold AdminAccounts.adminSetUserActive at hok
  split_ifs at hok with hself
  split at hok
  · cases hok
  · split_ifs at hok with hlast
    split at hok
    · rename_i updated hupdated
      cases hok
      obtain ⟨user,hfind,hset,hother⟩ := find_changed (fun user => {user with active := active})
        (fun _ => rfl) hupdated
      by_cases hcaller : caller=userId
      · -- the caller may only activate its own account
        obtain ⟨admin,hadmin,hrole,-⟩ := h
        have hactive : active=true := by
          cases active with
          | true => rfl
          | false =>
            rw [hcaller,Bool.not_false,Bool.true_and,decide_eq_true rfl] at hself
            exact absurd rfl hself
        rw [hcaller,hfind,Option.some.injEq] at hadmin
        rw [←hadmin] at hrole
        rw [hcaller]
        exact ⟨_,hset,hrole,hactive⟩
      · exact (activeAdmin_congr (hother caller hcaller)).mpr h
    · cases hok

/-- Approving a registration leaves every active administrator. -/
theorem ActiveAdmin.adminApprovePending {pendingId newId : String} (h : ActiveAdmin accounts id)
    (hok : adminApprovePending accounts pendingId newId=.ok accounts') :
    ActiveAdmin accounts' id := by
  unfold AdminAccounts.adminApprovePending at hok
  split at hok
  · cases hok
  · split at hok
    · split_ifs at hok
    · rename_i created hcreated
      cases hok
      have hadmin := h.createUser hcreated
      cases hreject : rejectRegistration created pendingId with
      | none => exact hadmin
      | some rejected =>
        obtain ⟨registration,-,rfl⟩ := Option.map_eq_some_iff.mp hreject
        exact hadmin

/-- Rejecting a registration leaves every active administrator. -/
theorem ActiveAdmin.adminRejectPending {pendingId : String} (h : ActiveAdmin accounts id)
    (hok : adminRejectPending accounts pendingId=.ok accounts') : ActiveAdmin accounts' id := by
  unfold AdminAccounts.adminRejectPending at hok
  split at hok
  · rename_i rejected hreject
    cases hok
    obtain ⟨registration,-,rfl⟩ := Option.map_eq_some_iff.mp hreject
    exact h
  · cases hok

/-- A registration leaves every active administrator. -/
theorem ActiveAdmin.register {isAlphanumeric : Char → Bool}
    {mode username password newId hash : String} (h : ActiveAdmin accounts id)
    (hok : register isAlphanumeric accounts mode username password newId hash=.ok accounts') :
    ActiveAdmin accounts' id := by
  unfold AdminAccounts.register at hok
  by_cases hmode : mode≠"open" ∧ mode≠"approval"
  · rw [if_pos hmode] at hok
    cases hok
  · rw [if_neg hmode] at hok
    obtain ⟨-,-,hok⟩ := bind_eq_ok.mp hok
    obtain ⟨-,-,hok⟩ := bind_eq_ok.mp hok
    by_cases happroval : mode="approval"
    · rw [if_pos happroval] at hok
      split at hok
      · rename_i waiting hwaiting
        cases hok
        unfold createPendingRegistration at hwaiting
        split_ifs at hwaiting
        cases hwaiting
        exact h
      · cases hok
    · rw [if_neg happroval] at hok
      split at hok
      · rename_i created hcreated
        cases hok
        exact h.createUser hcreated
      · cases hok

/-- What a successful administrative call of an active administrator does: the
caller stays one, or it removes itself and the others stay. -/
theorem perform_cases {isAlphanumeric : Char → Bool} {call : AdminCall}
    (h : ActiveAdmin accounts caller)
    (hok : perform isAlphanumeric accounts caller call=.ok accounts') :
    (¬RemovesItself caller call ∧ ActiveAdmin accounts' caller) ∨
      (RemovesItself caller call ∧
        ∀ id, ActiveAdmin accounts' id ↔ id≠caller ∧ ActiveAdmin accounts id) := by
  cases call with
  | createUser username password role newId hash =>
    exact Or.inl ⟨fun hfalse => hfalse,h.adminCreateUser hok⟩
  | deleteUser userId readable =>
    by_cases hself : userId=caller
    · right
      refine ⟨hself,fun id => ?_⟩
      rw [←hself]
      exact activeAdmin_adminDeleteUser hok
    · exact Or.inl ⟨hself,(activeAdmin_adminDeleteUser hok).mpr ⟨Ne.symm hself,h⟩⟩
  | changeUserRole userId role =>
    obtain ⟨hother,hkeep,hdemote⟩ := activeAdmin_adminChangeUserRole hok
    by_cases hself : userId=caller
    · rw [hself] at hother hkeep hdemote
      by_cases hrole : role="admin"
      · exact Or.inl ⟨fun hremoves => hremoves.2 hrole,hkeep hrole h⟩
      · right
        refine ⟨⟨hself,hrole⟩,fun id => ?_⟩
        by_cases hid : id=caller
        · rw [hid]
          exact iff_of_false (hdemote hrole) fun hboth => hboth.1 rfl
        · exact (hother id hid).trans ⟨fun hactive => ⟨hid,hactive⟩,fun hboth => hboth.2⟩
    · exact Or.inl ⟨fun hremoves => hself hremoves.1,(hother caller (Ne.symm hself)).mpr h⟩
  | setUserActive userId active => exact Or.inl ⟨fun hfalse => hfalse,h.adminSetUserActive hok⟩
  | approvePending pendingId newId => exact Or.inl ⟨fun hfalse => hfalse,h.adminApprovePending hok⟩
  | rejectPending pendingId => exact Or.inl ⟨fun hfalse => hfalse,h.adminRejectPending hok⟩

/-- A successful call leaves an active administrator exactly when it is
guarded. -/
theorem guarded_iff {isAlphanumeric : Char → Bool} {call : Call} (h : HasActiveAdmin accounts)
    (hstep : CallStep isAlphanumeric accounts call accounts') :
    Guarded accounts call ↔ HasActiveAdmin accounts' := by
  obtain ⟨hcaller,hok⟩ := hstep
  cases call with
  | admin caller cached call =>
    obtain ⟨-,-,hok⟩ := bind_eq_ok.mp hok
    rcases perform_cases hcaller hok with ⟨hstays,hadmin⟩ | ⟨hremoves,hothers⟩
    · exact iff_of_true (fun hremoves => absurd hremoves hstays) ⟨caller,hadmin⟩
    · constructor
      · intro hguarded
        obtain ⟨other,hne,hactive⟩ := hguarded hremoves
        exact ⟨other,(hothers other).mpr ⟨hne,hactive⟩⟩
      · rintro ⟨other,hactive⟩ -
        obtain ⟨hne,hactive⟩ := (hothers other).mp hactive
        exact ⟨other,hne,hactive⟩
  | register mode username password newId hash =>
    obtain ⟨admin,hadmin⟩ := h
    exact iff_of_true trivial ⟨admin,hadmin.register hok⟩

end

/-- From every state with an active administrator, every run of successful
guarded calls ends with one, and these are the runs that have one all along. -/
theorem active_admin_remains (isAlphanumeric : Char → Bool) {init accounts : Accounts}
    (hinit : HasActiveAdmin init) {history : List Call} :
    (Run (fun a call b => CallStep isAlphanumeric a call b ∧ Guarded a call) init history
        accounts → HasActiveAdmin accounts) ∧
    (Run (fun a call b => CallStep isAlphanumeric a call b ∧ Guarded a call) init history
        accounts ↔
      Run (fun a call b => CallStep isAlphanumeric a call b ∧ HasActiveAdmin b) init history
        accounts) := by
  have htail : ∀ (op : Call) (past : List Call), True → True := fun _ _ h => h
  have hforward : ∀ (past : List Call) a call b, True → HasActiveAdmin a →
      CallStep isAlphanumeric a call b → Guarded a call → HasActiveAdmin b ∧ HasActiveAdmin b := by
    intro past a call b _ ha hstep hguarded
    have hb := (guarded_iff ha hstep).mp hguarded
    exact ⟨hb,hb⟩
  have hbackward : ∀ (past : List Call) a call b, True → HasActiveAdmin a →
      CallStep isAlphanumeric a call b → HasActiveAdmin b → Guarded a call ∧ HasActiveAdmin b := by
    intro past a call b _ ha hstep hb
    exact ⟨(guarded_iff ha hstep).mpr hb,hb⟩
  refine ⟨fun run => ?_,fun run => ?_,fun run => ?_⟩
  · exact (Run.change_guard (A:=fun _ => True) htail (I:=HasActiveAdmin) hinit hforward trivial run).1
  · exact (Run.change_guard (A:=fun _ => True) htail (I:=HasActiveAdmin) hinit hforward trivial run).2
  · exact (Run.change_guard (A:=fun _ => True) htail (I:=HasActiveAdmin) hinit hbackward trivial run).2

/-- An account of an active administrator. -/
def adminUser (id : String) : User := ⟨id,id,"","admin",true⟩

/-- One administrator alone. -/
def loneAdmin : Accounts := ⟨⟨[adminUser "root"],by decide⟩,Table.empty⟩

/-- Two administrators. -/
def twoAdmins : Accounts := ⟨⟨[adminUser "root",adminUser "second"],by decide⟩,Table.empty⟩

/-- An administrator makes itself an ordinary user. -/
def selfDemotion : Call := .admin "root" none (.changeUserRole "root" "user")

/-- The sample administrators are active. -/
theorem activeAdmin_root {accounts : Accounts}
    (h : accounts.users.find "root"=some (adminUser "root")) : ActiveAdmin accounts "root" :=
  ⟨_,h,rfl,rfl⟩

/-- The only administrator can make itself an ordinary user. -/
theorem lone_admin_demoted : ¬∀ (init accounts : Accounts) (history : List Call),
    HasActiveAdmin init → Run (CallStep Char.isAlphanum) init history accounts →
      HasActiveAdmin accounts := by
  intro h
  have hadmin : ActiveAdmin loneAdmin "root" := activeAdmin_root rfl
  have hstep : CallStep Char.isAlphanum loneAdmin selfDemotion _ := ⟨hadmin,rfl⟩
  obtain ⟨id,user,hfind,hrole,-⟩ := h _ _ _ ⟨"root",hadmin⟩ (.next _ .start hstep)
  have hmem := (Table.find_eq_some.mp hfind).1
  have hrow : user={adminUser "root" with role := "user"} := List.mem_singleton.mp hmem
  rw [hrow] at hrole
  revert hrole
  decide

/-- One of two administrators makes itself an ordinary user; the other stays. -/
theorem active_admin_remains_sample : ∃ accounts,
    Run (fun a call b => CallStep Char.isAlphanum a call b ∧ Guarded a call) twoAdmins
      [selfDemotion] accounts ∧ HasActiveAdmin accounts := by
  have hadmin : ActiveAdmin twoAdmins "root" := activeAdmin_root rfl
  have hother : HasOtherActiveAdmin twoAdmins "root" :=
    ⟨"second",by decide,adminUser "second",rfl,rfl,rfl⟩
  have hstep : CallStep Char.isAlphanum twoAdmins selfDemotion _ := ⟨hadmin,rfl⟩
  have hguarded : Guarded twoAdmins selfDemotion := fun _ => hother
  have run : Run (fun a call b => CallStep Char.isAlphanum a call b ∧ Guarded a call) twoAdmins
      [selfDemotion] _ := .next _ .start ⟨hstep,hguarded⟩
  exact ⟨_,run,(active_admin_remains Char.isAlphanum ⟨"root",hadmin⟩).1 run⟩

end TokiSync.ActiveAdmins
