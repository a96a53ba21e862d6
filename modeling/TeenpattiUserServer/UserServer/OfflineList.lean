import TeenpattiUserServer.Bookkeeping.Marks
import TeenpattiUserServer.UserServer.Run

/-! The offline list: it holds exactly the users who are stored without a hall. -/

namespace TeenpattiUserServer.UserServer

open Std Bookkeeping

def Book.listed (book : Book) (uid : Int32) : Prop := book.offline uid ≠ none

/-- The user has no connection. -/
def GameUser.offline (user : GameUser) : Prop := user.hallServerId = -1

@[simp] private theorem listed_setOffline (book : Book) (uid time : Int32) :
    (book.setOffline uid time).listed uid := by
  simp [Book.listed, Book.setOffline]

@[simp] private theorem listed_clearOffline (book : Book) (uid : Int32) : ¬ (book.clearOffline uid).listed uid := by
  simp [Book.listed, Book.clearOffline]

private theorem listed_setOffline_ne (book : Book) (time : Int32) {uid other : Int32} (different : other ≠ uid) :
    (book.setOffline uid time).listed other ↔ book.listed other := by
  simp [Book.listed, Book.setOffline, different]

private theorem listed_clearOffline_ne (book : Book) {uid other : Int32} (different : other ≠ uid) :
    (book.clearOffline uid).listed other ↔ book.listed other := by
  simp [Book.listed, Book.clearOffline, different]

/-- A change that leaves the list and the hall of its user alone. -/
private theorem stays_remarked {change : Change} {user updated : GameUser} (old : change.old = some user)
    (new : change.new = some updated) (same : updated.hallServerId = user.hallServerId)
    (note : ∀ book, (change.note book).offline = book.offline) : Remarks Book.listed GameUser.offline change := by
  refine ⟨fun book before => ?_, fun book other _ => ?_⟩
  · rw [Book.listed, old] at before
    rw [new, Book.listed, note]
    simpa [GameUser.offline, same] using before
  · rw [Book.listed, note, Book.listed]

/-- A change that takes its user off the list and stores nobody without a hall. -/
private theorem cleared_remarked {change : Change} (note : ∀ book, ∃ middle : Book, middle.offline = book.offline ∧
    change.note book = middle.clearOffline change.key) (online : ∀ user, change.new = some user → ¬ user.offline) :
    Remarks Book.listed GameUser.offline change := by
  refine ⟨fun book _ => ?_, fun book other different => ?_⟩ <;> obtain ⟨middle, same, noted⟩ := note book
  · rw [noted]
    simpa using online
  · rw [noted, listed_clearOffline_ne middle different, Book.listed, same, Book.listed]

private theorem depart_remarked (user : GameUser) (seated levelled : Bool) :
    Remarks Book.listed GameUser.offline (Change.depart user seated levelled) := by
  refine cleared_remarked (fun book => ⟨_, ?_, rfl⟩) (fun user stored => by simp [Change.depart] at stored)
  cases levelled <;> simp

private theorem detach_remarked (user : GameUser) (time : Int32) :
    Remarks Book.listed GameUser.offline (Change.detach user time) := by
  refine ⟨fun book _ => ?_, fun book other different => listed_setOffline_ne book time different⟩
  simp [Change.detach, GameUser.offline]

private theorem disconnect_remarked (user : GameUser) (time : Int32) :
    Remarks Book.listed GameUser.offline (Change.disconnect user time) := by
  refine ⟨fun book _ => ?_, fun book other different => ?_⟩ <;> simp only [Change.disconnect]
  · by_cases unlisted : book.offline user.uid = none
    · simp [unlisted, GameUser.offline]
    · have listed : book.listed user.uid := unlisted
      simp [unlisted, listed, GameUser.offline]
  · split
    · exact listed_setOffline_ne book time different
    · rfl

private theorem sit_offline (user : GameUser) (tid time : Int32) (level : Option Int16) (book : Book) :
    ((Change.sit user tid time level).note book).offline = book.offline := by
  cases level with
  | none => simp [Change.sit]
  | some level =>
    simp only [Change.sit]
    split <;> simp

private theorem offline_remarked {answers : Answers} {server : Server} {event : Event} {change : Change}
    (hall : Server.AtHall event) (cause : Cause answers server event change) :
    Remarks Book.listed GameUser.offline change := by
  cases cause with
  | arrive =>
    refine cleared_remarked (fun book => ⟨_, Book.offline_updateTerminal .., rfl⟩) fun user stored => ?_
    simp only [Change.arrive, Option.ite_none_right_eq_some, Option.some.injEq] at stored
    rw [← stored.2]
    exact hall
  | reenter =>
    refine cleared_remarked (fun book => ⟨_, Book.offline_updateTerminal .., rfl⟩) fun user stored => ?_
    obtain rfl := Option.some.inj stored
    exact hall
  | close | expire | flush => exact depart_remarked ..
  | forget => exact cleared_remarked (fun book => ⟨book, rfl, rfl⟩) fun user stored => by simp [Change.forget] at stored
  | detach => exact detach_remarked ..
  | disconnect => exact disconnect_remarked ..
  | sit => exact stays_remarked rfl rfl rfl fun book => sit_offline ..
  | refresh => exact stays_remarked rfl rfl rfl fun _ => rfl
  | leave | tid0 => exact stays_remarked rfl rfl rfl fun book => by simp [Change.leave]

namespace Server

variable {server : Server}

private theorem marks_reached (reached : server.ReachedBy fun _ _ event => AtHall event) :
    Marks Book.listed GameUser.offline server.ledger :=
  reached.invariant (fun uid => by simp [Book.listed]) fun _ hall cause _ fits => (offline_remarked hall cause).keeps fits

/-- The offline check leaves a user at a hall alone. -/
private theorem processOfflineCheck_spares (keyed : server.Keyed)
    (marks : Marks Book.listed GameUser.offline server.ledger)
    (answers : Answers) {uid : Int32} {user : GameUser} (stored : server.store.lookup uid = some user)
    (connected : ¬ user.offline) : (server.processOfflineCheck answers).store.lookup uid = some user := by
  have changed : Changes answers server .offlineCheck (server.processOfflineCheck answers) :=
    processOfflineCheck_changes keyed
  obtain ⟨changes, follows, causes⟩ := changed
  let spared (ledger : Ledger Int32 GameUser Book) : Prop := ledger.store.lookup uid = some user
  have after : spared (server.processOfflineCheck answers).ledger := by
    refine follows.keeps (fun change member ledger fits kept => ?_) stored
    have different : uid ≠ change.key := by
      intro same
      have found : change.old = some user := by
        rw [← fits, ← same]
        exact kept
      cases causes change member with
      | forget => simp [Change.forget] at found
      | @expire other listed =>
        obtain rfl := Option.some.inj found
        obtain ⟨record, present, offline⟩ := (marks other.uid).mp listed
        obtain rfl := Option.some.inj ((keyed.own stored).symm.trans present)
        exact connected offline
    exact (lookup_put_ne ledger.store different change.new).trans kept
  exact after

/-- In every run in which users log in at halls, the offline list holds exactly
the stored users without one; so the check of this list deletes nobody at a hall. -/
theorem offline_list_exact (reached : server.ReachedBy fun _ _ event => AtHall event) :
    (∀ uid, uid ∈ server.options.offlineUserMgr ↔
      ∃ user, server.gshm.lookup uid = some user ∧ user.hallServerId = -1) ∧
    ∀ answers uid user, server.gshm.lookup uid = some user → user.hallServerId ≠ -1 →
      (server.processOfflineCheck answers).gshm.lookup uid = some user := by
  have marks := marks_reached reached
  refine ⟨fun uid => ?_, fun answers uid user stored connected => ?_⟩
  · rw [mem_offlineUserMgr, gshm_lookup]
    exact marks uid
  · rw [gshm_lookup] at stored ⊢
    exact processOfflineCheck_spares reached.keyed marks answers stored connected

/-- A user logs in at hall 1, and this hall fails. -/
theorem offline_list_exact_hallCore :
    7 ∈ (((initial 1 0).processUserLogin (quiet 1000) 7 1 7 3).setUserOfflineHallCore (quiet 2000) 1).options.offlineUserMgr := by
  let entered := (initial 1 0).processUserLogin (quiet 1000) 7 1 7 3
  have login : (initial 1 0).step (.request (.userLogin 7 1 7 3)) (quiet 1000) = some entered := rfl
  have failure : entered.step (.request (.hallCore 1)) (quiet 2000) =
      some (entered.setUserOfflineHallCore (quiet 2000) 1) := rfl
  have hall : AtHall (.request (.userLogin 7 1 7 3)) := by
    rw [AtHall]
    decide
  have arrived : entered.ReachedBy fun _ _ event => AtHall event := .next (.start (fresh_initial 1 0)) hall login
  have other : AtHall (.request (.hallCore 1)) := trivial
  have listed := (offline_list_exact (arrived.next other failure)).1 7
  exact listed.mpr ⟨⟨7, -1, 0, 3, -1, 1000⟩, by decide, rfl⟩

end Server

end TeenpattiUserServer.UserServer
