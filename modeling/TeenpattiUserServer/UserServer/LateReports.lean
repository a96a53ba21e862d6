import TeenpattiUserServer.UserServer.Run

/-! Reports of departures that arrive after the user has come back elsewhere. The
handlers know the user by the uid only, so a late report undoes the newer arrival. -/

namespace TeenpattiUserServer.UserServer

open Std Bookkeeping

/-- Who sends: the halls, the game servers, and the others, timers among them. -/
inductive Sender where
  | hall (hallId : Int32)
  | gameServer (serverId : Int16)
  | other

/-- A message as it arrives, with the answers from outside at that time. A list of
deliveries is an interleaving of what its senders sent, each in its order. -/
structure Delivery where
  sender : Sender
  event : Event
  answers : Answers

namespace Delivery

def deliver (delivery : Delivery) (server : Server) : Option Server := server.step delivery.event delivery.answers

variable (hallId uid : Int32) (serverId : Int16) (delivery : Delivery)

/-- A hall reports that the user has logged in there. -/
def IsLogin : Prop :=
  delivery.sender = .hall hallId ∧ ∃ header terminalType,
    delivery.event = .request (.userLogin header hallId uid terminalType)

/-- A hall reports that the connection of the user is closed. -/
def IsClose : Prop := delivery.sender = .hall hallId ∧ delivery.event = .request (.clientClose uid)

/-- A game server reports that the user sits down at one of its tables. -/
def IsEnter : Prop :=
  delivery.sender = .gameServer serverId ∧ ∃ tid,
    delivery.event = .request (.userEnterRoom uid tid) ∧ 0 < tid ∧ (tid >>> 16).toInt16 = serverId

/-- A game server reports that the user has left the table. -/
def IsLeave : Prop := delivery.sender = .gameServer serverId ∧ delivery.event = .request (.userLeaveRoom uid)

end Delivery

/-- The last arrival at one place is followed by an arrival at another, and the
departure from the first has not been reported. -/
def Overtaken {place : Type} (arrival departure : place → Delivery → Prop) (left : place)
    (past : List Delivery) : Prop :=
  ∃ before earlier later, past = before ++ earlier :: later ∧ arrival left earlier ∧
    (∀ delivery ∈ later, ¬ arrival left delivery ∧ ¬ departure left delivery) ∧
    ∃ newer ∈ later, ∃ other, other ≠ left ∧ arrival other newer

open Delivery

/-- A hall reports the close of a connection, and the user is at another hall since. -/
def LateClose (past : List Delivery) (delivery : Delivery) (uid : Int32) : Prop :=
  ∃ hallId, delivery.IsClose hallId uid ∧
    Overtaken (fun hallId delivery => delivery.IsLogin hallId uid) (fun hallId delivery => delivery.IsClose hallId uid)
      hallId past

/-- A game server reports that a user has left, who sits at another server since. -/
def LateLeave (past : List Delivery) (delivery : Delivery) (uid : Int32) : Prop :=
  ∃ serverId, delivery.IsLeave uid serverId ∧
    Overtaken (fun serverId delivery => delivery.IsEnter uid serverId)
      (fun serverId delivery => delivery.IsLeave uid serverId) serverId past

namespace Server

/-- The record stays, its hall is not taken away, and the user is not put on the offline list. -/
structure HallKept (uid : Int32) (before after : Server) : Prop where
  stored : ∀ user, before.gshm.lookup uid = some user →
    ∃ kept, after.gshm.lookup uid = some kept ∧ (kept.hallServerId = -1 → user.hallServerId = -1)
  unlisted : uid ∈ after.options.offlineUserMgr → uid ∈ before.options.offlineUserMgr

/-- The table id stays. -/
def TableKept (uid : Int32) (before after : Server) : Prop :=
  ∀ user, before.gshm.lookup uid = some user → ∃ kept, after.gshm.lookup uid = some kept ∧ kept.tid = user.tid

/-- Late reports do not undo a newer arrival. -/
structure LeavesNewer (past : List Delivery) (delivery : Delivery) (before after : Server) : Prop where
  close : ∀ uid, LateClose past delivery uid → HallKept uid before after
  leave : ∀ uid, LateLeave past delivery uid → TableKept uid before after

/-- A late close finds no user, or one who is known to be disconnected already; a
late leave finds no user, or one without a table. -/
structure FindsNothing (past : List Delivery) (delivery : Delivery) (before : Server) : Prop where
  close : ∀ uid, LateClose past delivery uid → ∀ user, before.gshm.lookup uid = some user →
    0 < user.tid ∧ user.hallServerId = -1 ∧ uid ∈ before.options.offlineUserMgr
  leave : ∀ uid, LateLeave past delivery uid → ∀ user, before.gshm.lookup uid = some user → user.tid = 0

variable {answers : Answers} {server : Server} {uid : Int32}

/-- A close leaves a hall to its user only when there is nothing to take. -/
theorem processClientClose_keeps_iff (keyed : server.Keyed) :
    HallKept uid server (server.processClientClose answers uid) ↔
      ∀ user, server.gshm.lookup uid = some user →
        0 < user.tid ∧ user.hallServerId = -1 ∧ uid ∈ server.options.offlineUserMgr := by
  cases found : server.store.lookup uid with
  | none =>
    have same := @processClientClose_absent answers server uid found
    have absent : server.gshm.lookup uid = none := (server.gshm_lookup uid).trans found
    refine ⟨fun _ user stored => by simp [absent] at stored, fun _ => ⟨fun user stored => by simp [absent] at stored, ?_⟩⟩
    rw [mem_offlineUserMgr, mem_offlineUserMgr, ← ledger_book, same, ledger_book]
    exact id
  | some user =>
    have key := keyed uid user found
    have present : server.gshm.lookup uid = some user := (server.gshm_lookup uid).trans found
    have closed := @processClientClose_stored answers server keyed uid user found
    by_cases seated : 0 < user.tid
    · rw [if_pos seated] at closed
      have kept : (server.processClientClose answers uid).gshm.lookup uid =
          some { user with hallServerId := -1, updateTime := answers.time 0 } := by
        rw [gshm_lookup, ← ledger_store, closed]
        simp [Ledger.apply, Change.detach, key]
      have listed : uid ∈ (server.processClientClose answers uid).options.offlineUserMgr := by
        rw [mem_offlineUserMgr, ← ledger_book, closed]
        simp [Ledger.apply, Change.detach, Book.setOffline, key]
      constructor
      · rintro ⟨stored, unlisted⟩ other same
        obtain rfl := Option.some.inj (present.symm.trans same)
        obtain ⟨record, after, hall⟩ := stored user present
        obtain rfl := Option.some.inj (kept.symm.trans after)
        exact ⟨seated, hall rfl, unlisted listed⟩
      · intro nothing
        obtain ⟨-, hall, before⟩ := nothing user present
        refine ⟨fun other same => ⟨_, kept, fun _ => ?_⟩, fun _ => before⟩
        obtain rfl := Option.some.inj (present.symm.trans same)
        exact hall
    · rw [if_neg seated] at closed
      have gone : (server.processClientClose answers uid).gshm.lookup uid = none := by
        rw [gshm_lookup, ← ledger_store, closed]
        simp [Ledger.apply, Change.depart, key]
      constructor
      · rintro ⟨stored, _⟩
        obtain ⟨record, after, _⟩ := stored user present
        simp [gone] at after
      · exact fun nothing => absurd (nothing user present).1 seated

/-- A leave keeps a table id only when there is none. -/
theorem processReportUserLeaveRoom_keeps_iff (keyed : server.Keyed) :
    TableKept uid server (server.processReportUserLeaveRoom answers uid) ↔
      ∀ user, server.gshm.lookup uid = some user → user.tid = 0 := by
  refine forall_congr' fun user => forall_congr' fun present => ?_
  have found : server.store.lookup uid = some user := (server.gshm_lookup uid).symm.trans present
  have left := @processReportUserLeaveRoom_stored answers server keyed uid user found
  have kept : (server.processReportUserLeaveRoom answers uid).gshm.lookup uid =
      some { user with tid := 0, serverLevel := -1, updateTime := answers.time 0 } := by
    rw [gshm_lookup, ← ledger_store, left]
    simp [Ledger.apply, Change.leave, keyed uid user found]
  rw [kept]
  constructor
  · rintro ⟨record, same, tid⟩
    obtain rfl := Option.some.inj same
    exact tid.symm
  · exact fun zero => ⟨_, rfl, zero.symm⟩

private theorem deliver_keyed {delivery : Delivery} {after : Server} (keyed : server.Keyed)
    (ran : delivery.deliver server = some after) : after.Keyed := step_keyed keyed ran

private theorem leavesNewer_iff {past : List Delivery} {delivery : Delivery} {after : Server} (keyed : server.Keyed)
    (ran : delivery.deliver server = some after) :
    LeavesNewer past delivery server after ↔ FindsNothing past delivery server := by
  have close (uid : Int32) (late : LateClose past delivery uid) : HallKept uid server after ↔
      ∀ user, server.gshm.lookup uid = some user →
        0 < user.tid ∧ user.hallServerId = -1 ∧ uid ∈ server.options.offlineUserMgr := by
    obtain ⟨hallId, ⟨_, event⟩, _⟩ := late
    rw [deliver, event] at ran
    obtain rfl := Option.some.inj ran
    exact processClientClose_keeps_iff keyed
  have leave (uid : Int32) (late : LateLeave past delivery uid) : TableKept uid server after ↔
      ∀ user, server.gshm.lookup uid = some user → user.tid = 0 := by
    obtain ⟨serverId, ⟨_, event⟩, _⟩ := late
    rw [deliver, event] at ran
    obtain rfl := Option.some.inj ran
    exact processReportUserLeaveRoom_keeps_iff keyed
  exact ⟨fun kept => ⟨fun uid late => (close uid late).mp (kept.close uid late),
      fun uid late => (leave uid late).mp (kept.leave uid late)⟩,
    fun nothing => ⟨fun uid late => (close uid late).mpr (nothing.close uid late),
      fun uid late => (leave uid late).mpr (nothing.leave uid late)⟩⟩

/-- Over every interleaving, late reports leave the newer arrivals alone exactly
when they find nothing to undo. -/
theorem late_reports_leave_newer_iff (keyed : server.Keyed) (deliveries : List Delivery) :
    AtEachStep deliver deliveries server LeavesNewer ↔
      AtEachStep deliver deliveries server fun past delivery before _ => FindsNothing past delivery before :=
  atEachStep_congr deliver_keyed leavesNewer_iff deliveries keyed

/-- A hall reports user 7, all at one time. -/
def loginAt (hallId : Int32) : Delivery := ⟨.hall hallId, .request (.userLogin 7 hallId 7 3), quiet 1000⟩

def closeAt (hallId : Int32) : Delivery := ⟨.hall hallId, .request (.clientClose 7), quiet 1000⟩

def enterAt (serverId : Int16) (tid : Int32) : Delivery :=
  ⟨.gameServer serverId, .request (.userEnterRoom 7 tid), quiet 1000⟩

def leaveAt (serverId : Int16) : Delivery := ⟨.gameServer serverId, .request (.userLeaveRoom 7), quiet 1000⟩

/-- The new connection is closed before the old one. -/
theorem late_reports_leave_newer_iff_gone :
    AtEachStep deliver [loginAt 1, loginAt 2, closeAt 2, closeAt 1] (initial 1 0) LeavesNewer ↔
      AtEachStep deliver [loginAt 1, loginAt 2, closeAt 2, closeAt 1] (initial 1 0)
        fun past delivery before _ => FindsNothing past delivery before :=
  late_reports_leave_newer_iff (fresh_initial 1 0).keyed _

private theorem lateClose_example : LateClose [loginAt 1, loginAt 2] (closeAt 1) 7 := by
  refine ⟨1, ⟨rfl, rfl⟩, [], loginAt 1, [loginAt 2], rfl, ⟨rfl, 7, 3, rfl⟩, ?_, loginAt 2, by simp, 2, by decide, rfl, 7, 3, rfl⟩
  intro delivery member
  obtain rfl := List.mem_singleton.mp member
  simp [IsLogin, IsClose, loginAt]

private theorem lateLeave_example : LateLeave [loginAt 1, enterAt 1 65536, enterAt 2 131072] (leaveAt 1) 7 := by
  refine ⟨1, ⟨rfl, rfl⟩, [loginAt 1], enterAt 1 65536, [enterAt 2 131072], rfl, ⟨rfl, 65536, rfl, by decide, by decide⟩, ?_,
    enterAt 2 131072, by simp, 2, by decide, rfl, 131072, rfl, by decide, by decide⟩
  intro delivery member
  obtain rfl := List.mem_singleton.mp member
  simp [IsEnter, IsLeave, enterAt]

/-- The close of the old connection deletes the user who is at the new hall, and
the leave of the old table takes the user from the new one. -/
theorem late_reports_undo :
    ¬ AtEachStep deliver [loginAt 1, loginAt 2, closeAt 1] (initial 1 0) LeavesNewer ∧
      ¬ AtEachStep deliver [loginAt 1, enterAt 1 65536, enterAt 2 131072, leaveAt 1] (initial 1 0) LeavesNewer := by
  constructor
  · intro kept
    let moved := ((initial 1 0).processUserLogin (quiet 1000) 7 1 7 3).processUserLogin (quiet 1000) 7 2 7 3
    have late := kept [loginAt 1, loginAt 2] (closeAt 1) [] moved (moved.processClientClose (quiet 1000) 7) rfl rfl rfl
    obtain ⟨record, stored, _⟩ := (late.close 7 lateClose_example).stored ⟨7, 2, 0, 3, -1, 1000⟩ (by decide)
    have gone : (moved.processClientClose (quiet 1000) 7).gshm.lookup 7 = none := by decide
    simp [gone] at stored
  · intro kept
    let moved := (((initial 1 0).processUserLogin (quiet 1000) 7 1 7 3).processReportUserEnterRoom (quiet 1000) 7
      65536).processReportUserEnterRoom (quiet 1000) 7 131072
    have late := kept [loginAt 1, enterAt 1 65536, enterAt 2 131072] (leaveAt 1) [] moved
      (moved.processReportUserLeaveRoom (quiet 1000) 7) rfl rfl rfl
    obtain ⟨record, stored, tid⟩ := late.leave 7 lateLeave_example ⟨7, 1, 131072, 3, -1, 1000⟩ (by decide)
    have cleared : (moved.processReportUserLeaveRoom (quiet 1000) 7).gshm.lookup 7 = some ⟨7, 1, 0, 3, -1, 1000⟩ := by
      decide
    obtain rfl := Option.some.inj (cleared.symm.trans stored)
    exact absurd tid (by decide)

end Server

end TeenpattiUserServer.UserServer
