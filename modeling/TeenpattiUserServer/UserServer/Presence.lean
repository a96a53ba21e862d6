import TeenpattiUserServer.UserServer.ServerCache

/-! One user by himself: what the server knows of a user in a run is a path of a
small machine, which sees only the events that concern this user. -/

namespace TeenpattiUserServer.UserServer

open Std Bookkeeping

/-- A record, without the uid it lies under and without the level, which the server list gives. -/
structure Seat where
  hallServerId : Int32
  tid : Int32
  terminalType : Int16
  updateTime : Int32
deriving DecidableEq

def GameUser.seat (user : GameUser) : Seat := ⟨user.hallServerId, user.tid, user.terminalType, user.updateTime⟩

/-- A user: the record, and since when the user is on the offline list. -/
structure Presence where
  seat : Option Seat
  since : Option Int32
deriving DecidableEq

namespace Presence

/-- Nobody is there. -/
def absent : Presence := ⟨none, none⟩

def alter (change : Seat → Seat) (presence : Presence) : Presence := { presence with seat := presence.seat.map change }

/-- What an event does to one user. A hall that fails notes the time of one of the `calls`
of the clock; all else happens at the first. -/
def next (startTime uid : Int32) (event : Event) (answers : Answers) (call : Nat) (presence : Presence) : Presence :=
  let now := answers.time 0
  match event with
  | .request (.userLogin _ svid userId terminalType) =>
    if userId = uid ∧ 0 < uid then
      let tid := (presence.seat.map (·.tid)).getD (Server.seededTid answers startTime uid)
      ⟨some ⟨svid, tid, terminalType, now⟩, none⟩
    else presence
  | .request (.getUserTable user _ _ _) =>
    if user = uid then presence.alter fun seat => if 0 < seat.tid then { seat with updateTime := now } else seat
    else presence
  | .request (.clientClose user) =>
    if user = uid then
      match presence.seat with
      | none => presence
      | some seat =>
        if 0 < seat.tid then ⟨some { seat with hallServerId := -1, updateTime := now }, some now⟩ else absent
    else presence
  | .request (.userLeaveRoom user) =>
    if user = uid then presence.alter fun seat => { seat with tid := 0, updateTime := now } else presence
  | .request (.userEnterRoom user tid) =>
    if user = uid then presence.alter fun seat => { seat with tid, updateTime := now } else presence
  | .request (.logicCore serverId) =>
    presence.alter fun seat =>
      if 0 < seat.tid ∧ seat.tid >>> 16 = serverId.toInt32 then { seat with tid := 0 } else seat
  | .request (.hallCore hid) =>
    match presence.seat with
    | none => presence
    | some seat =>
      if seat.hallServerId = hid then
        ⟨some { seat with hallServerId := -1 }, presence.since.or (some (answers.time call))⟩
      else presence
  | .offlineCheck =>
    match presence.since with
    | none => presence
    | some time => if now - time ≥ 5 * 60 then absent else presence
  | .flushCheck =>
    match presence.seat with
    | none => presence
    | some seat =>
      if now - seat.updateTime ≥ (if seat.tid = 0 then 1 else 2) * 60 * 60 then absent else presence
  | _ => presence

/-- The moves of one user. -/
def Moves (startTime uid : Int32) (input : Event × Answers) (before after : Presence) : Prop :=
  ∃ call, after = before.next startTime uid input.1 input.2 call

/-- A login that finds no room for the record takes the user off the offline list all the same. -/
inductive Refused (uid : Int32) : Event × Answers → Presence → Presence → Prop
  | login {hall svid : Int32} {terminalType : Int16} {answers : Answers} {before : Presence} (valid : 0 < uid)
      (missing : before.seat = none) :
      Refused uid (.request (.userLogin hall svid uid terminalType), answers) before absent

/-- The moves of one user where the table may be full. -/
def MovesOrRefused (startTime uid : Int32) (input : Event × Answers) (before after : Presence) : Prop :=
  Moves startTime uid input before after ∨ Refused uid input before after

/-- The events that name the user, and those that may concern everybody. -/
def concerns (uid : Int32) (event : Event) : Bool :=
  match event with
  | .request (.userLogin _ _ user _) | .request (.getUserTable user _ _ _) | .request (.clientClose user)
  | .request (.userLeaveRoom user) | .request (.userEnterRoom user _) => user = uid
  | .request (.logicCore _) | .request (.hallCore _) | .offlineCheck | .flushCheck => true
  | _ => false

theorem next_still {startTime uid : Int32} {event : Event} (apart : concerns uid event = false) (answers : Answers)
    (call : Nat) (presence : Presence) : presence.next startTime uid event answers call = presence := by
  unfold next
  split <;> simp_all [concerns]

/-- A move that does not concern the user is none. -/
theorem Moves.still {startTime uid : Int32} {input : Event × Answers} {before after : Presence}
    (apart : concerns uid input.1 = false) (moved : Moves startTime uid input before after) : after = before := by
  obtain ⟨call, rfl⟩ := moved
  exact next_still apart ..

theorem MovesOrRefused.still {startTime uid : Int32} {input : Event × Answers} {before after : Presence}
    (apart : concerns uid input.1 = false) (moved : MovesOrRefused startTime uid input before after) :
    after = before := by
  rcases moved with moved | ⟨_, _⟩
  · exact moved.still apart
  · simp [concerns] at apart

end Presence

namespace Server

/-- What the server knows of a user. -/
def presence (server : Server) (uid : Int32) : Presence :=
  ⟨(server.gshm.lookup uid).map GameUser.seat, server.options.offlineUserMgr[uid]?⟩

/-- It is in the ledger. -/
theorem presence_eq (server : Server) (uid : Int32) : server.presence uid =
    ⟨(entry Book.offline server.ledger uid).1.map GameUser.seat, (entry Book.offline server.ledger uid).2⟩ := by
  rw [presence, gshm_lookup]
  rfl

end Server

namespace Change

variable (user entered : GameUser) (tid time uid : Int32) (level : Option Int16)

private theorem marked_of {change : Change} {remark : Option Int32 → Option Int32}
    (offline : ∀ book : Book, (change.note book).offline = Function.update book.offline change.key (remark (book.offline change.key))) :
    Marked Book.offline change remark where
  own book := by rw [offline, Function.update_self]
  others book other different := by rw [offline, Function.update_of_ne different]

theorem arrive_marked (room : Bool) : Marked Book.offline (arrive user room) fun _ => none :=
  marked_of fun book => by simp [arrive, Book.clearOffline]

theorem reenter_marked : Marked Book.offline (reenter user entered) fun _ => none :=
  marked_of fun book => by simp [reenter, Book.clearOffline]

theorem refresh_marked : Marked Book.offline (refresh user time) id :=
  marked_of fun book => by simp [refresh]

theorem detach_marked : Marked Book.offline (detach user time) fun _ => some time :=
  marked_of fun book => by simp [detach, Book.setOffline]

theorem depart_marked (seated levelled : Bool) : Marked Book.offline (depart user seated levelled) fun _ => none :=
  marked_of fun book => by cases levelled <;> simp [depart, Book.clearOffline]

theorem leave_marked : Marked Book.offline (leave user time) id :=
  marked_of fun book => by simp [leave]

theorem sit_marked : Marked Book.offline (sit user tid time level) id :=
  marked_of fun book => by
    cases level with
    | none => simp [sit]
    | some level =>
      simp only [sit]
      split <;> simp

theorem disconnect_marked : Marked Book.offline (disconnect user time) fun old => old.or (some time) :=
  marked_of fun book => by
    cases listed : book.offline user.uid with
    | none => simp [disconnect, listed, Book.setOffline]
    | some time =>
      have kept : Function.update book.offline user.uid (some time) = book.offline := by
        rw [← listed, Function.update_eq_self]
      simp [disconnect, listed, kept]

theorem forget_marked : Marked Book.offline (forget uid) fun _ => none :=
  marked_of fun book => by simp [forget, Book.clearOffline]

end Change

namespace Server

variable {answers : Answers} {server after : Server} {event : Event} {change : Change}
  {remark : Option Int32 → Option Int32} {uid : Int32} {user : GameUser}

private theorem presence_of_ledger (same : after.ledger = server.ledger) : after.presence uid = server.presence uid := by
  rw [presence_eq, presence_eq, same]

private theorem seat_stored (stored : server.store.lookup uid = some user) :
    (server.presence uid).seat = some user.seat := by
  rw [presence, gshm_lookup, stored]
  rfl

private theorem seat_absent (absent : server.store.lookup uid = none) : (server.presence uid).seat = none := by
  rw [presence, gshm_lookup, absent]
  rfl

/-- One change moves the user whose record it changes. -/
private theorem presence_changed (marked : Marked Book.offline change remark)
    (changed : after.ledger = server.ledger.apply change) : after.presence uid =
      if change.key = uid then ⟨change.new.map GameUser.seat, remark (server.presence uid).since⟩
      else server.presence uid := by
  rw [presence_eq, changed]
  split
  · rename_i same
    subst same
    rw [marked.entry_own]
    rfl
  · rename_i different
    rw [marked.entry_other _ fun same => different same.symm, presence_eq]

/-- Of some changes of different users, those of others do not move a user. -/
private theorem presence_spared {changes : List Change} (follows : Follows server.ledger changes after.ledger)
    (each : ∀ change ∈ changes, ∃ remark, Marked Book.offline change remark)
    (apart : ∀ change ∈ changes, change.key ≠ uid) : after.presence uid = server.presence uid := by
  rw [presence_eq, presence_eq, follows.entry_other each apart]

private theorem presence_swept {changes : List Change} (follows : Follows server.ledger changes after.ledger)
    (each : ∀ change ∈ changes, ∃ remark, Marked Book.offline change remark) (member : change ∈ changes)
    (marked : Marked Book.offline change remark) (key : change.key = uid) :
    after.presence uid = ⟨change.new.map GameUser.seat, remark (server.presence uid).since⟩ := by
  subst key
  rw [presence_eq, follows.entry_edited each member marked]
  rfl

/-- The move of a step whose moves do not depend on the clock. -/
private theorem moves_of {startTime : Int32}
    (same : ∀ call, after.presence uid = (server.presence uid).next startTime uid event answers call) :
    Presence.Moves startTime uid (event, answers) (server.presence uid) (after.presence uid) := ⟨0, same 0⟩

private theorem login_moves (keyed : server.Keyed) {hall svid userId : Int32} {terminalType : Int16}
    (roomy : server.Roomy (.request (.userLogin hall svid userId terminalType))) (uid : Int32) :
    Presence.Moves server.options.startTime uid (.request (.userLogin hall svid userId terminalType), answers)
      (server.presence uid) ((server.processUserLogin answers hall svid userId terminalType).presence uid) := by
  refine moves_of fun call => ?_
  by_cases invalid : userId ≤ 0
  · have never : ¬ (userId = uid ∧ 0 < uid) := by
      rintro ⟨rfl, valid⟩
      exact Int32.not_le.mpr valid invalid
    rw [processUserLogin_refused invalid]
    simp only [Presence.next, never, if_false]
  · have valid : 0 < userId := Int32.not_le.mp invalid
    have asked : (userId = uid ∧ 0 < uid) ↔ userId = uid := ⟨And.left, fun same => ⟨same, same ▸ valid⟩⟩
    cases found : server.store.lookup userId with
    | none =>
      have room : server.gshm.freeNodes ≠ 0 := roomy valid found
      rw [presence_changed (Change.arrive_marked ..) (processUserLogin_absent keyed valid found)]
      simp only [Presence.next, asked]
      by_cases same : userId = uid
      · subst same
        simp [Change.arrive, loginRecord, room, GameUser.seat, seat_absent found]
      · simp [Change.arrive, loginRecord, same]
    | some user =>
      have key := keyed userId user found
      rw [presence_changed (Change.reenter_marked ..) (processUserLogin_stored keyed valid found)]
      simp only [Presence.next, asked]
      by_cases same : userId = uid
      · subst same
        simp [Change.reenter, loginRecord, key, GameUser.seat, seat_stored found]
      · simp [Change.reenter, key, same]

/-- A request about one user, who may be there or not. -/
private theorem named_moves {startTime : Int32} (user : Int32) (keyed : server.Keyed)
    (still : ∀ call presence, user ≠ uid ∨ presence.seat = none →
      Presence.next startTime uid event answers call presence = presence)
    (absent : server.store.lookup user = none → after.ledger = server.ledger)
    (stored : ∀ found, server.store.lookup user = some found → ∃ change remark,
      after.ledger = server.ledger.apply change ∧ change.key = found.uid ∧ Marked Book.offline change remark ∧
        ∀ call presence, user = uid → presence.seat = some found.seat →
          Presence.next startTime uid event answers call presence =
            ⟨change.new.map GameUser.seat, remark presence.since⟩) :
    Presence.Moves startTime uid (event, answers) (server.presence uid) (after.presence uid) := by
  refine moves_of fun call => ?_
  cases found : server.store.lookup user with
  | none =>
    rw [presence_of_ledger (absent found)]
    refine (still call _ ?_).symm
    by_cases same : user = uid
    · exact .inr (seat_absent (same ▸ found))
    · exact .inl same
  | some record =>
    obtain ⟨change, remark, changed, key, marked, moves⟩ := stored record found
    rw [presence_changed marked changed, key, keyed user record found]
    split
    · rename_i same
      exact (moves call _ same (seat_stored (same ▸ found))).symm
    · rename_i different
      exact (still call _ (.inl different)).symm

private theorem getUserTable_spared {hall svid sid : Int32} {level : Int16}
    (standing : ∀ user, server.store.lookup hall = some user → ¬ 0 < user.tid) :
    (server.processGetUserTable answers hall svid level sid).ledger = server.ledger := by
  rcases server.find_cases hall with ⟨middle, ran, _, store, book⟩ | ⟨user, middle, ran, stored, store, book⟩
  · exact Ledger.ext (by simpa [processGetUserTable, ran] using store) (by simpa [processGetUserTable, ran] using book)
  · have seated := standing user stored
    exact Ledger.ext (by simpa [processGetUserTable, ran, seated] using store)
      (by simpa [processGetUserTable, ran, seated] using book)

private theorem getUserTable_moves {startTime : Int32} (keyed : server.Keyed) (user svid : Int32) (level : Int16)
    (sid uid : Int32) : Presence.Moves startTime uid (.request (.getUserTable user svid level sid), answers)
      (server.presence uid) ((server.processGetUserTable answers user svid level sid).presence uid) := by
  refine moves_of fun call => ?_
  by_cases seated : ∃ found, server.store.lookup user = some found ∧ 0 < found.tid
  · obtain ⟨found, stored, seated⟩ := seated
    have key := keyed user found stored
    rw [presence_changed (Change.refresh_marked ..) (processGetUserTable_seated keyed stored seated)]
    simp only [Presence.next]
    by_cases same : user = uid
    · subst same
      have sitting : 0 < found.seat.tid := seated
      simp only [Change.refresh, key, if_true, Presence.alter, seat_stored stored, Option.map_some, sitting]
      rfl
    · simp [Change.refresh, key, same]
  · rw [presence_of_ledger (getUserTable_spared fun found stored sits => seated ⟨found, stored, sits⟩)]
    simp only [Presence.next]
    by_cases same : user = uid
    · subst same
      cases stored : server.store.lookup user with
      | none => simp [Presence.alter, presence, gshm_lookup, stored]
      | some found =>
        have standing : ¬ 0 < found.seat.tid := fun sits => seated ⟨found, stored, sits⟩
        simp only [if_true, Presence.alter, seat_stored stored, Option.map_some, standing, if_false]
        rw [← seat_stored stored]
    · simp [same]

private theorem clientClose_moves {startTime : Int32} (keyed : server.Keyed) (user uid : Int32) :
    Presence.Moves startTime uid (.request (.clientClose user), answers) (server.presence uid)
      ((server.processClientClose answers user).presence uid) := by
  refine named_moves user keyed ?_ processClientClose_absent fun found stored => ?_
  · rintro call presence (different | idle)
    · simp [Presence.next, different]
    · simp [Presence.next, idle]
  · have closed := @processClientClose_stored answers server keyed user found stored
    by_cases seated : 0 < found.tid
    · rw [if_pos seated] at closed
      refine ⟨_, _, closed, rfl, Change.detach_marked .., fun call presence same present => ?_⟩
      have sitting : 0 < found.seat.tid := seated
      simp only [Presence.next, same, if_true, present, sitting]
      rfl
    · rw [if_neg seated] at closed
      refine ⟨_, _, closed, rfl, Change.depart_marked .., fun call presence same present => ?_⟩
      have standing : ¬ 0 < found.seat.tid := seated
      simp only [Presence.next, same, if_true, present, standing, if_false]
      rfl

private theorem leaveRoom_moves {startTime : Int32} (keyed : server.Keyed) (user uid : Int32) :
    Presence.Moves startTime uid (.request (.userLeaveRoom user), answers) (server.presence uid)
      ((server.processReportUserLeaveRoom answers user).presence uid) := by
  refine named_moves user keyed ?_ processReportUserLeaveRoom_absent fun found stored => ?_
  · rintro call ⟨seat, since⟩ (different | rfl)
    · simp [Presence.next, different]
    · simp [Presence.next, Presence.alter]
  · refine ⟨_, _, processReportUserLeaveRoom_stored keyed stored, rfl, Change.leave_marked .., ?_⟩
    intro call presence same present
    simp only [Presence.next, same, if_true, Presence.alter, present]
    rfl

private theorem enterRoom_moves {startTime : Int32} (keyed : server.Keyed) (user tid uid : Int32) :
    Presence.Moves startTime uid (.request (.userEnterRoom user tid), answers) (server.presence uid)
      ((server.processReportUserEnterRoom answers user tid).presence uid) := by
  refine named_moves user keyed ?_ (fun absent => ?_) fun found stored => ?_
  · rintro call ⟨seat, since⟩ (different | rfl)
    · simp [Presence.next, different]
    · simp [Presence.next, Presence.alter]
  · rcases server.find_cases user with ⟨middle, ran, _, store, book⟩ | ⟨_, _, _, stored, _⟩
    · exact Ledger.ext (by simpa [processReportUserEnterRoom, ran] using store)
        (by simpa [processReportUserEnterRoom, ran] using book)
    · simp [stored] at absent
  · obtain ⟨level, changed⟩ := @processReportUserEnterRoom_stored answers server keyed user tid found stored
    refine ⟨_, _, changed, rfl, Change.sit_marked .., fun call presence same present => ?_⟩
    simp only [Presence.next, same, if_true, Presence.alter, present]
    rfl

private theorem visit_of_stored (stored : server.store.lookup uid = some user) : user ∈ server.gshm.visit := by
  rw [store_lookup] at stored
  exact List.mem_map.mpr ⟨_, AList.mem_lookup_iff.mp stored, rfl⟩

/-- A sweep over some of the visited users, which makes one change for each. -/
private theorem visited_moves {ι : Type} {items : List ι} {changeOf : ι → Change}
    {remark : ι → Option Int32 → Option Int32} {expected : Presence}
    (userOf : ι → GameUser) (picked : GameUser → Prop) (keyed : server.Keyed)
    (follows : Follows server.ledger (items.map changeOf) after.ledger)
    (key : ∀ item, (changeOf item).key = (userOf item).uid)
    (marked : ∀ item, Marked Book.offline (changeOf item) (remark item))
    (members : ∀ found, found ∈ items.map userOf ↔ found ∈ server.gshm.visit ∧ picked found)
    (spared : (∀ found, server.store.lookup uid = some found → ¬ picked found) → expected = server.presence uid)
    (moved : ∀ item ∈ items, server.store.lookup uid = some (userOf item) →
      expected = ⟨(changeOf item).new.map GameUser.seat, remark item (server.presence uid).since⟩) :
    after.presence uid = expected := by
  have each : ∀ change ∈ items.map changeOf, ∃ remark, Marked Book.offline change remark := by
    intro change member
    obtain ⟨item, _, rfl⟩ := List.mem_map.mp member
    exact ⟨_, marked item⟩
  by_cases takes : ∃ item ∈ items, (userOf item).uid = uid
  · obtain ⟨item, member, same⟩ := takes
    have inside := ((members _).mp (List.mem_map_of_mem member)).1
    rw [presence_swept follows each (List.mem_map_of_mem member) (marked item) ((key item).trans same)]
    exact (moved item member (same ▸ visit_stored keyed inside)).symm
  · have apart : ∀ change ∈ items.map changeOf, change.key ≠ uid := by
      rintro change member same
      obtain ⟨item, inside, rfl⟩ := List.mem_map.mp member
      exact takes ⟨item, inside, (key item).symm.trans same⟩
    rw [presence_spared follows each apart, spared]
    intro found stored chosen
    obtain ⟨item, inside, rfl⟩ := List.mem_map.mp ((members found).mpr ⟨visit_of_stored stored, chosen⟩)
    exact takes ⟨item, inside, keyed uid _ stored⟩

private theorem logicCore_moves {startTime : Int32} (keyed : server.Keyed) (serverId : Int16) (uid : Int32) :
    Presence.Moves startTime uid (.request (.logicCore serverId), answers) (server.presence uid)
      ((server.processLogicCore serverId).presence uid) := by
  refine moves_of fun call => ?_
  refine visited_moves id (fun user => atServer serverId user) keyed
    (processLogicCore_follows keyed serverId) (fun _ => rfl) (fun _ => Change.leave_marked ..)
    (by simp [List.mem_filter]) (fun spared => ?_) fun found member stored => ?_
  · simp only [Presence.next, Presence.alter]
    cases stored : server.store.lookup uid with
    | none => rw [seat_absent stored, Option.map_none, ← seat_absent stored]
    | some found =>
      have elsewhere : ¬ (0 < found.seat.tid ∧ found.seat.tid >>> 16 = serverId.toInt32) := by
        simpa [atServer, GameUser.seat] using spared found stored
      rw [seat_stored stored, Option.map_some, if_neg elsewhere, ← seat_stored stored]
  · have there : 0 < found.seat.tid ∧ found.seat.tid >>> 16 = serverId.toInt32 := by
      simpa [atServer, GameUser.seat] using List.of_mem_filter member
    simp only [Presence.next, Presence.alter]
    rw [seat_stored stored, Option.map_some, id, if_pos there]
    rfl

private theorem flushCheck_moves {startTime : Int32} (keyed : server.Keyed) (uid : Int32) :
    Presence.Moves startTime uid (.flushCheck, answers) (server.presence uid)
      ((server.processFlushCheck answers).presence uid) := by
  have same (user : GameUser) : idle (answers.time 0) user = true ↔
      answers.time 0 - user.seat.updateTime ≥ (if user.seat.tid = 0 then 1 else 2) * 60 * 60 := by
    simp only [idle, GameUser.seat]
    split <;> rename_i table <;> simp [table]
  refine moves_of fun call => ?_
  refine visited_moves id (fun user => idle (answers.time 0) user) keyed
    (processFlushCheck_follows keyed answers) (fun _ => rfl) (fun _ => Change.depart_marked ..)
    (by simp [List.mem_filter]) (fun spared => ?_) fun found member stored => ?_
  · cases stored : server.store.lookup uid with
    | none => simp only [Presence.next, seat_absent stored]
    | some found =>
      have stays := mt (same found).mpr (spared found stored)
      simp only [Presence.next, seat_stored stored]
      rw [if_neg stays]
  · have goes := (same found).mp (List.of_mem_filter member)
    simp only [Presence.next, seat_stored stored, id]
    rw [if_pos goes]
    rfl

/-- The times that a failing hall puts on the offline list are those of the clock. -/
private theorem foldl_hallCoreVisit_since (hid : Int32) (users : List GameUser) (uids : List Int32) (call : Nat) :
    let visited := users.foldl (hallCoreVisit answers hid) (server, uids, call)
    visited.1.book.offline uid = server.book.offline uid ∨
      ∃ call, visited.1.book.offline uid = some (answers.time call) := by
  induction users generalizing server uids call with
  | nil => exact .inl rfl
  | cons user users ih =>
    simp only [List.foldl_cons, hallCoreVisit]
    split
    · split
      · rcases @ih (server.addOfflineUser user.uid (answers.time call)) (uids ++ [user.uid]) (call + 1) with same | clock
        · rw [book_addOfflineUser, Book.setOffline] at same
          by_cases own : uid = user.uid
          · rw [own] at same ⊢
            exact .inr ⟨call, same.trans (Function.update_self ..)⟩
          · exact .inl (same.trans (Function.update_of_ne own ..))
        · exact .inr clock
      · exact ih _ _
    · exact ih _ _

private theorem hallCore_since (hid : Int32) :
    ((server.setUserOfflineHallCore answers hid).presence uid).since = (server.presence uid).since ∨
      ∃ call, ((server.setUserOfflineHallCore answers hid).presence uid).since = some (answers.time call) := by
  have visited := @foldl_hallCoreVisit_since answers server uid hid server.gshm.visit [] 0
  have options := (server.gshm.visit.foldl (hallCoreVisit answers hid) (server, [], 0)).1.options_foldl_change
    (fun user => { user with hallServerId := -1 }) (server.gshm.visit.foldl (hallCoreVisit answers hid) (server, [], 0)).2.1
  simp only [presence, setUserOfflineHallCore, options]
  exact visited

private theorem hallCore_moves {startTime : Int32} (keyed : server.Keyed) (hid uid : Int32) :
    Presence.Moves startTime uid (.request (.hallCore hid), answers) (server.presence uid)
      ((server.setUserOfflineHallCore answers hid).presence uid) := by
  obtain ⟨timed, same, follows⟩ := @setUserOfflineHallCore_follows answers server keyed hid
  -- the list tells no more of a time than that it is noted; that it is the clock's is known of the result
  obtain ⟨call, clock⟩ : ∃ call, ∀ time, (server.presence uid).since = none →
      ((server.setUserOfflineHallCore answers hid).presence uid).since = some time → time = answers.time call := by
    rcases @hallCore_since answers server uid hid with kept | ⟨call, noted⟩
    · refine ⟨0, fun time none some' => ?_⟩
      rw [kept, none] at some'
      cases some'
    · exact ⟨call, fun time _ some' => Option.some.inj (some'.symm.trans noted)⟩
  refine ⟨call, ?_⟩
  have key (item : GameUser × Int32) : (Change.disconnect item.1 item.2).key = item.1.uid := rfl
  have marked (item : GameUser × Int32) := Change.disconnect_marked item.1 item.2
  have members : ∀ found, found ∈ timed.map (·.1) ↔ found ∈ server.gshm.visit ∧ found.hallServerId = hid := by
    simp [same, List.mem_filter]
  have each : ∀ change ∈ timed.map fun item => Change.disconnect item.1 item.2, ∃ remark, Marked Book.offline change remark := by
    intro change member
    obtain ⟨item, _, rfl⟩ := List.mem_map.mp member
    exact ⟨_, marked item⟩
  refine visited_moves (·.1) (fun user => user.hallServerId = hid) keyed follows key marked members (fun spared => ?_) fun item member stored => ?_
  · cases stored : server.store.lookup uid with
    | none => simp only [Presence.next, seat_absent stored]
    | some found =>
      have elsewhere : ¬ found.seat.hallServerId = hid := spared found stored
      simp only [Presence.next, seat_stored stored, elsewhere, if_false]
  · have there : item.1.seat.hallServerId = hid := ((members _).mp (List.mem_map_of_mem member)).2
    have swept := presence_swept follows each (List.mem_map_of_mem member) (marked item)
      ((key item).trans (keyed uid _ stored))
    have time : (server.presence uid).since.or (some (answers.time call)) =
        (server.presence uid).since.or (some item.2) := by
      cases since : (server.presence uid).since with
      | some _ => rfl
      | none =>
        rw [since] at swept
        rw [clock item.2 since (congrArg Presence.since swept)]
    simp only [Presence.next, seat_stored stored, there, if_true, time]
    rfl

private theorem offlineCheck_moves {startTime : Int32} (keyed : server.Keyed) (uid : Int32) :
    Presence.Moves startTime uid (.offlineCheck, answers) (server.presence uid)
      ((server.processOfflineCheck answers).presence uid) := by
  refine moves_of fun call => ?_
  have follows := processOfflineCheck_follows keyed answers
  have each : ∀ change ∈ (server.late (answers.time 0)).map fun entry => expired server entry.1,
      change.new = none ∧ Marked Book.offline change fun _ => none := by
    intro change member
    obtain ⟨entry, _, rfl⟩ := List.mem_map.mp member
    rw [expired]
    split
    · exact ⟨rfl, Change.forget_marked _⟩
    · exact ⟨rfl, Change.depart_marked ..⟩
  have marked := fun change member => Exists.intro _ (each change member).2
  by_cases late : ∃ time, (uid, time) ∈ server.late (answers.time 0)
  · obtain ⟨time, member⟩ := late
    have inside := List.mem_map_of_mem (f := fun entry : Int32 × Int32 => expired server entry.1) member
    rw [presence_swept follows marked inside (each _ inside).2 (expired_key keyed uid), (each _ inside).1]
    obtain ⟨listed, aged⟩ := mem_late.mp member
    have since : (server.presence uid).since = some time := listed
    simp only [Presence.next, since]
    rw [if_pos aged]
    rfl
  · have apart : ∀ change ∈ (server.late (answers.time 0)).map fun entry => expired server entry.1, change.key ≠ uid := by
      rintro change member same
      obtain ⟨entry, inside, rfl⟩ := List.mem_map.mp member
      rw [expired_key keyed] at same
      exact late ⟨entry.2, same ▸ inside⟩
    rw [presence_spared follows marked apart]
    cases since : (server.presence uid).since with
    | none => simp only [Presence.next, since]
    | some time =>
      have early : ¬ answers.time 0 - time ≥ 5 * 60 := fun aged => late ⟨time, mem_late.mpr ⟨since, aged⟩⟩
      simp only [Presence.next, since]
      rw [if_neg early]

/-- An event without changes. -/
private theorem step_idle (keyed : server.Keyed) (none : ∀ change, ¬ Cause answers server event change)
    (ran : server.step event answers = some after) : after.ledger = server.ledger := by
  obtain ⟨changes, follows, causes⟩ := step_changes keyed ran
  cases changes with
  | nil => exact follows.result
  | cons change rest => exact absurd (causes change (by simp)) (none change)

/-- A step moves each user as the events say. -/
theorem step_moves (keyed : server.Keyed) (roomy : server.Roomy event) (ran : server.step event answers = some after)
    (uid : Int32) : Presence.Moves server.options.startTime uid (event, answers) (server.presence uid)
      (after.presence uid) := by
  have unmoved (same : after.ledger = server.ledger) (still : Presence.concerns uid event = false) :
      Presence.Moves server.options.startTime uid (event, answers) (server.presence uid) (after.presence uid) :=
    moves_of fun call => by rw [presence_of_ledger same, Presence.next_still still]
  cases event with
  | request request =>
    cases request with
    | getUserTable user svid level sid =>
      obtain rfl := Option.some.inj ran
      exact getUserTable_moves keyed user svid level sid uid
    | userLogin hall svid userId terminalType =>
      obtain rfl := Option.some.inj ran
      exact login_moves keyed roomy uid
    | clientClose user =>
      obtain rfl := Option.some.inj ran
      exact clientClose_moves keyed user uid
    | userLeaveRoom user =>
      obtain rfl := Option.some.inj ran
      exact leaveRoom_moves keyed user uid
    | userEnterRoom user tid =>
      obtain rfl := Option.some.inj ran
      exact enterRoom_moves keyed user tid uid
    | logicCore serverId =>
      obtain rfl := Option.some.inj ran
      exact logicCore_moves keyed serverId uid
    | hallCore hid =>
      obtain rfl := Option.some.inj ran
      exact hallCore_moves keyed hid uid
    | getRoomLevelNum | userStandRoom | standLeaveRoom | clearServerInfo | tjSwitch | getUserHallId
    | setLevelCountRandom | ignored => exact unmoved (step_idle keyed (by rintro _ ⟨⟩) ran) rfl
  | synData records => exact unmoved (step_idle keyed (by rintro _ ⟨⟩) ran) rfl
  | offlineCheck =>
    obtain rfl := Option.some.inj ran
    exact offlineCheck_moves keyed uid
  | flushCheck =>
    obtain rfl := Option.some.inj ran
    exact flushCheck_moves keyed uid

private theorem login_refused (keyed : server.Keyed) {hall svid userId : Int32} {terminalType : Int16} (valid : 0 < userId)
    (absent : server.store.lookup userId = none) (full : server.gshm.freeNodes = 0) (uid : Int32) :
    Presence.MovesOrRefused server.options.startTime uid (.request (.userLogin hall svid userId terminalType), answers)
      (server.presence uid) ((server.processUserLogin answers hall svid userId terminalType).presence uid) := by
  have moved := @presence_changed server _ _ _ uid (Change.arrive_marked ..)
    (@processUserLogin_absent answers server keyed hall svid userId terminalType valid absent)
  have key : (Change.arrive (loginRecord answers server svid userId terminalType none)
    (server.gshm.freeNodes ≠ 0)).key = userId := rfl
  rw [key] at moved
  by_cases same : userId = uid
  · subst same
    rw [if_pos rfl] at moved
    rw [moved, show (Change.arrive (loginRecord answers server svid userId terminalType none)
      (server.gshm.freeNodes ≠ 0)).new = none by simp [Change.arrive, full]]
    exact .inr (.login valid (seat_absent absent))
  · rw [if_neg same] at moved
    refine .inl (moves_of fun call => ?_)
    simp only [moved, Presence.next, same, false_and, if_false]

/-- A step moves each user as the events say, unless a login is refused. -/
theorem step_moves_or_refused (keyed : server.Keyed) (ran : server.step event answers = some after) (uid : Int32) :
    Presence.MovesOrRefused server.options.startTime uid (event, answers) (server.presence uid)
      (after.presence uid) := by
  by_cases roomy : server.Roomy event
  · exact .inl (step_moves keyed roomy ran uid)
  · obtain ⟨hall, svid, userId, terminalType, rfl, valid, absent, full⟩ := exists_of_not_roomy roomy
    obtain rfl := Option.some.inj ran
    exact login_refused keyed valid absent full uid

variable {inputs : List (Event × Answers)}

/-- What the server knows of a user goes on by the moves of the small machine. -/
private theorem path_of_run (moves : Int32 → Event × Answers → Presence → Presence → Prop)
    (lawful : Server → Event × Answers → Prop) (keyed : server.Keyed)
    (each : ∀ {before after : Server} {input : Event × Answers}, before.Keyed → lawful before input →
      step input.1 input.2 before = some after →
        moves before.options.startTime input (before.presence uid) (after.presence uid))
    (legal : AtEachStep (fun input : Event × Answers => step input.1 input.2) inputs server
      fun _ input before _ => lawful before input)
    (ran : run (fun input : Event × Answers => step input.1 input.2) inputs server = some after) :
    Path (moves server.options.startTime) inputs (server.presence uid) (after.presence uid) := by
  let inv (state : Server) : Prop := state.Keyed ∧ state.options.startTime = server.options.startTime
  let seen (state : Server) : Presence := state.presence uid
  have keeps {state next : Server} {input : Event × Answers} (holds : inv state)
      (stepped : step input.1 input.2 state = some next) : inv next :=
    ⟨step_keyed holds.1 stepped, (step_remembers stepped).1.trans holds.2⟩
  have steps {state next : Server} {input : Event × Answers} (holds : inv state) (law : lawful state input)
      (stepped : step input.1 input.2 state = some next) :
      moves server.options.startTime input (seen state) (seen next) := by
    have moved := each holds.1 law stepped
    rwa [holds.2] at moved
  exact .of_run seen ran keeps steps ⟨keyed, rfl⟩ legal

theorem presence_run (keyed : server.Keyed)
    (ran : run (fun input : Event × Answers => step input.1 input.2) inputs server = some after) (uid : Int32) :
    Path (Presence.MovesOrRefused server.options.startTime uid) inputs (server.presence uid) (after.presence uid) :=
  path_of_run (fun startTime => Presence.MovesOrRefused startTime uid) (fun _ _ => True) keyed
    (fun keyed _ stepped => step_moves_or_refused keyed stepped uid) (fun _ _ _ _ _ _ _ _ => trivial) ran

/-- What the server knows of a user is a path of the small machine over the events that concern this user; what
the others do decides no more than whether there is room for the record when the user logs in. -/
theorem users_apart (keyed : server.Keyed)
    (ran : run (fun input : Event × Answers => step input.1 input.2) inputs server = some after) (uid : Int32) :
    Path (Presence.MovesOrRefused server.options.startTime uid) (inputs.filter fun input => Presence.concerns uid input.1)
      (server.presence uid) (after.presence uid) ∧
    (AtEachStep (fun input : Event × Answers => step input.1 input.2) inputs server
        (fun _ input before _ => before.Roomy input.1) →
      Path (Presence.Moves server.options.startTime uid) (inputs.filter fun input => Presence.concerns uid input.1)
        (server.presence uid) (after.presence uid)) := by
  refine ⟨(presence_run keyed ran uid).filter Presence.MovesOrRefused.still, fun roomy => ?_⟩
  have path := path_of_run (fun startTime => Presence.Moves startTime uid) (fun before input => before.Roomy input.1)
    keyed (fun keyed room stepped => step_moves keyed room stepped uid) roomy ran
  exact path.filter Presence.Moves.still

/-- User 7 sits down and is cut off, user 8 comes and goes, and after five minutes user 7 is taken out. -/
def cutOff : List (Event × Answers) :=
  [(.request (.userLogin 7 1 7 3), quiet 1000), (.request (.userLogin 8 1 8 3), quiet 1001),
    (.request (.userEnterRoom 7 65536), quiet 1002), (.request (.clientClose 7), quiet 1003),
    (.request (.clientClose 8), quiet 1004), (.offlineCheck, quiet 1303)]

theorem users_apart_cutOff : ∃ after,
    run (fun input : Event × Answers => step input.1 input.2) cutOff (initial 2 0) = some after ∧
      after.presence 7 = .absent ∧ Path (Presence.Moves 0 7)
        (cutOff.filter fun input => Presence.concerns 7 input.1) .absent (after.presence 7) := by
  have facts : (run (fun input : Event × Answers => step input.1 input.2) cutOff (initial 2 0)).map (fun after =>
      after.presence 7) = some .absent := by decide +kernel
  obtain ⟨after, ran, gone⟩ := Option.map_eq_some_iff.mp facts
  have second : (processUserLogin (quiet 1000) 7 1 7 3 (initial 2 0)).gshm.freeNodes ≠ 0 := by decide +kernel
  have roomy : AtEachStep (fun input : Event × Answers => step input.1 input.2) cutOff (initial 2 0)
      fun _ input before _ => before.Roomy input.1 := by
    refine (atEachStep_cons rfl).mpr ⟨fun _ _ => by decide, (atEachStep_cons rfl).mpr ⟨fun _ _ => second, ?_⟩⟩
    refine (atEachStep_cons rfl).mpr ⟨trivial, (atEachStep_cons rfl).mpr ⟨trivial, ?_⟩⟩
    exact (atEachStep_cons rfl).mpr ⟨trivial, (atEachStep_cons rfl).mpr ⟨trivial, atEachStep_nil⟩⟩
  exact ⟨after, ran, gone, (users_apart (fresh_initial 2 0).keyed ran 7).2 roomy⟩

end Server

end TeenpattiUserServer.UserServer
