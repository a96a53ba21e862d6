import TeenpattiUserServer.UserServer.Changes

/-! The handlers and timers that go over many users. They visit the table first and
change it afterwards; on the ledger this is one change for each user they pick. -/

namespace TeenpattiUserServer.UserServer

open Std Bookkeeping

namespace Server

variable {answers : Answers} {server after : Server} {event : Event}

/-- The visit meets every user under the own uid, and no uid twice. -/
private theorem visit_uids (keyed : server.Keyed) : server.gshm.visit.map (·.uid) = server.gshm.users.keys := by
  rw [GameUserSHM.visit, List.map_map]
  refine List.map_congr_left fun entry member => ?_
  refine keyed entry.1 entry.2 ?_
  rw [store_lookup]
  exact AList.mem_lookup_iff.mpr member

theorem visit_nodup (keyed : server.Keyed) : (server.gshm.visit.map (·.uid)).Nodup := by
  rw [visit_uids keyed]
  exact server.gshm.users.keys_nodup

theorem visit_stored (keyed : server.Keyed) {user : GameUser} (member : user ∈ server.gshm.visit) :
    server.store.lookup user.uid = some user := by
  obtain ⟨entry, inside, rfl⟩ := List.mem_map.mp member
  have stored : server.store.lookup entry.1 = some entry.2 := by
    rw [store_lookup]
    exact AList.mem_lookup_iff.mpr inside
  exact keyed.own stored

/-- One change for each of some visited users. -/
private theorem sweep {ι : Type} (keyed : server.Keyed) (items : List ι) (user : ι → GameUser) (changeOf : ι → Change)
    (key : ∀ item, (changeOf item).key = (user item).uid) (old : ∀ item, (changeOf item).old = some (user item))
    (part : (items.map user).Sublist server.gshm.visit)
    (store : after.store =
      items.foldl (fun store item => put store (user item).uid (changeOf item).new) server.store)
    (book : after.book = items.foldl (fun book item => (changeOf item).note book) server.book) :
    Follows server.ledger (items.map changeOf) after.ledger := by
  refine ⟨?_, ?_, ?_⟩
  · have keys : (items.map changeOf).map (·.key) = (items.map user).map (·.uid) := by
      simp [Function.comp_def, key]
    rw [keys]
    exact (visit_nodup keyed).sublist (part.map _)
  · intro change member
    obtain ⟨item, inside, rfl⟩ := List.mem_map.mp member
    change server.store.lookup (changeOf item).key = (changeOf item).old
    rw [key, old]
    exact visit_stored keyed (part.subset (List.mem_map_of_mem inside))
  · rw [foldl_apply, List.foldl_map, List.foldl_map]
    simp only [key]
    exact Ledger.ext store book

private theorem sweep_changes {ι : Type} {items : List ι} {changeOf : ι → Change}
    (follows : Follows server.ledger (items.map changeOf) after.ledger)
    (cause : ∀ item ∈ items, Cause answers server event (changeOf item)) : Changes answers server event after := by
  refine ⟨_, follows, fun change member => ?_⟩
  obtain ⟨item, inside, rfl⟩ := List.mem_map.mp member
  exact cause item inside

/-- Storing an altered record for each of some stored users. -/
private theorem foldl_change {alter : GameUser → GameUser} (uid : ∀ user, (alter user).uid = user.uid)
    {users : List GameUser} (distinct : (users.map (·.uid)).Nodup)
    (stored : ∀ user ∈ users, server.store.lookup user.uid = some user) :
    ((users.map (·.uid)).foldl (change alter) server).store =
        users.foldl (fun store user => put store user.uid (some (alter user))) server.store ∧
      ((users.map (·.uid)).foldl (change alter) server).book = server.book := by
  induction users generalizing server with
  | nil => exact ⟨rfl, rfl⟩
  | cons user users ih =>
    obtain ⟨apart, distinct⟩ := List.nodup_cons.mp distinct
    have own := stored user (by simp)
    have altered : (change alter server user.uid).store = put server.store user.uid (some (alter user)) ∧
        (change alter server user.uid).book = server.book := by
      rcases server.find_cases user.uid with ⟨_, _, absent, _⟩ | ⟨found, middle, ran, present, store, book⟩
      · simp [own] at absent
      · obtain rfl : user = found := by simpa [own] using present
        have inside : middle.store.lookup (alter user).uid = some user := by
          rw [uid, store]
          exact own
        simp only [change, ran]
        exact ⟨by rw [store_setValue middle inside, uid, store], book⟩
    have later := @ih (change alter server user.uid) distinct fun other member => by
      have different : other.uid ≠ user.uid := fun same => apart (List.mem_map.mpr ⟨other, member, same⟩)
      rw [altered.1, lookup_put_ne _ different]
      exact stored other (by simp [member])
    rw [altered.1, altered.2] at later
    exact later

private theorem foldl_tid0Visit (serverId : Int16) (users : List GameUser) (uids : List Int32) :
    let visited := users.foldl (tid0Visit serverId) (server, uids)
    let affected := users.filter (atServer serverId)
    visited.1.store = server.store ∧
      visited.1.book = affected.foldl (fun book user => (Change.leave user user.updateTime).note book) server.book ∧
      visited.2 = uids ++ affected.map (·.uid) := by
  induction users generalizing server uids with
  | nil => simp
  | cons user users ih =>
    by_cases affected : atServer serverId user
    · have seated : 0 < user.tid := by
        simp only [atServer, decide_eq_true_eq] at affected
        exact affected.1
      have rest := @ih ((server.logoutTable true user).logoutLevel user) (uids ++ [user.uid])
      simpa [tid0Visit, affected, Change.leave, seated] using rest
    · simpa [tid0Visit, affected] using @ih server uids

/-- The users at the tables of a server leave them. -/
theorem processLogicCore_follows (keyed : server.Keyed) (serverId : Int16) :
    Follows server.ledger ((server.gshm.visit.filter (atServer serverId)).map fun user =>
      Change.leave user user.updateTime) (server.processLogicCore serverId).ledger := by
  let cleared : Server := { server with options := server.options.deleteLogicServer serverId }
  obtain ⟨store, book, uids⟩ := @foldl_tid0Visit cleared serverId server.gshm.visit []
  let affected := server.gshm.visit.filter (atServer serverId)
  have part : affected.Sublist server.gshm.visit := List.filter_sublist
  obtain ⟨changed, noted⟩ := @foldl_change (cleared.gshm.visit.foldl (tid0Visit serverId) (cleared, [])).1
    (fun user => { user with tid := 0, serverLevel := -1 }) (fun _ => rfl) affected
    ((visit_nodup keyed).sublist (part.map _)) fun user member => by
      rw [store]
      exact visit_stored keyed (part.subset member)
  refine sweep keyed affected id (fun user => Change.leave user user.updateTime) (fun _ => rfl) (fun _ => rfl)
    (by simpa using part) ?_ ?_
  · simp only [processLogicCore, setServerUserTid0]
    rw [uids, List.nil_append, changed, store]
    rfl
  · simp only [processLogicCore, setServerUserTid0]
    rw [uids, List.nil_append, noted, book]
    rfl

theorem processLogicCore_changes (keyed : server.Keyed) (serverId : Int16) :
    Changes answers server (.request (.logicCore serverId)) (server.processLogicCore serverId) :=
  sweep_changes (processLogicCore_follows keyed serverId) fun _ member => .tid0 (List.of_mem_filter member)

private theorem foldl_hallCoreVisit (hid : Int32) (users : List GameUser) (uids : List Int32) (call : Nat) :
    ∃ timed : List (GameUser × Int32), timed.map (·.1) = users.filter (·.hallServerId = hid) ∧
      let visited := users.foldl (hallCoreVisit answers hid) (server, uids, call)
      visited.1.store = server.store ∧
        visited.1.book = timed.foldl (fun book item => (Change.disconnect item.1 item.2).note book) server.book ∧
        visited.2.1 = uids ++ timed.map (·.1.uid) := by
  induction users generalizing server uids call with
  | nil => exact ⟨[], by simp⟩
  | cons user users ih =>
    by_cases affected : user.hallServerId = hid
    · cases listed : server.options.offlineUserMgr[user.uid]? with
      | none =>
        obtain ⟨timed, same, rest⟩ :=
          @ih (server.addOfflineUser user.uid (answers.time call)) (uids ++ [user.uid]) (call + 1)
        have note : server.book.offline user.uid = none := listed
        exact ⟨(user, answers.time call) :: timed, by simp [affected, same],
          by simpa [hallCoreVisit, affected, listed, Change.disconnect, note] using rest⟩
      | some time =>
        obtain ⟨timed, same, rest⟩ := @ih server (uids ++ [user.uid]) call
        have note : server.book.offline user.uid = some time := listed
        exact ⟨(user, time) :: timed, by simp [affected, same],
          by simpa [hallCoreVisit, affected, listed, Change.disconnect, note] using rest⟩
    · obtain ⟨timed, same, rest⟩ := @ih server uids call
      exact ⟨timed, by simp [affected, same], by simpa [hallCoreVisit, affected] using rest⟩

/-- The users of a hall are put offline there, at some time each. -/
theorem setUserOfflineHallCore_follows (keyed : server.Keyed) (hid : Int32) :
    ∃ timed : List (GameUser × Int32), timed.map (·.1) = server.gshm.visit.filter (·.hallServerId = hid) ∧
      Follows server.ledger (timed.map fun item => Change.disconnect item.1 item.2)
        (server.setUserOfflineHallCore answers hid).ledger := by
  obtain ⟨timed, same, store, book, uids⟩ := @foldl_hallCoreVisit answers server hid server.gshm.visit [] 0
  have part : (timed.map (·.1)).Sublist server.gshm.visit := same ▸ List.filter_sublist
  obtain ⟨changed, noted⟩ := @foldl_change (server.gshm.visit.foldl (hallCoreVisit answers hid) (server, [], 0)).1
    (fun user => { user with hallServerId := -1 }) (fun _ => rfl) (timed.map (·.1))
    ((visit_nodup keyed).sublist (part.map _)) fun user member => by
      rw [store]
      exact visit_stored keyed (part.subset member)
  have listed : timed.map (·.1.uid) = (timed.map (·.1)).map (·.uid) := by simp [Function.comp_def]
  refine ⟨timed, same, ?_⟩
  refine sweep keyed timed (·.1) (fun item => Change.disconnect item.1 item.2) (fun _ => rfl) (fun _ => rfl) part ?_ ?_
  · simp only [setUserOfflineHallCore]
    rw [uids, List.nil_append, listed, changed, store, List.foldl_map]
    rfl
  · simp only [setUserOfflineHallCore]
    rw [uids, List.nil_append, listed, noted, book]

theorem setUserOfflineHallCore_changes (keyed : server.Keyed) (hid : Int32) :
    Changes answers server (.request (.hallCore hid)) (server.setUserOfflineHallCore answers hid) := by
  obtain ⟨timed, same, follows⟩ := @setUserOfflineHallCore_follows answers server keyed hid
  refine sweep_changes follows fun item member => .disconnect ?_
  have inside : item.1 ∈ server.gshm.visit.filter (·.hallServerId = hid) := same ▸ List.mem_map_of_mem member
  simpa using List.of_mem_filter inside

private theorem foldl_flushVisit (now : Int32) (users : List GameUser) (uids : List Int32) :
    let visited := users.foldl (flushVisit now) (server, uids)
    let gone := users.filter (idle now)
    visited.1.store = server.store ∧
      visited.1.book = gone.foldl (fun book user => (Change.depart user (user.tid ≠ 0) true).note book) server.book ∧
      visited.2 = uids ++ gone.map (·.uid) := by
  induction users generalizing server uids with
  | nil => simp
  | cons user users ih =>
    by_cases gone : idle now user
    · have rest := @ih ((((server.updateTerminalInfo .logoutHall user.terminalType).logoutTable (user.tid ≠ 0)
        user).logoutLevel user).deleteOfflineUser user.uid) (uids ++ [user.uid])
      simpa [flushVisit, gone, Change.depart] using rest
    · simpa [flushVisit, gone] using @ih server uids

private theorem foldl_delete (uids : List Int32) :
    (uids.foldl delete server).store = uids.foldl (fun store uid => put store uid none) server.store ∧
      (uids.foldl delete server).book = server.book := by
  induction uids generalizing server with
  | nil => exact ⟨rfl, rfl⟩
  | cons uid uids ih => simpa using @ih (server.delete uid)

/-- The idle users are taken out. -/
theorem processFlushCheck_follows (keyed : server.Keyed) (answers : Answers) :
    Follows server.ledger ((server.gshm.visit.filter (idle (answers.time 0))).map fun user =>
      Change.depart user (user.tid ≠ 0) true) (server.processFlushCheck answers).ledger := by
  obtain ⟨store, book, uids⟩ := @foldl_flushVisit server (answers.time 0) server.gshm.visit []
  obtain ⟨deleted, noted⟩ := @foldl_delete (server.gshm.visit.foldl (flushVisit (answers.time 0)) (server, [])).1
    ((server.gshm.visit.filter (idle (answers.time 0))).map (·.uid))
  refine sweep keyed (server.gshm.visit.filter (idle (answers.time 0))) id
    (fun user => Change.depart user (user.tid ≠ 0) true) (fun _ => rfl) (fun _ => rfl) (by simp) ?_ ?_
  · simp only [processFlushCheck]
    rw [uids, List.nil_append, deleted, store, List.foldl_map]
    rfl
  · simp only [processFlushCheck]
    rw [uids, List.nil_append, noted, book]

theorem processFlushCheck_changes (keyed : server.Keyed) :
    Changes answers server .flushCheck (server.processFlushCheck answers) :=
  sweep_changes (processFlushCheck_follows keyed answers) fun _ member => .flush (List.of_mem_filter member)

/-- What the offline check does with an entry whose time is up. -/
def expired (server : Server) (uid : Int32) : Change :=
  match server.store.lookup uid with
  | none => .forget uid
  | some user => .depart user (0 < user.tid) true

/-- The entries of the offline list whose time is up. -/
def late (now : Int32) (server : Server) : List (Int32 × Int32) :=
  server.options.offlineUserMgr.toList.filter fun entry => now - entry.2 ≥ 5 * 60

theorem mem_late {now uid time : Int32} :
    (uid, time) ∈ server.late now ↔ server.book.offline uid = some time ∧ now - time ≥ 5 * 60 := by
  rw [late, List.mem_filter, TreeMap.mem_toList_iff_getElem?_eq_some]
  simp [book]

theorem expired_key (keyed : server.Keyed) (uid : Int32) : (expired server uid).key = uid := by
  cases found : server.store.lookup uid with
  | none => simp [expired, found, Change.forget]
  | some user => simpa [expired, found, Change.depart] using keyed uid user found

theorem expired_old (uid : Int32) : (expired server uid).old = server.store.lookup uid := by
  cases found : server.store.lookup uid <;> simp [expired, found, Change.forget, Change.depart]

private theorem offlineStep_ledger (keyed : server.Keyed) {now : Int32} {entry : Int32 × Int32}
    (late : now - entry.2 ≥ 5 * 60) :
    (offlineStep now server entry).ledger = server.ledger.apply (expired server entry.1) := by
  rcases server.find_cases entry.1 with ⟨middle, ran, absent, store, book⟩ | ⟨user, middle, ran, stored, store, book⟩
  · refine Ledger.ext ?_ ?_
    · have same : put server.store entry.1 none = server.store := by
        refine Finmap.ext_lookup fun other => ?_
        rw [lookup_put_eq]
        split
        · next equal => rw [equal, absent]
        · rfl
      simp only [offlineStep, late, if_true, ran, expired, absent]
      exact store.trans same.symm
    · simp only [offlineStep, late, if_true, ran, expired, absent]
      exact (book_deleteOfflineUser ..).trans (congrArg _ book)
  · have key := keyed entry.1 user stored
    refine Ledger.ext ?_ ?_ <;> simp only [offlineStep, late, if_true, ran, expired, stored]
    · exact (store_delete ..).trans (by simp [store, Ledger.apply, ledger, Change.depart])
    · simp [ledger, Ledger.apply, Change.depart, book, key]

private theorem foldl_offlineStep (keyed : server.Keyed) (now : Int32) {entries : List (Int32 × Int32)}
    (distinct : (entries.map (·.1)).Nodup) :
    (entries.foldl (offlineStep now) server).ledger =
      ((entries.filter fun entry => now - entry.2 ≥ 5 * 60).map fun entry => expired server entry.1).foldl
        Ledger.apply server.ledger := by
  induction entries generalizing server with
  | nil => rfl
  | cons entry entries ih =>
    obtain ⟨apart, distinct⟩ := List.nodup_cons.mp distinct
    by_cases late : now - entry.2 ≥ 5 * 60
    · have stepped := offlineStep_ledger keyed late
      have store : (offlineStep now server entry).store = put server.store entry.1 none := by
        have first := congrArg Ledger.store stepped
        have gone : (expired server entry.1).new = none := by
          rw [expired]
          split <;> rfl
        rw [Ledger.apply, expired_key keyed, gone] at first
        exact first
      have keyedAfter : (offlineStep now server entry).Keyed := by
        intro uid user found
        rw [store, lookup_put_eq] at found
        split at found
        · simp at found
        · exact keyed uid user found
      have same : ∀ other ∈ entries, expired (offlineStep now server entry) other.1 = expired server other.1 := by
        intro other member
        have different : other.1 ≠ entry.1 := fun equal => apart (List.mem_map.mpr ⟨other, member, equal⟩)
        rw [expired, expired, store, lookup_put_ne _ different]
      rw [List.foldl_cons, ih keyedAfter distinct, List.filter_cons_of_pos (by simpa using late), List.map_cons,
        List.foldl_cons, stepped]
      congr 1
      exact List.map_congr_left fun other member => same other (List.mem_of_mem_filter member)
    · rw [List.foldl_cons, List.filter_cons_of_neg (by simpa using late), offlineStep, if_neg late]
      exact ih keyed distinct

/-- The users whose time is up are taken off the list, and out. -/
theorem processOfflineCheck_follows (keyed : server.Keyed) (answers : Answers) :
    Follows server.ledger ((server.late (answers.time 0)).map fun entry => expired server entry.1)
      (server.processOfflineCheck answers).ledger := by
  have distinct : (server.options.offlineUserMgr.toList.map (·.1)).Nodup := by
    have keys := server.options.offlineUserMgr.distinct_keys_toList
    exact List.pairwise_map.mpr (keys.imp fun different equal => different (by simp [equal]))
  have part : (server.late (answers.time 0)).Sublist server.options.offlineUserMgr.toList := List.filter_sublist
  refine ⟨?_, ?_, foldl_offlineStep keyed (answers.time 0) distinct⟩
  · have keys : ((server.late (answers.time 0)).map fun entry => expired server entry.1).map (·.key) =
        (server.late (answers.time 0)).map (·.1) := by
      simp [Function.comp_def, expired_key keyed]
    rw [keys]
    exact distinct.sublist (part.map _)
  · intro change member
    obtain ⟨entry, _, rfl⟩ := List.mem_map.mp member
    change server.store.lookup (expired server entry.1).key = _
    rw [expired_key keyed, expired_old]

theorem processOfflineCheck_changes (keyed : server.Keyed) :
    Changes answers server .offlineCheck (server.processOfflineCheck answers) := by
  refine sweep_changes (processOfflineCheck_follows keyed answers) fun entry inside => ?_
  have listed := (mem_late.mp inside).1
  cases found : server.store.lookup entry.1 with
  | none => simpa [expired, found] using Cause.forget
  | some user =>
    have key := keyed entry.1 user found
    have inList : server.book.offline user.uid ≠ none := by simp [key, listed]
    simpa [expired, found] using Cause.expire inList

/-- Every step is a sequence of changes of different users. -/
theorem step_changes (keyed : server.Keyed) (ran : server.step event answers = some after) :
    Changes answers server event after := by
  cases event with
  | request request =>
    cases request with
    | getUserTable uid svid level sid =>
      obtain rfl := Option.some.inj ran
      exact processGetUserTable_changes keyed uid svid level sid
    | userLogin uid svid userId terminalType =>
      obtain rfl := Option.some.inj ran
      exact processUserLogin_changes keyed uid svid userId terminalType
    | getRoomLevelNum uid svid levelCount levels => exact processGetRoomLevelNum_changes ran
    | clientClose uid =>
      obtain rfl := Option.some.inj ran
      exact processClientClose_changes keyed uid
    | userLeaveRoom uid =>
      obtain rfl := Option.some.inj ran
      exact processReportUserLeaveRoom_changes keyed uid
    | userEnterRoom uid tid =>
      obtain rfl := Option.some.inj ran
      exact processReportUserEnterRoom_changes keyed uid tid
    | userStandRoom uid tid =>
      obtain rfl := Option.some.inj ran
      exact processReportUserStandRoom_changes uid tid
    | standLeaveRoom uid =>
      obtain rfl := Option.some.inj ran
      exact processReportStandLeaveRoom_changes uid
    | logicCore serverId =>
      obtain rfl := Option.some.inj ran
      exact processLogicCore_changes keyed serverId
    | hallCore svid =>
      obtain rfl := Option.some.inj ran
      exact setUserOfflineHallCore_changes keyed svid
    | clearServerInfo =>
      obtain rfl := Option.some.inj ran
      exact unchanged rfl rfl
    | tjSwitch tjSwitch tjInteval =>
      obtain rfl := Option.some.inj ran
      exact unchanged rfl rfl
    | getUserHallId uid =>
      obtain rfl := Option.some.inj ran
      exact processGetUserHallId_changes uid
    | setLevelCountRandom key =>
      obtain rfl := Option.some.inj ran
      refine unchanged ?_ ?_ <;> simp only [processSetLevelCountRandom] <;> split <;> (try split) <;> rfl
    | ignored =>
      obtain rfl := Option.some.inj ran
      exact unchanged rfl rfl
  | synData records =>
    obtain rfl := Option.some.inj ran
    exact processSynData_changes records
  | offlineCheck =>
    obtain rfl := Option.some.inj ran
    exact processOfflineCheck_changes keyed
  | flushCheck =>
    obtain rfl := Option.some.inj ran
    exact processFlushCheck_changes keyed

end Server

end TeenpattiUserServer.UserServer
