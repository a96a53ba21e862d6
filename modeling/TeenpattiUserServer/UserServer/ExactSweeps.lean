import TeenpattiUserServer.UserServer.Run
import TeenpattiUserServer.UserServer.StartReport

/-! What the sweeps do, exactly. Each takes up every user it concerns once, although
it searches for them in the table it has visited before, and leaves all others alone. -/

namespace TeenpattiUserServer.UserServer

open Std Bookkeeping

/-- A call of `UpdateTerminalInfo` or of `UpdateLevelInfo`. -/
inductive StatCall where
  | terminal (type : TerminalUpdate) (terminalType : Int16)
  | level (type : LevelUpdate) (level : Int16)

def StatCall.make (stat : Stat) (call : StatCall) : Stat :=
  match call with
  | .terminal type terminalType => stat.updateTerminalInfo type terminalType
  | .level type ofLevel => stat.updateLevelInfo type ofLevel

/-- A level is left by a user who has one. -/
def GameUser.levelCalls (user : GameUser) : List StatCall :=
  if user.serverLevel ≠ -1 then [.level .logout user.serverLevel] else []

/-- A table is left by a user who has one. -/
def GameUser.tableCalls (user : GameUser) : List StatCall :=
  if user.tid ≠ 0 then [.terminal .logoutTable user.terminalType] else []

namespace Server

/-- A process starts with an empty table, or with the one that an earlier process
left, and then it counts the users. -/
inductive Lived : Server → Prop
  | start {server} (fresh : server.Fresh) : Lived server
  | step {server after event answers} (lived : Lived server) (ran : server.step event answers = some after) :
    Lived after
  | restart {server next : Server} (lived : Lived server) (table : next.gshm = server.gshm) :
    Lived next.reportStartTJData

/-- Exactly the stored users with a property, each once. -/
structure Picks (server : Server) (p : GameUser → Prop) (users : List GameUser) : Prop where
  once : (users.map (·.uid)).Nodup
  picked : ∀ user, user ∈ users ↔ server.gshm.lookup user.uid = some user ∧ p user

/-- A user sits at a table of the game server. -/
def SitsAt (serverId : Int16) (user : GameUser) : Prop := 0 < user.tid ∧ user.tid >>> 16 = serverId.toInt32

/-- The game server is forgotten, its tables are left, and that is all. -/
structure LeavesTables (serverId : Int16) (before after : Server) : Prop where
  unlisted : serverId.toInt32 ∉ after.options.serverList
  left : ∀ uid user, before.gshm.lookup uid = some user → SitsAt serverId user →
    after.gshm.lookup uid = some { user with tid := 0, serverLevel := -1 }
  others : ∀ uid, (∀ user, before.gshm.lookup uid = some user → ¬ SitsAt serverId user) →
    after.gshm.lookup uid = before.gshm.lookup uid
  counted : ∃ users, before.Picks (SitsAt serverId) users ∧
    after.stat = (users.flatMap fun user =>
      StatCall.terminal .logoutTable user.terminalType :: user.levelCalls).foldl StatCall.make before.stat

/-- The users of the hall are offline, those who were not already since now, and
that is all. -/
structure PutsOffline (hid : Int32) (before after : Server) : Prop where
  gone : ∀ uid user, after.gshm.lookup uid = some user → user.hallServerId ≠ hid
  moved : ∀ uid user, before.gshm.lookup uid = some user → user.hallServerId = hid →
    after.gshm.lookup uid = some { user with hallServerId := -1 } ∧ uid ∈ after.options.offlineUserMgr
  others : ∀ uid, (∀ user, before.gshm.lookup uid = some user → user.hallServerId ≠ hid) →
    after.gshm.lookup uid = before.gshm.lookup uid ∧
      after.options.offlineUserMgr[uid]? = before.options.offlineUserMgr[uid]?
  earlier : ∀ (uid time : Int32), before.options.offlineUserMgr[uid]? = some time →
    after.options.offlineUserMgr[uid]? = some time

/-- The time since the record of a user was written, in seconds. -/
def age (now : Int32) (user : GameUser) : Int := now.toInt - user.updateTime.toInt

/-- The ages of the stored users are values of an `int`. -/
def AgesFit (now : Int32) (server : Server) : Prop :=
  ∀ uid user, server.gshm.lookup uid = some user → -2147483648 ≤ age now user ∧ age now user ≤ 2147483647

/-- A user without a table stays for an hour, another for two. -/
def Stays (now : Int32) (user : GameUser) : Prop :=
  user.tid = 0 ∧ age now user < 3600 ∨ user.tid ≠ 0 ∧ age now user < 7200

/-- The idle users are taken out of the table, the offline list and the counts, and
that is all. -/
structure FlushesIdle (now : Int32) (before after : Server) : Prop where
  stored : ∀ uid user, after.gshm.lookup uid = some user ↔ before.gshm.lookup uid = some user ∧ Stays now user
  unlisted : ∀ uid, before.gshm.lookup uid ≠ none → after.gshm.lookup uid = none →
    uid ∉ after.options.offlineUserMgr
  others : ∀ uid, (before.gshm.lookup uid ≠ none → after.gshm.lookup uid ≠ none) →
    after.options.offlineUserMgr[uid]? = before.options.offlineUserMgr[uid]?
  counted : ∃ users, before.Picks (fun user => after.gshm.lookup user.uid = none) users ∧
    after.stat = (users.flatMap fun user => StatCall.terminal .logoutHall user.terminalType :: user.tableCalls ++
      user.levelCalls).foldl StatCall.make before.stat

variable {answers : Answers} {server after : Server}

theorem Lived.keyed (lived : server.Lived) : server.Keyed := by
  induction lived with
  | start fresh => exact fresh.keyed
  | step _ ran ih => exact step_keyed ih ran
  | restart _ table ih =>
    intro uid user found
    refine ih uid user ?_
    rw [← gshm_lookup] at found ⊢
    rw [← table]
    exact found

private theorem visit_picks (keyed : server.Keyed) (p : GameUser → Bool) :
    server.Picks (p ·) (server.gshm.visit.filter p) := by
  refine ⟨(visit_nodup keyed).sublist (List.filter_sublist.map _), fun user => ?_⟩
  rw [List.mem_filter, gshm_lookup]
  refine and_congr_left fun _ => ⟨visit_stored keyed, fun stored => ?_⟩
  rw [store_lookup] at stored
  exact List.mem_map.mpr ⟨_, AList.mem_lookup_iff.mp stored, rfl⟩

/-- One change for each user picked renews the records of these users only. -/
private theorem picks_lookup {ι : Type} {p : GameUser → Prop} {items : List ι} {user : ι → GameUser}
    {changeOf : ι → Change} {renew : GameUser → Option GameUser} (keyed : server.Keyed)
    (picks : server.Picks p (items.map user)) (key : ∀ item, (changeOf item).key = (user item).uid)
    (new : ∀ item, (changeOf item).new = renew (user item))
    (follows : Follows server.ledger (items.map changeOf) after.ledger) :
    (∀ uid user, server.gshm.lookup uid = some user → p user → after.gshm.lookup uid = renew user) ∧
      ∀ uid, (∀ user, server.gshm.lookup uid = some user → ¬ p user) →
        after.gshm.lookup uid = server.gshm.lookup uid := by
  constructor
  · intro uid found stored has
    obtain rfl : found.uid = uid := keyed uid found (by rw [← gshm_lookup, stored])
    obtain ⟨item, inside, rfl⟩ := List.mem_map.mp ((picks.picked found).mpr ⟨stored, has⟩)
    have edited := follows.lookup_edited (List.mem_map_of_mem inside)
    rw [key, new] at edited
    rw [gshm_lookup]
    exact edited
  · intro uid hasNot
    rw [gshm_lookup, gshm_lookup]
    refine follows.lookup_other fun change member same => ?_
    obtain ⟨item, inside, rfl⟩ := List.mem_map.mp member
    obtain ⟨stored, has⟩ := (picks.picked (user item)).mp (List.mem_map_of_mem inside)
    rw [key] at same
    exact hasNot (user item) (same ▸ stored) has

private theorem foldl_change_stat (alter : GameUser → GameUser) (uids : List Int32) :
    (uids.foldl (change alter) server).stat = server.stat ∧
      (uids.foldl (change alter) server).options = server.options := by
  induction uids generalizing server with
  | nil => exact ⟨rfl, rfl⟩
  | cons uid uids ih =>
    have first : (change alter server uid).stat = server.stat ∧ (change alter server uid).options = server.options := by
      cases searched : server.find uid with
      | mk found middle =>
        have same : (server.find uid).2 = middle := congrArg Prod.snd searched
        have kept : middle.stat = server.stat ∧ middle.options = server.options := by
          rw [← same]
          exact ⟨rfl, rfl⟩
        cases found <;> simpa [change, searched, setValue] using kept
    obtain ⟨stat, options⟩ := @ih (change alter server uid)
    exact ⟨stat.trans first.1, options.trans first.2⟩

private theorem make_levelCalls (server : Server) (user : GameUser) :
    user.levelCalls.foldl StatCall.make server.stat = (server.logoutLevel user).stat := by
  rw [GameUser.levelCalls, logoutLevel]
  split <;> rfl

private theorem foldl_tid0Visit_stat (serverId : Int16) (users : List GameUser) (uids : List Int32) :
    (users.foldl (tid0Visit serverId) (server, uids)).1.stat =
        ((users.filter (atServer serverId)).flatMap fun user =>
          StatCall.terminal .logoutTable user.terminalType :: user.levelCalls).foldl StatCall.make server.stat ∧
      (users.foldl (tid0Visit serverId) (server, uids)).1.options = server.options := by
  induction users generalizing server uids with
  | nil => exact ⟨rfl, rfl⟩
  | cons user users ih =>
    by_cases affected : atServer serverId user
    · obtain ⟨stat, options⟩ := @ih ((server.logoutTable true user).logoutLevel user) (uids ++ [user.uid])
      have kept : ((server.logoutTable true user).logoutLevel user).options = server.options := by
        rw [logoutLevel]
        split <;> rfl
      rw [List.foldl_cons, tid0Visit, if_pos affected, List.filter_cons_of_pos affected, List.flatMap_cons,
        List.foldl_append, List.foldl_cons, stat, options, kept, ← make_levelCalls]
      exact ⟨rfl, rfl⟩
    · rw [List.foldl_cons, tid0Visit, if_neg affected, List.filter_cons_of_neg affected]
      exact ih uids

private theorem processLogicCore_leaves (keyed : server.Keyed) (serverId : Int16) :
    LeavesTables serverId server (server.processLogicCore serverId) := by
  have sits : (fun user => atServer serverId user = true) = SitsAt serverId := by
    funext user
    simp [atServer, SitsAt]
  have picks := visit_picks keyed (atServer serverId)
  rw [sits] at picks
  obtain ⟨left, others⟩ := @picks_lookup server (server.processLogicCore serverId) GameUser (SitsAt serverId)
    (server.gshm.visit.filter (atServer serverId)) id (fun user => Change.leave user user.updateTime)
    (fun user => some { user with tid := 0, serverLevel := -1 }) keyed (by simpa using picks) (fun _ => rfl)
    (fun _ => rfl) (processLogicCore_follows keyed serverId)
  let cleared : Server := { server with options := server.options.deleteLogicServer serverId }
  obtain ⟨stat, options⟩ := @foldl_tid0Visit_stat cleared serverId server.gshm.visit []
  refine ⟨?_, left, others, _, picks, ?_⟩
  · simp only [processLogicCore, setServerUserTid0]
    rw [(foldl_change_stat _ _).2, options]
    simp [cleared, Options.deleteLogicServer]
  · simp only [processLogicCore, setServerUserTid0]
    rw [(foldl_change_stat _ _).1, stat]

/-- Who is on the list stays there with the time, and who is disconnected is on it. -/
private theorem disconnect_offline (timed : List (GameUser × Int32)) (book : Book) (uid : Int32) :
    let noted := timed.foldl (fun book item => (Change.disconnect item.1 item.2).note book) book
    (∀ time, book.offline uid = some time → noted.offline uid = some time) ∧
      ((∃ item ∈ timed, item.1.uid = uid) → noted.offline uid ≠ none) ∧
      ((∀ item ∈ timed, item.1.uid ≠ uid) → noted.offline uid = book.offline uid) := by
  induction timed generalizing book with
  | nil => simp
  | cons item timed ih =>
    obtain ⟨earlier, moved, others⟩ := ih ((Change.disconnect item.1 item.2).note book)
    have first : ((Change.disconnect item.1 item.2).note book).offline =
        if book.offline item.1.uid = none then Function.update book.offline item.1.uid (some item.2)
        else book.offline := by
      simp only [Change.disconnect, Option.isNone_iff_eq_none]
      split <;> rfl
    refine ⟨fun time listed => earlier time ?_, fun picked => ?_, fun apart => ?_⟩
    · rw [first]
      split
      · next unlisted =>
        have different : uid ≠ item.1.uid := fun same => by simp [same, unlisted] at listed
        rwa [Function.update_of_ne different]
      · exact listed
    · by_cases own : item.1.uid = uid
      · cases listed : ((Change.disconnect item.1 item.2).note book).offline uid with
        | none =>
          rw [first, ← own] at listed
          split at listed
          · simp at listed
          · next there => exact absurd listed there
        | some time =>
          rw [List.foldl_cons, earlier time listed]
          exact Option.some_ne_none time
      · obtain ⟨other, inside, same⟩ := picked
        rcases List.mem_cons.mp inside with rfl | later
        · exact absurd same own
        · exact moved ⟨other, later, same⟩
    · obtain ⟨own, rest⟩ := List.forall_mem_cons.mp apart
      refine (others rest).trans ?_
      rw [first]
      split
      · exact Function.update_of_ne own.symm ..
      · rfl

private theorem setUserOfflineHallCore_puts (keyed : server.Keyed) {hid : Int32} (hall : hid ≠ -1) :
    PutsOffline hid server (server.setUserOfflineHallCore answers hid) := by
  obtain ⟨timed, same, follows⟩ := @setUserOfflineHallCore_follows answers server keyed hid
  have picks : server.Picks (fun user => user.hallServerId = hid) (timed.map (·.1)) := by
    have visited := visit_picks keyed fun user => user.hallServerId = hid
    rw [← same] at visited
    simpa using visited
  obtain ⟨left, others⟩ := @picks_lookup server (server.setUserOfflineHallCore answers hid) (GameUser × Int32)
    (fun user => user.hallServerId = hid) timed (·.1) (fun item => Change.disconnect item.1 item.2)
    (fun user => some { user with hallServerId := -1 }) keyed picks (fun _ => rfl) (fun _ => rfl) follows
  have book := congrArg Ledger.book follows.result
  rw [foldl_apply, List.foldl_map, List.foldl_map] at book
  have offline (uid : Int32) : (server.setUserOfflineHallCore answers hid).options.offlineUserMgr[uid]? =
      (timed.foldl (fun book item => (Change.disconnect item.1 item.2).note book) server.book).offline uid :=
    congrFun (congrArg Book.offline book) uid
  have listed (uid : Int32) := disconnect_offline timed server.book uid
  refine ⟨fun uid user stored => ?_, fun uid user stored there => ⟨left uid user stored there, ?_⟩,
    fun uid apart => ⟨others uid apart, ?_⟩, fun uid time => ?_⟩
  · by_cases there : ∃ old, server.gshm.lookup uid = some old ∧ old.hallServerId = hid
    · obtain ⟨old, present, there⟩ := there
      rw [left uid old present there] at stored
      obtain rfl := Option.some.inj stored
      exact hall.symm
    · have apart : ∀ old, server.gshm.lookup uid = some old → old.hallServerId ≠ hid :=
        fun old present same => there ⟨old, present, same⟩
      rw [others uid apart] at stored
      exact apart user stored
  · obtain ⟨item, inside, own⟩ := List.mem_map.mp ((picks.picked user).mpr ⟨by
      rw [keyed uid user (by rw [← gshm_lookup, stored])]
      exact stored, there⟩)
    rw [mem_offlineUserMgr]
    change (server.setUserOfflineHallCore answers hid).options.offlineUserMgr[uid]? ≠ none
    rw [offline]
    refine (listed uid).2.1 ⟨item, inside, ?_⟩
    rw [own]
    exact keyed uid user (by rw [← gshm_lookup, stored])
  · rw [offline]
    refine (listed uid).2.2 fun item inside same => ?_
    obtain ⟨stored, there⟩ := (picks.picked item.1).mp (List.mem_map_of_mem inside)
    exact apart item.1 (same ▸ stored) there
  · rw [offline]
    exact (listed uid).1 time

/-- In every state of every process, also of one that started on what another left:
when a game server fails its tables are left, and when a hall fails its users are put
offline. -/
theorem core_sweeps_exact (lived : server.Lived) :
    (∀ serverId, LeavesTables serverId server (server.processLogicCore serverId)) ∧
      ∀ answers hid, hid ≠ -1 → PutsOffline hid server (server.setUserOfflineHallCore answers hid) :=
  ⟨fun serverId => processLogicCore_leaves lived.keyed serverId,
    fun _ _ hall => setUserOfflineHallCore_puts lived.keyed hall⟩

/-- User 7 sits at a table of the game server 1 and user 8 at one of the game server 2, and user 9
came an hour later from another hall and has no table. -/
def seatedUsers : Server :=
  (((((initial 3 0).processUserLogin (quiet 1000) 7 1 7 3).processReportUserEnterRoom (quiet 1001) 7 65536).processUserLogin
    (quiet 1002) 8 1 8 3).processReportUserEnterRoom (quiet 1003) 8 131072).processUserLogin (quiet 4600) 9 2 9 4

theorem seatedUsers_lived : seatedUsers.Lived := by
  have login {server : Server} (lived : server.Lived) (answers : Answers) (uid svid userId : Int32) (terminalType : Int16) :
      (server.processUserLogin answers uid svid userId terminalType).Lived :=
    .step lived (show _ = some _ from (rfl : step (.request (.userLogin uid svid userId terminalType)) answers _ = _))
  have enter {server : Server} (lived : server.Lived) (answers : Answers) (uid tid : Int32) :
      (server.processReportUserEnterRoom answers uid tid).Lived :=
    .step lived (show _ = some _ from (rfl : step (.request (.userEnterRoom uid tid)) answers _ = _))
  exact login (enter (login (enter (login (.start (fresh_initial 3 0)) _ _ _ _ _) _ _ _) _ _ _ _ _) _ _ _) _ _ _ _ _

private theorem seatedUsers_stored : seatedUsers.gshm.users.entries =
    [⟨9, 9, 2, 0, 4, -1, 4600⟩, ⟨8, 8, 1, 131072, 3, -1, 1003⟩, ⟨7, 7, 1, 65536, 3, -1, 1001⟩] := rfl

/-- The first game server fails, and then the first hall. -/
theorem core_sweeps_exact_seated :
    (([7, 8, 9] : List Int32).map fun uid => (seatedUsers.processLogicCore 1).gshm.lookup uid) =
        [some ⟨7, 1, 0, 3, -1, 1001⟩, some ⟨8, 1, 131072, 3, -1, 1003⟩, some ⟨9, 2, 0, 4, -1, 4600⟩] ∧
      (([7, 8, 9] : List Int32).map fun uid => (seatedUsers.setUserOfflineHallCore (quiet 5000) 1).gshm.lookup uid) =
        [some ⟨7, -1, 65536, 3, -1, 1001⟩, some ⟨8, -1, 131072, 3, -1, 1003⟩, some ⟨9, 2, 0, 4, -1, 4600⟩] := by
  obtain ⟨tables, halls⟩ := core_sweeps_exact seatedUsers_lived
  have seventh : seatedUsers.gshm.lookup 7 = some ⟨7, 1, 65536, 3, -1, 1001⟩ := by decide
  have eighth : seatedUsers.gshm.lookup 8 = some ⟨8, 1, 131072, 3, -1, 1003⟩ := by decide
  have ninth : seatedUsers.gshm.lookup 9 = some ⟨9, 2, 0, 4, -1, 4600⟩ := by decide
  have leaves := tables 1
  have puts := halls (quiet 5000) 1 (by decide)
  constructor
  · have left := leaves.left 7 _ seventh ⟨by decide, by decide⟩
    have elsewhere := leaves.others 8 fun user found sits => by
      obtain rfl := Option.some.inj (eighth.symm.trans found)
      exact absurd sits.2 (by decide)
    have standing := leaves.others 9 fun user found sits => by
      obtain rfl := Option.some.inj (ninth.symm.trans found)
      exact absurd sits.1 (by decide)
    simp only [List.map_cons, List.map_nil, left, elsewhere, standing, eighth, ninth]
  · have first := (puts.moved 7 _ seventh rfl).1
    have second := (puts.moved 8 _ eighth rfl).1
    have away := (puts.others 9 fun user found same => by
      obtain rfl := Option.some.inj (ninth.symm.trans found)
      exact absurd same (by decide)).1
    simp only [List.map_cons, List.map_nil, first, second, away, ninth]

private theorem idle_iff {now : Int32} {user : GameUser} (lower : -2147483648 ≤ age now user)
    (upper : age now user ≤ 2147483647) : idle now user ↔ ¬ Stays now user := by
  have passed : (now - user.updateTime).toInt = age now user := by
    rw [Int32.toInt_sub]
    simp only [age] at lower upper ⊢
    exact Int.bmod_eq_of_le (by omega) (by omega)
  have hour : ((1 * 60 * 60 : Int32)).toInt = 3600 := by decide
  have hours : ((2 * 60 * 60 : Int32)).toInt = 7200 := by decide
  rw [idle, Stays]
  by_cases standing : user.tid = 0
  · rw [if_pos standing, decide_eq_true_eq, ge_iff_le, Int32.le_iff_toInt_le, passed, hour]
    simp [standing]
  · rw [if_neg standing, decide_eq_true_eq, ge_iff_le, Int32.le_iff_toInt_le, passed, hours]
    simp [standing]

private theorem make_tableCalls (server : Server) (user : GameUser) :
    user.tableCalls.foldl StatCall.make server.stat = (server.logoutTable (user.tid ≠ 0) user).stat := by
  rw [GameUser.tableCalls, logoutTable]
  by_cases standing : user.tid = 0 <;> simp [standing, StatCall.make, updateTerminalInfo]

private theorem foldl_flushVisit_stat (now : Int32) (users : List GameUser) (uids : List Int32) :
    (users.foldl (flushVisit now) (server, uids)).1.stat = ((users.filter (idle now)).flatMap fun user =>
      StatCall.terminal .logoutHall user.terminalType :: user.tableCalls ++ user.levelCalls).foldl
        StatCall.make server.stat := by
  induction users generalizing server uids with
  | nil => rfl
  | cons user users ih =>
    by_cases gone : idle now user
    · let departed := server.updateTerminalInfo .logoutHall user.terminalType
      have noted : (StatCall.terminal .logoutHall user.terminalType :: user.tableCalls ++ user.levelCalls).foldl
          StatCall.make server.stat = ((departed.logoutTable (user.tid ≠ 0) user).logoutLevel user).stat := by
        rw [List.foldl_append, ← make_levelCalls, ← make_tableCalls]
        rfl
      rw [List.foldl_cons, flushVisit, if_pos gone, List.filter_cons_of_pos gone, List.flatMap_cons, List.foldl_append,
        noted]
      exact ih (uids ++ [user.uid])
    · rw [List.foldl_cons, flushVisit, if_neg gone, List.filter_cons_of_neg gone]
      exact ih uids

private theorem foldl_delete_stat (uids : List Int32) :
    (uids.foldl delete server).stat = server.stat ∧ (uids.foldl delete server).options = server.options := by
  induction uids generalizing server with
  | nil => exact ⟨rfl, rfl⟩
  | cons uid uids ih => exact @ih (server.delete uid)

/-- Who departs is off the list. -/
private theorem depart_offline (users : List GameUser) (book : Book) (uid : Int32) :
    let noted := users.foldl (fun book user => (Change.depart user (user.tid ≠ 0) true).note book) book
    ((∃ user ∈ users, user.uid = uid) → noted.offline uid = none) ∧
      ((∀ user ∈ users, user.uid ≠ uid) → noted.offline uid = book.offline uid) := by
  induction users generalizing book with
  | nil => simp
  | cons user users ih =>
    obtain ⟨gone, others⟩ := ih ((Change.depart user (user.tid ≠ 0) true).note book)
    have first : ((Change.depart user (user.tid ≠ 0) true).note book).offline =
        Function.update book.offline user.uid none := by
      simp [Change.depart, Book.clearOffline]
    refine ⟨fun picked => ?_, fun apart => ?_⟩
    · by_cases later : ∃ other ∈ users, other.uid = uid
      · exact gone later
      · have own : user.uid = uid := by
          obtain ⟨other, inside, same⟩ := picked
          rcases List.mem_cons.mp inside with rfl | behind
          · exact same
          · exact absurd ⟨other, behind, same⟩ later
        refine (others fun other inside same => later ⟨other, inside, same⟩).trans ?_
        rw [first, own, Function.update_self]
    · obtain ⟨own, rest⟩ := List.forall_mem_cons.mp apart
      refine (others rest).trans ?_
      rw [first]
      exact Function.update_of_ne own.symm ..

private theorem processFlushCheck_flushes (keyed : server.Keyed) (fits : server.AgesFit (answers.time 0)) :
    FlushesIdle (answers.time 0) server (server.processFlushCheck answers) := by
  have picks := visit_picks keyed (idle (answers.time 0))
  have follows := processFlushCheck_follows keyed answers
  obtain ⟨left, others⟩ := @picks_lookup server (server.processFlushCheck answers) GameUser
    (fun user => idle (answers.time 0) user) (server.gshm.visit.filter (idle (answers.time 0))) id
    (fun user => Change.depart user (user.tid ≠ 0) true) (fun _ => none) keyed (by simpa using picks) (fun _ => rfl)
    (fun _ => rfl) follows
  have own {uid : Int32} {user : GameUser} (present : server.gshm.lookup uid = some user) : user.uid = uid :=
    keyed uid user (by rw [← gshm_lookup, present])
  have gone {uid : Int32} {user : GameUser} (present : server.gshm.lookup uid = some user) :
      (server.processFlushCheck answers).gshm.lookup uid = none ↔ idle (answers.time 0) user := by
    refine ⟨fun absent => ?_, left uid user present⟩
    by_contra busy
    have kept := others uid fun other same => by
      obtain rfl := Option.some.inj (present.symm.trans same)
      exact busy
    simp [kept, present] at absent
  have book := congrArg Ledger.book follows.result
  rw [foldl_apply, List.foldl_map, List.foldl_map] at book
  have offline (uid : Int32) : (server.processFlushCheck answers).options.offlineUserMgr[uid]? =
      ((server.gshm.visit.filter (idle (answers.time 0))).foldl
        (fun book user => (Change.depart user (user.tid ≠ 0) true).note book) server.book).offline uid :=
    congrFun (congrArg Book.offline book) uid
  have listed (uid : Int32) := depart_offline (server.gshm.visit.filter (idle (answers.time 0))) server.book uid
  refine ⟨fun uid user => ?_, fun uid present absent => ?_, fun uid stays => ?_, _, ⟨picks.once, fun user => ?_⟩, ?_⟩
  · cases present : server.gshm.lookup uid with
    | none =>
      rw [others uid fun other same => by simp [present] at same, present]
      simp
    | some old =>
      have stale := @idle_iff (answers.time 0) old (fits uid old present).1 (fits uid old present).2
      by_cases busy : idle (answers.time 0) old
      · rw [left uid old present busy]
        refine iff_of_false (by simp) fun both => ?_
        obtain rfl := Option.some.inj both.1
        exact stale.mp busy both.2
      · have kept := others uid fun other same => by
          obtain rfl := Option.some.inj (present.symm.trans same)
          exact busy
        rw [kept, present]
        refine ⟨fun same => ⟨same, ?_⟩, And.left⟩
        obtain rfl := Option.some.inj same
        by_contra left
        exact busy (stale.mpr left)
  · obtain ⟨user, present⟩ := Option.ne_none_iff_exists'.mp present
    rw [mem_offlineUserMgr, not_not]
    change (server.processFlushCheck answers).options.offlineUserMgr[uid]? = none
    rw [offline]
    refine (listed uid).1 ⟨user, (picks.picked user).mpr ⟨?_, (gone present).mp absent⟩, own present⟩
    rw [own present, present]
  · rw [offline]
    refine (listed uid).2 fun user inside same => ?_
    obtain ⟨present, idle⟩ := (picks.picked user).mp inside
    rw [same] at present
    exact stays (by simp [present]) ((gone present).mpr idle)
  · rw [picks.picked user]
    exact and_congr_right fun present => (gone present).symm
  · simp only [processFlushCheck]
    rw [(foldl_delete_stat _).1, foldl_flushVisit_stat]

/-- In every state of every process, when the clock does not wrap around: the flush
takes out exactly the idle users. -/
theorem idle_flush_exact (lived : server.Lived) (answers : Answers) (fits : server.AgesFit (answers.time 0)) :
    FlushesIdle (answers.time 0) server (server.processFlushCheck answers) :=
  processFlushCheck_flushes lived.keyed fits

/-- Two hours after user 7 sat down, user 8 still has two seconds, and user 9 was here an hour ago. -/
theorem idle_flush_exact_seated :
    (([7, 8, 9] : List Int32).map fun uid => (seatedUsers.processFlushCheck (quiet 8201)).gshm.lookup uid) =
      [none, some ⟨8, 1, 131072, 3, -1, 1003⟩, none] := by
  have fits : seatedUsers.AgesFit 8201 := by
    intro uid user found
    have inside := AList.mem_lookup_iff.mp found
    rw [seatedUsers_stored] at inside
    simp only [List.mem_cons, List.not_mem_nil, or_false, Sigma.mk.injEq] at inside
    rcases inside with ⟨rfl, same⟩ | ⟨rfl, same⟩ | ⟨rfl, same⟩
    all_goals
      obtain rfl := eq_of_heq same
      exact ⟨by decide, by decide⟩
  have flushed := idle_flush_exact seatedUsers_lived (quiet 8201) fits
  have gone {uid : Int32} {user : GameUser} (stored : seatedUsers.gshm.lookup uid = some user) (stale : ¬ Stays 8201 user) :
      (seatedUsers.processFlushCheck (quiet 8201)).gshm.lookup uid = none := by
    cases found : (seatedUsers.processFlushCheck (quiet 8201)).gshm.lookup uid with
    | none => rfl
    | some other =>
      obtain ⟨same, stays⟩ := (flushed.stored uid other).mp found
      obtain rfl := Option.some.inj (stored.symm.trans same)
      exact absurd stays stale
  have seventh := @gone 7 ⟨7, 1, 65536, 3, -1, 1001⟩ (by decide) (by unfold Stays age; decide)
  have ninth := @gone 9 ⟨9, 2, 0, 4, -1, 4600⟩ (by decide) (by unfold Stays age; decide)
  have eighth := (flushed.stored 8 ⟨8, 1, 131072, 3, -1, 1003⟩).mpr ⟨by decide, by unfold Stays age; decide⟩
  simp only [List.map_cons, List.map_nil, seventh, eighth, ninth]

end Server

end TeenpattiUserServer.UserServer
