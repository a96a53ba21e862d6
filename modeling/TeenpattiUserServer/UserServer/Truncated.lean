import TeenpattiUserServer.Packet.Fields
import TeenpattiUserServer.UserServer.Dispatch
import TeenpattiUserServer.UserServer.Run

/-! Requests whose body ends before the last field the handler reads. The missing
fields read as `-1`, and some handlers go on with that. -/

namespace TeenpattiUserServer.UserServer

open Std Bookkeeping Packet

/-- The handlers that read fields and may change the state. -/
inductive Handler where
  | userLogin
  | clientClose
  | userEnterRoom
  | userLeaveRoom
  | userStandRoom
  | standLeaveRoom
  | getUserTable
  | logicCore
  | hallCore
  | tjSwitch
  deriving DecidableEq, Repr

namespace Handler

def command : Handler → Int16
  | userLogin => GameCmd.clientCmdUserLogin
  | clientClose => GameCmd.clientClosePacket
  | userEnterRoom => GameCmd.sysUserEnterRoom
  | userLeaveRoom => GameCmd.sysUserLeaveRoom
  | userStandRoom => GameCmd.sysUserStandRoom
  | standLeaveRoom => GameCmd.sysStandLeaveRoom
  | getUserTable => GameCmd.sysGetUserTable
  | logicCore => GameCmd.sysLogicCore
  | hallCore => GameCmd.sysHallCore
  | tjSwitch => GameCmd.sysSetTjSwitch

/-- The bytes of the fields the handler reads. -/
def bodySize : Handler → Int
  | userLogin => 6
  | getUserTable => 14
  | userEnterRoom | userStandRoom | tjSwitch => 8
  | clientClose | userLeaveRoom | standLeaveRoom | hallCore => 4
  | logicCore => 2

/-- The request as the handler reads it; a login comes through the hall `svid`. -/
def request (uid svid : Int32) (packet : PacketBase) : Handler → Request
  | userLogin =>
    let (userId, packet) := packet.readInt .network
    .userLogin uid svid userId (packet.readShort .network).1
  | clientClose => .clientClose (packet.readInt .network).1
  | userEnterRoom =>
    let (uid, packet) := packet.readInt .network
    .userEnterRoom uid (packet.readInt .network).1
  | userLeaveRoom => .userLeaveRoom (packet.readInt .network).1
  | userStandRoom =>
    let (uid, packet) := packet.readInt .network
    .userStandRoom uid (packet.readInt .network).1
  | standLeaveRoom => .standLeaveRoom (packet.readInt .network).1
  | getUserTable =>
    let (uid, packet) := packet.readInt .network
    let (svid, packet) := packet.readInt .network
    let (level, packet) := packet.readShort .network
    .getUserTable uid svid level (packet.readInt .network).1
  | logicCore => .logicCore (packet.readShort .network).1
  | hallCore => .hallCore (packet.readInt .network).1
  | tjSwitch =>
    let (flag, packet) := packet.readInt .network
    .tjSwitch flag (packet.readInt .network).1

/-- `ProcessPacket` gets to the handler, which reads its fields from `body`: a login comes in a
hidden packet, and the others read the packet itself. -/
inductive Reads : Handler → PacketBase → PacketBase → Prop where
  | packet {handler : Handler} {packet : PacketBase} (own : handler ≠ userLogin)
    (command : packet.getCmdType .network = handler.command) : Reads handler packet packet
  | hidden {packet body : PacketBase} {uid svid : Int32}
    (outer : packet.getCmdType .network = GameCmd.clientPacket2 ∨ packet.getCmdType .network = GameCmd.clientPacket)
    (found : dispatched packet = some (uid, svid, body)) (command : body.getCmdType .network = userLogin.command) :
    Reads userLogin packet body

variable {handler : Handler} {packet body : PacketBase}

/-- The packet asks for what the handler reads. -/
theorem Reads.request_eq (reads : Reads handler packet body) :
    ∃ uid svid, UserServer.request packet = handler.request uid svid body := by
  cases reads with
  | packet own command =>
    refine ⟨0, 0, ?_⟩
    cases handler with
    | userLogin => exact absurd rfl own
    | _ =>
      simp only [UserServer.request, command]
      rfl
  | @hidden _ _ uid svid outer found command =>
    refine ⟨uid, svid, ?_⟩
    have other : packet.getCmdType .network ≠ GameCmd.sysGetUserTable := by
      rcases outer with same | same <;> rw [same] <;> decide
    rw [UserServer.request]
    simp only [other, outer, if_true, if_false]
    rw [subRequest_dispatched, found, Option.elim_some, switchRequest]
    simp only [command]
    rfl

/-- The body ends before the last field. -/
structure Truncated (handler : Handler) (packet : PacketBase) : Prop where
  cursor : packet.bufPos = headerSize
  short : packet.packetSize < headerSize + handler.bodySize

end Handler

/-- The fields that are there do not lead the handler on: no user id to log in, no
user to work on, no user without a hall who is not listed, an interval of `-1`. -/
def Handler.Harmless (server : Server) (packet : PacketBase) : Handler → Prop
  | userLogin => (packet.readInt .network).1 ≤ 0
  | userEnterRoom | userStandRoom => server.store.lookup (packet.readInt .network).1 = none
  | getUserTable => ∀ user, server.store.lookup (packet.readInt .network).1 = some user → ¬ 0 < user.tid
  | hallCore => ∀ uid user, server.store.lookup uid = some user → user.hallServerId = -1 →
      server.options.offlineUserMgr[uid]? ≠ none
  | tjSwitch => server.options.tjInteval = -1
  | clientClose | userLeaveRoom | standLeaveRoom | logicCore => True

namespace Server

/-- The contents of the table, the statistics, the offline list and the interval stay. -/
structure Unchanged (before after : Server) : Prop where
  users : after.store = before.store
  terminals : ∀ type : Int16, after.stat.terminalStatMap[type]? = before.stat.terminalStatMap[type]?
  levels : ∀ level : Int16, after.stat.levelMgr[level]? = before.stat.levelMgr[level]?
  offline : ∀ uid : Int32, after.options.offlineUserMgr[uid]? = before.options.offlineUserMgr[uid]?
  interval : after.options.tjInteval = before.options.tjInteval

variable {server middle after : Server} {uid svid userId tid : Int32} {user : GameUser} {answers : Answers}

namespace Unchanged

/-- Only the order of the table and what is not looked at may differ. -/
theorem of_store (store : after.store = server.store) (stat : after.stat = server.stat)
    (offline : after.options.offlineUserMgr = server.options.offlineUserMgr)
    (interval : after.options.tjInteval = server.options.tjInteval) : server.Unchanged after :=
  ⟨store, fun _ => by rw [stat], fun _ => by rw [stat], fun _ => by rw [offline], interval⟩

theorem refl (server : Server) : server.Unchanged server := .of_store rfl rfl rfl rfl

theorem find (server : Server) (uid : Int32) : server.Unchanged (server.find uid).2 :=
  .of_store (server.store_find uid) rfl rfl rfl

theorem trans (early : server.Unchanged middle) (late : middle.Unchanged after) : server.Unchanged after where
  users := late.users.trans early.users
  terminals type := (late.terminals type).trans (early.terminals type)
  levels level := (late.levels level).trans (early.levels level)
  offline uid := (late.offline uid).trans (early.offline uid)
  interval := late.interval.trans early.interval

end Unchanged

theorem find_absent (absent : server.store.lookup uid = none) : server.find uid = (none, (server.find uid).2) :=
  Prod.ext ((server.find_fst uid).trans absent) rfl

theorem find_stored (stored : server.store.lookup uid = some user) :
    server.find uid = (some user, (server.find uid).2) :=
  Prod.ext ((server.find_fst uid).trans stored) rfl

/-! What would be seen of a handler that goes on. -/

/-- A record with another time is another record. -/
theorem restamped {change : Change} (ran : after.ledger = server.ledger.apply change) {updated : GameUser}
    (stored : server.store.lookup change.key = some user) (new : change.new = some updated)
    (later : updated.updateTime ≠ user.updateTime) : ¬ server.Unchanged after := by
  intro same
  have record : after.store.lookup change.key = some updated := by
    have store : after.store = put server.store change.key change.new := congrArg Ledger.store ran
    rw [store, lookup_put_eq, if_pos rfl, new]
  rw [same.users, stored] at record
  exact later (congrArg GameUser.updateTime (Option.some.inj record)).symm

/-- A counter that moves is another counter. -/
theorem recounted {type : Int16} {change : DataInfo → DataInfo}
    (ran : after.stat.terminalStatMap = (server.stat.modifyTerminal type change).terminalStatMap)
    (moves : ∀ info, change info ≠ info) : ¬ server.Unchanged after := by
  intro same
  have entry := same.terminals type
  rw [ran, Stat.modifyTerminal, TreeMap.getElem?_insert_self] at entry
  have value : server.stat.terminal type = (server.stat.terminalStatMap[type]?).getD {} :=
    TreeMap.getD_eq_getD_getElem?
  rw [← entry, Option.getD_some] at value
  exact moves _ value.symm

/-- A clock that shows another time. -/
private def otherTime (user : GameUser) : Answers := quiet (user.updateTime + 1)

private theorem otherTime_ne (user : GameUser) : (otherTime user).time 0 ≠ user.updateTime := by
  intro same
  have zero : user.updateTime + 1 = user.updateTime := same
  simp at zero

@[simp] private theorem stat_tableServer (answers : Answers) (tid : Int32) (server : Server) :
    (server.tableServer answers tid).2.stat = server.stat := by
  rw [tableServer]
  split <;> rfl

/-- A login with a valid user id is noticed. -/
theorem processUserLogin_unchanged_iff (keyed : server.Keyed) (uid svid userId : Int32) (terminalType : Int16) :
    (∀ answers, server.Unchanged (server.processUserLogin answers uid svid userId terminalType)) ↔ userId ≤ 0 := by
  constructor
  · intro unchanged
    by_contra valid
    have positive : 0 < userId := Int32.not_le.mp valid
    cases found : server.store.lookup userId with
    | none =>
      have ran : (server.processUserLogin (quiet 0) uid svid userId terminalType).stat =
          server.stat.modifyTerminal terminalType fun info => { info with onlineCount := info.onlineCount + 1 } := by
        rw [processUserLogin, if_neg valid, find_absent found]
        exact stat_tableServer ..
      refine recounted (congrArg Stat.terminalStatMap ran) (fun info same => ?_) (unchanged (quiet 0))
      have count := congrArg DataInfo.onlineCount same
      simp at count
    | some user =>
      refine restamped (processUserLogin_stored keyed positive found) (keyed.own found) rfl ?_ (unchanged (otherTime user))
      exact otherTime_ne user
  · intro invalid answers
    rw [processUserLogin_refused invalid]
    exact .refl server

/-- A request for the table of a user who sits at one renews the time. -/
theorem processGetUserTable_unchanged_iff (keyed : server.Keyed) (uid svid : Int32) (level : Int16) (sid : Int32) :
    (∀ answers, server.Unchanged (server.processGetUserTable answers uid svid level sid)) ↔
      ∀ user, server.store.lookup uid = some user → ¬ 0 < user.tid := by
  constructor
  · intro unchanged user stored seated
    exact restamped (processGetUserTable_seated keyed stored seated) (keyed.own stored) rfl (otherTime_ne user)
      (unchanged (otherTime user))
  · intro standing answers
    cases found : server.store.lookup uid with
    | none =>
      rw [processGetUserTable, find_absent found]
      exact .of_store (server.store_find uid) rfl rfl rfl
    | some user =>
      rw [processGetUserTable, find_stored found]
      simp only [if_neg (standing user found)]
      exact .of_store (server.store_find uid) rfl rfl rfl

theorem processReportUserEnterRoom_unchanged_iff (keyed : server.Keyed) (uid tid : Int32) :
    (∀ answers, server.Unchanged (server.processReportUserEnterRoom answers uid tid)) ↔
      server.store.lookup uid = none := by
  constructor
  · intro unchanged
    cases found : server.store.lookup uid with
    | none => rfl
    | some user =>
      obtain ⟨level, ran⟩ := @processReportUserEnterRoom_stored (otherTime user) server keyed uid tid user found
      exact absurd (unchanged (otherTime user)) (restamped ran (keyed.own found) rfl (otherTime_ne user))
  · intro absent answers
    rw [processReportUserEnterRoom, find_absent absent]
    exact Unchanged.find server uid

private theorem terminalStatMap_updateLevelInfo (stat : Stat) (type : LevelUpdate) (level : Int16) :
    (stat.updateLevelInfo type level).terminalStatMap = stat.terminalStatMap := by
  unfold Stat.updateLevelInfo
  split <;> first | rfl | (split <;> rfl)

/-- A spectator is counted. -/
theorem processReportUserStandRoom_unchanged_iff (uid tid : Int32) :
    (∀ answers, server.Unchanged (server.processReportUserStandRoom answers uid tid)) ↔
      server.store.lookup uid = none := by
  constructor
  · intro unchanged
    cases found : server.store.lookup uid with
    | none => rfl
    | some user =>
      have ran : (server.processReportUserStandRoom (quiet 0) uid tid).stat.terminalStatMap =
          (server.stat.modifyTerminal user.terminalType fun info =>
            { info with onLookOnCount := info.onLookOnCount + 1 }).terminalStatMap := by
        rw [processReportUserStandRoom, find_stored found]
        simp only
        generalize search : findServer _ _ _ = outcome
        have stat : outcome.2.stat = server.stat.userStandTable user.terminalType := by
          rw [← search]
          rfl
        obtain ⟨logic, later⟩ := outcome
        cases logic with
        | none => exact congrArg Stat.terminalStatMap stat
        | some logic =>
          exact (terminalStatMap_updateLevelInfo ..).trans (congrArg Stat.terminalStatMap stat)
      refine absurd (unchanged (quiet 0)) (recounted ran fun info same => ?_)
      have count := congrArg DataInfo.onLookOnCount same
      simp at count
  · intro absent answers
    rw [processReportUserStandRoom, find_absent absent]
    exact Unchanged.find server uid

theorem processClientClose_unchanged (absent : server.store.lookup uid = none) (answers : Answers) :
    server.Unchanged (server.processClientClose answers uid) := by
  rw [processClientClose, find_absent absent]
  exact Unchanged.find server uid

theorem processReportUserLeaveRoom_unchanged (absent : server.store.lookup uid = none) (answers : Answers) :
    server.Unchanged (server.processReportUserLeaveRoom answers uid) := by
  rw [processReportUserLeaveRoom, find_absent absent]
  exact Unchanged.find server uid

theorem processReportStandLeaveRoom_unchanged (absent : server.store.lookup uid = none) :
    server.Unchanged (server.processReportStandLeaveRoom uid) := by
  rw [processReportStandLeaveRoom, find_absent absent]
  exact Unchanged.find server uid

/-- No table belongs to the server `-1`. -/
theorem atServer_missing (user : GameUser) : atServer (-1) user = false := by
  have shifted : (user.tid >>> 16).toInt = user.tid.toInt >>> (16 : Nat) := by
    change (BitVec.sshiftRight' user.tid.toBitVec ((16 : Int32).toBitVec.smod 32)).toInt = _
    have amount : (16 : Int32).toBitVec.smod 32 = 16#32 := by decide
    rw [amount, BitVec.sshiftRight_eq', BitVec.toInt_sshiftRight]
    rfl
  by_contra at_server
  simp only [atServer, Bool.not_eq_false, decide_eq_true_eq] at at_server
  obtain ⟨seated, missing⟩ := at_server
  have negative : (user.tid >>> 16).toInt = -1 := congrArg Int32.toInt missing
  have positive : 0 < user.tid.toInt := Int32.lt_iff_toInt_lt.mp seated
  rw [shifted, Int.shiftRight_eq_div_pow] at negative
  omega

theorem processLogicCore_unchanged : server.Unchanged (server.processLogicCore (-1)) := by
  have visited : ∀ (users : List GameUser) (state : Server × List Int32), users.foldl (tid0Visit (-1)) state = state := by
    intro users state
    induction users with
    | nil => rfl
    | cons user users ih => simpa [tid0Visit, atServer_missing] using ih
  rw [processLogicCore, setServerUserTid0, visited]
  exact .of_store rfl rfl rfl rfl

theorem setTjSwitch_unchanged_iff (flag : Int32) :
    server.Unchanged { server with options := server.options.setTjSwitch flag (-1) } ↔ server.options.tjInteval = -1 :=
  ⟨fun unchanged => unchanged.interval.symm, fun missing => .of_store rfl rfl rfl missing.symm⟩

/-! A hall core for the hall `-1`: the users without a hall are listed again. -/

private theorem mem_visit (stored : server.store.lookup uid = some user) : user ∈ server.gshm.visit := by
  rw [store_lookup] at stored
  exact List.mem_map.mpr ⟨⟨uid, user⟩, AList.mem_lookup_iff.mp stored, rfl⟩

/-- Storing a user again changes nothing. -/
private theorem change_unchanged (keyed : server.Keyed) {alter : GameUser → GameUser} (uid : Int32)
    (same : ∀ user, server.store.lookup uid = some user → alter user = user) :
    server.Unchanged (change alter server uid) := by
  cases found : server.store.lookup uid with
  | none =>
    rw [change, find_absent found]
    exact Unchanged.find server uid
  | some user =>
    rw [change, find_stored found]
    simp only [same user found]
    refine .of_store ?_ rfl rfl rfl
    have own : (server.find uid).2.store.lookup user.uid = some user := by
      rw [store_find]
      exact keyed.own found
    rw [store_setValue _ own]
    refine Finmap.ext_lookup fun other => ?_
    rw [lookup_put_eq, store_find]
    split
    · next equal => rw [equal, keyed.own found]
    · rfl

private theorem foldl_change_unchanged (keyed : server.Keyed) {alter : GameUser → GameUser} {uids : List Int32}
    (same : ∀ uid ∈ uids, ∀ user, server.store.lookup uid = some user → alter user = user) :
    server.Unchanged (uids.foldl (change alter) server) := by
  induction uids generalizing server with
  | nil => exact .refl server
  | cons uid uids ih =>
    have first := change_unchanged keyed uid (same uid (by simp))
    refine first.trans (ih ?_ fun other member user found => ?_)
    · intro other user found
      rw [first.users] at found
      exact keyed other user found
    · rw [first.users] at found
      exact same other (by simp [member]) user found

/-- Users who are listed are passed over. -/
private theorem foldl_hallCoreVisit_listed (hid : Int32) {users : List GameUser}
    (listed : ∀ user ∈ users, user.hallServerId = hid → server.options.offlineUserMgr[user.uid]? ≠ none)
    (uids : List Int32) (call : Nat) : users.foldl (hallCoreVisit answers hid) (server, uids, call) =
      (server, uids ++ (users.filter (·.hallServerId = hid)).map (·.uid), call) := by
  induction users generalizing uids with
  | nil => simp
  | cons user users ih =>
    have others := ih fun other member => listed other (by simp [member])
    by_cases affected : user.hallServerId = hid
    · obtain ⟨time, entry⟩ := Option.ne_none_iff_exists'.mp (listed user (by simp) affected)
      simp only [List.foldl_cons, hallCoreVisit, affected, if_true, entry, others]
      simp [affected]
    · simp only [List.foldl_cons, hallCoreVisit, affected, if_false, others]
      simp [affected]

/-- Whoever is listed stays listed. -/
private theorem hallCoreVisit_keeps {hid : Int32} {state : Server × List Int32 × Nat} (visited : GameUser)
    (listed : state.1.options.offlineUserMgr[uid]? ≠ none) :
    (hallCoreVisit answers hid state visited).1.options.offlineUserMgr[uid]? ≠ none := by
  obtain ⟨server, uids, call⟩ := state
  by_cases affected : visited.hallServerId = hid
  · cases entry : server.options.offlineUserMgr[visited.uid]? with
    | none =>
      simp only [hallCoreVisit, affected, if_true, entry, addOfflineUser, Options.addOfflineUser]
      rw [TreeMap.getElem?_insert]
      split
      · simp
      · exact listed
    | some time =>
      simp only [hallCoreVisit, affected, if_true, entry]
      exact listed
  · simp only [hallCoreVisit, affected, if_false]
    exact listed

/-- Every user of the hall is listed in the end. -/
private theorem foldl_hallCoreVisit_lists {hid : Int32} {users : List GameUser} (member : user ∈ users)
    (affected : user.hallServerId = hid) (state : Server × List Int32 × Nat) :
    (users.foldl (hallCoreVisit answers hid) state).1.options.offlineUserMgr[user.uid]? ≠ none := by
  have kept : ∀ (others : List GameUser) (state : Server × List Int32 × Nat),
      state.1.options.offlineUserMgr[user.uid]? ≠ none →
      (others.foldl (hallCoreVisit answers hid) state).1.options.offlineUserMgr[user.uid]? ≠ none := by
    intro others
    induction others with
    | nil => exact fun _ listed => listed
    | cons other others ih => exact fun state listed => ih _ (hallCoreVisit_keeps other listed)
  induction users generalizing state with
  | nil => simp at member
  | cons head users ih =>
    rcases List.mem_cons.mp member with rfl | later
    · refine kept users _ ?_
      obtain ⟨server, uids, call⟩ := state
      cases entry : server.options.offlineUserMgr[user.uid]? with
      | none =>
        simp only [hallCoreVisit, affected, if_true, entry, addOfflineUser, Options.addOfflineUser]
        simp
      | some time => simp [hallCoreVisit, affected, entry]
    · exact ih later _

theorem setUserOfflineHallCore_unchanged_iff (keyed : server.Keyed) :
    (∀ answers, server.Unchanged (server.setUserOfflineHallCore answers (-1))) ↔
      ∀ uid user, server.store.lookup uid = some user → user.hallServerId = -1 →
        server.options.offlineUserMgr[uid]? ≠ none := by
  constructor
  · intro unchanged uid user stored away
    have listed := @foldl_hallCoreVisit_lists user (quiet 0) (-1) _ (mem_visit stored) away (server, [], 0)
    have same := (unchanged (quiet 0)).offline uid
    simp only [setUserOfflineHallCore, options_foldl_change] at same
    rwa [keyed uid user stored, same] at listed
  · intro listed answers
    have passed := @foldl_hallCoreVisit_listed server answers (-1) server.gshm.visit (fun user member away => by
      have stored := visit_stored keyed member
      exact listed user.uid user stored away) [] 0
    simp only [setUserOfflineHallCore, passed, List.nil_append]
    refine foldl_change_unchanged keyed fun uid member user stored => ?_
    obtain ⟨visited, among, rfl⟩ := List.mem_map.mp member
    obtain ⟨inside, away⟩ := List.mem_filter.mp among
    obtain rfl := Option.some.inj ((visit_stored keyed inside).symm.trans stored)
    have gone : visited.hallServerId = -1 := by simpa using away
    rw [← gone]

/-- Only valid user ids are stored. -/
theorem ReachedBy.positive {allowed : Server → Answers → Event → Prop} (reached : server.ReachedBy allowed)
    (stored : server.store.lookup uid = some user) : 0 < uid := by
  have all : AllStored (fun uid _ => 0 < uid) server.ledger := by
    refine reached.invariant (fun _ _ stored => by simp at stored) ?_
    intro answers server event change _ _ cause ledger fits all
    refine all.apply fun record new => ?_
    cases cause with
    | arrive valid => exact valid
    | forget => simp [Change.forget] at new
    | _ => exact all _ _ fits
  exact all uid user stored

end Server

namespace Handler

variable {handler : Handler} {packet body : PacketBase} {server : Server} {uid : Int32}

/-- An integer that is not there reads as `-1`. -/
private theorem readInt_missing (cursor : packet.bufPos = headerSize) (short : packet.packetSize < headerSize + 4) :
    packet.readInt .network = (-1, packet) := by
  simp only [headerSize] at cursor short
  have failed : packet.read 4 4 = (none, packet) :=
    Ahead.read_short (by omega) (by omega) (by decide) (by decide) (by omega)
  rw [PacketBase.readInt, failed]

private theorem readShort_missing (cursor : packet.bufPos = headerSize) (short : packet.packetSize < headerSize + 2) :
    packet.readShort .network = (-1, packet) := by
  simp only [headerSize] at cursor short
  have failed : packet.read 2 2 = (none, packet) :=
    Ahead.read_short (by omega) (by omega) (by decide) (by decide) (by omega)
  rw [PacketBase.readShort, failed]

/-- The second of two integers is not there. -/
private theorem second_missing (cursor : packet.bufPos = headerSize) (short : packet.packetSize < headerSize + 8) :
    ((packet.readInt .network).2.readInt .network).1 = -1 := by
  by_cases first : packet.packetSize < headerSize + 4
  · rw [readInt_missing cursor first, readInt_missing cursor first]
  · simp only [headerSize] at cursor short first
    have passed : (packet.readInt .network).2 = (packet.read 4 4).2 := by
      rw [PacketBase.readInt]
      split <;> simp_all
    have moved : (packet.read 4 4).2.bufPos = 13 ∧ (packet.read 4 4).2.packetSize = packet.packetSize := by
      have sum : int (4 + packet.bufPos) = 13 := by rw [cursor]; rfl
      have after : int (packet.bufPos + 4) = 13 := by rw [cursor]; rfl
      rw [PacketBase.read, sum, after, if_neg (by simp only [bufferSize]; omega)]
      exact ⟨rfl, rfl⟩
    rw [passed]
    have failed : (packet.read 4 4).2.read 4 4 = (none, (packet.read 4 4).2) :=
      Ahead.read_short (by omega) (by omega) (by decide) (by decide) (by omega)
    rw [PacketBase.readInt, failed]

private theorem serve_unchanged_iff (reached : server.ReachedBy fun _ _ _ => True) (uid svid : Int32)
    (truncated : handler.Truncated packet) :
    (∀ answers after, server.serve (handler.request uid svid packet) answers = some after →
      server.Unchanged after) ↔ handler.Harmless server packet := by
  have keyed := reached.keyed
  have absent : server.store.lookup (-1) = none := by
    by_contra present
    obtain ⟨user, stored⟩ := Option.ne_none_iff_exists'.mp present
    exact absurd (reached.positive stored) (by decide)
  obtain ⟨cursor, short⟩ := truncated
  cases handler with
  | userLogin =>
    simp only [request, Server.serve, Option.some.injEq, forall_eq']
    exact Server.processUserLogin_unchanged_iff keyed uid svid _ _
  | clientClose =>
    simp only [request, Server.serve, Option.some.injEq, forall_eq', readInt_missing cursor short]
    exact iff_of_true (Server.processClientClose_unchanged absent) trivial
  | userEnterRoom =>
    simp only [request, Server.serve, Option.some.injEq, forall_eq']
    exact Server.processReportUserEnterRoom_unchanged_iff keyed _ _
  | userLeaveRoom =>
    simp only [request, Server.serve, Option.some.injEq, forall_eq', readInt_missing cursor short]
    exact iff_of_true (Server.processReportUserLeaveRoom_unchanged absent) trivial
  | userStandRoom =>
    simp only [request, Server.serve, Option.some.injEq, forall_eq']
    exact Server.processReportUserStandRoom_unchanged_iff _ _
  | standLeaveRoom =>
    simp only [request, Server.serve, Option.some.injEq, forall_eq', readInt_missing cursor short]
    exact iff_of_true (fun _ => Server.processReportStandLeaveRoom_unchanged absent) trivial
  | getUserTable =>
    simp only [request, Server.serve, Option.some.injEq, forall_eq']
    exact Server.processGetUserTable_unchanged_iff keyed _ _ _ _
  | logicCore =>
    simp only [request, Server.serve, Option.some.injEq, forall_eq', readShort_missing cursor short]
    exact iff_of_true (fun _ => Server.processLogicCore_unchanged) trivial
  | hallCore =>
    simp only [request, Server.serve, Option.some.injEq, forall_eq', readInt_missing cursor short]
    exact Server.setUserOfflineHallCore_unchanged_iff keyed
  | tjSwitch =>
    simp only [request, Server.serve, Option.some.injEq, forall_eq', second_missing cursor short]
    have missing := @Server.setTjSwitch_unchanged_iff server (packet.readInt .network).1
    exact ⟨fun unchanged => missing.mp (unchanged (Server.quiet 0)), fun same _ => missing.mpr same⟩

/-- A packet whose body is truncated changes nothing, whatever the clock and memcached answer,
exactly when the fields that are there lead to nothing. -/
theorem truncated_unchanged_iff (reached : server.ReachedBy fun _ _ _ => True) (reads : Reads handler packet body)
    (truncated : handler.Truncated body) :
    (∀ answers after, server.processPacket packet answers = some after → server.Unchanged after) ↔
      handler.Harmless server body := by
  obtain ⟨uid, svid, asks⟩ := reads.request_eq
  simp only [Server.processPacket, asks]
  exact serve_unchanged_iff reached uid svid truncated

/-- User 7 has logged in at hall 1. -/
def loggedIn : Server := (Server.initial 1 0).processUserLogin (Server.quiet 1000) 7 1 7 3

theorem loggedIn_reached : loggedIn.ReachedBy fun _ _ _ => True :=
  have login : (Server.initial 1 0).step (.request (.userLogin 7 1 7 3)) (Server.quiet 1000) = some loggedIn := rfl
  .next (.start (Server.fresh_initial 1 0)) trivial login

/-- A `SYS_USER_ENTER_ROOM` packet that ends behind the user id 7. -/
def shortEnter : PacketBase := (fresh.copy [0, 11, 66, 89, 1, 1, 5, 5, 0, 0, 0, 0, 7]).2

theorem shortEnter_truncated : userEnterRoom.Truncated shortEnter := ⟨rfl, by decide⟩

/-- A hidden login of user 7 through the hall 1 that ends behind the user id. -/
def shortLogin : PacketBase :=
  (fresh.copy [0, 32, 66, 89, 1, 1, 0, 1, 0, 0, 0, 0, 7, 0, 0, 0, 1, 0, 0, 0, 13,
    0, 11, 66, 89, 1, 1, 1, 1, 249, 112, 112, 112, 69]).2

theorem truncated_unchanged_iff_short :
    ((∀ answers after, loggedIn.processPacket shortEnter answers = some after → loggedIn.Unchanged after) ↔
      userEnterRoom.Harmless loggedIn shortEnter) ∧
    ∃ body, Reads userLogin shortLogin body ∧ userLogin.Truncated body ∧
      ((∀ answers after, loggedIn.processPacket shortLogin answers = some after → loggedIn.Unchanged after) ↔
        userLogin.Harmless loggedIn body) := by
  have opened : (dispatched shortLogin).map (fun found =>
      (found.2.2.getCmdType .network, found.2.2.bufPos, found.2.2.packetSize)) = some (0x0101, 9, 13) := by
    decide +kernel
  obtain ⟨found, inside, fields⟩ := Option.map_eq_some_iff.mp opened
  obtain ⟨uid, svid, body⟩ := found
  simp only [Prod.mk.injEq] at fields
  obtain ⟨command, cursor, size⟩ := fields
  have reads : Reads userLogin shortLogin body := .hidden (.inr rfl) inside command
  have truncated : userLogin.Truncated body := ⟨cursor, by rw [size]; decide⟩
  exact ⟨truncated_unchanged_iff loggedIn_reached (.packet (by decide) rfl) shortEnter_truncated,
    body, reads, truncated, truncated_unchanged_iff loggedIn_reached reads truncated⟩

/-- The user is put at the table `-1` and counted as playing. -/
theorem shortEnter_seats :
    (loggedIn.ReachedBy fun _ _ _ => True) ∧ userEnterRoom.Truncated shortEnter ∧
      ∃ after, loggedIn.processPacket shortEnter (Server.quiet 1001) = some after ∧ ¬ loggedIn.Unchanged after := by
  refine ⟨loggedIn_reached, shortEnter_truncated, loggedIn.processReportUserEnterRoom (Server.quiet 1001) 7 (-1), rfl,
    fun same => ?_⟩
  have before : loggedIn.gshm.lookup 7 = some ⟨7, 1, 0, 3, -1, 1000⟩ := by decide
  have after : (loggedIn.processReportUserEnterRoom (Server.quiet 1001) 7 (-1)).gshm.lookup 7 =
      some ⟨7, 1, -1, 3, -1, 1001⟩ := by decide
  rw [Server.gshm_lookup] at before after
  rw [same.users, before] at after
  exact absurd after (by decide)

end Handler

end TeenpattiUserServer.UserServer
