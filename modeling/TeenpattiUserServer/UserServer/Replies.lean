import TeenpattiUserServer.UserServer.FullTable
import TeenpattiUserServer.UserServer.ServerCache

/-! What a request makes the server send: packets that are well formed, behind those
sent before. The address of a server is the only text in them. -/

namespace TeenpattiUserServer.UserServer

open Std Bookkeeping Packet

/-- The greatest value of memcached, 1 MiB. -/
def itemSize : Nat := 2 ^ 20

def Answers.Brief (answers : Answers) : Prop := ∀ serverId, (answers.serverRecord serverId).length ≤ itemSize

private theorem length_of_intercalate {piece : List UInt8} {pieces : List (List UInt8)} (comma : List UInt8)
    (member : piece ∈ pieces) : piece.length ≤ (comma.intercalate pieces).length := by
  induction pieces with
  | nil => cases member
  | cons first pieces ih =>
    rcases List.mem_cons.mp member with rfl | later
    · cases pieces with
      | nil => rw [List.intercalate_singleton]
      | cons => simp [List.intercalate_cons_cons]
    · have some : pieces ≠ [] := List.ne_nil_of_mem later
      rw [List.intercalate_cons_of_ne_nil some, List.length_append, List.length_append]
      exact Nat.le_add_left_of_le (ih later)

private theorem length_of_splitStr {piece value : List UInt8} (member : piece ∈ splitStr value) :
    piece.length ≤ value.length := by
  have split := length_of_intercalate [44] (List.mem_filter.mp member).1
  rw [List.intercalate_splitOn] at split
  exact split.trans (List.takeWhile_prefix _).length_le

private theorem brief_ip {answers : Answers} (brief : answers.Brief) {serverId level : Int16} {ip : List UInt8}
    {port : Int32} (answered : getServerInfoFromMc answers serverId = some (level, ip, port)) :
    ip.length ≤ itemSize := by
  rw [getServerInfoFromMc] at answered
  split at answered
  · rename_i text address number pieces
    cases answered
    have member : ip ∈ splitStr (answers.serverRecord serverId) := by simp [pieces]
    exact (length_of_splitStr member).trans (brief serverId)
  · cases answered

private theorem netPacket_built (command : Int16) {writes : List Write} (defined : ∀ op ∈ writes, op.Defined) :
    Built .network (netPacket command writes).bytes := build_built .network command 1 1 defined blank

private theorem bytes_few (packet : PacketBase) : packet.bytes.length ≤ 8192 := by
  rw [PacketBase.bytes, Bytes.slice_length, bufferSize]
  omega

namespace Server

/-- The addresses in the list of servers are as short as memcached gives them. -/
def Brief (server : Server) : Prop :=
  ∀ serverId logic, server.options.getServer serverId = some logic → logic.ip.length ≤ itemSize

variable {answers : Answers} {server middle after : Server}

theorem step_brief (brief : server.Brief) (short : answers.Brief) {event : Event}
    (ran : server.step event answers = some after) : after.Brief := by
  intro serverId logic there
  have remembers := (step_remembers ran).2 serverId
  rw [Remembers] at remembers
  split at remembers
  · rw [remembers] at there
    cases there
  · rcases remembers with same | ⟨_, level, ip, port, answered, new⟩
    · exact brief serverId logic (same.symm.trans there)
    · cases new.symm.trans there
      exact brief_ip short answered

/-- Well-formed packets are sent behind the others. -/
def Sends (before after : Server) : Prop :=
  ∃ packets, after.sent = before.sent ++ packets ∧ ∀ packet ∈ packets, Built .network packet

namespace Sends

theorem of_same (same : after.sent = server.sent) : Sends server after := ⟨[], by simp [same], by simp⟩

theorem trans (first : Sends server middle) (second : Sends middle after) : Sends server after := by
  obtain ⟨early, sent, built⟩ := first
  obtain ⟨late, sentOn, builtOn⟩ := second
  refine ⟨early ++ late, by rw [sentOn, sent, List.append_assoc], fun packet member => ?_⟩
  exact (List.mem_append.mp member).elim (built packet) (builtOn packet)

theorem find {uid : Int32} {user : Option GameUser} (found : server.find uid = (user, middle)) : Sends server middle :=
  .of_same (congrArg (fun found => found.2.sent) found).symm

theorem send (command : Int16) {writes : List Write} (defined : ∀ op ∈ writes, op.Defined) :
    Sends server (server.send (netPacket command writes)) :=
  ⟨[_], rfl, by simpa using netPacket_built command defined⟩

theorem sendClientPacket (uid svid : Int32) (packet : PacketBase) :
    Sends server (server.sendClientPacket uid svid packet) := by
  have length := bytes_few (OutputPacket.encryptBuffer ⟨packet, false⟩).2.base
  refine send _ fun op member => ?_
  simp only [List.mem_cons, List.not_mem_nil, or_false] at member
  rcases member with rfl | rfl | rfl
  · trivial
  · trivial
  · simp only [Write.Defined]
    omega

/-- The replies are these packets. -/
theorem replies (sends : Sends server after) :
    after.sent = server.sent ++ Server.replies server after ∧
      ∀ packet ∈ Server.replies server after, Built .network packet := by
  obtain ⟨packets, sent, built⟩ := sends
  have same : Server.replies server after = packets := by rw [Server.replies, sent, List.drop_left]
  rw [same]
  exact ⟨sent, built⟩

end Sends

private theorem sent_find (uid : Int32) : (server.find uid).2.sent = server.sent := rfl

private theorem sent_logoutTable (seated : Bool) (user : GameUser) :
    (server.logoutTable seated user).sent = server.sent := by
  rw [logoutTable]
  split <;> rfl

private theorem sent_loginTable (user : GameUser) : (server.loginTable user).sent = server.sent := by
  rw [loginTable]
  split <;> rfl

private theorem sent_logoutLevel (user : GameUser) : (server.logoutLevel user).sent = server.sent := by
  rw [logoutLevel]
  split <;> rfl

private theorem sent_change (alter : GameUser → GameUser) (uids : List Int32) :
    (uids.foldl (change alter) server).sent = server.sent := by
  induction uids generalizing server with
  | nil => rfl
  | cons uid uids ih =>
    rw [List.foldl_cons, ih, change]
    split
    · rename_i found
      exact (congrArg (fun found => found.2.sent) found).symm
    · rename_i found
      exact (congrArg (fun found => found.2.sent) found).symm

/-- A server that is found has a short address, and nothing is sent. -/
private theorem findServer_brief (brief : server.Brief) (short : answers.Brief) (serverId : Int16) :
    (server.findServer answers serverId).2.sent = server.sent ∧
      ∀ logic, (server.findServer answers serverId).1 = some logic → logic.ip.length ≤ itemSize := by
  refine ⟨rfl, fun logic found => ?_⟩
  simp only [findServer, Options.findServer] at found
  split at found
  · rename_i known
    cases found
    exact brief serverId logic known
  · split at found
    · rename_i answered
      cases found
      exact brief_ip short answered
    · cases found

private theorem sends_getUserTable (brief : server.Brief) (short : answers.Brief) (uid svid : Int32) (level : Int16)
    (sid : Int32) : Sends server (server.processGetUserTable answers uid svid level sid) := by
  have refused (server : Server) : Sends server (server.send
      (netPacket GameCmd.sysGetUserTable [.int uid, .int svid, .int 0, .short level, .int sid])) :=
    .send _ (by simp [Write.Defined])
  rcases found : server.find uid with ⟨_ | user, middle⟩
  · simp only [processGetUserTable, found]
    exact (Sends.find found).trans (refused middle)
  · have options : middle.options = server.options := (congrArg (fun found => found.2.options) found).symm
    have same : Sends server middle := .find found
    have known : middle.Brief := by rwa [Brief, options]
    simp only [processGetUserTable, found]
    split
    · obtain ⟨silent, address⟩ := findServer_brief known short (user.tid >>> 16).toInt16
      refine same.trans ((Sends.of_same silent).trans (Sends.trans (.of_same rfl) (.send _ ?_)))
      cases searched : (middle.findServer answers (user.tid >>> 16).toInt16).1 with
      | none => simp [Write.Defined]
      | some logic =>
        have fits : logic.ip.length + 8192 < 2 ^ 31 := by
          have few := address logic searched
          simp only [itemSize] at few
          omega
        simpa [Write.Defined] using fits
    · exact same.trans (refused middle)

private theorem sends_enterHall (uid svid userId : Int32) (terminalType : Int16) (found : Option GameUser) :
    Sends server (enterHall answers uid svid userId terminalType found server).2 := by
  cases found with
  | none => exact .of_same rfl
  | some user =>
    simp only [enterHall]
    split
    · have closed (server : Server) : Sends server (server.sendServerClosePacket uid user.hallServerId) :=
        .send _ (by simp [Write.Defined])
      exact (Sends.sendClientPacket uid user.hallServerId _).trans ((closed _).trans (.of_same rfl))
    · exact .of_same rfl

private theorem sends_userLogin (uid svid userId : Int32) (terminalType : Int16) :
    Sends server (server.processUserLogin answers uid svid userId terminalType) := by
  rw [processUserLogin]
  split
  · exact .of_same rfl
  · let entered := enterHall answers uid svid userId terminalType (server.store.lookup userId) (server.find userId).2
    have silent (server : Server) (tid : Int32) : (server.tableServer answers tid).2.sent = server.sent := by
      rw [tableServer]
      split <;> rfl
    have entering : Sends server (entered.2.deleteOfflineUser userId) :=
      (Sends.of_same (sent_find userId)).trans ((sends_enterHall ..).trans (.of_same rfl))
    simp only [find_fst]
    exact entering.trans ((Sends.of_same (silent _ _)).trans (Sends.trans (.of_same rfl) (.sendClientPacket ..)))

private theorem sends_levelNums {call : Nat} {levels : List Int16} {counted : List Write × Server}
    (ran : levelNums answers call levels server = some counted) : counted.2.sent = server.sent := by
  induction levels generalizing call server counted with
  | nil =>
    cases ran
    rfl
  | cons level levels ih =>
    obtain ⟨⟨rand, middle⟩, rolled, rest⟩ := Option.bind_eq_some_iff.mp ran
    obtain ⟨⟨others, last⟩, later, same⟩ := Option.bind_eq_some_iff.mp rest
    cases same
    refine (ih later).trans ?_
    simp only [getRand] at rolled
    split at rolled
    · cases rolled
    · cases rolled
      rfl

private theorem sends_clientClose (uid : Int32) : Sends server (server.processClientClose answers uid) := by
  rw [processClientClose]
  rcases found : server.find uid with ⟨_ | user, middle⟩
  · exact .find found
  · refine .trans (.find found) ?_
    simp only
    split <;> exact .of_same rfl

private theorem sends_leaveRoom (uid : Int32) : Sends server (server.processReportUserLeaveRoom answers uid) := by
  rw [processReportUserLeaveRoom]
  rcases found : server.find uid with ⟨_ | user, middle⟩
  · exact .find found
  · refine .trans (.find found) (.of_same ?_)
    exact (sent_logoutLevel user).trans (sent_logoutTable _ user)

private theorem sends_enterRoom (uid tid : Int32) :
    Sends server (server.processReportUserEnterRoom answers uid tid) := by
  rw [processReportUserEnterRoom]
  rcases found : server.find uid with ⟨_ | user, middle⟩
  · exact .find found
  · refine .trans (.find found) (.of_same ?_)
    have silent : ((middle.loginTable user).findServer answers (tid >>> 16).toInt16).2.sent = middle.sent :=
      sent_loginTable user
    simp only
    split
    · rename_i searched
      rwa [searched] at silent
    · rename_i searched
      rw [searched] at silent
      split
      · exact (sent_logoutLevel user).trans silent
      · exact silent

private theorem sends_standRoom (uid tid : Int32) :
    Sends server (server.processReportUserStandRoom answers uid tid) := by
  rw [processReportUserStandRoom]
  rcases found : server.find uid with ⟨_ | user, middle⟩
  · exact .find found
  · refine .trans (.find found) (.of_same ?_)
    have silent : ((middle.updateTerminalInfo .standTable user.terminalType).findServer answers
        (tid >>> 16).toInt16).2.sent = middle.sent := rfl
    simp only
    split
    · rename_i searched
      rwa [searched] at silent
    · rename_i searched
      rwa [searched] at silent

private theorem sends_standLeaveRoom (uid : Int32) : Sends server (server.processReportStandLeaveRoom uid) := by
  rw [processReportStandLeaveRoom]
  rcases found : server.find uid with ⟨_ | user, middle⟩
  · exact .find found
  · refine .trans (.find found) (.of_same ?_)
    simp only
    split <;> rfl

private theorem sends_getUserHallId (uid : Int32) : Sends server (server.processGetUserHallId uid) := by
  rw [processGetUserHallId]
  rcases found : server.find uid with ⟨_ | user, middle⟩
  · exact .trans (.find found) (.send _ (by simp [Write.Defined]))
  · exact .trans (.find found) (.send _ (by simp [Write.Defined]))

private theorem sends_logicCore (serverId : Int16) : (server.processLogicCore serverId).sent = server.sent := by
  have visited (users : List GameUser) (uids : List Int32) (server : Server) :
      (users.foldl (tid0Visit serverId) (server, uids)).1.sent = server.sent := by
    induction users generalizing server uids with
    | nil => rfl
    | cons user users ih =>
      rw [List.foldl_cons, tid0Visit]
      split
      · rw [ih, sent_logoutLevel, sent_logoutTable]
      · exact ih _ _
  simp only [processLogicCore, setServerUserTid0, sent_change, visited]

private theorem sends_hallCore (hid : Int32) : (server.setUserOfflineHallCore answers hid).sent = server.sent := by
  have visited (users : List GameUser) (uids : List Int32) (call : Nat) (server : Server) :
      (users.foldl (hallCoreVisit answers hid) (server, uids, call)).1.sent = server.sent := by
    induction users generalizing server uids call with
    | nil => rfl
    | cons user users ih =>
      simp only [List.foldl_cons, hallCoreVisit]
      split
      · split
        · exact ih ..
        · exact ih ..
      · exact ih ..
  simp only [setUserOfflineHallCore, sent_change, visited]

/-- What a request makes the server send. -/
theorem serve_sends (brief : server.Brief) (short : answers.Brief) {request : Request}
    (ran : server.serve request answers = some after) : Sends server after := by
  cases request with
  | getUserTable uid svid level sid =>
    obtain rfl := Option.some.inj ran
    exact sends_getUserTable brief short ..
  | userLogin uid svid userId terminalType =>
    obtain rfl := Option.some.inj ran
    exact sends_userLogin ..
  | getRoomLevelNum uid svid levelCount levels =>
    obtain ⟨⟨writes, middle⟩, counted, same⟩ := Option.bind_eq_some_iff.mp ran
    obtain rfl := Option.some.inj same
    exact (Sends.of_same (sends_levelNums counted)).trans (.sendClientPacket ..)
  | clientClose uid =>
    obtain rfl := Option.some.inj ran
    exact sends_clientClose uid
  | userLeaveRoom uid =>
    obtain rfl := Option.some.inj ran
    exact sends_leaveRoom uid
  | userEnterRoom uid tid =>
    obtain rfl := Option.some.inj ran
    exact sends_enterRoom uid tid
  | userStandRoom uid tid =>
    obtain rfl := Option.some.inj ran
    exact sends_standRoom uid tid
  | standLeaveRoom uid =>
    obtain rfl := Option.some.inj ran
    exact sends_standLeaveRoom uid
  | logicCore serverId =>
    obtain rfl := Option.some.inj ran
    exact .of_same (sends_logicCore serverId)
  | hallCore svid =>
    obtain rfl := Option.some.inj ran
    exact .of_same (sends_hallCore svid)
  | clearServerInfo | tjSwitch | ignored =>
    obtain rfl := Option.some.inj ran
    exact .of_same rfl
  | getUserHallId uid =>
    obtain rfl := Option.some.inj ran
    exact sends_getUserHallId uid
  | setLevelCountRandom key =>
    obtain rfl := Option.some.inj ran
    refine .of_same ?_
    simp only [processSetLevelCountRandom]
    split
    · rfl
    · split <;> rfl

end Server

end TeenpattiUserServer.UserServer
