import TeenpattiUserServer.UserServer.Request

/-! `ClientHandler`: what the server does for each request. -/

namespace TeenpattiUserServer.UserServer

open Bytes Packet

/-- A packet object before `Begin`. -/
def blank : PacketBase := ⟨fun _ => 0, 0, 0, []⟩

/-- `Begin` with the default versions, the writes and `End`. -/
def netPacket (command : Int16) (writes : List Write) : PacketBase := build .network command 1 1 writes blank

/-- The levels reported to a user who has logged in. -/
def levelArr : List Int32 := [1, 2, 3, 4, 5, 6, 7, 8, 9, 10, 11, 12]

/-- `SYS_CTRL_LEVELCOUNT_RANDOM`: "sys_ctrl_level_count_random" -/
def sysCtrlLevelCountRandom : List UInt8 :=
  [115, 121, 115, 95, 99, 116, 114, 108, 95, 108, 101, 118, 101, 108, 95, 99, 111, 117, 110, 116, 95,
    114, 97, 110, 100, 111, 109]

namespace Server

def send (server : Server) (packet : PacketBase) : Server := { server with sent := server.sent ++ [packet.bytes] }

/-- The inner packet is encrypted and goes to the hall inside a `CLIENT_PACKET`. -/
def sendClientPacket (server : Server) (uid svid : Int32) (packet : PacketBase) : Server :=
  let inner := (OutputPacket.encryptBuffer ⟨packet, false⟩).2.base
  server.send (netPacket GameCmd.clientPacket [.int uid, .int svid, .binary inner.bytes])

def sendServerClosePacket (server : Server) (uid svid : Int32) : Server :=
  server.send (netPacket GameCmd.serverClosePacket [.int uid, .int svid])

/-- The server of a table id, found as `ProcessGetUserTable` and `ProcessUserLogin` do. -/
def findServer (answers : Answers) (server : Server) (serverId : Int16) : Option LogicServer × Server :=
  let (found, options) := server.options.findServer answers serverId
  (found, { server with options := options })

def processGetUserTable (answers : Answers) (uid svid : Int32) (level : Int16) (sid : Int32) (server : Server) :
    Server :=
  let refused := netPacket GameCmd.sysGetUserTable [.int uid, .int svid, .int 0, .short level, .int sid]
  match server.find uid with
  | (none, server) => server.send refused
  | (some user, server) =>
    if 0 < user.tid then
      let serverId := (user.tid >>> 16).toInt16
      let (found, server) := server.findServer answers serverId
      let (serverLevel, ip, port) :=
        match found with
        | some logic => (logic.level, logic.ip, logic.port)
        | none => (-1, [], 0)
      let server := server.setValue { user with updateTime := answers.time 0 }
      server.send (netPacket GameCmd.sysGetUserTable
        [.int uid, .int svid, .int 1, .int user.tid, .short serverId, .string ip, .int port, .short serverLevel])
    else server.send refused

/-- The table id a new user starts with: what memcached says shortly after the start. -/
def seededTid (answers : Answers) (startTime userId : Int32) : Int32 :=
  if answers.time 0 - startTime ≤ timeInteval then (getUserInfoFromMc answers userId).getD 0 else 0

/-- The user goes through the hall `svid`; a user at another hall is put out there. -/
def enterHall (answers : Answers) (uid svid userId : Int32) (terminalType : Int16) (found : Option GameUser)
    (server : Server) : GameUser × Server :=
  match found with
  | some user =>
    let server :=
      if svid ≠ user.hallServerId ∧ -1 ≠ user.hallServerId then
        (server.sendClientPacket uid user.hallServerId (netPacket GameCmd.serverCmdKickOut [])).sendServerClosePacket
          uid user.hallServerId
      else server
    let preStat : UserStat := ⟨user.terminalType, user.tid⟩
    ({ GameUser.create user.uid svid terminalType (answers.time 0) with
        tid := user.tid
        serverLevel := user.serverLevel },
      server.updateTerminalInfo (.loginHall (some preStat)) terminalType)
  | none =>
    ({ GameUser.create userId svid terminalType (answers.time 0) with
        tid := seededTid answers server.options.startTime userId },
      server.updateTerminalInfo (.loginHall none) terminalType)

/-- The server a user sits at. -/
def tableServer (answers : Answers) (tid : Int32) (server : Server) : Option LogicServer × Server :=
  if 0 < tid then server.findServer answers (tid >>> 16).toInt16 else (none, server)

def processUserLogin (answers : Answers) (uid svid userId : Int32) (terminalType : Int16) (server : Server) : Server :=
  if userId ≤ 0 then server
  else
    let (found, server) := server.find userId
    let (user, server) := enterHall answers uid svid userId terminalType found server
    let server := server.deleteOfflineUser userId
    let (logic, server) := server.tableServer answers user.tid
    let serverLevel := (logic.map (·.level)).getD (-1)
    let server := server.setValue (if 0 < user.tid then { user with serverLevel := serverLevel } else user)
    let tid := if 0 < user.tid then user.tid else 0
    server.sendClientPacket uid svid (netPacket GameCmd.serverCmdLoginSuccess
      (.int (Int32.ofNat levelArr.length) :: levelArr.map .int ++
        [.int tid, .string ((logic.map (·.ip)).getD []), .int ((logic.map (·.port)).getD 0)]))

/-- `GetRand`; `none` is the division by zero. -/
def getRand (answers : Answers) (call : Nat) (server : Server) : Option (Int32 × Server) :=
  let randCount := if 1000000000 < server.randCount then 0 else server.randCount
  if server.options.roundLimit = 0 then none
  else some (answers.rand call % server.options.roundLimit, { server with randCount := randCount + 1 })

/-- The counts for the levels asked for, in order. -/
def levelNums (answers : Answers) : Nat → List Int16 → Server → Option (List Write × Server)
  | _, [], server => some ([], server)
  | call, level :: levels, server => do
    let (randCount, server) ← getRand answers call server
    let userCount := Int32.ofInt (server.options.getLevelCount level)
    let (writes, server) ← levelNums answers (call + 1) levels server
    pure (.short level :: .short (userCount + randCount + server.options.addCount).toInt16 :: writes, server)

def processGetRoomLevelNum (answers : Answers) (uid svid : Int32) (levelCount : Int16) (levels : List Int16)
    (server : Server) : Option Server := do
  let (writes, server) ← levelNums answers 0 levels server
  pure (server.sendClientPacket uid svid (netPacket GameCmd.cmdGetRoomLevelNum (.short levelCount :: writes)))

def processClientClose (answers : Answers) (uid : Int32) (server : Server) : Server :=
  match server.find uid with
  | (none, server) => server
  | (some user, server) =>
    if 0 < user.tid then
      -- the user stays at the table; the hall -1 stands for no connection
      (server.addOfflineUser uid (answers.time 0)).setValue
        { user with hallServerId := -1, updateTime := answers.time 0 }
    else
      ((server.deleteOfflineUser uid).updateTerminalInfo .logoutHall user.terminalType).delete uid

def processReportUserLeaveRoom (answers : Answers) (uid : Int32) (server : Server) : Server :=
  match server.find uid with
  | (none, server) => server
  | (some user, server) =>
    ((server.logoutTable (0 < user.tid) user).logoutLevel user).setValue
      { user with tid := 0, serverLevel := -1, updateTime := answers.time 0 }

def processReportUserEnterRoom (answers : Answers) (uid tid : Int32) (server : Server) : Server :=
  match server.find uid with
  | (none, server) => server
  | (some user, server) =>
    let seated := { user with tid := tid, updateTime := answers.time 0 }
    match (server.loginTable user).findServer answers (tid >>> 16).toInt16 with
    | (none, server) => server.setValue seated
    | (some logic, server) =>
      if logic.level ≠ user.serverLevel then
        ((server.logoutLevel user).updateLevelInfo .login logic.level).setValue
          { seated with serverLevel := logic.level }
      else server.setValue seated

def processReportUserStandRoom (answers : Answers) (uid tid : Int32) (server : Server) : Server :=
  match server.find uid with
  | (none, server) => server
  | (some user, server) =>
    let server := server.updateTerminalInfo .standTable user.terminalType
    match server.findServer answers (tid >>> 16).toInt16 with
    | (none, server) => server
    | (some _, server) => server.updateLevelInfo .standIn user.serverLevel

def processReportStandLeaveRoom (uid : Int32) (server : Server) : Server :=
  match server.find uid with
  | (none, server) => server
  | (some user, server) =>
    let server := server.updateTerminalInfo .standLeaveTable user.terminalType
    if user.serverLevel ≠ -1 then server.updateLevelInfo .standOut user.serverLevel else server

/-- Whether the user sits at a table of this game server. -/
def atServer (serverId : Int16) (user : GameUser) : Bool := 0 < user.tid ∧ user.tid >>> 16 = serverId.toInt32

/-- The visit of one user by `SetServerUserTid0`; the uids to change are collected. -/
def tid0Visit (serverId : Int16) (state : Server × List Int32) (user : GameUser) : Server × List Int32 :=
  if atServer serverId user then
    ((state.1.logoutTable true user).logoutLevel user, state.2 ++ [user.uid])
  else state

/-- Find a user and store what the change makes of it. -/
def change (alter : GameUser → GameUser) (server : Server) (uid : Int32) : Server :=
  match server.find uid with
  | (none, server) => server
  | (some user, server) => server.setValue (alter user)

def setServerUserTid0 (serverId : Int16) (server : Server) : Server :=
  let (visited, tid0User) := server.gshm.visit.foldl (tid0Visit serverId) (server, [])
  tid0User.foldl (change fun user => { user with tid := 0, serverLevel := -1 }) visited

def processLogicCore (serverId : Int16) (server : Server) : Server :=
  setServerUserTid0 serverId { server with options := server.options.deleteLogicServer serverId }

/-- The visit of one user by `SetUserOfflineHallCore`: the server, the uids to
change and how often the clock has been asked. -/
def hallCoreVisit (answers : Answers) (hid : Int32) (state : Server × List Int32 × Nat) (user : GameUser) :
    Server × List Int32 × Nat :=
  let (server, userHallCore, call) := state
  if user.hallServerId = hid then
    match server.options.offlineUserMgr[user.uid]? with
    | none => (server.addOfflineUser user.uid (answers.time call), userHallCore ++ [user.uid], call + 1)
    | some _ => (server, userHallCore ++ [user.uid], call)
  else state

def setUserOfflineHallCore (answers : Answers) (hid : Int32) (server : Server) : Server :=
  let (visited, userHallCore, _) := server.gshm.visit.foldl (hallCoreVisit answers hid) (server, [], 0)
  userHallCore.foldl (change fun user => { user with hallServerId := -1 }) visited

def processGetUserHallId (uid : Int32) (server : Server) : Server :=
  match server.find uid with
  | (none, server) => server.send (netPacket GameCmd.getUserHallId [.int uid, .int (-1)])
  | (some user, server) => server.send (netPacket GameCmd.getUserHallId [.int uid, .int user.hallServerId])

/-- `ReadRandomConfig` changes nothing when the file cannot be opened. -/
def processSetLevelCountRandom (answers : Answers) (key : List UInt8) (server : Server) : Server :=
  if key ≠ sysCtrlLevelCountRandom then server
  else
    match answers.randomConfig with
    | none => server
    | some (roundLimit, addCount) =>
      { server with options := { server.options with roundLimit := roundLimit, addCount := addCount } }

/-- The handler of a request. -/
def serve (request : Request) (answers : Answers) (server : Server) : Option Server :=
  match request with
  | .getUserTable uid svid level sid => some (server.processGetUserTable answers uid svid level sid)
  | .userLogin uid svid userId terminalType => some (server.processUserLogin answers uid svid userId terminalType)
  | .getRoomLevelNum uid svid levelCount levels => server.processGetRoomLevelNum answers uid svid levelCount levels
  | .clientClose uid => some (server.processClientClose answers uid)
  | .userLeaveRoom uid => some (server.processReportUserLeaveRoom answers uid)
  | .userEnterRoom uid tid => some (server.processReportUserEnterRoom answers uid tid)
  | .userStandRoom uid tid => some (server.processReportUserStandRoom answers uid tid)
  | .standLeaveRoom uid => some (server.processReportStandLeaveRoom uid)
  | .logicCore serverId => some (server.processLogicCore serverId)
  | .hallCore svid => some (server.setUserOfflineHallCore answers svid)
  | .clearServerInfo => some { server with options := server.options.clearServerList }
  | .tjSwitch tjSwitch tjInteval => some { server with options := server.options.setTjSwitch tjSwitch tjInteval }
  | .getUserHallId uid => some (server.processGetUserHallId uid)
  | .setLevelCountRandom key => some (server.processSetLevelCountRandom answers key)
  | .ignored => some server

/-- `ProcessPacket` -/
def processPacket (packet : PacketBase) (answers : Answers) (server : Server) : Option Server :=
  server.serve (request packet) answers

/-- `CBackServer::ProcessSynData` -/
def processSynData (records : List (Int16 × Int32 × Int32)) (server : Server) : Server :=
  records.foldl (fun server record =>
    { server with options := server.options.setLevelCount record.1 record.2.1 record.2.2 }) server

end Server

end TeenpattiUserServer.UserServer
