import TeenpattiUserServer.UserServer.Changes
import TeenpattiUserServer.UserServer.StartReport
import TeenpattiUserServer.UserServer.UserTable

/-! The process and its segment: the handlers as programs, which reach the users through
`Init`, `Find`, `SetValue`, `Delete` and the `vistor` alone. -/

namespace TeenpattiUserServer.UserServer

open Bookkeeping Packet

/-- What the process keeps to itself. -/
structure Process where
  stat : Stat
  options : Options
  randCount : Int32
  sent : List (List UInt8)

def Process.over (gshm : GameUserSHM) (process : Process) : Server :=
  ⟨gshm, process.stat, process.options, process.randCount, process.sent⟩

def Server.process (server : Server) : Process := ⟨server.stat, server.options, server.randCount, server.sent⟩

/-- A part of a handler. `none` is the end of the process. -/
def Handling (α : Type) := Process → Client TableCall TableReply (Option (α × Process))

namespace Handling

variable {α β : Type}

/-- What comes after a part that the process survived. -/
def further (rest : α → Handling β) : Option (α × Process) → Client TableCall TableReply (Option (β × Process))
  | some (value, process) => rest value process
  | none => .done none

instance : Monad Handling where
  pure value := fun process => .done (some (value, process))
  bind first rest := fun process => (first process).bind (further rest)

def find (uid : Int32) : Handling (Option GameUser) := fun process =>
  .ask (.find uid) fun reply => .done (some (if reply.ret = 0 then reply.users.head? else none, process))

def setValue (user : GameUser) : Handling Unit := fun process =>
  .ask (.setValue user) fun _ => .done (some ((), process))

def delete (uid : Int32) : Handling Unit := fun process => .ask (.delete uid) fun _ => .done (some ((), process))

/-- The records that a `vistor` reads. -/
def visit : Handling (List GameUser) := fun process => .ask .visit fun reply => .done (some (reply.users, process))

/-- A part that does without the users; it is shown an empty table. -/
def aside (part : Server → Option (α × Server)) : Handling α := fun process =>
  .done ((part (process.over ⟨∅, 0⟩)).map fun outcome => (outcome.1, outcome.2.process))

def update (part : Server → Server) : Handling Unit := aside fun server => some ((), part server)

def findServer (answers : Answers) (serverId : Int16) : Handling (Option LogicServer) :=
  aside fun server => some (server.findServer answers serverId)

def processGetUserTable (answers : Answers) (uid svid : Int32) (level : Int16) (sid : Int32) : Handling Unit := do
  let refused := netPacket GameCmd.sysGetUserTable [.int uid, .int svid, .int 0, .short level, .int sid]
  match ← find uid with
  | none => update (·.send refused)
  | some user =>
    if 0 < user.tid then
      let serverId := (user.tid >>> 16).toInt16
      let found ← findServer answers serverId
      let serverLevel := (found.map (·.level)).getD (-1)
      let ip := (found.map (·.ip)).getD []
      let port := (found.map (·.port)).getD 0
      setValue { user with updateTime := answers.time 0 }
      update (·.send (netPacket GameCmd.sysGetUserTable
        [.int uid, .int svid, .int 1, .int user.tid, .short serverId, .string ip, .int port, .short serverLevel]))
    else update (·.send refused)

def processUserLogin (answers : Answers) (uid svid userId : Int32) (terminalType : Int16) : Handling Unit := do
  if userId ≤ 0 then pure ()
  else
    let found ← find userId
    let user ← aside fun server => some (server.enterHall answers uid svid userId terminalType found)
    update (·.deleteOfflineUser userId)
    let logic ← aside fun server => some (server.tableServer answers user.tid)
    let serverLevel := (logic.map (·.level)).getD (-1)
    setValue (if 0 < user.tid then { user with serverLevel := serverLevel } else user)
    let tid := if 0 < user.tid then user.tid else 0
    update (·.sendClientPacket uid svid (netPacket GameCmd.serverCmdLoginSuccess
      (.int (Int32.ofNat levelArr.length) :: levelArr.map .int ++
        [.int tid, .string ((logic.map (·.ip)).getD []), .int ((logic.map (·.port)).getD 0)])))

def processClientClose (answers : Answers) (uid : Int32) : Handling Unit := do
  match ← find uid with
  | none => pure ()
  | some user =>
    if 0 < user.tid then
      update (·.addOfflineUser uid (answers.time 0))
      setValue { user with hallServerId := -1, updateTime := answers.time 0 }
    else
      update (·.deleteOfflineUser uid)
      update (·.updateTerminalInfo .logoutHall user.terminalType)
      delete uid

def processReportUserLeaveRoom (answers : Answers) (uid : Int32) : Handling Unit := do
  match ← find uid with
  | none => pure ()
  | some user =>
    update (·.logoutTable (0 < user.tid) user)
    update (·.logoutLevel user)
    setValue { user with tid := 0, serverLevel := -1, updateTime := answers.time 0 }

def processReportUserEnterRoom (answers : Answers) (uid tid : Int32) : Handling Unit := do
  match ← find uid with
  | none => pure ()
  | some user =>
    let seated := { user with tid := tid, updateTime := answers.time 0 }
    update (·.loginTable user)
    match ← findServer answers (tid >>> 16).toInt16 with
    | none => setValue seated
    | some logic =>
      if logic.level ≠ user.serverLevel then
        update (·.logoutLevel user)
        update (·.updateLevelInfo .login logic.level)
        setValue { seated with serverLevel := logic.level }
      else setValue seated

def processReportUserStandRoom (answers : Answers) (uid tid : Int32) : Handling Unit := do
  match ← find uid with
  | none => pure ()
  | some user =>
    update (·.updateTerminalInfo .standTable user.terminalType)
    match ← findServer answers (tid >>> 16).toInt16 with
    | none => pure ()
    | some _ => update (·.updateLevelInfo .standIn user.serverLevel)

def processReportStandLeaveRoom (uid : Int32) : Handling Unit := do
  match ← find uid with
  | none => pure ()
  | some user =>
    update (·.updateTerminalInfo .standLeaveTable user.terminalType)
    if user.serverLevel ≠ -1 then update (·.updateLevelInfo .standOut user.serverLevel)

/-- Find a user and store what the change makes of it. -/
def change (alter : GameUser → GameUser) (uid : Int32) : Handling Unit := do
  match ← find uid with
  | none => pure ()
  | some user => setValue (alter user)

def setServerUserTid0 (serverId : Int16) : Handling Unit := do
  let users ← visit
  let tid0User ← aside fun server =>
    let visited := users.foldl (Server.tid0Visit serverId) (server, [])
    some (visited.2, visited.1)
  tid0User.forM (change fun user => { user with tid := 0, serverLevel := -1 })

def processLogicCore (serverId : Int16) : Handling Unit := do
  update fun server => { server with options := server.options.deleteLogicServer serverId }
  setServerUserTid0 serverId

def setUserOfflineHallCore (answers : Answers) (hid : Int32) : Handling Unit := do
  let users ← visit
  let (userHallCore, _) ← aside fun server =>
    let visited := users.foldl (Server.hallCoreVisit answers hid) (server, [], 0)
    some (visited.2, visited.1)
  userHallCore.forM (change fun user => { user with hallServerId := -1 })

def processGetUserHallId (uid : Int32) : Handling Unit := do
  match ← find uid with
  | none => update (·.send (netPacket GameCmd.getUserHallId [.int uid, .int (-1)]))
  | some user => update (·.send (netPacket GameCmd.getUserHallId [.int uid, .int user.hallServerId]))

/-- What happens to one user of the offline list. -/
def offlineStep (now : Int32) (entry : Int32 × Int32) : Handling Unit := do
  if now - entry.2 ≥ 5 * 60 then
    match ← find entry.1 with
    | none => pure ()
    | some user =>
      update (·.updateTerminalInfo .logoutHall user.terminalType)
      update (·.logoutTable (0 < user.tid) user)
      update (·.logoutLevel user)
      delete user.uid
    update (·.deleteOfflineUser entry.1)

def processOfflineCheck (answers : Answers) : Handling Unit := do
  let offline ← aside fun server => some (server.options.offlineUserMgr.toList, server)
  offline.forM (offlineStep (answers.time 0))

def processFlushCheck (answers : Answers) : Handling Unit := do
  let users ← visit
  let needDelUser ← aside fun server =>
    let visited := users.foldl (Server.flushVisit (answers.time 0)) (server, [])
    some (visited.2, visited.1)
  needDelUser.forM delete

def reportStartTJData : Handling Unit := do
  let users ← visit
  update fun server => { server with stat := users.foldl Server.startVisit server.stat }

/-- The handler of a request. -/
def serve (request : Request) (answers : Answers) : Handling Unit :=
  match request with
  | .getUserTable uid svid level sid => processGetUserTable answers uid svid level sid
  | .userLogin uid svid userId terminalType => processUserLogin answers uid svid userId terminalType
  | .getRoomLevelNum uid svid levelCount levels =>
    aside fun server => (server.processGetRoomLevelNum answers uid svid levelCount levels).map fun after => ((), after)
  | .clientClose uid => processClientClose answers uid
  | .userLeaveRoom uid => processReportUserLeaveRoom answers uid
  | .userEnterRoom uid tid => processReportUserEnterRoom answers uid tid
  | .userStandRoom uid tid => processReportUserStandRoom answers uid tid
  | .standLeaveRoom uid => processReportStandLeaveRoom uid
  | .logicCore serverId => processLogicCore serverId
  | .hallCore svid => setUserOfflineHallCore answers svid
  | .clearServerInfo => update fun server => { server with options := server.options.clearServerList }
  | .tjSwitch tjSwitch tjInteval =>
    update fun server => { server with options := server.options.setTjSwitch tjSwitch tjInteval }
  | .getUserHallId uid => processGetUserHallId uid
  | .setLevelCountRandom key => update (·.processSetLevelCountRandom answers key)
  | .ignored => pure ()

def step (event : Event) (answers : Answers) : Handling Unit :=
  match event with
  | .request request => serve request answers
  | .synData records => update (·.processSynData records)
  | .offlineCheck => processOfflineCheck answers
  | .flushCheck => processFlushCheck answers

/-- `InitSHM` of a process that has read these options. -/
def initSHM (os : Shm.SVShm.Answers) (unassigned : Int) (options : Options) : Handling Unit := fun _ =>
  .ask (.init os unassigned) fun reply =>
    if reply.ret ≠ 0 then .done none else reportStartTJData ⟨Stat.empty, options, 0, []⟩

end Handling

/-- An event in a process, or the start of the next one on the segment. -/
inductive Life where
  | serves (event : Event) (answers : Answers)
  | begins (os : Shm.SVShm.Answers) (unassigned : Int) (options : Options)

def Life.handle : Life → Handling Unit
  | serves event answers => Handling.step event answers
  | begins os unassigned options => Handling.initSHM os unassigned options

/-- The same on the table of users. -/
def Server.live (nodes : Nat) (server : Server) : Life → Option Server
  | .serves event answers => server.step event answers
  | .begins os unassigned options =>
    let (reply, gshm) := TableCall.answer nodes (.init os unassigned) server.gshm
    if reply.ret ≠ 0 then none else some (reportStartTJData ⟨gshm, Stat.empty, options, 0, []⟩)

end TeenpattiUserServer.UserServer
