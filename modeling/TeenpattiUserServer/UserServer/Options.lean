import TeenpattiUserServer.Packet.Cipher
import TeenpattiUserServer.UserServer.GameUser
import TeenpattiUserServer.UserServer.Stat

/-! The state of the process: the user table, the statistics and `Options`, with
its server list, its list of offline users and what it asks of memcached. The
answers of the clock, of memcached and of `rand` are inputs. -/

namespace TeenpattiUserServer.UserServer

open Std Bytes Packet

/-- The answers one step gets from outside: the clock and `rand` call by call, the
memcached values by key, and the values in the configuration file. -/
structure Answers where
  time : Nat → Int32
  rand : Nat → Int32
  serverRecord : Int16 → List UInt8
  onlineRecord : Int32 → List UInt8
  randomConfig : Option (Int32 × Int32)

/-- `TIME_INTEVAL` -/
def timeInteval : Int32 := 301

/-- `CLogicServer` -/
structure LogicServer where
  serverId : Int16
  level : Int16
  ip : List UInt8
  port : Int32

structure Options where
  serverList : TreeMap Int32 LogicServer
  offlineUserMgr : TreeMap Int32 Int32
  levelTotalMgr : TreeMap Int16 LevelInfo
  startTime : Int32
  tjSwitch : Int32
  tjInteval : Int32
  roundLimit : Int32
  addCount : Int32

/-- The values the constructor and `read_conf` leave when the configuration is silent. -/
def Options.initial (startTime : Int32) : Options where
  serverList := ∅
  offlineUserMgr := ∅
  levelTotalMgr := ∅
  startTime := startTime
  tjSwitch := 0
  tjInteval := 60
  roundLimit := 100
  addCount := 0

/-- `strtok_r` with a comma: the pieces that are not empty, up to the first zero byte. -/
def splitStr (value : List UInt8) : List (List UInt8) :=
  ((value.takeWhile (· ≠ 0)).splitOn 44).filter (· ≠ [])

/-- White space, a sign and digits. The value is clamped to a `long` and cut to an `int`. -/
def atoi (text : List UInt8) : Int32 :=
  let trimmed := text.dropWhile fun byte => (9 ≤ byte && byte ≤ 13) || byte == 32
  let (negative, digits) : Bool × List UInt8 :=
    match trimmed with
    | 45 :: rest => (true, rest)
    | 43 :: rest => (false, rest)
    | _ => (false, trimmed)
  let magnitude : Int := (digits.takeWhile fun byte => 48 ≤ byte && byte ≤ 57).foldl
    (fun value digit => 10 * value + (digit.toNat - 48)) 0
  let value := if negative then -magnitude else magnitude
  Int32.ofInt (max (-2 ^ 63) (min (2 ^ 63 - 1) value))

/-- The record under a server's id: level, address and port. -/
def getServerInfoFromMc (answers : Answers) (serverId : Int16) : Option (Int16 × List UInt8 × Int32) :=
  match splitStr (answers.serverRecord serverId) with
  | [level, ip, port] => some ((atoi level).toInt16, ip, atoi port)
  | _ => none

/-- The record under a user's id; its first part is the table id. -/
def getUserInfoFromMc (answers : Answers) (uid : Int32) : Option Int32 :=
  match splitStr (answers.onlineRecord uid) with
  | [tid, _, _] => some (atoi tid)
  | _ => none

namespace Options

def getServer (options : Options) (serverId : Int16) : Option LogicServer :=
  options.serverList[serverId.toInt32]?

def addLogicServer (options : Options) (server : LogicServer) : Options :=
  { options with serverList := options.serverList.insert server.serverId.toInt32 server }

def deleteLogicServer (options : Options) (serverId : Int16) : Options :=
  { options with serverList := options.serverList.erase serverId.toInt32 }

def clearServerList (options : Options) : Options := { options with serverList := ∅ }

/-- The server in the list, or else the one memcached knows, which is added. -/
def findServer (answers : Answers) (serverId : Int16) (options : Options) : Option LogicServer × Options :=
  match options.getServer serverId with
  | some server => (some server, options)
  | none =>
    match getServerInfoFromMc answers serverId with
    | some (level, ip, port) =>
      let server : LogicServer := ⟨serverId, level, ip, port⟩
      (some server, options.addLogicServer server)
    | none => (none, options)

def addOfflineUser (options : Options) (uid time : Int32) : Options :=
  { options with offlineUserMgr := options.offlineUserMgr.insert uid time }

def deleteOfflineUser (options : Options) (uid : Int32) : Options :=
  { options with offlineUserMgr := options.offlineUserMgr.erase uid }

def setLevelCount (options : Options) (level : Int16) (playCount lookCount : Int32) : Options :=
  { options with levelTotalMgr := options.levelTotalMgr.insert level ⟨playCount.toInt, lookCount.toInt⟩ }

def getLevelCount (options : Options) (level : Int16) : Int := (options.levelTotalMgr.getD level {}).playCount

def setTjSwitch (options : Options) (tjSwitch tjInteval : Int32) : Options :=
  { options with tjSwitch := tjSwitch, tjInteval := tjInteval }

end Options

/-- `sent` holds the packets handed to the connections, oldest first. -/
structure Server where
  gshm : GameUserSHM
  stat : Stat
  options : Options
  randCount : Int32
  sent : List (List UInt8)

namespace Server

/-- A process that finds an empty table with so many nodes. -/
def initial (nodes : Nat) (startTime : Int32) : Server := ⟨⟨∅, nodes⟩, Stat.empty, Options.initial startTime, 0, []⟩

def updateTerminalInfo (server : Server) (type : TerminalUpdate) (terminalType : Int16) : Server :=
  { server with stat := server.stat.updateTerminalInfo type terminalType }

def updateLevelInfo (server : Server) (type : LevelUpdate) (level : Int16) : Server :=
  { server with stat := server.stat.updateLevelInfo type level }

def setValue (server : Server) (user : GameUser) : Server :=
  { server with gshm := (server.gshm.setValue user).2 }

def delete (server : Server) (uid : Int32) : Server := { server with gshm := (server.gshm.delete uid).2 }

/-- `gshm.Find` -/
def find (server : Server) (uid : Int32) : Option GameUser × Server :=
  ((server.gshm.find uid).1, { server with gshm := (server.gshm.find uid).2 })

def addOfflineUser (server : Server) (uid time : Int32) : Server :=
  { server with options := server.options.addOfflineUser uid time }

def deleteOfflineUser (server : Server) (uid : Int32) : Server :=
  { server with options := server.options.deleteOfflineUser uid }

/-- The table of a user who sits at one is left. -/
def logoutTable (seated : Bool) (user : GameUser) (server : Server) : Server :=
  if seated then server.updateTerminalInfo .logoutTable user.terminalType else server

/-- A user without a table sits down. -/
def loginTable (user : GameUser) (server : Server) : Server :=
  if user.tid = 0 then server.updateTerminalInfo .loginTable user.terminalType else server

/-- The level of a user who has one is left. -/
def logoutLevel (user : GameUser) (server : Server) : Server :=
  if user.serverLevel ≠ -1 then server.updateLevelInfo .logout user.serverLevel else server

/-- What happens to one user of the offline list. -/
def offlineStep (now : Int32) (server : Server) (entry : Int32 × Int32) : Server :=
  if now - entry.2 ≥ 5 * 60 then
    let (found, server) := server.find entry.1
    let server :=
      match found with
      | none => server
      | some user =>
        let server := server.updateTerminalInfo .logoutHall user.terminalType
        ((server.logoutTable (0 < user.tid) user).logoutLevel user).delete user.uid
    server.deleteOfflineUser entry.1
  else server

def processOfflineCheck (answers : Answers) (server : Server) : Server :=
  server.options.offlineUserMgr.toList.foldl (offlineStep (answers.time 0)) server

/-- Whether the flush takes a user out: without a table after one hour, else after two. -/
def idle (now : Int32) (user : GameUser) : Bool :=
  if user.tid = 0 then now - user.updateTime ≥ 1 * 60 * 60 else now - user.updateTime ≥ 2 * 60 * 60

/-- The visit of one user by the flush; the uids to delete are collected. -/
def flushVisit (now : Int32) (state : Server × List Int32) (user : GameUser) : Server × List Int32 :=
  if idle now user then
    let server := state.1.updateTerminalInfo .logoutHall user.terminalType
    (((server.logoutTable (user.tid ≠ 0) user).logoutLevel user).deleteOfflineUser user.uid, state.2 ++ [user.uid])
  else state

def processFlushCheck (answers : Answers) (server : Server) : Server :=
  let (visited, needDelUser) := server.gshm.visit.foldl (flushVisit (answers.time 0)) (server, [])
  needDelUser.foldl delete visited

end Server

end TeenpattiUserServer.UserServer
