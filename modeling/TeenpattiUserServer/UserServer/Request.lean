import TeenpattiUserServer.UserServer.Options

/-! What a packet asks of the server: its command, the fields the handler of that
command reads, and for a tunnelled packet the command inside it. -/

namespace TeenpattiUserServer.UserServer

open Bytes Packet

namespace GameCmd

def clientPacket : Int16 := 0x0001
def clientClosePacket : Int16 := 0x0002
def serverClosePacket : Int16 := 0x0003
def clientPacket2 : Int16 := 0x0004
def sysGetUserTable : Int16 := 0x0020
def getUserHallId : Int16 := 0x00a1
def clientCmdUserLogin : Int16 := 0x0101
def serverCmdLoginSuccess : Int16 := 0x0201
def serverCmdKickOut : Int16 := 0x0203
def cmdGetRoomLevelNum : Int16 := 0x0311
def sysUserEnterRoom : Int16 := 0x0505
def sysUserLeaveRoom : Int16 := 0x0506
def sysHallCore : Int16 := 0x0507
def sysLogicCore : Int16 := 0x0508
def sysUserStandRoom : Int16 := 0x050A
def sysStandLeaveRoom : Int16 := 0x050B
def sysSynData : Int16 := 0x050D
def sysSetTjSwitch : Int16 := 0x0511
def sysSetLevelCountRandom : Int16 := 0x0513
def cmdClearServerInfo : Int16 := 0x0905

end GameCmd

/-- The fields are as the handlers read them: `-1` where the packet ends early.
`ignored` stands for packets that are dropped, and for the alloc's registration. -/
inductive Request where
  | getUserTable (uid svid : Int32) (level : Int16) (sid : Int32)
  | userLogin (uid svid userId : Int32) (terminalType : Int16)
  | getRoomLevelNum (uid svid : Int32) (levelCount : Int16) (levels : List Int16)
  | clientClose (uid : Int32)
  | userLeaveRoom (uid : Int32)
  | userEnterRoom (uid tid : Int32)
  | userStandRoom (uid tid : Int32)
  | standLeaveRoom (uid : Int32)
  | logicCore (serverId : Int16)
  | hallCore (svid : Int32)
  | clearServerInfo
  | tjSwitch (tjSwitch tjInteval : Int32)
  | getUserHallId (uid : Int32)
  | setLevelCountRandom (key : List UInt8)
  | ignored

/-- A wrong flag is logged only. -/
def checkPacketComplete (data : List UInt8) (len : Int) : Bool :=
  if len < headerSize then false
  else
    let pkgLen : Int := 2 + decode .network (data.take 2)
    if pkgLen < 0 ∨ 8 * 1024 < pkgLen then false else len = pkgLen

/-- `ReadShort`, so many times. -/
def readShorts : Nat → PacketBase → List Int16
  | 0, _ => []
  | count + 1, packet =>
    let (value, packet) := packet.readShort .network
    value :: readShorts count packet

/-- `ProcessClientPacket` -/
def clientRequest (uid svid : Int32) (packet : PacketBase) : Request :=
  let (ret, packet) := packet.crevasseBuffer
  if ret < 0 then .ignored
  else
    let cmd := packet.getCmdType .network
    if cmd = GameCmd.clientCmdUserLogin then
      let (userId, packet) := packet.readInt .network
      let (terminalType, _) := packet.readShort .network
      .userLogin uid svid userId terminalType
    else if cmd = GameCmd.cmdGetRoomLevelNum then
      let (levelCount, packet) := packet.readShort .network
      .getRoomLevelNum uid svid levelCount (readShorts levelCount.toInt.toNat packet)
    else .ignored

/-- `ProcessSubPacket`, with a buffer of 10240 bytes for the packet inside. -/
def subRequest (packet : PacketBase) : Request :=
  let cmd := packet.getCmdType .network
  let (uid, packet) := packet.readInt .network
  let (svid, packet) := packet.readInt .network
  let packet := if cmd = GameCmd.clientPacket2 then ((packet.readInt .network).2.readShort .network).2 else packet
  let ((len, block), _) := packet.readBinary .network 10240
  if len < 0 then .ignored
  else if checkPacketComplete block len = false then .ignored
  else
    match (PacketBase.mk (fun _ => 0) 0 0 []).copy block with
    | (false, _) => .ignored
    | (true, inner) => clientRequest uid svid inner

/-- `ProcessPacket` -/
def request (packet : PacketBase) : Request :=
  let cmd := packet.getCmdType .network
  if cmd = GameCmd.sysGetUserTable then
    let (uid, packet) := packet.readInt .network
    let (svid, packet) := packet.readInt .network
    let (level, packet) := packet.readShort .network
    let (sid, _) := packet.readInt .network
    .getUserTable uid svid level sid
  else if cmd = GameCmd.clientPacket2 ∨ cmd = GameCmd.clientPacket then subRequest packet
  else if cmd = GameCmd.clientClosePacket then .clientClose (packet.readInt .network).1
  else if cmd = GameCmd.sysUserLeaveRoom then .userLeaveRoom (packet.readInt .network).1
  else if cmd = GameCmd.sysUserEnterRoom then
    let (uid, packet) := packet.readInt .network
    let (tid, _) := packet.readInt .network
    .userEnterRoom uid tid
  else if cmd = GameCmd.sysUserStandRoom then
    let (uid, packet) := packet.readInt .network
    let (tid, _) := packet.readInt .network
    .userStandRoom uid tid
  else if cmd = GameCmd.sysStandLeaveRoom then .standLeaveRoom (packet.readInt .network).1
  else if cmd = GameCmd.sysLogicCore then .logicCore (packet.readShort .network).1
  else if cmd = GameCmd.sysHallCore then .hallCore (packet.readInt .network).1
  else if cmd = GameCmd.cmdClearServerInfo then .clearServerInfo
  else if cmd = GameCmd.sysSetTjSwitch then
    let (tjSwitch, packet) := packet.readInt .network
    let (tjInteval, _) := packet.readInt .network
    .tjSwitch tjSwitch tjInteval
  else if cmd = GameCmd.getUserHallId then .getUserHallId (packet.readInt .network).1
  else if cmd = GameCmd.sysSetLevelCountRandom then .setLevelCountRandom (packet.readStdString .network).1
  else .ignored

/-- The records a `SYS_SYN_DATA` packet of the statistics server sets; this link
writes integers as they lie in memory. -/
def synDataRecords : Nat → PacketBase → List (Int16 × Int32 × Int32)
  | 0, _ => []
  | count + 1, packet =>
    let (level, packet) := packet.readShort .host
    let (playCount, packet) := packet.readInt .host
    let (lookCount, packet) := packet.readInt .host
    (level, playCount, lookCount) :: synDataRecords count packet

/-- `CBackServer::ProcessPacket` -/
def synData (packet : PacketBase) : List (Int16 × Int32 × Int32) :=
  if packet.getCmdType .host = GameCmd.sysSynData then
    let (size, packet) := packet.readInt .host
    synDataRecords size.toInt.toNat packet
  else []

end TeenpattiUserServer.UserServer
