import TeenpattiUserServer.UserServer.Request

/-! The tunnel between this server and the clients: a packet is hidden, put into an
outer one, taken out of a copy of it and laid open. -/

namespace TeenpattiUserServer.UserServer

open Bytes Packet

/-- `SendClientPacket`: the packet that is sent, and the inner one as it is left. -/
def sendClientPacket (uid svid : Int32) (packet : OutputPacket) : PacketBase × OutputPacket :=
  let hidden := packet.encryptBuffer.2
  let begun := fresh.start .network GameCmd.clientPacket 1 1
  let withUid := (begun.writeInt .network uid).2
  let withSvid := (withUid.writeInt .network svid).2
  let full := (withSvid.writeBinary .network hidden.base.bytes).2
  (full.finish .network, hidden)

/-- `ProcessSubPacket` up to its call of `ProcessClientPacket`: the ids and the packet inside. -/
def subPacket (packet : PacketBase) : Option (Int32 × Int32 × PacketBase) :=
  let cmd := packet.getCmdType .network
  let (uid, packet) := packet.readInt .network
  let (svid, packet) := packet.readInt .network
  let packet := if cmd = GameCmd.clientPacket2 then ((packet.readInt .network).2.readShort .network).2 else packet
  let ((len, block), _) := packet.readBinary .network 10240
  if len < 0 then none
  else if checkPacketComplete block len = false then none
  else
    match (PacketBase.mk (fun _ => 0) 0 0 []).copy block with
    | (false, _) => none
    | (true, inner) => some (uid, svid, inner)

/-- What `ProcessSubPacket` asks for is what the packet inside asks for. -/
theorem subRequest_eq (packet : PacketBase) : subRequest packet =
    (subPacket packet).elim .ignored fun found => clientRequest found.1 found.2.1 found.2.2 := by
  simp only [subRequest, subPacket]
  generalize (if packet.getCmdType .network = GameCmd.clientPacket2 then _ else _ : PacketBase) = behind
  generalize behind.readBinary .network 10240 = block
  by_cases absent : block.1.1 < 0
  · simp only [absent, if_true, Option.elim_none]
  · by_cases incomplete : checkPacketComplete block.1.2 block.1.1 = false
    · simp only [absent, incomplete, if_true, if_false, Option.elim_none]
    · rw [if_neg absent, if_neg absent, if_neg incomplete, if_neg incomplete]
      generalize PacketBase.copy _ block.1.2 = outcome
      obtain ⟨copied, inner⟩ := outcome
      cases copied with
      | false => simp only [Option.elim_none]
      | true => simp only [Option.elim_some]

/-- The packet that is sent reaches the handlers as the one that was built: the ids
and the command are the same, and so is the body. -/
structure Tunnelled (uid svid : Int32) (packet : OutputPacket) (receiver : PacketBase) : Prop where
  again : packet.encryptBuffer.2.encryptBuffer = (0, packet.encryptBuffer.2)
  copied : (receiver.copy (sendClientPacket uid svid packet).1.bytes).1 = true
  command : (receiver.copy (sendClientPacket uid svid packet).1.bytes).2.getCmdType .network = GameCmd.clientPacket
  received : ∃ hidden,
    subPacket (receiver.copy (sendClientPacket uid svid packet).1.bytes).2 = some (uid, svid, hidden) ∧
      Opens packet.base hidden

/-- A hidden packet is complete. -/
private theorem complete_sealed {packet hidden : PacketBase} (opened : Open packet)
    (hides : Sealed (packet.finish .network) hidden) :
    checkPacketComplete hidden.bytes packet.packetSize = true := by
  have header := opened.header
  have small := opened.small
  simp only [headerSize, bufferSize] at header small
  have built : Built .network (packet.finish .network).bytes := opened.built
  have size : (packet.finish .network).packetSize = packet.packetSize := by rw [finish_eq]
  have finished := (opened.finish .network).bytes_length
  have take : hidden.bytes.take 2 = (packet.finish .network).bytes.take 2 := by
    rw [PacketBase.bytes, PacketBase.bytes, hides.size, size, bufferSize, slice_take _ _ (by omega),
      slice_take _ _ (by omega)]
    exact slice_congr fun i _ high => hides.header i (by omega)
  have field := built.lengthField
  rw [checkPacketComplete, take, if_neg (by simp only [headerSize]; omega), if_neg (by omega)]
  simp only [decide_eq_true_eq]
  omega

/-- The ids are written first. -/
private theorem writeIds (uid svid : Int32) {begun : PacketBase} (started : Open begun) (empty : begun.packetSize = 9) :
    ((begun.writeInt .network uid).2.writeInt .network svid).2 =
        begun.appended (PacketBase.intBytes .network uid ++ PacketBase.intBytes .network svid) ∧
      Open (begun.appended (PacketBase.intBytes .network uid ++ PacketBase.intBytes .network svid)) ∧
      (begun.appended (PacketBase.intBytes .network uid ++ PacketBase.intBytes .network svid)).packetSize = 17 := by
  have withUid : Open (begun.appended (PacketBase.intBytes .network uid)) := started.appended (by simp; omega)
  have uidSize : (begun.appended (PacketBase.intBytes .network uid)).packetSize = 13 := by
    simp [PacketBase.appended, empty]
  refine ⟨?_, started.appended (by simp; omega), by simp [PacketBase.appended, empty]⟩
  rw [started.writeInt_snd, if_pos (by omega), withUid.writeInt_snd, if_pos (by omega), started.appended_append]

/-- What is written into the outer packet. -/
private theorem sendClientPacket_eq (uid svid : Int32) {packet : OutputPacket}
    (fits : packet.encryptBuffer.2.base.bytes.length ≤ 8171) :
    (sendClientPacket uid svid packet).1 = ((fresh.start .network GameCmd.clientPacket 1 1).appended
      (PacketBase.intBytes .network uid ++ (PacketBase.intBytes .network svid ++
        (PacketBase.intBytes .network (Int32.ofInt packet.encryptBuffer.2.base.bytes.length) ++
          packet.encryptBuffer.2.base.bytes)))).finish .network := by
  have started := Open.start .network GameCmd.clientPacket 1 1 fresh
  obtain ⟨ids, withIds, size⟩ := writeIds uid svid started rfl
  simp only [sendClientPacket]
  generalize fresh.start .network GameCmd.clientPacket 1 1 = begun at *
  rw [ids, withIds.writeBinary_eq (by omega), started.appended_append, List.append_assoc]

/-- A block that is too large is left out, and its length is not. -/
private theorem sendClientPacket_large (uid svid : Int32) {packet : OutputPacket}
    (large : 8171 < packet.encryptBuffer.2.base.bytes.length) (small : packet.encryptBuffer.2.base.bytes.length ≤ 8192) :
    (sendClientPacket uid svid packet).1 = ((fresh.start .network GameCmd.clientPacket 1 1).appended
      (PacketBase.intBytes .network uid ++ (PacketBase.intBytes .network svid ++
        PacketBase.intBytes .network (Int32.ofInt packet.encryptBuffer.2.base.bytes.length)))).finish .network := by
  have started := Open.start .network GameCmd.clientPacket 1 1 fresh
  obtain ⟨ids, withIds, size⟩ := writeIds uid svid started rfl
  simp only [sendClientPacket]
  generalize fresh.start .network GameCmd.clientPacket 1 1 = begun at *
  rw [ids, withIds.writeBinary_large (by omega) (by omega) (by omega), started.appended_append, List.append_assoc]

/-- What is read from a packet with the ids and a complete block in it. -/
private theorem subPacket_ahead {uid svid : Int32} {packet : PacketBase} {block : List UInt8}
    (command : packet.getCmdType .network = GameCmd.clientPacket)
    (ahead : Ahead packet (PacketBase.intBytes .network uid ++ (PacketBase.intBytes .network svid ++
      (PacketBase.intBytes .network (Int32.ofInt block.length) ++ block))))
    (complete : checkPacketComplete block block.length = true)
    (copied : ((PacketBase.mk (fun _ => 0) 0 0 []).copy block).1 = true) :
    subPacket packet = some (uid, svid, ((PacketBase.mk (fun _ => 0) 0 0 []).copy block).2) := by
  obtain ⟨withSvid, uidRead, _, ahead⟩ := ahead.readInt
  obtain ⟨withBlock, svidRead, _, ahead⟩ := ahead.readInt
  rw [← List.append_nil (_ ++ block)] at ahead
  have small := ahead.packet_size
  simp only [List.length_append] at small
  have room : (block.length : Int) ≤ 10240 := by omega
  obtain ⟨last, blockRead, _, _⟩ := ahead.readBinary room
  have other : ¬ (GameCmd.clientPacket = GameCmd.clientPacket2) := by decide
  simp only [subPacket, command, uidRead, svidRead, other, if_false, blockRead, complete]
  generalize (PacketBase.mk (fun _ => 0) 0 0 []).copy block = outcome at copied ⊢
  obtain ⟨done, inner⟩ := outcome
  rw [if_neg (by omega), if_neg (by simp)]
  cases copied
  rfl

/-- A finished packet of up to 8171 bytes comes through. -/
theorem Tunnelled.of_open {last : PacketBase} (opened : Open last) (fits : last.packetSize ≤ 8171) (uid svid : Int32)
    (receiver : PacketBase) : Tunnelled uid svid ⟨last.finish .network, false⟩ receiver := by
  have hides := opened.sealed
  have header := opened.header
  simp only [headerSize] at header
  have size : (last.finish .network).packetSize = last.packetSize := by rw [finish_eq]
  have complete := complete_sealed opened hides
  have length : ((OutputPacket.encryptBuffer ⟨last.finish .network, false⟩).2.base.bytes.length : Int) =
      last.packetSize := by
    rw [PacketBase.bytes, slice_length, hides.size, size, bufferSize]
    omega
  rw [← length] at complete
  have sent : (sendClientPacket uid svid ⟨last.finish .network, false⟩).1 = _ := sendClientPacket_eq uid svid (by omega)
  obtain ⟨inside, found⟩ := hides.copied (by omega) (by omega) (PacketBase.mk (fun _ => 0) 0 0 [])
  have started := Open.start .network GameCmd.clientPacket 1 1 fresh
  have named := start_command .network GameCmd.clientPacket 1 1 fresh
  have empty : (fresh.start .network GameCmd.clientPacket 1 1).packetSize = 9 := rfl
  generalize fresh.start .network GameCmd.clientPacket 1 1 = begun at started named empty sent
  generalize (OutputPacket.encryptBuffer ⟨last.finish .network, false⟩).2.base.bytes = block at *
  generalize dataIs : PacketBase.intBytes .network uid ++ (PacketBase.intBytes .network svid ++
    (PacketBase.intBytes .network (Int32.ofInt block.length) ++ block)) = data at sent
  have room : 9 + data.length ≤ 8192 := by
    simp only [← dataIs, List.length_append, PacketBase.intBytes_length]
    omega
  have filled : Open (begun.appended data) := started.appended (by omega)
  have ahead := Ahead.copied .network started empty room receiver
  have commanded := copied_command filled ((appended_command started data).trans named) receiver
  have taken := (copy_finish .network filled receiver).1
  refine ⟨encryptBuffer_again _, ?_, ?_, ((PacketBase.mk (fun _ => 0) 0 0 []).copy block).2, ?_, found.opens opened⟩
  · rw [sent]
    exact taken
  · rw [sent]
    exact commanded
  · rw [← dataIs] at ahead commanded
    rw [sent, ← dataIs]
    exact subPacket_ahead commanded ahead complete inside

/-- What was received holds, for this client, a hidden packet with this command and
exactly this body. -/
structure Delivered (uid svid : Int32) (command : Int16) (data : List UInt8) (received hidden : PacketBase) : Prop where
  outer : received.getCmdType .network = GameCmd.clientPacket
  inside : subPacket received = some (uid, svid, hidden)
  opens : 0 ≤ hidden.crevasseBuffer.1
  named : hidden.crevasseBuffer.2.getCmdType .network = command
  size : hidden.crevasseBuffer.2.packetSize = 9 + data.length
  ahead : Ahead hidden.crevasseBuffer.2 data

/-- The packet inside is a copy, which is read from its start. -/
private theorem subPacket_cursor {uid svid : Int32} {packet hidden : PacketBase}
    (found : subPacket packet = some (uid, svid, hidden)) : hidden.crevasseBuffer.2.bufPos = 9 := by
  have opened : hidden.crevasseBuffer.2.bufPos = hidden.bufPos := by
    simp only [PacketBase.crevasseBuffer]
    split <;> rfl
  rw [opened]
  simp only [subPacket] at found
  generalize (if packet.getCmdType .network = GameCmd.clientPacket2 then _ else _ : PacketBase) = behind at found
  generalize behind.readBinary .network 10240 = block at found
  by_cases absent : block.1.1 < 0
  · rw [if_pos absent] at found
    cases found
  · by_cases incomplete : checkPacketComplete block.1.2 block.1.1 = false
    · rw [if_neg absent, if_pos incomplete] at found
      cases found
    · rw [if_neg absent, if_neg incomplete, PacketBase.copy] at found
      by_cases large : bufferSize < block.1.2.length
      · rw [if_pos large] at found
        cases found
      · rw [if_neg large] at found
        obtain ⟨-, -, rfl⟩ := by simpa using found
        rfl

/-- A body of up to 8162 bytes is delivered. -/
theorem tunnel_delivers (uid svid : Int32) (command : Int16) {data : List UInt8} (fits : data.length ≤ 8162)
    (receiver : PacketBase) : ∃ hidden, Delivered uid svid command data
      (receiver.copy (sendClientPacket uid svid
        ⟨((fresh.start .network command 1 1).appended data).finish .network, false⟩).1.bytes).2 hidden := by
  have started := Open.start .network command 1 1 fresh
  have named := start_command .network command 1 1 fresh
  have empty : (fresh.start .network command 1 1).packetSize = 9 := rfl
  generalize fresh.start .network command 1 1 = begun at *
  have filled : Open (begun.appended data) := started.appended (by omega)
  have size : ((begun.appended data).finish .network).packetSize = 9 + data.length := by
    rw [finish_eq, PacketBase.appended, empty]
  have fitting : (begun.appended data).packetSize ≤ 8171 := by
    rw [PacketBase.appended, empty]
    simp only
    omega
  have comes := Tunnelled.of_open filled fitting uid svid receiver
  obtain ⟨hidden, inside, opens⟩ := comes.received
  have cursor := subPacket_cursor inside
  have body : slice ((begun.appended data).finish .network).strBuf 9 data.length = data := by
    refine Eq.trans (slice_congr fun i low high => ?_) (slice_store begun.strBuf 9 data)
    have start : begun.packetSize.toNat = 9 := by omega
    rw [finish_eq, PacketBase.appended, start]
    exact (store_after (by simp; omega)).trans (store_after (by simp; omega))
  have long : (((begun.appended data).finish .network).packetSize - 9).toNat = data.length := by omega
  have shown := opens.body
  rw [long, body] at shown
  refine ⟨hidden, comes.command, inside, ?_, ?_, opens.size.trans size, ?_⟩
  · rw [opens.ret, size]
    omega
  · rw [opens.command, PacketBase.getCmdType, PacketBase.readHeader]
    have field : slice ((begun.appended data).finish .network).strBuf 6 2 = slice begun.strBuf 6 2 := by
      rw [← appended_command started data]
      exact slice_congr fun i low high => Open.finish_strBuf .network _ (by omega) (by omega)
    rw [field, named, PacketBase.toShort_shortBytes]
  · refine ⟨by omega, ?_, ?_, ?_⟩
    · rw [opens.size, size, cursor]
    · rw [opens.size, size, bufferSize]
      omega
    · rw [cursor]
      exact shown

/-- A larger one is lost: only its length is in the packet that is sent. -/
theorem tunnel_drops (uid svid : Int32) {last : PacketBase} (opened : Open last) (large : 8171 < last.packetSize)
    (receiver : PacketBase) :
    subPacket (receiver.copy (sendClientPacket uid svid ⟨last.finish .network, false⟩).1.bytes).2 = none := by
  have small := opened.small
  have size : (last.finish .network).packetSize = last.packetSize := by rw [finish_eq]
  have length : ((OutputPacket.encryptBuffer ⟨last.finish .network, false⟩).2.base.bytes.length : Int) =
      last.packetSize := by
    rw [PacketBase.bytes, slice_length, opened.sealed.size, size, Int.min_eq_left small]
    omega
  simp only [bufferSize] at small
  have sent : (sendClientPacket uid svid ⟨last.finish .network, false⟩).1 = _ :=
    sendClientPacket_large uid svid (by omega) (by omega)
  have started := Open.start .network GameCmd.clientPacket 1 1 fresh
  have named := start_command .network GameCmd.clientPacket 1 1 fresh
  have empty : (fresh.start .network GameCmd.clientPacket 1 1).packetSize = 9 := rfl
  rw [sent]
  generalize (OutputPacket.encryptBuffer ⟨last.finish .network, false⟩).2.base.bytes = block at *
  generalize fresh.start .network GameCmd.clientPacket 1 1 = begun at *
  generalize dataIs : PacketBase.intBytes .network uid ++ (PacketBase.intBytes .network svid ++
    PacketBase.intBytes .network (Int32.ofInt block.length)) = data
  have room : data.length = 12 := by simp [← dataIs]
  have filled : Open (begun.appended data) := started.appended (by omega)
  have ahead : Ahead _ data := Ahead.copied .network started empty (by omega) receiver
  have commanded := copied_command filled ((appended_command started data).trans named) receiver
  obtain ⟨_, cursor, size, _⟩ := copy_finish .network filled receiver
  generalize (receiver.copy ((begun.appended data).finish .network).bytes).2 = received at *
  rw [PacketBase.appended, empty, room] at size
  rw [headerSize] at cursor
  rw [← dataIs] at ahead
  obtain ⟨withSvid, uidRead, movedUid, ahead⟩ := ahead.readInt
  obtain ⟨withBlock, svidRead, movedSvid, ahead⟩ := ahead.readInt
  rw [← List.append_nil (PacketBase.intBytes .network (Int32.ofInt block.length))] at ahead
  have moved := movedUid.trans movedSvid
  have position := moved.bufPos
  have kept := moved.packetSize
  have lost : (withBlock.readBinary .network 10240).1 = (0, []) :=
    ahead.readBinary_short (by omega) (by omega) (by simp only at size; omega)
  have other : ¬ (GameCmd.clientPacket = GameCmd.clientPacket2) := by decide
  have incomplete : checkPacketComplete [] 0 = false := by decide
  simp only [subPacket, commanded, uidRead, svidRead, other, if_false, lost, incomplete]
  rfl

/-- A packet of up to 8171 bytes comes through the tunnel. -/
theorem tunnel_round_trips (uid svid : Int32) (command : Int16) (version subVersion : UInt8) {writes : List Write}
    (defined : ∀ op ∈ writes, op.Defined) (packet receiver : PacketBase)
    (fits : (OutputPacket.build command version subVersion writes packet).base.packetSize ≤ 8171) :
    Tunnelled uid svid (OutputPacket.build command version subVersion writes packet) receiver := by
  have opened : Open (writes.foldl (fun current op => (op.run .network current).2)
      (packet.start .network command version subVersion)) :=
    (Open.start .network command version subVersion packet).writes writes defined
  simp only [OutputPacket.build, Packet.build] at fits ⊢
  rw [finish_eq] at fits
  exact .of_open opened fits uid svid receiver

/-- A login answer of one number, sent to user 7 of hall 1. -/
theorem tunnel_round_trips_login :
    Tunnelled 7 1 (OutputPacket.build GameCmd.serverCmdLoginSuccess 1 1 [.int 5] fresh) fresh :=
  tunnel_round_trips 7 1 GameCmd.serverCmdLoginSuccess 1 1 (by simp [Write.Defined]) fresh fresh (by decide)

end TeenpattiUserServer.UserServer
