import TeenpattiUserServer.Packet.Overflow
import TeenpattiUserServer.UserServer.Run
import TeenpattiUserServer.UserServer.Tunnel

/-! The numbers of users at the levels a client asks for. Each is written as a
`short`, and the answer has to fit into a packet that goes inside another one. -/

namespace TeenpattiUserServer.UserServer

open Std Bytes Packet

/-- The levels asked for, each with the number to tell, as an integer. -/
def levelTotals (answers : Answers) (options : Options) : Nat → List Int16 → List (Int16 × Int)
  | _, [] => []
  | call, level :: levels =>
    (level, options.getLevelCount level + (answers.rand call % options.roundLimit).toInt + options.addCount.toInt) ::
      levelTotals answers options (call + 1) levels

/-- What a client reads behind the number of levels. -/
def readLevelNums : Nat → PacketBase → List (Int16 × Int16)
  | 0, _ => []
  | count + 1, packet =>
    let (level, packet) := packet.readShort .network
    let (userCount, packet) := packet.readShort .network
    (level, userCount) :: readLevelNums count packet

/-- Inside what was received there is, for this client, the answer with the number of
levels and each level with its number, and nothing else. -/
structure Tells (uid svid : Int32) (totals : List (Int16 × Int)) (received hidden : PacketBase) : Prop where
  outer : received.getCmdType .network = GameCmd.clientPacket
  inside : subPacket received = some (uid, svid, hidden)
  opens : 0 ≤ hidden.crevasseBuffer.1
  named : hidden.crevasseBuffer.2.getCmdType .network = GameCmd.cmdGetRoomLevelNum
  levelCount : (hidden.crevasseBuffer.2.readShort .network).1.toInt = totals.length
  levels : (readLevelNums totals.length (hidden.crevasseBuffer.2.readShort .network).2).map
    (fun told => (told.1, told.2.toInt)) = totals
  whole : hidden.crevasseBuffer.2.packetSize = 11 + 4 * totals.length

/-- The numbers written behind the number of levels. -/
def totalFields (totals : List (Int16 × Int)) : List Field :=
  totals.flatMap fun total => [.short total.1, .short (Int16.ofInt total.2)]

private theorem blank_start (command : Int16) :
    blank.start .network command 1 1 = fresh.start .network command 1 1 := rfl

/-- The numbers that a packet from `Begin` to `End` keeps. -/
private theorem netPacket_numbers (command : Int16) {fields : List Field} (numbers : ∀ field ∈ fields, field.IsNumber) :
    netPacket command (fields.map Field.write) = ((fresh.start .network command 1 1).appended
      ((kept 9 fields).flatMap (Field.bytes .network))).finish .network := by
  have started := Open.start .network command 1 1 fresh
  have written := @writes_kept .network _ _ started numbers
  have size : (fresh.start .network command 1 1).packetSize.toNat = 9 := rfl
  rw [netPacket, Packet.build, List.foldl_map, blank_start, written, size]

private theorem totalFields_size (totals : List (Int16 × Int)) :
    ((totalFields totals).map Field.size).sum = 4 * totals.length ∧ ∀ field ∈ totalFields totals, field.IsNumber := by
  induction totals with
  | nil => simp [totalFields]
  | cons total totals ih =>
    obtain ⟨size, numbers⟩ := ih
    simp only [totalFields, List.flatMap_cons, List.cons_append, List.nil_append] at size numbers ⊢
    constructor
    · simp only [List.map_cons, List.sum_cons, size, Field.size, List.length_cons]
      omega
    · simpa [Field.IsNumber] using numbers

/-- A client reads what was written. -/
private theorem readLevelNums_ahead {packet : PacketBase} (totals : List (Int16 × Int))
    (ahead : Ahead packet ((totalFields totals).flatMap (Field.bytes .network))) :
    readLevelNums totals.length packet = totals.map fun total => (total.1, Int16.ofInt total.2) := by
  induction totals generalizing packet with
  | nil => rfl
  | cons total totals ih =>
    have bytes : (totalFields (total :: totals)).flatMap (Field.bytes .network) =
        PacketBase.shortBytes .network total.1 ++ (PacketBase.shortBytes .network (Int16.ofInt total.2) ++
          (totalFields totals).flatMap (Field.bytes .network)) := by
      simp [totalFields, Field.bytes, Field.count, Field.content]
    rw [bytes] at ahead
    obtain ⟨middle, level, _, ahead⟩ := ahead.readShort
    obtain ⟨after, count, _, ahead⟩ := ahead.readShort
    simp only [readLevelNums, level, count, List.length_cons, List.map_cons]
    rw [ih ahead]

private theorem toInt_ofInt_iff (total : Int) :
    (Int16.ofInt total).toInt = total ↔ -32768 ≤ total ∧ total ≤ 32767 := by
  rw [Int16.toInt_ofInt, Int.bmod]
  simp only [Int16.size]
  omega

private theorem map_toInt_iff (totals : List (Int16 × Int)) :
    (totals.map fun total => (total.1, Int16.ofInt total.2)).map (fun told => (told.1, told.2.toInt)) = totals ↔
      ∀ total ∈ totals, -32768 ≤ total.2 ∧ total.2 ≤ 32767 := by
  induction totals with
  | nil => simp
  | cons total totals ih =>
    simp only [List.map_cons, List.cons.injEq, List.forall_mem_cons, ih, ← toInt_ofInt_iff, Prod.ext_iff, true_and]

/-- The answer for these levels. -/
private def reply (uid svid : Int32) (levelCount : Int16) (totals : List (Int16 × Int)) : List UInt8 :=
  (sendClientPacket uid svid ⟨netPacket GameCmd.cmdGetRoomLevelNum
    ((.short levelCount :: totalFields totals : List Field).map Field.write), false⟩).1.bytes

section Reply

variable {levelCount : Int16} {totals : List (Int16 × Int)}

private theorem replyFields_size (levelCount : Int16) (totals : List (Int16 × Int)) :
    ((.short levelCount :: totalFields totals : List Field).map Field.size).sum = 2 + 4 * totals.length ∧
      ∀ field ∈ (.short levelCount :: totalFields totals : List Field), field.IsNumber := by
  obtain ⟨size, numbers⟩ := totalFields_size totals
  refine ⟨?_, List.forall_mem_cons.mpr ⟨trivial, numbers⟩⟩
  rw [List.map_cons, List.sum_cons, size]
  rfl

/-- Up to 2040 levels come through. -/
private theorem reply_delivered (uid svid : Int32) (fits : totals.length ≤ 2040) (receiver : PacketBase) :
    ∃ hidden, Delivered uid svid GameCmd.cmdGetRoomLevelNum (PacketBase.shortBytes .network levelCount ++
      (totalFields totals).flatMap (Field.bytes .network))
      (receiver.copy (reply uid svid levelCount totals)).2 hidden ∧
      (hidden.crevasseBuffer.2.packetSize = 11 + 4 * totals.length) := by
  obtain ⟨sum, numbers⟩ := replyFields_size levelCount totals
  have room : 9 + ((.short levelCount :: totalFields totals : List Field).map Field.size).sum ≤ 8192 := by
    rw [sum]
    omega
  obtain ⟨all, last⟩ := kept_of_fits room
  obtain ⟨length, _⟩ := @kept_length .network 9 (.short levelCount :: totalFields totals) (by decide)
  rw [all, last, sum] at length
  rw [reply, netPacket_numbers GameCmd.cmdGetRoomLevelNum numbers, all]
  obtain ⟨hidden, delivered⟩ := tunnel_delivers uid svid GameCmd.cmdGetRoomLevelNum
    (show ((.short levelCount :: totalFields totals : List Field).flatMap (Field.bytes .network)).length ≤ 8162 by omega)
    receiver
  refine ⟨hidden, delivered, ?_⟩
  rw [delivered.size]
  omega

/-- More levels are lost, all of them. -/
private theorem reply_lost (uid svid : Int32) (many : 2040 < totals.length) (receiver : PacketBase) :
    subPacket (receiver.copy (reply uid svid levelCount totals)).2 = none := by
  obtain ⟨sum, numbers⟩ := replyFields_size levelCount totals
  obtain ⟨length, small⟩ := @kept_length .network 9 (.short levelCount :: totalFields totals) (by decide)
  have full : 8171 < filled 9 (.short levelCount :: totalFields totals) := by
    have grown := @filled_of_numbers 9 _ numbers
    rw [sum] at grown
    omega
  rw [reply, netPacket_numbers GameCmd.cmdGetRoomLevelNum numbers]
  generalize (kept 9 (.short levelCount :: totalFields totals)).flatMap (Field.bytes .network) = data at *
  have started := Open.start .network GameCmd.cmdGetRoomLevelNum 1 1 fresh
  have empty : (fresh.start .network GameCmd.cmdGetRoomLevelNum 1 1).packetSize = 9 := rfl
  have filledUp : Open ((fresh.start .network GameCmd.cmdGetRoomLevelNum 1 1).appended data) :=
    started.appended (by rw [empty]; omega)
  refine tunnel_drops uid svid filledUp ?_ receiver
  rw [PacketBase.appended, empty]
  simp only
  omega

private theorem reply_tells_iff (uid svid : Int32) (counted : levelCount.toInt = totals.length)
    (receiver : PacketBase) :
    (∃ hidden, Tells uid svid totals (receiver.copy (reply uid svid levelCount totals)).2 hidden) ↔
      totals.length ≤ 2040 ∧ ∀ total ∈ totals, -32768 ≤ total.2 ∧ total.2 ≤ 32767 := by
  by_cases fits : totals.length ≤ 2040
  · obtain ⟨hidden, delivered, whole⟩ := @reply_delivered levelCount totals uid svid fits receiver
    obtain ⟨middle, count, _, ahead⟩ := delivered.ahead.readShort
    have told := readLevelNums_ahead totals ahead
    rw [← map_toInt_iff, ← told]
    constructor
    · rintro ⟨other, tells⟩
      obtain ⟨-, -, rfl⟩ : uid = uid ∧ svid = svid ∧ hidden = other := by
        simpa using delivered.inside.symm.trans tells.inside
      refine ⟨fits, ?_⟩
      have levels := tells.levels
      rwa [count] at levels
    · rintro ⟨-, levels⟩
      refine ⟨hidden, delivered.outer, delivered.inside, delivered.opens, delivered.named, ?_, ?_, whole⟩
      · rw [count]
        exact counted
      · rw [count]
        exact levels
  · have lost := @reply_lost levelCount totals uid svid (by omega) receiver
    refine iff_of_false ?_ fun both => fits both.1
    rintro ⟨hidden, tells⟩
    have inside := tells.inside
    rw [lost] at inside
    cases inside

end Reply

/-- `rand` is asked once for each level, and every sum is cut to a `short`. -/
theorem levelNums_eq {answers : Answers} {server : Server} (limit : server.options.roundLimit ≠ 0) (call : Nat)
    (levels : List Int16) :
    ∃ after, Server.levelNums answers call levels server =
        some ((totalFields (levelTotals answers server.options call levels)).map Field.write, after) ∧
      after.options = server.options ∧ after.sent = server.sent := by
  induction levels generalizing call server with
  | nil => exact ⟨server, rfl, rfl, rfl⟩
  | cons level levels ih =>
    have rolled : ∃ middle, Server.getRand answers call server =
        some (answers.rand call % server.options.roundLimit, middle) ∧ middle.options = server.options ∧
          middle.sent = server.sent := by
      rw [Server.getRand, if_neg limit]
      exact ⟨_, rfl, rfl, rfl⟩
    obtain ⟨middle, rolled, options, sent⟩ := rolled
    obtain ⟨after, later, optionsAfter, sentAfter⟩ := @ih middle (by rwa [options]) (call + 1)
    rw [options] at later
    refine ⟨after, ?_, optionsAfter.trans options, sentAfter.trans sent⟩
    have cut : (Int32.ofInt (server.options.getLevelCount level) + answers.rand call % server.options.roundLimit +
        server.options.addCount).toInt16 = Int16.ofInt (server.options.getLevelCount level +
          (answers.rand call % server.options.roundLimit).toInt + server.options.addCount.toInt) := by
      rw [← Int32.toInt16_ofInt, Int32.ofInt_add, Int32.ofInt_add, Int32.ofInt_toInt, Int32.ofInt_toInt]
    simp only [Server.levelNums, rolled, later, optionsAfter, options, cut, Option.bind_eq_bind, Option.bind_some,
      Option.pure_def]
    rfl

private theorem sent_sendClientPacket (server : Server) (uid svid : Int32) (packet : PacketBase) :
    (server.sendClientPacket uid svid packet).sent =
      server.sent ++ [(sendClientPacket uid svid ⟨packet, false⟩).1.bytes] := by
  rw [Server.sendClientPacket, Server.send, sendClientPacket, netPacket, Packet.build, blank_start, List.foldl_cons,
    List.foldl_cons, List.foldl_cons, List.foldl_nil, Write.run, Write.run, Write.run]

private theorem processPacket_sent {packet : PacketBase} {uid svid : Int32} {levelCount : Int16} {levels : List Int16}
    (asks : request packet = .getRoomLevelNum uid svid levelCount levels) (answers : Answers) {server : Server}
    (limit : 0 < server.options.roundLimit) :
    ∃ after, server.processPacket packet answers = some after ∧
      after.sent = server.sent ++ [reply uid svid levelCount (levelTotals answers server.options 0 levels)] := by
  have positive : server.options.roundLimit ≠ 0 := fun zero => by simp [zero] at limit
  obtain ⟨middle, written, _, sent⟩ := @levelNums_eq answers server positive 0 levels
  refine ⟨middle.sendClientPacket uid svid (netPacket GameCmd.cmdGetRoomLevelNum
    (.short levelCount :: (totalFields (levelTotals answers server.options 0 levels)).map Field.write)), ?_, ?_⟩
  · simp only [Server.processPacket, asks, Server.serve, Server.processGetRoomLevelNum, written, Option.bind_eq_bind,
      Option.bind_some, Option.pure_def]
  · rw [sent_sendClientPacket, sent]
    rfl

theorem levelTotals_length (answers : Answers) (options : Options) (call : Nat) (levels : List Int16) :
    (levelTotals answers options call levels).length = levels.length := by
  induction levels generalizing call with
  | nil => rfl
  | cons level levels ih => simp [levelTotals, ih]

/-- The answer tells a client all that it asked for exactly when there are at most
2040 levels and every number is the value of a `short`. -/
theorem room_counts_told_iff {packet : PacketBase} {uid svid : Int32} {levelCount : Int16} {levels : List Int16}
    (asks : request packet = .getRoomLevelNum uid svid levelCount levels) (counted : levelCount.toInt = levels.length)
    (answers : Answers) {server : Server} (limit : 0 < server.options.roundLimit) (receiver : PacketBase) :
    ∃ after bytes, server.processPacket packet answers = some after ∧ after.sent = server.sent ++ [bytes] ∧
      ((∃ hidden, Tells uid svid (levelTotals answers server.options 0 levels) (receiver.copy bytes).2 hidden) ↔
        levels.length ≤ 2040 ∧
          ∀ total ∈ levelTotals answers server.options 0 levels, -32768 ≤ total.2 ∧ total.2 ≤ 32767) := by
  obtain ⟨after, ran, sent⟩ := processPacket_sent asks answers limit
  have long := levelTotals_length answers server.options 0 levels
  rw [← long] at counted ⊢
  exact ⟨after, _, ran, sent, reply_tells_iff uid svid counted receiver⟩

/-- The packet in which a hall passes the question of a client on. -/
def question (uid svid : Int32) (levels : List Int16) : List UInt8 :=
  (sendClientPacket uid svid ⟨netPacket GameCmd.cmdGetRoomLevelNum
    (.short (Int16.ofInt levels.length) :: levels.map .short), false⟩).1.bytes

private theorem shorts_size (levels : List Int16) :
    ((levels.map Field.short).map Field.size).sum = 2 * levels.length ∧
      ∀ field ∈ levels.map Field.short, field.IsNumber := by
  induction levels with
  | nil => simp
  | cons level levels ih =>
    obtain ⟨size, numbers⟩ := ih
    refine ⟨?_, List.forall_mem_cons.mpr ⟨trivial, numbers⟩⟩
    rw [List.map_cons, List.map_cons, List.sum_cons, size, List.length_cons, Field.size]
    omega

private theorem readShorts_ahead {packet : PacketBase} (levels : List Int16)
    (ahead : Ahead packet ((levels.map Field.short).flatMap (Field.bytes .network))) :
    readShorts levels.length packet = levels := by
  induction levels generalizing packet with
  | nil => rfl
  | cons level levels ih =>
    have bytes : ((level :: levels).map Field.short).flatMap (Field.bytes .network) =
        PacketBase.shortBytes .network level ++ (levels.map Field.short).flatMap (Field.bytes .network) := by
      simp [Field.bytes, Field.count, Field.content]
    rw [bytes] at ahead
    obtain ⟨after, taken, _, ahead⟩ := ahead.readShort
    simp only [readShorts, taken, List.length_cons]
    rw [ih ahead]

/-- Up to 4080 levels can be asked for. -/
theorem question_asks (uid svid : Int32) {levels : List Int16} (fits : levels.length ≤ 4080) (receiver : PacketBase) :
    request (receiver.copy (question uid svid levels)).2 = .getRoomLevelNum uid svid (Int16.ofInt levels.length) levels := by
  obtain ⟨size, others⟩ := shorts_size levels
  have numbers : ∀ field ∈ (.short (Int16.ofInt levels.length) :: levels.map Field.short : List Field), field.IsNumber :=
    List.forall_mem_cons.mpr ⟨trivial, others⟩
  have sum : ((.short (Int16.ofInt levels.length) :: levels.map Field.short : List Field).map Field.size).sum =
      2 + 2 * levels.length := by
    rw [List.map_cons, List.sum_cons, size]
    rfl
  obtain ⟨all, last⟩ := @kept_of_fits 9 (.short (Int16.ofInt levels.length) :: levels.map Field.short) (by omega)
  obtain ⟨length, _⟩ :=
    @kept_length .network 9 (.short (Int16.ofInt levels.length) :: levels.map Field.short) (by decide)
  rw [all, last, sum] at length
  have asked : netPacket GameCmd.cmdGetRoomLevelNum (.short (Int16.ofInt levels.length) :: levels.map .short) =
      ((fresh.start .network GameCmd.cmdGetRoomLevelNum 1 1).appended ((.short (Int16.ofInt levels.length) ::
        levels.map Field.short : List Field).flatMap (Field.bytes .network))).finish .network := by
    have written := netPacket_numbers GameCmd.cmdGetRoomLevelNum numbers
    rw [all, List.map_cons, List.map_map] at written
    exact written
  obtain ⟨hidden, delivered⟩ := tunnel_delivers uid svid GameCmd.cmdGetRoomLevelNum
    (show ((.short (Int16.ofInt levels.length) :: levels.map Field.short : List Field).flatMap
      (Field.bytes .network)).length ≤ 8162 by omega) receiver
  have bytes : (.short (Int16.ofInt levels.length) :: levels.map Field.short : List Field).flatMap (Field.bytes .network) =
      PacketBase.shortBytes .network (Int16.ofInt levels.length) ++
        (levels.map Field.short).flatMap (Field.bytes .network) := rfl
  obtain ⟨middle, count, _, ahead⟩ := (bytes ▸ delivered.ahead).readShort
  have value : (Int16.ofInt levels.length).toInt = levels.length := (toInt_ofInt_iff _).mpr (by omega)
  have outer := delivered.outer
  have inside := delivered.inside
  rw [← asked] at outer inside
  have opens : ¬ hidden.crevasseBuffer.1 < 0 := Int.not_lt.mpr delivered.opens
  have other : ¬ GameCmd.cmdGetRoomLevelNum = GameCmd.clientCmdUserLogin := by decide
  rw [question, request, outer, if_neg (by decide), if_pos (.inr rfl), subRequest_eq, inside, Option.elim_some]
  simp only [clientRequest, opens, delivered.named, other, if_false, if_true, count, value, Int.toNat_natCast,
    readShorts_ahead levels ahead]

/-- A server that was told how many users play at level 1. -/
def playing (count : Int32) : Server := (Server.initial 1 0).processSynData [(1, count, 0)]

theorem room_counts_told_five : ∃ after bytes,
    (playing 5).processPacket (fresh.copy (question 7 2 [1])).2 (Server.quiet 0) = some after ∧ after.sent = [bytes] ∧
      ∃ hidden, Tells 7 2 [(1, 5)] (fresh.copy bytes).2 hidden := by
  have asks := question_asks 7 2 (show [1].length ≤ 4080 by decide) fresh
  have totals : levelTotals (Server.quiet 0) (playing 5).options 0 [1] = [(1, 5)] := by decide
  obtain ⟨after, bytes, ran, sent, told⟩ := room_counts_told_iff asks (by decide) (Server.quiet 0)
    (show 0 < (playing 5).options.roundLimit by decide) fresh
  rw [totals] at told
  exact ⟨after, bytes, ran, sent, told.mpr ⟨by decide, by decide⟩⟩

/-- 40000 users are not told of, and of 2041 levels nothing is. -/
theorem room_counts_untold :
    (∃ after bytes, (playing 40000).processPacket (fresh.copy (question 7 2 [1])).2 (Server.quiet 0) = some after ∧
      after.sent = [bytes] ∧ levelTotals (Server.quiet 0) (playing 40000).options 0 [1] = [(1, 40000)] ∧
      ¬ ∃ hidden, Tells 7 2 [(1, 40000)] (fresh.copy bytes).2 hidden) ∧
    ∃ after bytes, (playing 5).processPacket (fresh.copy (question 7 2 (List.replicate 2041 1))).2 (Server.quiet 0) =
        some after ∧ after.sent = [bytes] ∧
      ¬ ∃ hidden, Tells 7 2 (levelTotals (Server.quiet 0) (playing 5).options 0 (List.replicate 2041 1))
        (fresh.copy bytes).2 hidden := by
  constructor
  · have asks := question_asks 7 2 (show [1].length ≤ 4080 by decide) fresh
    have totals : levelTotals (Server.quiet 0) (playing 40000).options 0 [1] = [(1, 40000)] := by decide
    obtain ⟨after, ran, sent⟩ := processPacket_sent asks (Server.quiet 0)
      (show 0 < (playing 40000).options.roundLimit by decide)
    refine ⟨after, _, ran, sent, totals, ?_⟩
    rw [totals, reply_tells_iff 7 2 (by decide)]
    decide
  · have many : (List.replicate 2041 (1 : Int16)).length = 2041 := List.length_replicate
    generalize List.replicate 2041 (1 : Int16) = levels at *
    have asks := question_asks 7 2 (show levels.length ≤ 4080 by omega) fresh
    obtain ⟨after, ran, sent⟩ := processPacket_sent asks (Server.quiet 0)
      (show 0 < (playing 5).options.roundLimit by decide)
    have long := levelTotals_length (Server.quiet 0) (playing 5).options 0 levels
    refine ⟨after, _, ran, sent, ?_⟩
    rw [reply_tells_iff 7 2 (by rw [long, many]; decide), long, many]
    exact fun both => absurd both.1 (by decide)

end TeenpattiUserServer.UserServer
