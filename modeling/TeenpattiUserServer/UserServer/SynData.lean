import Mathlib.Data.Fintype.Card
import TeenpattiUserServer.Packet.Overflow
import TeenpattiUserServer.UserServer.BackServer
import TeenpattiUserServer.UserServer.Request

/-! The report of the level and terminal statistics to the statistics server, and
what that server reads from it. -/

namespace TeenpattiUserServer.UserServer

open Std Bytes Packet

/-- `map<short, LEVELINFO>`: `playCount` and `lookCount`. -/
abbrev LevelMgr := TreeMap Int16 (Int32 × Int32)

/-- `map<short, DATAINFO>`: `onlineCount`, `onPlayCount` and `onLookOnCount`. -/
abbrev TerminalTypeMgr := TreeMap Int16 (Int32 × Int32 × Int32)

namespace BackServer

def writeLevel (packet : PacketBase) (level : Int16 × Int32 × Int32) : PacketBase :=
  let keyed := (packet.writeShort .host level.1).2
  let played := (keyed.writeInt .host level.2.1).2
  (played.writeInt .host level.2.2).2

def writeType (packet : PacketBase) (type : Int16 × Int32 × Int32 × Int32) : PacketBase :=
  let keyed := (packet.writeShort .host type.1).2
  let online := (keyed.writeInt .host type.2.1).2
  let played := (online.writeInt .host type.2.2.1).2
  (played.writeInt .host type.2.2.2).2

/-- The packet of `SynData`, with no look at what the writers return. -/
def synDataPacket (serverId : Int32) (levelMgr : LevelMgr) (terminalTypeMgr : TerminalTypeMgr) : PacketBase :=
  let begun := Packet.fresh.start .host GameCmd.sysSynData 1 1
  let named := (begun.writeInt .host serverId).2
  let counted := (named.writeInt .host (Int32.ofInt levelMgr.size)).2
  let levels := levelMgr.toList.foldl writeLevel counted
  let typed := (levels.writeInt .host (Int32.ofInt terminalTypeMgr.size)).2
  (terminalTypeMgr.toList.foldl writeType typed).finish .host

/-- `SynData`: nothing is sent without a connection. -/
def synData (server : BackServer) (serverId : Int32) (levelMgr : LevelMgr) (terminalTypeMgr : TerminalTypeMgr) :
    Option PacketBase :=
  if server.isConnected = false then none else some (synDataPacket serverId levelMgr terminalTypeMgr)

end BackServer

/-- What is read from a report. -/
structure Report where
  serverId : Int32
  levels : List (Int16 × Int32 × Int32)
  types : List (Int16 × Int32 × Int32 × Int32)
  deriving DecidableEq, Repr

namespace Report

def readLevels : Nat → PacketBase → List (Int16 × Int32 × Int32) × PacketBase
  | 0, packet => ([], packet)
  | count + 1, packet =>
    let (level, packet) := packet.readShort .host
    let (playCount, packet) := packet.readInt .host
    let (lookCount, packet) := packet.readInt .host
    let (levels, packet) := readLevels count packet
    ((level, playCount, lookCount) :: levels, packet)

def readTypes : Nat → PacketBase → List (Int16 × Int32 × Int32 × Int32) × PacketBase
  | 0, packet => ([], packet)
  | count + 1, packet =>
    let (type, packet) := packet.readShort .host
    let (onlineCount, packet) := packet.readInt .host
    let (onPlayCount, packet) := packet.readInt .host
    let (onLookOnCount, packet) := packet.readInt .host
    let (types, packet) := readTypes count packet
    ((type, onlineCount, onPlayCount, onLookOnCount) :: types, packet)

/-- The readers in the order of the writers. -/
def read (packet : PacketBase) : Report :=
  let (serverId, packet) := packet.readInt .host
  let (levelCount, packet) := packet.readInt .host
  let (levels, packet) := readLevels levelCount.toInt.toNat packet
  let (typeCount, packet) := packet.readInt .host
  ⟨serverId, levels, (readTypes typeCount.toInt.toNat packet).1⟩

def levelFields (level : Int16 × Int32 × Int32) : List Field := [.short level.1, .int level.2.1, .int level.2.2]

def typeFields (type : Int16 × Int32 × Int32 × Int32) : List Field :=
  [.short type.1, .int type.2.1, .int type.2.2.1, .int type.2.2.2]

/-- The number of types and the types. -/
def typePart (types : List (Int16 × Int32 × Int32 × Int32)) : List Field :=
  .int (Int32.ofInt types.length) :: types.flatMap typeFields

/-- The numbers of a report in the order in which they are written. -/
def fields (report : Report) : List Field :=
  .int report.serverId :: .int (Int32.ofInt report.levels.length) ::
    (report.levels.flatMap levelFields ++ typePart report.types)

/-- Every number for which the buffer has no room is `-1`; where there are no types
their number may be left out. -/
def Whole (report : Report) : Prop :=
  Spared 9 (if report.types = [] then
    .int report.serverId :: .int (Int32.ofInt report.levels.length) :: report.levels.flatMap levelFields
    else report.fields)

private theorem levelFields_inj {found levels : List (Int16 × Int32 × Int32)} :
    found.flatMap levelFields = levels.flatMap levelFields ↔ found = levels := by
  refine ⟨fun same => ?_, fun same => by rw [same]⟩
  induction found generalizing levels with
  | nil =>
    cases levels with
    | nil => rfl
    | cons level levels => simp [levelFields] at same
  | cons head found ih =>
    cases levels with
    | nil => simp [levelFields] at same
    | cons level levels =>
      simp only [List.flatMap_cons, levelFields, List.cons_append, List.nil_append, List.cons.injEq,
        Field.short.injEq, Field.int.injEq] at same
      obtain ⟨key, play, look, rest⟩ := same
      rw [ih rest, Prod.ext key (Prod.ext play look)]

private theorem typeFields_inj {found types : List (Int16 × Int32 × Int32 × Int32)} :
    found.flatMap typeFields = types.flatMap typeFields ↔ found = types := by
  refine ⟨fun same => ?_, fun same => by rw [same]⟩
  induction found generalizing types with
  | nil =>
    cases types with
    | nil => rfl
    | cons type types => simp [typeFields] at same
  | cons head found ih =>
    cases types with
    | nil => simp [typeFields] at same
    | cons type types =>
      simp only [List.flatMap_cons, typeFields, List.cons_append, List.nil_append, List.cons.injEq,
        Field.short.injEq, Field.int.injEq] at same
      obtain ⟨key, online, play, look, rest⟩ := same
      rw [ih rest, Prod.ext key (Prod.ext online (Prod.ext play look))]

/-- The levels are read as they were received. -/
private theorem readLevels_synced {size : Nat} {rest : List Field} {packet : PacketBase}
    (levels : List (Int16 × Int32 × Int32))
    (synced : Synced .host size (levels.flatMap levelFields ++ rest) packet) :
    (readLevels levels.length packet).1.flatMap levelFields = received size (levels.flatMap levelFields) ∧
      Synced .host (filled size (levels.flatMap levelFields)) rest (readLevels levels.length packet).2 := by
  induction levels generalizing size packet with
  | nil => exact ⟨rfl, synced⟩
  | cons level levels ih =>
    obtain ⟨second, key, synced⟩ := synced.readShort
    obtain ⟨third, play, synced⟩ := synced.readInt
    obtain ⟨last, look, synced⟩ := synced.readInt
    obtain ⟨values, further⟩ := ih synced
    simp only [List.length_cons, readLevels, key, play, look]
    refine ⟨?_, further⟩
    simp only [List.flatMap_cons, values, levelFields, List.cons_append, List.nil_append, received, Field.size,
      Field.missing, apply_ite Field.short, apply_ite Field.int]
    rfl

/-- The types are read as they were received. -/
private theorem readTypes_synced {size : Nat} {rest : List Field} {packet : PacketBase}
    (types : List (Int16 × Int32 × Int32 × Int32))
    (synced : Synced .host size (types.flatMap typeFields ++ rest) packet) :
    (readTypes types.length packet).1.flatMap typeFields = received size (types.flatMap typeFields) := by
  induction types generalizing size packet with
  | nil => rfl
  | cons type types ih =>
    obtain ⟨second, key, synced⟩ := synced.readShort
    obtain ⟨third, online, synced⟩ := synced.readInt
    obtain ⟨fourth, play, synced⟩ := synced.readInt
    obtain ⟨last, look, synced⟩ := synced.readInt
    have values := ih synced
    simp only [List.length_cons, readTypes, key, online, play, look]
    simp only [List.flatMap_cons, values, typeFields, List.cons_append, List.nil_append, received, Field.size,
      Field.missing, apply_ite Field.short, apply_ite Field.int]
    rfl

private theorem levelFields_number (levels : List (Int16 × Int32 × Int32)) :
    ∀ field ∈ levels.flatMap levelFields, field.IsNumber := by
  intro field member
  obtain ⟨level, _, within⟩ := List.mem_flatMap.mp member
  simp only [levelFields, List.mem_cons, List.not_mem_nil, or_false] at within
  rcases within with rfl | rfl | rfl <;> trivial

private theorem typeFields_number (types : List (Int16 × Int32 × Int32 × Int32)) :
    ∀ field ∈ types.flatMap typeFields, field.IsNumber := by
  intro field member
  obtain ⟨type, _, within⟩ := List.mem_flatMap.mp member
  simp only [typeFields, List.mem_cons, List.not_mem_nil, or_false] at within
  rcases within with rfl | rfl | rfl | rfl <;> trivial

theorem fields_number (report : Report) : ∀ field ∈ report.fields, field.IsNumber := by
  intro field member
  simp only [fields, typePart, List.mem_cons, List.mem_append] at member
  rcases member with rfl | rfl | level | rfl | type
  · trivial
  · trivial
  · exact levelFields_number _ field level
  · trivial
  · exact typeFields_number _ field type

/-- A count of records is read as it was written. -/
private theorem count_toInt {count : Nat} (small : count ≤ 65536) : (Int32.ofInt count).toInt.toNat = count := by
  rw [toInt_ofInt (by omega) (by omega), Int.toNat_natCast]

/-- The two numbers at the head always find room. -/
private theorem whole_iff (report : Report) : report.Whole ↔ Spared 17 (report.levels.flatMap levelFields) ∧
    (report.types ≠ [] → Spared (filled 17 (report.levels.flatMap levelFields)) (typePart report.types)) := by
  have head : ∀ rest, Spared 9 (.int report.serverId :: .int (Int32.ofInt report.levels.length) :: rest) ↔
      Spared 17 rest := by
    intro rest
    have first : 9 + 4 ≤ 8192 := by decide
    have second : advance 9 4 + 4 ≤ 8192 := by decide
    exact ⟨fun spared => spared.2.2, fun spared => ⟨.inl first, .inl second, spared⟩⟩
  by_cases empty : report.types = []
  · rw [Whole, if_pos empty, head]
    exact ⟨fun spared => ⟨spared, fun some => absurd empty some⟩, And.left⟩
  · rw [Whole, if_neg empty, fields, head, spared_append]
    exact and_congr_right fun _ => ⟨fun spared _ => spared, fun spared => spared empty⟩

/-- What is read is what was written exactly when nothing is missed. -/
theorem read_eq_iff {report : Report} {packet : PacketBase} (synced : Synced .host 9 report.fields packet)
    (levelCount : report.levels.length ≤ 65536) (typeCount : report.types.length ≤ 65536) :
    read packet = report ↔ report.Whole := by
  obtain ⟨serverId, levels, types⟩ := report
  rw [whole_iff]
  simp only at levelCount typeCount ⊢
  obtain ⟨second, named, synced⟩ := synced.readInt
  obtain ⟨third, counted, synced⟩ := synced.readInt
  rw [if_pos (by decide)] at named counted
  obtain ⟨found, synced⟩ := readLevels_synced levels synced
  obtain ⟨last, typed, synced⟩ := synced.readInt
  rw [← List.append_nil (types.flatMap typeFields)] at synced
  have values := readTypes_synced types synced
  have size : advance (advance 9 4) 4 = 17 := rfl
  rw [size] at found typed synced values
  generalize filled 17 (levels.flatMap levelFields) = behind at typed synced values ⊢
  simp only [read, named, counted, count_toInt levelCount, typed, Report.mk.injEq, true_and]
  rw [← levelFields_inj, found, received_eq_iff]
  refine and_congr_right fun _ => ?_
  by_cases room : behind + 4 ≤ 8192
  · rw [if_pos room, count_toInt typeCount, ← typeFields_inj, values, received_eq_iff]
    constructor
    · intro spared _
      exact ⟨.inl room, spared⟩
    · intro spared
      by_cases empty : types = []
      · rw [empty]
        trivial
      · exact (spared empty).2
  · rw [if_neg room]
    have none : ((-1 : Int32).toInt).toNat = 0 := rfl
    rw [none, readTypes]
    constructor
    · intro same some
      exact absurd same.symm some
    · intro spared
      by_contra some
      have counted := (spared fun empty => some empty.symm).1.resolve_left room
      exact ofInt_ne_neg_one (by omega) (by omega) (Field.int.inj counted)

end Report

/-- A map has no more keys than there are values of type `short`. -/
theorem length_toList_le {Value : Type} (map : TreeMap Int16 Value) : map.toList.length ≤ 65536 := by
  have distinct : (map.toList.map fun entry => entry.1.toBitVec.toFin).Nodup := by
    refine List.pairwise_map.mpr (List.Pairwise.imp ?_ TreeMap.distinct_keys_toList)
    intro first second different same
    have key : first.1 = second.1 := Int16.toBitVec_inj.mp (BitVec.toFin_inj.mp same)
    refine different ?_
    rw [key]
    exact Std.ReflCmp.compare_self
  have few := distinct.length_le_card
  rwa [List.length_map, Fintype.card_fin] at few

namespace BackServer

/-- The packet holds the numbers that find room. -/
theorem synDataPacket_eq (serverId : Int32) (levelMgr : LevelMgr) (terminalTypeMgr : TerminalTypeMgr) :
    synDataPacket serverId levelMgr terminalTypeMgr = ((Packet.fresh.start .host GameCmd.sysSynData 1 1).appended
      ((kept 9 (Report.fields ⟨serverId, levelMgr.toList, terminalTypeMgr.toList⟩)).flatMap
        (Field.bytes .host))).finish .host := by
  have started := Open.start .host GameCmd.sysSynData 1 1 Packet.fresh
  have run : _ = PacketBase.appended _ (List.flatMap (Field.bytes .host) _) :=
    writes_kept started (Report.fields_number ⟨serverId, levelMgr.toList, terminalTypeMgr.toList⟩)
  have empty : (Packet.fresh.start .host GameCmd.sysSynData 1 1).packetSize.toNat = 9 := rfl
  rw [empty] at run
  rw [← run]
  simp only [Report.fields, Report.typePart, List.foldl_cons, List.foldl_append, List.foldl_flatMap, synDataPacket,
    TreeMap.length_toList]
  rfl

/-- The receiver reads from the packet what was to be reported. -/
def Complete (server : BackServer) (serverId : Int32) (levelMgr : LevelMgr) (terminalTypeMgr : TerminalTypeMgr)
    (receiver : PacketBase) : Prop :=
  ∀ packet, server.synData serverId levelMgr terminalTypeMgr = some packet →
    (receiver.copy packet.bytes).1 = true ∧
      Report.read (receiver.copy packet.bytes).2 = ⟨serverId, levelMgr.toList, terminalTypeMgr.toList⟩

/-- A copy of the packet is read from where it was written. -/
private theorem synDataPacket_synced (serverId : Int32) (levelMgr : LevelMgr) (terminalTypeMgr : TerminalTypeMgr)
    (receiver : PacketBase) :
    (receiver.copy (synDataPacket serverId levelMgr terminalTypeMgr).bytes).1 = true ∧
      Synced .host 9 (Report.fields ⟨serverId, levelMgr.toList, terminalTypeMgr.toList⟩)
        (receiver.copy (synDataPacket serverId levelMgr terminalTypeMgr).bytes).2 := by
  have started := Open.start .host GameCmd.sysSynData 1 1 Packet.fresh
  rw [synDataPacket_eq]
  generalize Report.fields ⟨serverId, levelMgr.toList, terminalTypeMgr.toList⟩ = fields
  have room : 9 + ((kept 9 fields).flatMap (Field.bytes .host)).length ≤ 8192 := by
    obtain ⟨length, last⟩ : _ = filled 9 fields ∧ _ := kept_length (by decide)
    exact length ▸ last
  have filled : Open ((Packet.fresh.start .host GameCmd.sysSynData 1 1).appended
      ((kept 9 fields).flatMap (Field.bytes .host))) := by
    refine started.appended ?_
    change (9 : Int) + _ ≤ 8192
    omega
  obtain ⟨copied, cursor, _⟩ := copy_finish .host filled receiver
  exact ⟨copied, Ahead.copied .host started rfl room receiver, cursor⟩

/-- A report is complete exactly when every number that finds no room in the packet
is `-1`. -/
theorem syn_data_complete_iff (server : BackServer) (serverId : Int32) (levelMgr : LevelMgr)
    (terminalTypeMgr : TerminalTypeMgr) (receiver : PacketBase) :
    server.Complete serverId levelMgr terminalTypeMgr receiver ↔
      (server.isConnected = true → Report.Whole ⟨serverId, levelMgr.toList, terminalTypeMgr.toList⟩) := by
  obtain ⟨copied, synced⟩ := synDataPacket_synced serverId levelMgr terminalTypeMgr receiver
  have reads := Report.read_eq_iff synced (length_toList_le levelMgr) (length_toList_le terminalTypeMgr)
  constructor
  · intro complete connected
    exact reads.mp (complete _ (by rw [synData, if_neg (by simp [connected])])).2
  · intro whole packet sent
    rw [synData] at sent
    split_ifs at sent with connected
    cases sent
    exact ⟨copied, reads.mpr (whole (by simpa using connected))⟩

end BackServer

namespace Report

private theorem levelFields_sum (levels : List (Int16 × Int32 × Int32)) :
    ((levels.flatMap levelFields).map Field.size).sum = 10 * levels.length := by
  induction levels with
  | nil => rfl
  | cons level levels ih =>
    simp only [List.flatMap_cons, List.map_append, List.sum_append, ih, List.length_cons]
    simp only [levelFields, Field.size, List.map_cons, List.map_nil, List.sum_cons, List.sum_nil]
    omega

private theorem typeFields_sum (types : List (Int16 × Int32 × Int32 × Int32)) :
    ((types.flatMap typeFields).map Field.size).sum = 14 * types.length := by
  induction types with
  | nil => rfl
  | cons type types ih =>
    simp only [List.flatMap_cons, List.map_append, List.sum_append, ih, List.length_cons]
    simp only [typeFields, Field.size, List.map_cons, List.map_nil, List.sum_cons, List.sum_nil]
    omega

/-- The bytes of a report. -/
def size (report : Report) : Nat := 21 + 10 * report.levels.length + 14 * report.types.length

private theorem size_large {serverId : Int32} {levels : List (Int16 × Int32 × Int32)}
    {types : List (Int16 × Int32 × Int32 × Int32)} (many : 584 ≤ types.length) :
    8192 < size ⟨serverId, levels, types⟩ := by
  simp only [size]
  omega

private theorem fields_sum (report : Report) : 9 + (report.fields.map Field.size).sum = report.size := by
  simp only [fields, typePart, List.map_cons, List.map_append, List.sum_cons, List.sum_append, levelFields_sum,
    typeFields_sum, Field.size, size]
  omega

/-- A report that fits into the packet is whole. -/
theorem whole_of_fits {report : Report} (fits : report.size ≤ 8192) : report.Whole := by
  have spared : Spared 9 report.fields := spared_of_fits (by rw [fields_sum]; exact fits)
  rw [Whole]
  split_ifs with empty
  · rw [fields, ← List.cons_append, ← List.cons_append, spared_append] at spared
    exact spared.1
  · exact spared

/-- A report with no count of `-1` is whole exactly when it fits. -/
theorem whole_iff_fits {report : Report} (levels : ∀ level ∈ report.levels, level.2.2 ≠ -1)
    (types : ∀ type ∈ report.types, type.2.2.2 ≠ -1) : report.Whole ↔ report.size ≤ 8192 := by
  refine ⟨fun whole => ?_, whole_of_fits⟩
  obtain ⟨serverId, levelList, typeList⟩ := report
  rcases List.eq_nil_or_concat' typeList with rfl | ⟨front, last, rfl⟩
  · have spared : Spared 17 (levelList.flatMap levelFields) := ((whole_iff _).mp whole).1
    rcases List.eq_nil_or_concat' levelList with rfl | ⟨front, last, rfl⟩
    · simp [size]
    · have shape : (front ++ [last]).flatMap levelFields =
          (front.flatMap levelFields ++ [.short last.1, .int last.2.1]) ++ [.int last.2.2] := by
        simp [levelFields]
      have total := levelFields_sum (front ++ [last])
      have numbers := levelFields_number (front ++ [last])
      rw [shape] at spared total numbers
      have fits := fits_of_spared (fun field member => numbers field (List.mem_append_left _ member))
        (levels last (by simp)) spared
      simp only [List.map_append, List.sum_append, List.map_cons, List.map_nil, List.sum_cons, List.sum_nil,
        Field.size, List.length_append, List.length_singleton] at total fits
      simp only [size, List.length_append, List.length_singleton, List.length_nil]
      omega
  · rw [Whole, if_neg (by simp)] at whole
    have shape : Report.fields ⟨serverId, levelList, front ++ [last]⟩ = (.int serverId ::
        .int (Int32.ofInt levelList.length) :: (levelList.flatMap levelFields ++
          .int (Int32.ofInt (front ++ [last]).length) :: (front.flatMap typeFields ++
            [.short last.1, .int last.2.1, .int last.2.2.1]))) ++ [.int last.2.2.2] := by
      simp [fields, typePart, typeFields]
    have total := fields_sum ⟨serverId, levelList, front ++ [last]⟩
    have numbers := fields_number ⟨serverId, levelList, front ++ [last]⟩
    rw [shape] at whole total numbers
    have fits := fits_of_spared (fun field member => numbers field (List.mem_append_left _ member))
      (types last (by simp)) whole
    rw [List.map_append, List.sum_append] at total
    simp only [List.map_cons, List.map_nil, List.sum_cons, List.sum_nil, Field.size] at total fits
    omega

end Report

/-- One user for each of 584 terminal types. -/
def manyEntries : List (Int16 × Int32 × Int32 × Int32) := (List.range 584).map fun type => (Int16.ofNat type, 1, 0, 0)

def manyTypes : TerminalTypeMgr := TreeMap.ofList manyEntries

private theorem manyEntries_distinct : manyEntries.Pairwise fun first second => ¬ compare first.1 second.1 = .eq := by
  refine List.pairwise_map.mpr (List.Pairwise.imp_of_mem ?_ List.pairwise_lt_range)
  intro first second small large different same
  have equal : Int16.ofNat first = Int16.ofNat second := Std.LawfulEqCmp.eq_of_compare same
  have values := congrArg (fun value : Int16 => value.toUInt16.toNat) equal
  simp only [Int16.toUInt16_ofNat', UInt16.toNat_ofNat'] at values
  have bounds := And.intro (List.mem_range.mp small) (List.mem_range.mp large)
  omega

private theorem manyTypes_length : manyTypes.toList.length = 584 := by
  rw [TreeMap.length_toList, manyTypes, TreeMap.size_ofList manyEntries_distinct, manyEntries, List.length_map,
    List.length_range]

private theorem manyTypes_values : ∀ type ∈ manyTypes.toList, type.2 = (1, 0, 0) := by
  rintro ⟨key, value⟩ member
  have found := TreeMap.mem_toList_iff_getElem?_eq_some.mp member
  have present : key ∈ manyTypes := TreeMap.mem_iff_isSome_getElem?.mpr (by rw [found]; rfl)
  rw [manyTypes, TreeMap.mem_ofList, List.contains_iff_mem] at present
  obtain ⟨entry, listed, rfl⟩ := List.mem_map.mp present
  have value_eq := TreeMap.getElem?_ofList_of_mem Std.ReflCmp.compare_self manyEntries_distinct listed
  obtain ⟨type, _, rfl⟩ := List.mem_map.mp listed
  rw [← manyTypes, found] at value_eq
  exact Option.some.inj value_eq

namespace BackServer

/-- A report that does not fit and has no count of `-1` is not complete. -/
theorem not_complete {server : BackServer} (connected : server.isConnected = true) {serverId : Int32}
    {levelMgr : LevelMgr} {terminalTypeMgr : TerminalTypeMgr} (levels : ∀ level ∈ levelMgr.toList, level.2.2 ≠ -1)
    (types : ∀ type ∈ terminalTypeMgr.toList, type.2.2.2 ≠ -1)
    (large : 8192 < Report.size ⟨serverId, levelMgr.toList, terminalTypeMgr.toList⟩) (receiver : PacketBase) :
    ¬ server.Complete serverId levelMgr terminalTypeMgr receiver := by
  intro complete
  obtain ⟨_, synced⟩ := synDataPacket_synced serverId levelMgr terminalTypeMgr receiver
  have read := (complete (synDataPacket serverId levelMgr terminalTypeMgr) (if_neg (by simp [connected]))).2
  have whole := (Report.read_eq_iff synced (length_toList_le levelMgr) (length_toList_le terminalTypeMgr)).mp read
  exact Nat.not_lt.mpr ((Report.whole_iff_fits levels types).mp whole) large

/-- With 584 terminal types and no level, the report loses the last counts. -/
theorem many_types_lost : ∃ server : BackServer, server.isConnected = true ∧
    ¬ server.Complete 1 ∅ manyTypes Packet.fresh := by
  refine ⟨{ BackServer.fresh with isConnected := true }, rfl, not_complete rfl (by simp) (fun type member => ?_) ?_ _⟩
  · rw [manyTypes_values type member]
    decide
  · have many : 584 ≤ manyTypes.toList.length := by rw [manyTypes_length]
    exact Report.size_large many

end BackServer

end TeenpattiUserServer.UserServer
