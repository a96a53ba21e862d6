import TeenpattiUserServer.Packet.Reading
import TeenpattiUserServer.UserServer.ClientHandler

/-! What a `SYS_SYN_DATA` packet of the statistics server does to the level totals,
against the entries that are in it. -/

namespace TeenpattiUserServer.UserServer

open Std Bytes Packet

/-- The entry that lies here. -/
def entryAt (content : List UInt8) (pos : Nat) : Int16 × Int32 × Int32 :=
  (shortAt .host content pos, intAt .host content (pos + 2), intAt .host content (pos + 6))

/-- The `size` of the packet. -/
def declaredSize (content : List UInt8) : Int := (intAt .host content 9).toInt

/-- So many entries of ten bytes are in the packet. -/
def slots (content : List UInt8) : Nat := (content.length - 13) / 10

/-- The first `size` entries, as far as they are in the packet. -/
def completeEntries (content : List UInt8) : List (Int16 × Int32 × Int32) :=
  (List.range (min (declaredSize content).toNat (slots content))).map fun i => entryAt content (13 + 10 * i)

/-- What a list of entries says of a level: the last entry for it counts. -/
def lastEntry (entries : List (Int16 × Int32 × Int32)) (level : Int16) : Option LevelInfo :=
  (entries.reverse.find? (·.1 == level)).map fun entry => ⟨entry.2.1.toInt, entry.2.2.toInt⟩

/-- The totals after the complete entries. -/
def levelTotal (options : Options) (content : List UInt8) (level : Int16) : Option LevelInfo :=
  (lastEntry (completeEntries content) level).or options.levelTotalMgr[level]?

/-- The packet sets the levels of its complete entries and no others, and the loop ends
after at most as many turns as the packet has bytes. -/
structure SynExact (server : Server) (packet : PacketBase) (content : List UInt8) : Prop where
  totals : ∀ level : Int16, (server.processSynData (synData packet)).options.levelTotalMgr[level]? =
    levelTotal server.options content level
  bounded : (synData packet).length ≤ content.length

/-- What the loop reads from here on when less than an entry is left: the parts of it
that are there, then the two bytes it may have left, then nothing. -/
def tailRecords (content : List UInt8) (pos count : Nat) : List (Int16 × Int32 × Int32) :=
  let behind := if pos + 6 ≤ content.length then pos + 6 else if pos + 2 ≤ content.length then pos + 2 else pos
  [(shortAt .host content pos, intAt .host content (pos + 2), -1), (shortAt .host content behind, -1, -1)].take count ++
    List.replicate (count - 2) (-1, -1, -1)

/-- Where the last complete entry ends. -/
def tailPlace (content : List UInt8) : Nat := 13 + 10 * slots content

/-- More turns than entries, but what they set is already there. -/
def TailHarmless (options : Options) (content : List UInt8) : Prop :=
  let count := (declaredSize content).toNat - slots content
  ∀ level info, lastEntry (tailRecords content (tailPlace content) count) level = some info →
    levelTotal options content level = some info

variable {server : Server} {packet : PacketBase} {content : List UInt8} {pos : Nat}

/-- The reads of the loop, by their places. -/
private def recordsAt (content : List UInt8) : Nat → Nat → List (Int16 × Int32 × Int32)
  | 0, _ => []
  | count + 1, pos =>
    let playPos := behindField content pos 2
    let lookPos := behindField content playPos 4
    (shortAt .host content pos, intAt .host content playPos, intAt .host content lookPos) ::
      recordsAt content count (behindField content lookPos 4)

private theorem synDataRecords_eq (count : Nat) (reads : At content packet pos) :
    synDataRecords count packet = recordsAt content count pos := by
  induction count generalizing packet pos with
  | zero => rfl
  | succ count ih =>
    obtain ⟨_, level, reads⟩ := reads.readShort .host
    obtain ⟨_, play, reads⟩ := reads.readInt .host
    obtain ⟨_, look, reads⟩ := reads.readInt .host
    simp only [synDataRecords, recordsAt, level, play, look, ih reads]

/-- Entries that are there are read one after the other. -/
private theorem recordsAt_entries (count more : Nat) (inside : pos + 10 * count ≤ content.length) :
    recordsAt content (count + more) pos =
      (List.range count).map (fun i => entryAt content (pos + 10 * i)) ++
        recordsAt content more (pos + 10 * count) := by
  induction count generalizing pos with
  | zero => simp
  | succ count ih =>
    have next : count + 1 + more = count + more + 1 := by omega
    have level : behindField content pos 2 = pos + 2 := if_pos (by omega)
    have play : behindField content (pos + 2) 4 = pos + 6 := if_pos (by omega)
    have look : behindField content (pos + 6) 4 = pos + 10 := if_pos (by omega)
    have later : pos + 10 + 10 * count = pos + 10 * (count + 1) := by omega
    rw [next, recordsAt]
    simp only [level, play, look]
    rw [ih (by omega), List.range_succ_eq_map, List.map_cons, List.map_map, later]
    simp only [entryAt, Nat.mul_zero, Nat.add_zero, List.cons_append, Function.comp_def]
    congr 3
    funext i
    have same : pos + 10 + 10 * i = pos + 10 * (i + 1) := by omega
    simp only [same]

/-- Where nothing is left, the loop reads nothing. -/
private theorem recordsAt_nothing (count : Nat) (short : content.length < pos + 2) :
    recordsAt content count pos = List.replicate count (-1, -1, -1) := by
  induction count with
  | zero => rfl
  | succ count ih =>
    have level : behindField content pos 2 = pos := if_neg (by omega)
    have play : behindField content pos 4 = pos := if_neg (by omega)
    have absent : intAt .host content pos = -1 := intAt_missing .host (by omega)
    rw [recordsAt, List.replicate_succ]
    simp only [level, play, ih, shortAt_missing .host short, absent]

/-- What is read when less than an entry is left: its look count is not there, and when
it has been looked for less than four bytes are left, of which two may be read as a level. -/
private theorem recordsAt_tail (count : Nat) (short : content.length < pos + 10) :
    recordsAt content count pos = tailRecords content pos count := by
  have turn (count : Nat) {start last : Nat} (play : behindField content (behindField content start 2) 4 = last)
      (cut : content.length < last + 4) : recordsAt content (count + 1) start =
        (shortAt .host content start, intAt .host content (behindField content start 2), -1) ::
          recordsAt content count last := by
    have look : behindField content last 4 = last := if_neg (by omega)
    have missing : intAt .host content last = -1 := intAt_missing .host cut
    rw [recordsAt]
    simp only [play, missing, look]
  let behind := if pos + 6 ≤ content.length then pos + 6 else if pos + 2 ≤ content.length then pos + 2 else pos
  have left : content.length < behind + 4 := by grind
  have moved : behindField content (behindField content pos 2) 4 = behind := by
    simp only [behindField, behind]
    split_ifs <;> omega
  have play : intAt .host content (behindField content pos 2) = intAt .host content (pos + 2) := by
    by_cases level : pos + 2 ≤ content.length
    · rw [behindField, if_pos level]
    · rw [behindField, if_neg level, intAt_missing .host (by omega), intAt_missing .host (by omega)]
  have next : content.length < behindField content behind 2 + 2 := by
    simp only [behindField]
    split_ifs <;> omega
  have again : behindField content (behindField content behind 2) 4 = behindField content behind 2 := if_neg (by omega)
  have missing : intAt .host content (behindField content behind 2) = -1 := intAt_missing .host (by omega)
  cases count with
  | zero => rfl
  | succ count =>
    rw [turn count moved left, play]
    cases count with
    | zero => rfl
    | succ count =>
      rw [turn count again (by omega), recordsAt_nothing count next, missing]
      simp [tailRecords, behind]

/-- The records of a packet: its complete entries, and what the loop makes of the rest. -/
private theorem synData_eq (reads : At content packet 9) (named : packet.getCmdType .host = GameCmd.sysSynData) :
    synData packet = completeEntries content ++
      tailRecords content (tailPlace content) ((declaredSize content).toNat - slots content) := by
  obtain ⟨_, size, behind⟩ := reads.readInt .host
  simp only [synData, if_pos named, size]
  by_cases there : 13 ≤ content.length
  · rw [behindField, if_pos there] at behind
    rw [synDataRecords_eq _ behind]
    have inside : 13 + 10 * slots content ≤ content.length ∧ content.length < 13 + 10 * slots content + 10 := by
      simp only [slots]
      omega
    change recordsAt content (declaredSize content).toNat (9 + 4) = _
    by_cases few : (declaredSize content).toNat ≤ slots content
    · have within : 13 + 10 * (declaredSize content).toNat ≤ content.length := by omega
      have all := recordsAt_entries (declaredSize content).toNat 0 within
      rw [completeEntries, Nat.min_eq_left few, Nat.sub_eq_zero_of_le few]
      exact all
    · have more : (declaredSize content).toNat = slots content + ((declaredSize content).toNat - slots content) := by
        omega
      have all := recordsAt_entries (slots content) ((declaredSize content).toNat - slots content) inside.1
      rw [completeEntries, Nat.min_eq_right (by omega), tailPlace, ← recordsAt_tail _ inside.2, ← all, ← more]
  · have absent : declaredSize content = -1 := by
      rw [declaredSize, intAt_missing .host (by omega)]
      rfl
    have none : (intAt .host content 9).toInt.toNat = 0 := by
      rw [← declaredSize, absent]
      rfl
    rw [none, completeEntries, absent]
    simp [synDataRecords, tailRecords]

private theorem tailRecords_length (count : Nat) : (tailRecords content pos count).length = count := by
  simp only [tailRecords, List.length_append, List.length_take, List.length_cons, List.length_nil,
    List.length_replicate]
  omega

/-- Later entries win. -/
private theorem lastEntry_append (early late : List (Int16 × Int32 × Int32)) (level : Int16) :
    lastEntry (early ++ late) level = (lastEntry late level).or (lastEntry early level) := by
  rw [lastEntry, List.reverse_append, List.find?_append, Option.map_or]
  rfl

/-- What `ProcessSynData` leaves is what its records say, on top of what there was. -/
theorem processSynData_totals (records : List (Int16 × Int32 × Int32)) (level : Int16) :
    (server.processSynData records).options.levelTotalMgr[level]? =
      (lastEntry records level).or server.options.levelTotalMgr[level]? := by
  induction records generalizing server with
  | nil => rfl
  | cons record rest ih =>
    have split : lastEntry (record :: rest) level = (lastEntry rest level).or (lastEntry [record] level) :=
      lastEntry_append [record] rest level
    rw [Server.processSynData, List.foldl_cons, ← Server.processSynData, ih, split, Option.or_assoc]
    congr 1
    by_cases same : record.1 = level
    · subst same
      simp [lastEntry, Options.setLevelCount]
    · simp [lastEntry, Options.setLevelCount, TreeMap.getElem?_insert, same]

/-- The totals are exactly those of the entries in the packet, in few turns, unless the
packet declares more entries than it has and the rest of the loop shows. -/
theorem syn_exact_iff (server : Server) (receiver : PacketBase) (fits : content.length ≤ 8192)
    (named : (receiver.copy content).2.getCmdType .host = GameCmd.sysSynData) :
    SynExact server (receiver.copy content).2 content ↔
      declaredSize content ≤ slots content ∨
        declaredSize content ≤ content.length ∧ TailHarmless server.options content := by
  have records := synData_eq (At.copied fits receiver) named
  have turns : (synData (receiver.copy content).2).length = (declaredSize content).toNat := by
    rw [records, List.length_append, tailRecords_length, completeEntries, List.length_map, List.length_range]
    omega
  have few : slots content ≤ content.length := by
    simp only [slots]
    omega
  have totals (level : Int16) :
      (server.processSynData (synData (receiver.copy content).2)).options.levelTotalMgr[level]? =
        (lastEntry (tailRecords content (tailPlace content) ((declaredSize content).toNat - slots content)) level).or
          (levelTotal server.options content level) := by
    rw [processSynData_totals, records, lastEntry_append, Option.or_assoc, levelTotal]
  constructor
  · intro exact
    have bounded := exact.bounded
    rw [turns] at bounded
    refine .inr ⟨by omega, fun level info found => ?_⟩
    have same := exact.totals level
    rw [totals, found, Option.some_or] at same
    exact same.symm
  · intro fair
    refine ⟨fun level => ?_, ?_⟩
    · rw [totals]
      rcases fair with inside | ⟨_, harmless⟩
      · have empty : (declaredSize content).toNat - slots content = 0 := by omega
        rw [empty]
        rfl
      · cases found : lastEntry
            (tailRecords content (tailPlace content) ((declaredSize content).toNat - slots content)) level with
        | none => rfl
        | some info => exact (harmless level info found).symm
    · rw [turns]
      rcases fair with inside | ⟨bounded, _⟩ <;> omega

/-- Levels 2, 3 and 2 again. -/
def threeEntries : List UInt8 :=
  [41, 0, 66, 89, 1, 1, 0x0D, 0x05, 0, 3, 0, 0, 0,
    2, 0, 5, 0, 0, 0, 1, 0, 0, 0, 3, 0, 6, 0, 0, 0, 0, 0, 0, 0, 2, 0, 7, 0, 0, 0, 2, 0, 0, 0]

/-- Levels 2 and 9 have totals already. -/
def earlierTotals : Server := (Server.initial 1 0).processSynData [(2, 1, 1), (9, 4, 0)]

/-- The last entry of a level counts, and a level without one keeps its totals. -/
theorem syn_exact_iff_threeEntries :
    SynExact earlierTotals (fresh.copy threeEntries).2 threeEntries ∧
      ([2, 3, 9, 4] : List Int16).map (fun level => levelTotal earlierTotals.options threeEntries level) =
        [some ⟨7, 2⟩, some ⟨6, 0⟩, some ⟨4, 0⟩, none] := by
  have declared : declaredSize threeEntries ≤ slots threeEntries := by decide
  refine ⟨(syn_exact_iff earlierTotals fresh (by decide) (by decide)).mpr (.inl declared), ?_⟩
  have entries : completeEntries threeEntries = [(2, 5, 1), (3, 6, 0), (2, 7, 2)] := by decide
  have before : (Server.initial 1 0).options.levelTotalMgr = ∅ := rfl
  simp [levelTotal, entries, earlierTotals, processSynData_totals, before, lastEntry]

/-- A packet that declares an entry and has none. -/
def missingEntry : List UInt8 := [11, 0, 66, 89, 1, 1, 0x0D, 0x05, 0, 1, 0, 0, 0]

/-- It sets level `-1`, of which the packet says nothing. -/
theorem missing_entry_sets_level :
    ((Server.initial 1 0).processSynData (synData (fresh.copy missingEntry).2)).options.levelTotalMgr[(-1 : Int16)]? =
        some ⟨-1, -1⟩ ∧
      ¬ SynExact (Server.initial 1 0) (fresh.copy missingEntry).2 missingEntry := by
  have records : synData (fresh.copy missingEntry).2 = [(-1, -1, -1)] := by
    rw [synData_eq (At.copied (by decide) fresh) (by decide)]
    decide
  have set : ((Server.initial 1 0).processSynData
      (synData (fresh.copy missingEntry).2)).options.levelTotalMgr[(-1 : Int16)]? = some ⟨-1, -1⟩ := by
    rw [processSynData_totals, records]
    rfl
  refine ⟨set, fun exact => ?_⟩
  have same := exact.totals (-1)
  have none : levelTotal (Server.initial 1 0).options missingEntry (-1) = none := by
    simp [levelTotal, Server.initial, Options.initial]
    decide
  rw [set, none] at same
  cases same

end TeenpattiUserServer.UserServer
