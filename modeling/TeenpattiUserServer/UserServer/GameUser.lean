import TeenpattiUserServer.Packet.Fields
import TeenpattiUserServer.Shm.Table

/-! `CGameUser`, the record kept for a user, and `GameUserSHM`, the shared table of
these records. The table of byte strings refines the table of records. -/

namespace TeenpattiUserServer.UserServer

open Bytes Packet Shm

/-- The fields lie packed in memory in this order. -/
structure GameUser where
  uid : Int32
  hallServerId : Int32
  tid : Int32
  terminalType : Int16
  serverLevel : Int16
  updateTime : Int32
  deriving DecidableEq

namespace GameUser

/-- `CGameUser(uid, svid, terminalType, updateTime)` -/
def create (uid svid : Int32) (terminalType : Int16) (updateTime : Int32) : GameUser :=
  ⟨uid, svid, 0, terminalType, -1, updateTime⟩

/-- The `sizeof(CGameUser)` bytes of a record. -/
def encode (user : GameUser) : List UInt8 :=
  PacketBase.intBytes .host user.uid ++ PacketBase.intBytes .host user.hallServerId ++
    PacketBase.intBytes .host user.tid ++ PacketBase.shortBytes .host user.terminalType ++
    PacketBase.shortBytes .host user.serverLevel ++ PacketBase.intBytes .host user.updateTime

def decode (data : List UInt8) : GameUser :=
  ⟨PacketBase.toInt .host (data.take 4), PacketBase.toInt .host ((data.drop 4).take 4),
    PacketBase.toInt .host ((data.drop 8).take 4), PacketBase.toShort .host ((data.drop 12).take 2),
    PacketBase.toShort .host ((data.drop 14).take 2), PacketBase.toInt .host ((data.drop 16).take 4)⟩

theorem encode_length (user : GameUser) : user.encode.length = 20 := by
  simp [encode]

/-- A record reads back from its bytes. -/
theorem decode_encode (user : GameUser) : decode user.encode = user := by
  simp [decode, encode, List.drop_append, List.drop_of_length_le, List.take_of_length_le,
    PacketBase.toInt_intBytes, PacketBase.toShort_shortBytes]

end GameUser

/-- The users in the order of their last access, and the free nodes. Nodes and
chunks are equally many, and a record fills one chunk. -/
structure GameUserSHM where
  users : AList fun _ : Int32 => GameUser
  freeNodes : Nat

namespace GameUserSHM

def lookup (shm : GameUserSHM) (uid : Int32) : Option GameUser := shm.users.lookup uid

/-- A search that succeeds moves the user to the front. -/
def find (shm : GameUserSHM) (uid : Int32) : Option GameUser × GameUserSHM :=
  match shm.users.lookup uid with
  | none => (none, shm)
  | some user => (some user, { shm with users := shm.users.insert uid user })

def setValue (shm : GameUserSHM) (user : GameUser) : Int × GameUserSHM :=
  match shm.users.lookup user.uid with
  | some _ => (0, { shm with users := shm.users.insert user.uid user })
  | none =>
    if shm.freeNodes = 0 then (-1, shm)
    else (0, ⟨shm.users.insert user.uid user, shm.freeNodes - 1⟩)

def delete (shm : GameUserSHM) (uid : Int32) : Int × GameUserSHM :=
  match shm.users.lookup uid with
  | none => (-1, shm)
  | some _ => (0, ⟨shm.users.erase uid, shm.freeNodes + 1⟩)

/-- The records a `vistor` meets from `begin` to the end. -/
def visit (shm : GameUserSHM) : List GameUser := shm.users.entries.map fun entry => entry.2

/-- The bytes of all records. -/
def encodeAll (users : AList fun _ : Int32 => GameUser) : AList fun _ : Int32 => List UInt8 :=
  ⟨users.entries.map fun entry => ⟨entry.1, entry.2.encode⟩, users.nodupKeys.map₂ fun _ => GameUser.encode⟩

/-- The same table with the bytes of the records. -/
def table (shm : GameUserSHM) : Table Int32 := ⟨encodeAll shm.users, shm.freeNodes, shm.freeNodes, 20⟩

private theorem kerase_encode (uid : Int32) (entries : List ((_ : Int32) × GameUser)) :
    List.kerase uid (entries.map fun entry => (⟨entry.1, entry.2.encode⟩ : (_ : Int32) × List UInt8)) =
      (List.kerase uid entries).map fun entry => ⟨entry.1, entry.2.encode⟩ := by
  rw [List.kerase, List.eraseP_map]
  rfl

private theorem encodeAll_lookup (users : AList fun _ : Int32 => GameUser) (uid : Int32) :
    (encodeAll users).lookup uid = (users.lookup uid).map GameUser.encode := by
  have mapped := List.dlookup_map₂ (l := users.entries) (f := fun _ : Int32 => GameUser.encode) uid
  exact mapped

private theorem encodeAll_insert (users : AList fun _ : Int32 => GameUser) (uid : Int32) (user : GameUser) :
    (encodeAll users).insert uid user.encode = encodeAll (users.insert uid user) := by
  apply AList.ext
  rw [AList.entries_insert]
  change _ :: List.kerase uid (users.entries.map _) = _
  rw [kerase_encode]
  rfl

private theorem encodeAll_erase (users : AList fun _ : Int32 => GameUser) (uid : Int32) :
    (encodeAll users).erase uid = encodeAll (users.erase uid) := by
  apply AList.ext
  exact kerase_encode uid users.entries

variable (shm : GameUserSHM) (uid : Int32) (user : GameUser)

private theorem chunksFor_encode : shm.table.chunksFor user.encode = 1 := by
  rw [Table.chunksFor, GameUser.encode_length]
  change ChunkAllocator.getChunkNum 20 20 = 1
  decide

private theorem table_lookup : shm.table.entries.lookup uid = (shm.users.lookup uid).map GameUser.encode :=
  encodeAll_lookup shm.users uid

/-- `Find` with a buffer for one record returns the record's bytes. -/
theorem table_find : shm.table.find uid 20 =
    (match (shm.find uid).1 with
      | none => ⟨-1, 20, []⟩
      | some user => ⟨0, 20, user.encode⟩, (shm.find uid).2.table) := by
  cases found : shm.users.lookup uid with
  | none => simp [Table.find, find, table_lookup, found]
  | some user =>
    have touched : shm.table.touch uid = table ⟨shm.users.insert uid user, shm.freeNodes⟩ := by
      simp only [Table.touch, table_lookup, found, Option.map_some]
      simp [table, ← encodeAll_insert]
    simp [Table.find, find, table_lookup, found, touched, GameUser.encode_length]

/-- `SetValue` fails on a full table for a new user only. -/
theorem table_setValue : shm.table.setValue user.uid user.encode =
    ((shm.setValue user).1, (shm.setValue user).2.table) := by
  have nonempty : user.encode ≠ [] := List.ne_nil_of_length_pos (by rw [user.encode_length]; decide)
  have inserted := encodeAll_insert shm.users user.uid user
  cases found : shm.users.lookup user.uid with
  | none =>
    simp only [Table.setValue, table_lookup, found, Option.map_none, Table.add, chunksFor_encode, setValue]
    by_cases full : shm.freeNodes = 0
    · simp [table, full]
    · have room : ¬ shm.freeNodes < 1 := by omega
      simp [table, full, nonempty, ← inserted]
  | some old =>
    simp only [Table.setValue, table_lookup, found, Option.map_some, chunksFor_encode, setValue]
    rw [if_neg (by omega)]
    simp [table, ← inserted]

theorem table_delete : shm.table.delete uid = ((shm.delete uid).1, (shm.delete uid).2.table) := by
  cases found : shm.users.lookup uid with
  | none => simp [Table.delete, table_lookup, delete, found]
  | some old =>
    simp only [Table.delete, table_lookup, found, Option.map_some, chunksFor_encode, delete]
    simp [table, ← encodeAll_erase]

end GameUserSHM

end TeenpattiUserServer.UserServer
