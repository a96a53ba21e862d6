import TeenpattiUserServer.UserServer.Run

/-! Logins and a table that is full. The login is counted and answered before the
record is stored, and nobody looks at what storing it returns. -/

namespace TeenpattiUserServer.UserServer

open Std Bookkeeping Packet

/-- The bytes that go to a hall for a packet to a client. -/
def clientBytes (uid svid : Int32) (packet : PacketBase) : List UInt8 :=
  (netPacket GameCmd.clientPacket
    [.int uid, .int svid, .binary (OutputPacket.encryptBuffer ⟨packet, false⟩).2.base.bytes]).bytes

/-- Some client is told that the login succeeded. -/
def ReportsSuccess (bytes : List UInt8) : Prop :=
  ∃ uid svid writes, bytes = clientBytes uid svid (netPacket GameCmd.serverCmdLoginSuccess writes)

namespace Server

variable {server after : Server} {answers : Answers} {uid svid userId : Int32} {terminalType : Int16}

/-- The packets a step sends. -/
def replies (before after : Server) : List (List UInt8) := after.sent.drop before.sent.length

/-- The statistics stay, and no success is reported. -/
structure Uncounted (before after : Server) : Prop where
  stat : after.stat = before.stat
  silent : ∀ bytes ∈ replies before after, ¬ ReportsSuccess bytes

/-- No store takes a user out. -/
private theorem setValue_stored {user : GameUser} (stored : server.store.lookup userId ≠ none) :
    (server.setValue user).store.lookup userId ≠ none := by
  cases found : server.store.lookup user.uid with
  | some old =>
    rw [store_setValue server found, lookup_put_eq]
    split
    · simp
    · exact stored
  | none =>
    have different : userId ≠ user.uid := by
      rintro rfl
      exact stored found
    rw [store_setValue_new server found, lookup_put_ne _ different]
    exact stored

private theorem sent_enterHall (found : Option GameUser) :
    ∃ earlier, (enterHall answers uid svid userId terminalType found server).2.sent = server.sent ++ earlier := by
  cases found with
  | none => exact ⟨[], (List.append_nil _).symm⟩
  | some user =>
    simp only [enterHall]
    split
    · exact ⟨[_, _], List.append_assoc ..⟩
    · exact ⟨[], (List.append_nil _).symm⟩

private theorem sent_tableServer (tid : Int32) : (server.tableServer answers tid).2.sent = server.sent := by
  rw [tableServer]
  split <;> rfl

/-- A search, the hall, the list and the server of the table leave the stored users. -/
private theorem login_run (valid : 0 < userId) : ∃ (middle : Server) (record : GameUser) (writes : List Write),
    middle.store = server.store ∧ middle.gshm.freeNodes = server.gshm.freeNodes ∧
    (server.store.lookup userId = none → record.uid = userId) ∧
    (∃ earlier, middle.sent = server.sent ++ earlier) ∧
    server.processUserLogin answers uid svid userId terminalType =
      (middle.setValue record).sendClientPacket uid svid (netPacket GameCmd.serverCmdLoginSuccess writes) := by
  let entered := enterHall answers uid svid userId terminalType (server.store.lookup userId) (server.find userId).2
  let middle := ((entered.2.deleteOfflineUser userId).tableServer answers entered.1.tid).2
  have invalid : ¬ userId ≤ 0 := Int32.not_le.mpr valid
  have sent : ∃ earlier, middle.sent = server.sent ++ earlier := by
    obtain ⟨earlier, sent⟩ := @sent_enterHall (server.find userId).2 answers uid svid userId terminalType
      (server.store.lookup userId)
    exact ⟨earlier, (sent_tableServer _).trans sent⟩
  have own : server.store.lookup userId = none → entered.1.uid = userId := fun absent => by
    simp only [entered, absent, enterHall]
    rfl
  let logic := ((entered.2.deleteOfflineUser userId).tableServer answers entered.1.tid).1
  let record :=
    if 0 < entered.1.tid then { entered.1 with serverLevel := (logic.map (·.level)).getD (-1) } else entered.1
  have key : record.uid = entered.1.uid := by
    simp only [record]
    split <;> rfl
  refine ⟨middle, record, .int (Int32.ofNat levelArr.length) :: levelArr.map .int ++
    [.int (if 0 < entered.1.tid then entered.1.tid else 0), .string ((logic.map (·.ip)).getD []),
      .int ((logic.map (·.port)).getD 0)], by simp [middle, entered], by simp [middle, entered, deleteOfflineUser],
    fun absent => key.trans (own absent), sent, ?_⟩
  rw [processUserLogin, if_neg invalid]
  simp only [find_fst]
  rfl

/-- Every login that is not refused is answered with a success. -/
private theorem login_reports (valid : 0 < userId) :
    ∃ bytes ∈ replies server (server.processUserLogin answers uid svid userId terminalType), ReportsSuccess bytes := by
  obtain ⟨middle, record, writes, _, _, _, ⟨earlier, sent⟩, ran⟩ :=
    @login_run server answers uid svid userId terminalType valid
  have last : (server.processUserLogin answers uid svid userId terminalType).sent = server.sent ++
      (earlier ++ [clientBytes uid svid (netPacket GameCmd.serverCmdLoginSuccess writes)]) := by
    rw [ran, ← List.append_assoc, ← sent]
    rfl
  exact ⟨_, by simp [replies, last], uid, svid, writes, rfl⟩

/-- A login of a new user does nothing where there is no room, and a login that
counts stores its user: this holds exactly when the login is refused, the user is
stored already, or there is room. -/
theorem login_counted_only_stored_iff (answers : Answers) (uid svid userId : Int32) (terminalType : Int16)
    (server : Server) :
    (Uncounted server (server.processUserLogin answers uid svid userId terminalType) ∨
      (server.processUserLogin answers uid svid userId terminalType).gshm.lookup userId ≠ none) ↔
    userId ≤ 0 ∨ server.gshm.lookup userId ≠ none ∨ server.gshm.freeNodes ≠ 0 := by
  rw [gshm_lookup, gshm_lookup]
  by_cases invalid : userId ≤ 0
  · rw [processUserLogin, if_pos invalid]
    refine iff_of_true (.inl ⟨rfl, ?_⟩) (.inl invalid)
    simp [replies]
  · have valid : 0 < userId := Int32.not_le.mp invalid
    have reported : ¬ Uncounted server (server.processUserLogin answers uid svid userId terminalType) := by
      intro uncounted
      obtain ⟨bytes, sent, success⟩ := @login_reports server answers uid svid userId terminalType valid
      exact uncounted.silent bytes sent success
    obtain ⟨middle, record, writes, store, free, own, _, ran⟩ :=
      @login_run server answers uid svid userId terminalType valid
    have stored : (server.processUserLogin answers uid svid userId terminalType).store =
        (middle.setValue record).store := by
      rw [ran]
      rfl
    simp only [reported, false_or, invalid, stored]
    cases found : server.store.lookup userId with
    | some user =>
      refine iff_of_true (setValue_stored ?_) (.inl (by simp))
      simp [store, found]
    | none =>
      have key := own found
      have absent : middle.store.lookup record.uid = none := by rw [store, key, found]
      rw [store_setValue_new middle absent, key, lookup_put, free]
      by_cases full : server.gshm.freeNodes = 0 <;> simp [full]

/-- A table with one node, which user 7 has. -/
def fullTable : Server := (initial 1 0).processUserLogin (quiet 1000) 7 1 7 3

/-- User 8 is counted and told of a success, and is not in the table. -/
theorem full_table_counts_login :
    (fullTable.ReachedBy fun _ _ _ => True) ∧ fullTable.gshm.freeNodes = 0 ∧ fullTable.gshm.lookup 8 = none ∧
      fullTable.stat.online 3 = 1 ∧ (fullTable.processUserLogin (quiet 1000) 8 1 8 3).stat.online 3 = 2 ∧
      (∃ bytes ∈ replies fullTable (fullTable.processUserLogin (quiet 1000) 8 1 8 3), ReportsSuccess bytes) ∧
      (fullTable.processUserLogin (quiet 1000) 8 1 8 3).gshm.lookup 8 = none := by
  have login : (initial 1 0).step (.request (.userLogin 7 1 7 3)) (quiet 1000) = some fullTable := rfl
  exact ⟨.next (.start (fresh_initial 1 0)) trivial login, by decide, by decide, by decide, by decide,
    login_reports (by decide), by decide⟩

end Server

end TeenpattiUserServer.UserServer
