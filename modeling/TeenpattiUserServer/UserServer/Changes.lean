import TeenpattiUserServer.UserServer.Book

/-! What a step can do to the ledger: for each handler and each timer, the changes
of single users it is made of. -/

namespace TeenpattiUserServer.UserServer

open Std Bookkeeping

/-- What a server process reacts to: requests, the report of the statistics server
and the checks of two timers. -/
inductive Event where
  | request (request : Request)
  | synData (records : List (Int16 × Int32 × Int32))
  | offlineCheck
  | flushCheck

/-- `none` when the step faults. -/
def Server.step (event : Event) (answers : Answers) (server : Server) : Option Server :=
  match event with
  | .request request => server.serve request answers
  | .synData records => some (server.processSynData records)
  | .offlineCheck => some (server.processOfflineCheck answers)
  | .flushCheck => some (server.processFlushCheck answers)

abbrev Change := Edit Int32 GameUser Book

namespace Change

/-- A new user logs in; the record is stored when there is room. -/
def arrive (user : GameUser) (room : Bool) : Change where
  key := user.uid
  old := none
  new := if room then some user else none
  note book := (book.updateTerminal (.loginHall none) user.terminalType).clearOffline user.uid

/-- A stored user logs in again. -/
def reenter (user entered : GameUser) : Change where
  key := user.uid
  old := some user
  new := some entered
  note book := (book.updateTerminal (.loginHall (some ⟨user.terminalType, user.tid⟩))
    entered.terminalType).clearOffline user.uid

/-- Only the time of a record changes. -/
def refresh (user : GameUser) (time : Int32) : Change where
  key := user.uid
  old := some user
  new := some { user with updateTime := time }
  note := id

/-- The connection closes while the user sits at a table. -/
def detach (user : GameUser) (time : Int32) : Change where
  key := user.uid
  old := some user
  new := some { user with hallServerId := -1, updateTime := time }
  note := Book.setOffline user.uid time

/-- A user is taken out, with or without a note that a table or a level is left. -/
def depart (user : GameUser) (seated levelled : Bool) : Change where
  key := user.uid
  old := some user
  new := none
  note book :=
    let left := (book.updateTerminal .logoutHall user.terminalType).logoutTable seated user
    (if levelled then left.logoutLevel user else left).clearOffline user.uid

def leave (user : GameUser) (time : Int32) : Change where
  key := user.uid
  old := some user
  new := some { user with tid := 0, serverLevel := -1, updateTime := time }
  note book := (book.logoutTable (0 < user.tid) user).logoutLevel user

/-- A user sits down at a table of a server with this level, if it is known. -/
def sit (user : GameUser) (tid time : Int32) (level : Option Int16) : Change where
  key := user.uid
  old := some user
  new := some { user with tid := tid, updateTime := time, serverLevel := level.getD user.serverLevel }
  note book :=
    match level with
    | none => book.loginTable user
    | some level =>
      if level ≠ user.serverLevel then ((book.loginTable user).logoutLevel user).updateLevel .login level
      else book.loginTable user

/-- The hall of a user is gone. -/
def disconnect (user : GameUser) (time : Int32) : Change where
  key := user.uid
  old := some user
  new := some { user with hallServerId := -1 }
  note book := if (book.offline user.uid).isNone then book.setOffline user.uid time else book

/-- A user of the offline list who is not stored. -/
def forget (uid : Int32) : Change where
  key := uid
  old := none
  new := none
  note := Book.clearOffline uid

end Change

/-- The level a login finds for the server of this table, `-1` when it finds none. -/
def lookedUpLevel (answers : Answers) (server : Server) (tid : Int32) : Int16 :=
  ((server.options.findServer answers (tid >>> 16).toInt16).1.map (·.level)).getD (-1)

/-- The record a login stores. -/
def loginRecord (answers : Answers) (server : Server) (svid userId : Int32) (terminalType : Int16)
    (found : Option GameUser) : GameUser :=
  let tid := (found.map (·.tid)).getD (Server.seededTid answers server.options.startTime userId)
  { uid := userId, hallServerId := svid, tid := tid, terminalType := terminalType
    serverLevel := if 0 < tid then lookedUpLevel answers server tid else (found.map (·.serverLevel)).getD (-1)
    updateTime := answers.time 0 }

/-- The changes each event may consist of. -/
inductive Cause (answers : Answers) (server : Server) : Event → Change → Prop
  | arrive {uid svid userId terminalType} (valid : 0 < userId) (absent : server.store.lookup userId = none) :
      Cause answers server (.request (.userLogin uid svid userId terminalType))
        (.arrive (loginRecord answers server svid userId terminalType none) (server.gshm.freeNodes ≠ 0))
  | reenter {uid svid userId terminalType user} (valid : 0 < userId) (stored : server.store.lookup userId = some user) :
      Cause answers server (.request (.userLogin uid svid userId terminalType))
        (.reenter user (loginRecord answers server svid userId terminalType (some user)))
  | refresh {uid svid level sid user} :
      Cause answers server (.request (.getUserTable uid svid level sid)) (.refresh user (answers.time 0))
  | detach {uid user} (seated : 0 < user.tid) :
      Cause answers server (.request (.clientClose uid)) (.detach user (answers.time 0))
  | close {uid user} (standing : ¬ 0 < user.tid) :
      Cause answers server (.request (.clientClose uid)) (.depart user false false)
  | leave {uid user} : Cause answers server (.request (.userLeaveRoom uid)) (.leave user (answers.time 0))
  | sit {uid tid user} (level : Option Int16) :
      Cause answers server (.request (.userEnterRoom uid tid)) (.sit user tid (answers.time 0) level)
  | tid0 {serverId user} (affected : Server.atServer serverId user) :
      Cause answers server (.request (.logicCore serverId)) (.leave user user.updateTime)
  | disconnect {hid user time} (affected : user.hallServerId = hid) :
      Cause answers server (.request (.hallCore hid)) (.disconnect user time)
  | expire {user} (listed : server.book.offline user.uid ≠ none) :
      Cause answers server .offlineCheck (.depart user (0 < user.tid) true)
  | forget {uid} : Cause answers server .offlineCheck (.forget uid)
  | flush {user} (idle : Server.idle (answers.time 0) user) :
      Cause answers server .flushCheck (.depart user (user.tid ≠ 0) true)

namespace Server

/-- Every record is stored under its own uid. -/
def Keyed (server : Server) : Prop := ∀ uid user, server.store.lookup uid = some user → user.uid = uid

theorem Keyed.own {server : Server} (keyed : server.Keyed) {uid : Int32} {user : GameUser}
    (stored : server.store.lookup uid = some user) : server.store.lookup user.uid = some user := by
  rw [keyed uid user stored]
  exact stored

/-- The step is a sequence of changes that the event can cause. -/
def Changes (answers : Answers) (server : Server) (event : Event) (after : Server) : Prop :=
  ∃ changes, Follows server.ledger changes after.ledger ∧ ∀ change ∈ changes, Cause answers server event change

variable {answers : Answers} {server after : Server} {event : Event}

theorem unchanged (store : after.store = server.store) (book : after.book = server.book) :
    Changes answers server event after := by
  have same : after.ledger = server.ledger := Ledger.ext store book
  exact ⟨[], same ▸ .refl _, nofun⟩

private theorem changed {change : Change} (cause : Cause answers server event change)
    (fits : server.store.lookup change.key = change.old)
    (store : after.store = put server.store change.key change.new)
    (book : after.book = change.note server.book) : Changes answers server event after := by
  refine ⟨[change], .single fits (Ledger.ext store book), fun other member => ?_⟩
  rwa [List.mem_singleton.mp member]

private theorem findServer_deleteOfflineUser (options : Options) (uid : Int32) (serverId : Int16) :
    ((options.deleteOfflineUser uid).findServer answers serverId).1 = (options.findServer answers serverId).1 := by
  simp only [Options.findServer, Options.getServer, Options.deleteOfflineUser]
  cases options.serverList[serverId.toInt32]? with
  | some logic => rfl
  | none => cases getServerInfoFromMc answers serverId <;> rfl

/-- What `ProcessUserLogin` stores is the login record. -/
private theorem login_stores (keyed : server.Keyed) (uid svid userId : Int32) (terminalType : Int16) :
    let found := server.store.lookup userId
    let entered := enterHall answers uid svid userId terminalType found (server.find userId).2
    let logic := ((entered.2.deleteOfflineUser userId).tableServer answers entered.1.tid).1
    (if 0 < entered.1.tid then { entered.1 with serverLevel := (logic.map (·.level)).getD (-1) } else entered.1) =
      loginRecord answers server svid userId terminalType found := by
  intro found entered logic
  have level : 0 < entered.1.tid → (logic.map (·.level)).getD (-1) = lookedUpLevel answers server entered.1.tid := by
    intro seated
    have options : entered.2.options = server.options := by simp [entered]
    simp only [logic, tableServer, seated, if_true, findServer, deleteOfflineUser, options,
      findServer_deleteOfflineUser, lookedUpLevel]
  have record : entered.1 = { loginRecord answers server svid userId terminalType found with
      serverLevel := (found.map (·.serverLevel)).getD (-1) } := by
    simp only [entered, found]
    cases stored : server.store.lookup userId with
    | none => rfl
    | some user => simp [enterHall, loginRecord, GameUser.create, keyed userId user stored]
  by_cases seated : 0 < entered.1.tid
  · rw [if_pos seated, level seated]
    rw [record] at seated ⊢
    simp only [loginRecord] at seated ⊢
    rw [if_pos seated]
  · rw [if_neg seated]
    rw [record] at seated ⊢
    simp only [loginRecord] at seated ⊢
    rw [if_neg seated]

theorem processUserLogin_refused {uid svid userId : Int32} {terminalType : Int16} (invalid : userId ≤ 0) :
    server.processUserLogin answers uid svid userId terminalType = server := by
  rw [processUserLogin, if_pos invalid]

/-- A login stores the login record over what is stored, and is noted in the book. -/
private theorem processUserLogin_run (keyed : server.Keyed) {uid svid userId : Int32} {terminalType : Int16}
    (valid : 0 < userId) : ∃ middle : Server, middle.store = server.store ∧
      middle.gshm.freeNodes = server.gshm.freeNodes ∧
      (server.processUserLogin answers uid svid userId terminalType).store =
        (middle.setValue (loginRecord answers server svid userId terminalType (server.store.lookup userId))).store ∧
      (server.processUserLogin answers uid svid userId terminalType).book =
        (server.book.updateTerminal (.loginHall ((server.store.lookup userId).map fun user =>
          ⟨user.terminalType, user.tid⟩)) terminalType).clearOffline userId := by
  let entered := enterHall answers uid svid userId terminalType (server.store.lookup userId) (server.find userId).2
  let middle := ((entered.2.deleteOfflineUser userId).tableServer answers entered.1.tid).2
  have invalid : ¬ userId ≤ 0 := Int32.not_le.mpr valid
  have record := @login_stores answers server keyed uid svid userId terminalType
  refine ⟨middle, by simp [middle, entered], by simp [middle, entered, deleteOfflineUser], ?_, ?_⟩
  · rw [processUserLogin, if_neg invalid, ← record]
    simp only [find_fst]
    rfl
  · have book : middle.book = (server.book.updateTerminal (.loginHall ((server.store.lookup userId).map fun user =>
        ⟨user.terminalType, user.tid⟩)) terminalType).clearOffline userId := by simp [middle, entered]
    rw [processUserLogin, if_neg invalid, ← book]
    simp only [find_fst]
    rfl

theorem processUserLogin_absent (keyed : server.Keyed) {uid svid userId : Int32} {terminalType : Int16}
    (valid : 0 < userId) (absent : server.store.lookup userId = none) :
    (server.processUserLogin answers uid svid userId terminalType).ledger = server.ledger.apply
      (Change.arrive (loginRecord answers server svid userId terminalType none) (server.gshm.freeNodes ≠ 0)) := by
  obtain ⟨middle, store, free, stored, noted⟩ :=
    @processUserLogin_run answers server keyed uid svid userId terminalType valid
  rw [absent] at stored noted
  refine Ledger.ext ?_ noted
  rw [ledger_store, stored, store_setValue_new middle (by rw [store]; exact absent), store, free]
  simp [Ledger.apply, Change.arrive]

theorem processUserLogin_stored (keyed : server.Keyed) {uid svid userId : Int32} {terminalType : Int16}
    {user : GameUser} (valid : 0 < userId) (found : server.store.lookup userId = some user) :
    (server.processUserLogin answers uid svid userId terminalType).ledger = server.ledger.apply
      (Change.reenter user (loginRecord answers server svid userId terminalType (some user))) := by
  have key := keyed userId user found
  obtain ⟨middle, store, _, stored, noted⟩ :=
    @processUserLogin_run answers server keyed uid svid userId terminalType valid
  rw [found] at stored noted
  refine Ledger.ext ?_ ?_
  · rw [ledger_store, stored, store_setValue middle (by rw [store]; exact found), store]
    simp [Ledger.apply, Change.reenter, key, loginRecord]
  · rw [ledger_book, noted]
    simp [Ledger.apply, Change.reenter, key, loginRecord]

theorem processUserLogin_changes (keyed : server.Keyed) (uid svid userId : Int32) (terminalType : Int16) :
    Changes answers server (.request (.userLogin uid svid userId terminalType))
      (server.processUserLogin answers uid svid userId terminalType) := by
  by_cases invalid : userId ≤ 0
  · rw [processUserLogin_refused invalid]
    exact unchanged rfl rfl
  · have valid : 0 < userId := Int32.not_le.mp invalid
    cases found : server.store.lookup userId with
    | none =>
      have same := @processUserLogin_absent answers server keyed uid svid userId terminalType valid found
      exact changed (.arrive valid found) found (congrArg Ledger.store same) (congrArg Ledger.book same)
    | some user =>
      have same := @processUserLogin_stored answers server keyed uid svid userId terminalType user valid found
      exact changed (.reenter valid found) (keyed.own found) (congrArg Ledger.store same) (congrArg Ledger.book same)

private theorem setValue_put {current : Server} {user updated : GameUser}
    (own : server.store.lookup user.uid = some user) (store : current.store = server.store)
    (same : updated.uid = user.uid) :
    (current.setValue updated).store = put server.store user.uid (some updated) := by
  rw [← store, ← same] at own
  rw [store_setValue current own, same, store]

/-- The time of a user at a table is renewed. -/
theorem processGetUserTable_seated (keyed : server.Keyed) {uid svid : Int32} {level : Int16} {sid : Int32}
    {user : GameUser} (stored : server.store.lookup uid = some user) (seated : 0 < user.tid) :
    (server.processGetUserTable answers uid svid level sid).ledger =
      server.ledger.apply (Change.refresh user (answers.time 0)) := by
  rcases server.find_cases uid with ⟨_, _, absent, _⟩ | ⟨found, middle, ran, present, store, book⟩
  · simp [stored] at absent
  · obtain rfl : user = found := by simpa [stored] using present
    refine Ledger.ext ?_ ?_ <;> simp only [processGetUserTable, ran, seated, if_true]
    · exact setValue_put (keyed.own stored) (by simp [store]) rfl
    · simp [ledger, Ledger.apply, Change.refresh, book]

theorem processGetUserTable_changes (keyed : server.Keyed) (uid svid : Int32) (level : Int16) (sid : Int32) :
    Changes answers server (.request (.getUserTable uid svid level sid))
      (server.processGetUserTable answers uid svid level sid) := by
  rcases server.find_cases uid with ⟨middle, ran, _, store, book⟩ | ⟨user, middle, ran, stored, store, book⟩
  · exact unchanged (by simpa [processGetUserTable, ran] using store) (by simpa [processGetUserTable, ran] using book)
  · by_cases seated : 0 < user.tid
    · have same := @processGetUserTable_seated answers server keyed uid svid level sid user stored seated
      exact changed .refresh (keyed.own stored) (congrArg Ledger.store same) (congrArg Ledger.book same)
    · exact unchanged (by simpa [processGetUserTable, ran, seated] using store)
        (by simpa [processGetUserTable, ran, seated] using book)

theorem processClientClose_absent {uid : Int32} (absent : server.store.lookup uid = none) :
    (server.processClientClose answers uid).ledger = server.ledger := by
  rcases server.find_cases uid with ⟨middle, ran, _, store, book⟩ | ⟨user, _, _, stored, _⟩
  · exact Ledger.ext (by simpa [processClientClose, ran] using store) (by simpa [processClientClose, ran] using book)
  · simp [stored] at absent

theorem processClientClose_stored (keyed : server.Keyed) {uid : Int32} {user : GameUser}
    (stored : server.store.lookup uid = some user) :
    (server.processClientClose answers uid).ledger = server.ledger.apply
      (if 0 < user.tid then Change.detach user (answers.time 0) else Change.depart user false false) := by
  rcases server.find_cases uid with ⟨_, _, absent, _⟩ | ⟨found, middle, ran, present, store, book⟩
  · simp [stored] at absent
  · obtain rfl : user = found := by simpa [stored] using present
    have key := keyed uid user stored
    by_cases seated : 0 < user.tid <;>
      refine Ledger.ext ?_ ?_ <;> simp only [processClientClose, ran, seated, if_true, if_false]
    · exact setValue_put (keyed.own stored) store rfl
    · simp [ledger, Ledger.apply, Change.detach, book, key]
    · simp [ledger, Ledger.apply, Change.depart, key, store]
    · simp [ledger, Ledger.apply, Change.depart, key, book, Book.logoutTable, Book.clearOffline, Book.updateTerminal]

theorem processClientClose_changes (keyed : server.Keyed) (uid : Int32) :
    Changes answers server (.request (.clientClose uid)) (server.processClientClose answers uid) := by
  cases found : server.store.lookup uid with
  | none =>
    have same := @processClientClose_absent answers server uid found
    exact unchanged (congrArg Ledger.store same) (congrArg Ledger.book same)
  | some user =>
    have closed := @processClientClose_stored answers server keyed uid user found
    by_cases seated : 0 < user.tid
    · rw [if_pos seated] at closed
      exact changed (.detach seated) (keyed.own found) (congrArg Ledger.store closed) (congrArg Ledger.book closed)
    · rw [if_neg seated] at closed
      exact changed (.close seated) (keyed.own found) (congrArg Ledger.store closed) (congrArg Ledger.book closed)

theorem processReportUserLeaveRoom_absent {uid : Int32} (absent : server.store.lookup uid = none) :
    (server.processReportUserLeaveRoom answers uid).ledger = server.ledger := by
  rcases server.find_cases uid with ⟨middle, ran, _, store, book⟩ | ⟨user, _, _, stored, _⟩
  · exact Ledger.ext (by simpa [processReportUserLeaveRoom, ran] using store)
      (by simpa [processReportUserLeaveRoom, ran] using book)
  · simp [stored] at absent

theorem processReportUserLeaveRoom_stored (keyed : server.Keyed) {uid : Int32} {user : GameUser}
    (stored : server.store.lookup uid = some user) :
    (server.processReportUserLeaveRoom answers uid).ledger = server.ledger.apply (Change.leave user (answers.time 0)) := by
  rcases server.find_cases uid with ⟨_, _, absent, _⟩ | ⟨found, middle, ran, present, store, book⟩
  · simp [stored] at absent
  · obtain rfl : user = found := by simpa [stored] using present
    refine Ledger.ext ?_ ?_ <;> simp only [processReportUserLeaveRoom, ran]
    · exact setValue_put (keyed.own stored) (by simp [store]) rfl
    · simp [ledger, Ledger.apply, Change.leave, book]

theorem processReportUserLeaveRoom_changes (keyed : server.Keyed) (uid : Int32) :
    Changes answers server (.request (.userLeaveRoom uid)) (server.processReportUserLeaveRoom answers uid) := by
  cases found : server.store.lookup uid with
  | none =>
    have same := @processReportUserLeaveRoom_absent answers server uid found
    exact unchanged (congrArg Ledger.store same) (congrArg Ledger.book same)
  | some user =>
    have left := @processReportUserLeaveRoom_stored answers server keyed uid user found
    exact changed .leave (keyed.own found) (congrArg Ledger.store left) (congrArg Ledger.book left)

theorem processReportUserEnterRoom_stored (keyed : server.Keyed) {uid tid : Int32} {user : GameUser}
    (stored : server.store.lookup uid = some user) : ∃ level, (server.processReportUserEnterRoom answers uid tid).ledger =
      server.ledger.apply (Change.sit user tid (answers.time 0) level) := by
  rcases server.find_cases uid with ⟨_, _, absent, _⟩ | ⟨found, middle, ran, present, store, book⟩
  · simp [stored] at absent
  · obtain rfl : user = found := by simpa [stored] using present
    obtain ⟨found, later, searched, storeLater, bookLater⟩ :=
      (middle.loginTable user).findServer_cases answers (tid >>> 16).toInt16
    cases found with
    | none =>
      refine ⟨none, Ledger.ext ?_ ?_⟩ <;> simp only [processReportUserEnterRoom, ran, searched]
      · exact setValue_put (keyed.own stored) (by simp [storeLater, store]) rfl
      · simp [ledger, Ledger.apply, Change.sit, bookLater, book]
    | some logic =>
      refine ⟨some logic.level, Ledger.ext ?_ ?_⟩ <;> simp only [processReportUserEnterRoom, ran, searched]
      · by_cases moved : logic.level ≠ user.serverLevel
        · rw [if_pos moved]
          exact setValue_put (keyed.own stored) (by simp [storeLater, store]) rfl
        · rw [if_neg moved]
          have same : logic.level = user.serverLevel := Decidable.of_not_not moved
          simp only [Ledger.apply, Change.sit, Option.getD_some, same]
          exact setValue_put (keyed.own stored) (by simp [storeLater, store]) rfl
      · simp only [Ledger.apply, Change.sit]
        split <;> simp [bookLater, book]

theorem processReportUserEnterRoom_changes (keyed : server.Keyed) (uid tid : Int32) :
    Changes answers server (.request (.userEnterRoom uid tid)) (server.processReportUserEnterRoom answers uid tid) := by
  rcases server.find_cases uid with ⟨middle, ran, _, store, book⟩ | ⟨user, _, _, stored, _⟩
  · exact unchanged (by simpa [processReportUserEnterRoom, ran] using store)
      (by simpa [processReportUserEnterRoom, ran] using book)
  · obtain ⟨level, same⟩ := @processReportUserEnterRoom_stored answers server keyed uid tid user stored
    exact changed (.sit level) (keyed.own stored) (congrArg Ledger.store same) (congrArg Ledger.book same)

theorem processReportUserStandRoom_changes (uid tid : Int32) :
    Changes answers server (.request (.userStandRoom uid tid)) (server.processReportUserStandRoom answers uid tid) := by
  rcases server.find_cases uid with ⟨middle, ran, _, store, book⟩ | ⟨user, middle, ran, _, store, book⟩
  · exact unchanged (by simpa [processReportUserStandRoom, ran] using store)
      (by simpa [processReportUserStandRoom, ran] using book)
  · obtain ⟨found, later, searched, storeLater, bookLater⟩ :=
      (middle.updateTerminalInfo .standTable user.terminalType).findServer_cases answers (tid >>> 16).toInt16
    cases found <;> refine unchanged ?_ ?_ <;>
      simp [processReportUserStandRoom, ran, searched, storeLater, bookLater, store, book, Book.updateTerminal,
        Book.updateLevel]

theorem processReportStandLeaveRoom_changes (uid : Int32) :
    Changes answers server (.request (.standLeaveRoom uid)) (server.processReportStandLeaveRoom uid) := by
  rcases server.find_cases uid with ⟨middle, ran, _, store, book⟩ | ⟨user, middle, ran, _, store, book⟩
  · exact unchanged (by simpa [processReportStandLeaveRoom, ran] using store)
      (by simpa [processReportStandLeaveRoom, ran] using book)
  · refine unchanged ?_ ?_ <;> simp only [processReportStandLeaveRoom, ran] <;> split <;>
      simp [store, book, Book.updateTerminal, Book.updateLevel]

theorem processGetUserHallId_changes (uid : Int32) :
    Changes answers server (.request (.getUserHallId uid)) (server.processGetUserHallId uid) := by
  rcases server.find_cases uid with ⟨middle, ran, _, store, book⟩ | ⟨user, middle, ran, _, store, book⟩ <;>
    exact unchanged (by simpa [processGetUserHallId, ran] using store)
      (by simpa [processGetUserHallId, ran] using book)

private theorem levelNums_changes {call : Nat} {levels : List Int16} {writes : List Packet.Write}
    (ran : levelNums answers call levels server = some (writes, after)) :
    after.store = server.store ∧ after.book = server.book := by
  induction levels generalizing call server writes with
  | nil =>
    obtain ⟨-, rfl⟩ : [] = writes ∧ server = after := by simpa [levelNums] using ran
    exact ⟨rfl, rfl⟩
  | cons level levels ih =>
    obtain ⟨⟨randCount, middle⟩, rolled, rest⟩ := Option.bind_eq_some_iff.mp ran
    obtain ⟨⟨others, final⟩, later, same⟩ := Option.bind_eq_some_iff.mp rest
    obtain ⟨-, rfl⟩ := Prod.mk.inj (Option.some.inj same)
    have kept : middle.store = server.store ∧ middle.book = server.book := by
      simp only [getRand] at rolled
      split at rolled
      · simp at rolled
      · obtain ⟨-, rfl⟩ := Prod.mk.inj (Option.some.inj rolled)
        exact ⟨rfl, rfl⟩
    obtain ⟨store, book⟩ := ih later
    exact ⟨store.trans kept.1, book.trans kept.2⟩

theorem processGetRoomLevelNum_changes {uid svid : Int32} {levelCount : Int16} {levels : List Int16}
    (ran : server.processGetRoomLevelNum answers uid svid levelCount levels = some after) :
    Changes answers server (.request (.getRoomLevelNum uid svid levelCount levels)) after := by
  obtain ⟨⟨writes, middle⟩, counted, same⟩ := Option.bind_eq_some_iff.mp ran
  obtain ⟨store, book⟩ := levelNums_changes counted
  obtain rfl := Option.some.inj same
  exact unchanged store book

private theorem processSynData_kept (records : List (Int16 × Int32 × Int32)) :
    (server.processSynData records).store = server.store ∧ (server.processSynData records).book = server.book := by
  induction records generalizing server with
  | nil => exact ⟨rfl, rfl⟩
  | cons record records ih => exact ih

theorem processSynData_changes (records : List (Int16 × Int32 × Int32)) :
    Changes answers server (.synData records) (server.processSynData records) :=
  unchanged (processSynData_kept records).1 (processSynData_kept records).2

end Server

end TeenpattiUserServer.UserServer
