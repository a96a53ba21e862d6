import TeenpattiUserServer.Bookkeeping.Ledger
import TeenpattiUserServer.UserServer.ClientHandler

/-! The state as a ledger: the stored users, and beside them the counters and the
offline list. Each function the handlers are made of acts on one of the two. -/

namespace TeenpattiUserServer.UserServer

open Std Bookkeeping

/-- The counters, and the offline list with its times. -/
structure Book where
  online : Int16 → Int
  play : Int16 → Int
  level : Int16 → Int
  offline : Int32 → Option Int32

namespace Book

def updateTerminal (type : TerminalUpdate) (terminalType : Int16) (book : Book) : Book :=
  match type with
  | .loginHall none => { book with online := raise book.online terminalType }
  | .loginHall (some pre) => { book with
      online :=
        if pre.terminalType = terminalType then book.online
        else raise (lower book.online pre.terminalType) terminalType
      play :=
        if pre.terminalType ≠ terminalType ∧ pre.tid ≠ 0 ∧ 0 < book.play pre.terminalType then
          raise (lower book.play pre.terminalType) terminalType
        else book.play }
  | .logoutHall => { book with online := lower book.online terminalType }
  | .loginTable => { book with play := raise book.play terminalType }
  | .logoutTable => { book with play := lower book.play terminalType }
  | .standTable => book
  | .standLeaveTable => book

def updateLevel (type : LevelUpdate) (level : Int16) (book : Book) : Book :=
  match type with
  | .login => { book with level := raise book.level level }
  | .logout => { book with level := lower book.level level }
  | .standIn => book
  | .standOut => book

def setOffline (uid time : Int32) (book : Book) : Book :=
  { book with offline := Function.update book.offline uid (some time) }

def clearOffline (uid : Int32) (book : Book) : Book :=
  { book with offline := Function.update book.offline uid none }

def logoutTable (seated : Bool) (user : GameUser) (book : Book) : Book :=
  if seated then book.updateTerminal .logoutTable user.terminalType else book

def loginTable (user : GameUser) (book : Book) : Book :=
  if user.tid = 0 then book.updateTerminal .loginTable user.terminalType else book

def logoutLevel (user : GameUser) (book : Book) : Book :=
  if user.serverLevel ≠ -1 then book.updateLevel .logout user.serverLevel else book

/-! Each update concerns some of the fields only. -/

section Fields

variable (book : Book) (uid time : Int32) (user : GameUser) (seated : Bool) (terminalType level : Int16)

@[simp] theorem level_updateTerminal (type : TerminalUpdate) :
    (book.updateTerminal type terminalType).level = book.level := by
  unfold updateTerminal
  split <;> rfl

@[simp] theorem offline_updateTerminal (type : TerminalUpdate) :
    (book.updateTerminal type terminalType).offline = book.offline := by
  unfold updateTerminal
  split <;> rfl

@[simp] theorem online_updateLevel (type : LevelUpdate) : (book.updateLevel type level).online = book.online := by
  cases type <;> rfl

@[simp] theorem play_updateLevel (type : LevelUpdate) : (book.updateLevel type level).play = book.play := by
  cases type <;> rfl

@[simp] theorem offline_updateLevel (type : LevelUpdate) : (book.updateLevel type level).offline = book.offline := by
  cases type <;> rfl

@[simp] theorem online_setOffline : (book.setOffline uid time).online = book.online := rfl

@[simp] theorem play_setOffline : (book.setOffline uid time).play = book.play := rfl

@[simp] theorem level_setOffline : (book.setOffline uid time).level = book.level := rfl

@[simp] theorem online_clearOffline : (book.clearOffline uid).online = book.online := rfl

@[simp] theorem play_clearOffline : (book.clearOffline uid).play = book.play := rfl

@[simp] theorem level_clearOffline : (book.clearOffline uid).level = book.level := rfl

@[simp] theorem online_logoutTable : (book.logoutTable seated user).online = book.online := by
  cases seated <;> rfl

@[simp] theorem level_logoutTable : (book.logoutTable seated user).level = book.level := by
  cases seated <;> rfl

@[simp] theorem offline_logoutTable : (book.logoutTable seated user).offline = book.offline := by
  cases seated <;> rfl

@[simp] theorem online_loginTable : (book.loginTable user).online = book.online := by
  rw [loginTable]
  split <;> rfl

@[simp] theorem level_loginTable : (book.loginTable user).level = book.level := by
  rw [loginTable]
  split <;> rfl

@[simp] theorem offline_loginTable : (book.loginTable user).offline = book.offline := by
  rw [loginTable]
  split <;> rfl

@[simp] theorem online_logoutLevel : (book.logoutLevel user).online = book.online := by
  rw [logoutLevel]
  split <;> rfl

@[simp] theorem play_logoutLevel : (book.logoutLevel user).play = book.play := by
  rw [logoutLevel]
  split <;> rfl

@[simp] theorem offline_logoutLevel : (book.logoutLevel user).offline = book.offline := by
  rw [logoutLevel]
  split <;> rfl

end Fields

end Book

namespace Server

def store (server : Server) : Store Int32 GameUser := server.gshm.users.toFinmap

def book (server : Server) : Book :=
  ⟨server.stat.online, server.stat.onPlay, server.stat.levelPlay, fun uid => server.options.offlineUserMgr[uid]?⟩

def ledger (server : Server) : Ledger Int32 GameUser Book := ⟨server.store, server.book⟩

variable (server : Server)

@[simp] theorem ledger_store : server.ledger.store = server.store := rfl

@[simp] theorem ledger_book : server.ledger.book = server.book := rfl

theorem store_lookup (uid : Int32) : server.store.lookup uid = server.gshm.users.lookup uid :=
  Finmap.lookup_toFinmap uid server.gshm.users

theorem gshm_lookup (uid : Int32) : server.gshm.lookup uid = server.store.lookup uid := (server.store_lookup uid).symm

theorem mem_offlineUserMgr (uid : Int32) : uid ∈ server.options.offlineUserMgr ↔ server.book.offline uid ≠ none := by
  rw [← TreeMap.isSome_getElem?_iff_mem, Option.isSome_iff_ne_none]
  rfl

/-- The records counted are those a visit meets. -/
theorem tally_store (p : GameUser → Bool) : tally p server.store = server.gshm.visit.countP p := by
  rw [GameUserSHM.visit, List.countP_map, tally, store, AList.toFinmap_entries, Multiset.coe_countP]
  simp [Function.comp_def]

@[simp] theorem find_fst (uid : Int32) : (server.find uid).1 = server.store.lookup uid := by
  rw [store_lookup, find, GameUserSHM.find]
  split <;> simp_all

@[simp] theorem store_find (uid : Int32) : (server.find uid).2.store = server.store := by
  cases found : server.gshm.users.lookup uid with
  | none => simp [find, GameUserSHM.find, found]
  | some user =>
    refine Finmap.ext_lookup fun other => ?_
    rw [store_lookup, store_lookup]
    by_cases same : other = uid
    · subst other
      simp [find, GameUserSHM.find, found]
    · simp [find, GameUserSHM.find, found, AList.lookup_insert_ne same]

@[simp] theorem book_find (uid : Int32) : (server.find uid).2.book = server.book := rfl

/-- A search tells whether the user is stored, and changes neither the users nor the book. -/
theorem find_cases (uid : Int32) :
    (∃ middle, server.find uid = (none, middle) ∧ server.store.lookup uid = none ∧
      middle.store = server.store ∧ middle.book = server.book) ∨
    (∃ user middle, server.find uid = (some user, middle) ∧ server.store.lookup uid = some user ∧
      middle.store = server.store ∧ middle.book = server.book) := by
  have found := server.find_fst uid
  cases shape : server.store.lookup uid with
  | none => exact .inl ⟨_, Prod.ext (found.trans shape) rfl, rfl, store_find .., rfl⟩
  | some user => exact .inr ⟨user, _, Prod.ext (found.trans shape) rfl, rfl, store_find .., rfl⟩

@[simp] theorem options_find (uid : Int32) : (server.find uid).2.options = server.options := rfl

@[simp] theorem freeNodes_find (uid : Int32) : (server.find uid).2.gshm.freeNodes = server.gshm.freeNodes := by
  simp only [find, GameUserSHM.find]
  split <;> rfl

theorem store_setValue {user old : GameUser} (stored : server.store.lookup user.uid = some old) :
    (server.setValue user).store = put server.store user.uid (some user) := by
  rw [store_lookup] at stored
  simp [setValue, GameUserSHM.setValue, stored, store, put]

theorem store_setValue_new {user : GameUser} (absent : server.store.lookup user.uid = none) :
    (server.setValue user).store =
      put server.store user.uid (if server.gshm.freeNodes = 0 then none else some user) := by
  rw [store_lookup] at absent
  by_cases full : server.gshm.freeNodes = 0
  · refine Finmap.ext_lookup fun other => ?_
    rw [lookup_put_eq, if_pos full, store_lookup, store_lookup]
    by_cases same : other = user.uid
    · subst other
      simp [setValue, GameUserSHM.setValue, absent, full]
    · simp [setValue, GameUserSHM.setValue, absent, full, same]
  · simp [setValue, GameUserSHM.setValue, absent, full, store, put]

@[simp] theorem store_delete (uid : Int32) : (server.delete uid).store = put server.store uid none := by
  cases found : server.gshm.users.lookup uid with
  | none =>
    refine Finmap.ext_lookup fun other => ?_
    rw [lookup_put_eq, store_lookup, store_lookup]
    by_cases same : other = uid
    · subst other
      simp [delete, GameUserSHM.delete, found]
    · simp [delete, GameUserSHM.delete, found, same]
  | some user => simp [delete, GameUserSHM.delete, found, store, put]

@[simp] theorem book_setValue (user : GameUser) : (server.setValue user).book = server.book := rfl

@[simp] theorem book_delete (uid : Int32) : (server.delete uid).book = server.book := rfl

@[simp] theorem store_updateTerminalInfo (type : TerminalUpdate) (terminalType : Int16) :
    (server.updateTerminalInfo type terminalType).store = server.store := rfl

@[simp] theorem book_updateTerminalInfo (type : TerminalUpdate) (terminalType : Int16) :
    (server.updateTerminalInfo type terminalType).book = server.book.updateTerminal type terminalType := by
  cases type with
  | loginHall preStat =>
    cases preStat with
    | none => simp [book, updateTerminalInfo, Book.updateTerminal]
    | some pre =>
      simp only [book, updateTerminalInfo, Book.updateTerminal, Stat.online_loginHall_again,
        Stat.onPlay_loginHall_again, Stat.levelPlay_updateTerminalInfo]
      congr
  | _ => simp [book, updateTerminalInfo, Book.updateTerminal]

@[simp] theorem store_updateLevelInfo (type : LevelUpdate) (level : Int16) :
    (server.updateLevelInfo type level).store = server.store := rfl

@[simp] theorem book_updateLevelInfo (type : LevelUpdate) (level : Int16) :
    (server.updateLevelInfo type level).book = server.book.updateLevel type level := by
  cases type <;> simp [book, updateLevelInfo, Book.updateLevel]

@[simp] theorem store_logoutTable (seated : Bool) (user : GameUser) :
    (server.logoutTable seated user).store = server.store := by
  cases seated <;> rfl

@[simp] theorem book_logoutTable (seated : Bool) (user : GameUser) :
    (server.logoutTable seated user).book = server.book.logoutTable seated user := by
  cases seated <;> simp [logoutTable, Book.logoutTable]

@[simp] theorem store_loginTable (user : GameUser) : (server.loginTable user).store = server.store := by
  rw [loginTable]
  split <;> rfl

@[simp] theorem book_loginTable (user : GameUser) :
    (server.loginTable user).book = server.book.loginTable user := by
  rw [loginTable, Book.loginTable]
  split <;> simp

@[simp] theorem store_logoutLevel (user : GameUser) : (server.logoutLevel user).store = server.store := by
  rw [logoutLevel]
  split <;> rfl

@[simp] theorem book_logoutLevel (user : GameUser) :
    (server.logoutLevel user).book = server.book.logoutLevel user := by
  rw [logoutLevel, Book.logoutLevel]
  split <;> simp

@[simp] theorem store_addOfflineUser (uid time : Int32) : (server.addOfflineUser uid time).store = server.store := rfl

@[simp] theorem book_addOfflineUser (uid time : Int32) :
    (server.addOfflineUser uid time).book = server.book.setOffline uid time := by
  have entries : (fun other => (server.options.offlineUserMgr.insert uid time)[other]?) =
      Function.update (fun other => server.options.offlineUserMgr[other]?) uid (some time) := by
    funext other
    by_cases same : other = uid
    · simp [same]
    · have different : uid ≠ other := fun equal => same equal.symm
      simp [TreeMap.getElem?_insert, same, different]
  simp [book, addOfflineUser, Options.addOfflineUser, Book.setOffline, entries]

@[simp] theorem store_deleteOfflineUser (uid : Int32) : (server.deleteOfflineUser uid).store = server.store := rfl

@[simp] theorem book_deleteOfflineUser (uid : Int32) :
    (server.deleteOfflineUser uid).book = server.book.clearOffline uid := by
  have entries : (fun other => (server.options.offlineUserMgr.erase uid)[other]?) =
      Function.update (fun other => server.options.offlineUserMgr[other]?) uid none := by
    funext other
    by_cases same : other = uid
    · simp [same]
    · have different : uid ≠ other := fun equal => same equal.symm
      simp [TreeMap.getElem?_erase, same, different]
  simp [book, deleteOfflineUser, Options.deleteOfflineUser, Book.clearOffline, entries]

@[simp] theorem store_send (packet : Packet.PacketBase) : (server.send packet).store = server.store := rfl

@[simp] theorem book_send (packet : Packet.PacketBase) : (server.send packet).book = server.book := rfl

@[simp] theorem store_sendClientPacket (uid svid : Int32) (packet : Packet.PacketBase) :
    (server.sendClientPacket uid svid packet).store = server.store := rfl

@[simp] theorem book_sendClientPacket (uid svid : Int32) (packet : Packet.PacketBase) :
    (server.sendClientPacket uid svid packet).book = server.book := rfl

@[simp] theorem store_findServer (answers : Answers) (serverId : Int16) :
    (server.findServer answers serverId).2.store = server.store := rfl

@[simp] theorem book_findServer (answers : Answers) (serverId : Int16) :
    (server.findServer answers serverId).2.book = server.book := by
  simp only [findServer, Options.findServer]
  split
  · rfl
  · split <;> rfl

/-- Whether or not a server is found, the users and the book stay. -/
theorem findServer_cases (answers : Answers) (serverId : Int16) :
    ∃ found middle, server.findServer answers serverId = (found, middle) ∧ middle.store = server.store ∧
      middle.book = server.book :=
  ⟨_, _, rfl, store_findServer .., book_findServer ..⟩

@[simp] theorem gshm_findServer (answers : Answers) (serverId : Int16) :
    (server.findServer answers serverId).2.gshm = server.gshm := rfl

@[simp] theorem store_tableServer (answers : Answers) (tid : Int32) :
    (server.tableServer answers tid).2.store = server.store := by
  rw [tableServer]
  split <;> simp

@[simp] theorem book_tableServer (answers : Answers) (tid : Int32) :
    (server.tableServer answers tid).2.book = server.book := by
  rw [tableServer]
  split <;> simp

@[simp] theorem gshm_tableServer (answers : Answers) (tid : Int32) :
    (server.tableServer answers tid).2.gshm = server.gshm := by
  rw [tableServer]
  split <;> simp

variable (answers : Answers) (uid svid userId : Int32) (terminalType : Int16) (found : Option GameUser)

@[simp] theorem gshm_enterHall :
    (enterHall answers uid svid userId terminalType found server).2.gshm = server.gshm := by
  cases found with
  | none => rfl
  | some user =>
    simp only [enterHall]
    split <;> rfl

@[simp] theorem store_enterHall :
    (enterHall answers uid svid userId terminalType found server).2.store = server.store := by
  rw [store, gshm_enterHall, store]

@[simp] theorem options_enterHall :
    (enterHall answers uid svid userId terminalType found server).2.options = server.options := by
  cases found with
  | none => rfl
  | some user =>
    simp only [enterHall]
    split <;> rfl

@[simp] theorem book_enterHall : (enterHall answers uid svid userId terminalType found server).2.book =
    server.book.updateTerminal (.loginHall (found.map fun user => ⟨user.terminalType, user.tid⟩)) terminalType := by
  cases found with
  | none => simp [enterHall]
  | some user =>
    simp only [enterHall]
    split <;> simp [sendServerClosePacket]

theorem options_logoutTable (seated : Bool) (user : GameUser) :
    (server.logoutTable seated user).options = server.options := by
  rw [logoutTable]
  split <;> rfl

theorem options_loginTable (user : GameUser) : (server.loginTable user).options = server.options := by
  rw [loginTable]
  split <;> rfl

theorem options_logoutLevel (user : GameUser) : (server.logoutLevel user).options = server.options := by
  rw [logoutLevel]
  split <;> rfl

/-- `Find` leaves the options, whether it finds the user or not. -/
theorem find_options (server : Server) (uid : Int32) : ∃ middle, middle.options = server.options ∧
    (server.find uid = (none, middle) ∨ ∃ user, server.find uid = (some user, middle)) := by
  refine ⟨(server.find uid).2, rfl, ?_⟩
  cases found : (server.find uid).1 with
  | none => exact .inl (Prod.ext found rfl)
  | some user => exact .inr ⟨user, Prod.ext found rfl⟩

theorem options_change (alter : GameUser → GameUser) (uid : Int32) :
    (change alter server uid).options = server.options := by
  obtain ⟨middle, same, absent | ⟨user, present⟩⟩ := server.find_options uid
  · simp only [change, absent, same]
  · simp only [change, present, setValue, same]

theorem options_foldl_change (alter : GameUser → GameUser) (uids : List Int32) :
    (uids.foldl (change alter) server).options = server.options := by
  induction uids generalizing server with
  | nil => rfl
  | cons uid uids ih => rw [List.foldl_cons, ih, options_change]

end Server

end TeenpattiUserServer.UserServer
