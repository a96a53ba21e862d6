import TeenpattiUserServer.UserServer.LevelCounts
import TeenpattiUserServer.UserServer.LookCounts

/-! Users who look on. Nobody's record says who does, so the counts have to be kept
right by the reports alone, at the level that was counted, and for as long as the
user is stored. -/

namespace TeenpattiUserServer.UserServer

open Std Bookkeeping

/-- The game server of a table. -/
def serverOf (tid : Int32) : Int16 := (tid >>> 16).toInt16

/-- Where each user stands after these inputs: the table of the latest report. -/
def standing (past : List (Event × Answers)) : Int32 → Option Int32 :=
  past.foldl (fun places input => input.1.onlooking.elim places fun report => Function.update places report.1 report.2)
    fun _ => none

variable {levelOf : Int16 → Int16} {places : Int32 → Option Int32}

namespace Server

/-- A step for an input with the answers it gets. -/
def take (input : Event × Answers) (server : Server) : Option Server := server.step input.1 input.2

/-- A user stands who did not, at a table whose server is known at its level; and
nobody stops who does not stand. -/
def Reported (levelOf : Int16 → Int16) (past : List (Event × Answers)) (input : Event × Answers) (before : Server) :
    Prop :=
  match input.1 with
  | .request (.userStandRoom uid tid) => standing past uid = none ∧
      ((before.options.findServer input.2 (serverOf tid)).1.map (·.level)) = some (levelOf (serverOf tid))
  | .request (.standLeaveRoom uid) => standing past uid ≠ none
  | _ => True

/-- The counts are the numbers of stored users who stand, and of those at each level. -/
structure Watched (levelOf : Int16 → Int16) (places : Int32 → Option Int32) (server : Server) : Prop where
  terminals : server.stat.onLookOn = server.gshm.visit.countP fun user => (places user.uid).isSome
  levels : ∀ level, server.stat.levelLook level =
    server.gshm.visit.countP fun user => (places user.uid).map (fun tid => levelOf (serverOf tid)) = some level

/-- Users stand at tables of their own level, which has been counted before, and
stop there under their terminal type; and whoever stands is neither stored anew nor
taken out. -/
def Watchful (levelOf : Int16 → Int16) (places : Int32 → Option Int32) (before : Server) (input : Event × Answers) :
    Prop :=
  match input.1 with
  | .request (.userStandRoom uid tid) => ∀ user, before.gshm.lookup uid = some user →
      user.serverLevel ∈ before.stat.levelMgr ∧ user.serverLevel = levelOf (serverOf tid)
  | .request (.standLeaveRoom uid) => ∀ user tid, before.gshm.lookup uid = some user → places uid = some tid →
      0 < (before.stat.terminal user.terminalType).onLookOnCount ∧
        user.serverLevel ≠ -1 ∧ user.serverLevel = levelOf (serverOf tid)
  | .request (.userLogin _ _ uid _) =>
      0 < uid → before.gshm.lookup uid = none → before.gshm.freeNodes ≠ 0 → places uid = none
  | .request (.clientClose uid) => ∀ user, before.gshm.lookup uid = some user → ¬ 0 < user.tid → places uid = none
  | .offlineCheck => ∀ entry ∈ before.late (input.2.time 0), before.gshm.lookup entry.1 ≠ none → places entry.1 = none
  | .flushCheck => ∀ user ∈ before.gshm.visit, idle (input.2.time 0) user → places user.uid = none
  | _ => True

/-- The users counted in one place. -/
private def onlooks (levelOf : Int16 → Int16) (places : Int32 → Option Int32) (place : Option Int16) (user : GameUser) :
    Bool :=
  match place with
  | none => (places user.uid).isSome
  | some level => (places user.uid).map (fun tid => levelOf (serverOf tid)) = some level

private theorem onlooks_absent {user : GameUser} (absent : places user.uid = none) (place : Option Int16) :
    onlooks levelOf places place user = false := by
  cases place <;> simp [onlooks, absent]

private theorem onlooks_present {user : GameUser} {tid : Int32} (present : places user.uid = some tid)
    (place : Option Int16) :
    onlooks levelOf places place user ↔ ∀ level ∈ place, levelOf (serverOf tid) = level := by
  cases place <;> simp [onlooks, present]

private theorem watched_iff {server : Server} : Watched levelOf places server ↔
    ∀ place, server.looks place = tally (onlooks levelOf places place) server.store := by
  simp only [tally_store]
  constructor
  · intro watched place
    cases place with
    | none => exact watched.terminals
    | some level => exact watched.levels level
  · exact fun counted => ⟨counted none, fun level => counted (some level)⟩

/-- Nobody is stored who was not. -/
private def Lasting (change : Change) : Prop :=
  ∀ user, change.new = some user → ∃ old, change.old = some old ∧ old.uid = user.uid

variable {server after : Server} {changes : List Change} {answers : Answers} {event : Event}

private theorem watched_follows (watched : Watched levelOf places server) (looks : after.looks = server.looks)
    (follows : Follows server.ledger changes after.ledger) : Watched levelOf places after ↔
      ∀ place, (changes.map fun change => hit (onlooks levelOf places place) change.old).sum =
        (changes.map fun change => hit (onlooks levelOf places place) change.new).sum := by
  rw [watched_iff] at watched ⊢
  refine forall_congr' fun place => ?_
  rw [looks, watched place, Int.natCast_inj]
  exact follows.tally_same_iff (onlooks levelOf places place)

/-- Where nobody is stored anew, the counts stay right exactly when nobody who
stands is taken out. -/
private theorem watched_departures (watched : Watched levelOf places server) (looks : after.looks = server.looks)
    (follows : Follows server.ledger changes after.ledger) (lasting : ∀ change ∈ changes, Lasting change) :
    Watched levelOf places after ↔
      ∀ change ∈ changes, change.new = none → ∀ user, change.old = some user → places user.uid = none := by
  let gone (place : Option Int16) (change : Change) : Nat :=
    if change.new = none then hit (onlooks levelOf places place) change.old else 0
  have each (place : Option Int16) (change : Change) (lasts : Lasting change) :
      hit (onlooks levelOf places place) change.old =
        hit (onlooks levelOf places place) change.new + gone place change := by
    cases new : change.new with
    | none => simp [gone, new]
    | some user =>
      obtain ⟨old, found, same⟩ := lasts user new
      have alike : onlooks levelOf places place old = onlooks levelOf places place user := by
        cases place <;> simp only [onlooks, same]
      simp [gone, new, found, alike]
  have split (place : Option Int16) (changes : List Change) (lasting : ∀ change ∈ changes, Lasting change) :
      (changes.map fun change => hit (onlooks levelOf places place) change.old).sum =
        (changes.map fun change => hit (onlooks levelOf places place) change.new).sum +
          (changes.map (gone place)).sum := by
    induction changes with
    | nil => rfl
    | cons change changes ih =>
      have first := each place change (lasting change (by simp))
      have rest := ih fun other member => lasting other (by simp [member])
      simp only [List.map_cons, List.sum_cons]
      omega
  rw [watched_follows watched looks follows]
  constructor
  · intro same change member new user old
    have zero : (changes.map (gone none)).sum = 0 := by
      have total := split none changes lasting
      rw [same none] at total
      omega
    have own : gone none change = 0 := List.sum_eq_zero_iff_forall_eq_nat.mp zero _ (List.mem_map_of_mem member)
    cases stands : places user.uid with
    | none => rfl
    | some tid => simp [gone, new, old, onlooks, stands] at own
  · intro apart place
    have zero : (changes.map (gone place)).sum = 0 := by
      refine List.sum_eq_zero_iff_forall_eq_nat.mpr fun count member => ?_
      obtain ⟨change, inside, rfl⟩ := List.mem_map.mp member
      by_cases new : change.new = none
      · cases old : change.old with
        | none => simp [gone, old]
        | some user => simp [gone, new, old, onlooks_absent (apart change inside new user old)]
      · simp [gone, new]
    rw [split place changes lasting, zero]
    rfl

private theorem watched_single (watched : Watched levelOf places server) (looks : after.looks = server.looks)
    {change : Change} (result : after.ledger = server.ledger.apply change)
    (fits : server.store.lookup change.key = change.old) (lasting : Lasting change) : Watched levelOf places after ↔
      (change.new = none → ∀ user, change.old = some user → places user.uid = none) := by
  rw [watched_departures watched looks (.single fits result) (by simpa using lasting)]
  simp

/-- A report about one user changes what is counted by that user. -/
private theorem tally_report (keyed : server.Keyed) (uid : Int32) (report place : Option _) :
    tally (onlooks levelOf (Function.update places uid report) place) server.store +
        hit (onlooks levelOf places place) (server.store.lookup uid) =
      tally (onlooks levelOf places place) server.store +
        hit (onlooks levelOf (Function.update places uid report) place) (server.store.lookup uid) := by
  refine tally_except fun other user different stored => ?_
  have apart : user.uid ≠ uid := by rwa [keyed other user stored]
  cases place <;> simp [onlooks, apart]

private theorem report_absent (keyed : server.Keyed) {uid : Int32} (absent : server.store.lookup uid = none)
    (watched : Watched levelOf places server) (looks : after.looks = server.looks) (store : after.store = server.store)
    (report : Option Int32) : Watched levelOf (Function.update places uid report) after := by
  rw [watched_iff] at watched ⊢
  intro place
  have counted := @tally_report levelOf places server keyed uid report place
  rw [absent, hit_none, hit_none] at counted
  rw [looks, store, watched place]
  omega

private theorem stand_absent {uid : Int32} (absent : server.store.lookup uid = none) (tid : Int32) :
    (server.processReportUserStandRoom answers uid tid).looks = server.looks ∧
      (server.processReportUserStandRoom answers uid tid).store = server.store := by
  rcases server.find_cases uid with ⟨middle, ran, _, store, _⟩ | ⟨user, _, _, stored, _⟩
  · exact ⟨by simpa [processReportUserStandRoom, ran] using looks_find ran,
      by simpa [processReportUserStandRoom, ran] using store⟩
  · simp [stored] at absent

private theorem stand_stored {uid tid : Int32} {user : GameUser} (stored : server.store.lookup uid = some user)
    {logic : LogicServer} (known : (server.options.findServer answers (serverOf tid)).1 = some logic) :
    (server.processReportUserStandRoom answers uid tid).stat =
        (server.stat.updateTerminalInfo .standTable user.terminalType).updateLevelInfo .standIn user.serverLevel ∧
      (server.processReportUserStandRoom answers uid tid).store = server.store := by
  rcases ran : server.find uid with ⟨found, middle⟩
  obtain rfl : found = some user := by rw [← stored, ← find_fst, ran]
  obtain rfl : (server.find uid).2 = middle := by rw [ran]
  let counted := (server.find uid).2.updateTerminalInfo .standTable user.terminalType
  rcases searched : counted.findServer answers (tid >>> 16).toInt16 with ⟨found, later⟩
  obtain rfl : found = some logic := by
    rw [← known]
    exact (congrArg Prod.fst searched).symm
  obtain rfl : (counted.findServer answers (tid >>> 16).toInt16).2 = later := by rw [searched]
  rw [processReportUserStandRoom, ran]
  dsimp only
  rw [searched]
  exact ⟨rfl, by simp [counted]⟩

private theorem leave_absent {uid : Int32} (absent : server.store.lookup uid = none) :
    (server.processReportStandLeaveRoom uid).looks = server.looks ∧
      (server.processReportStandLeaveRoom uid).store = server.store := by
  rcases server.find_cases uid with ⟨middle, ran, _, store, _⟩ | ⟨user, _, _, stored, _⟩
  · exact ⟨by simpa [processReportStandLeaveRoom, ran] using looks_find ran,
      by simpa [processReportStandLeaveRoom, ran] using store⟩
  · simp [stored] at absent

private theorem leave_stored {uid : Int32} {user : GameUser} (stored : server.store.lookup uid = some user) :
    (server.processReportStandLeaveRoom uid).stat =
        (if user.serverLevel ≠ -1 then
          (server.stat.updateTerminalInfo .standLeaveTable user.terminalType).updateLevelInfo .standOut user.serverLevel
        else server.stat.updateTerminalInfo .standLeaveTable user.terminalType) ∧
      (server.processReportStandLeaveRoom uid).store = server.store := by
  have found : server.find uid = (some user, (server.find uid).2) :=
    Prod.ext ((find_fst ..).trans stored) rfl
  rw [processReportStandLeaveRoom, found]
  dsimp only
  by_cases levelled : user.serverLevel = -1
  · simp only [levelled, ne_eq, not_true_eq_false, if_false]
    exact ⟨rfl, by simp⟩
  · simp only [levelled, ne_eq, not_false_eq_true, if_true]
    exact ⟨rfl, by simp⟩

/-- A user who comes to look on is counted at the level of the table exactly when
this is the own level, and it has an entry. -/
private theorem stand_watched_iff (keyed : server.Keyed) (watched : Watched levelOf places server) {uid tid : Int32}
    {user : GameUser} (stored : server.store.lookup uid = some user) (apart : places uid = none)
    (known : ((server.options.findServer answers (serverOf tid)).1.map (·.level)) = some (levelOf (serverOf tid))) :
    Watched levelOf (Function.update places uid (some tid)) (server.processReportUserStandRoom answers uid tid) ↔
      user.serverLevel ∈ server.stat.levelMgr ∧ user.serverLevel = levelOf (serverOf tid) := by
  obtain ⟨logic, found, _⟩ := Option.map_eq_some_iff.mp known
  obtain ⟨stat, store⟩ := stand_stored stored found
  have key := keyed uid user stored
  rw [watched_iff] at watched ⊢
  have counted (place : Option Int16) :
      tally (onlooks levelOf (Function.update places uid (some tid)) place) server.store =
        tally (onlooks levelOf places place) server.store +
          if ∀ level ∈ place, levelOf (serverOf tid) = level then 1 else 0 := by
    have report := @tally_report levelOf places server keyed uid (some tid) place
    rw [stored, hit_some, hit_some, onlooks_absent (by rw [key]; exact apart)] at report
    have there := @onlooks_present levelOf (Function.update places uid (some tid)) user tid (by simp [key]) place
    simpa [there] using report
  have looked (level : Int16) : (server.processReportUserStandRoom answers uid tid).looks (some level) =
      server.looks (some level) +
        if user.serverLevel ∈ server.stat.levelMgr ∧ user.serverLevel = level then 1 else 0 := by
    simp only [looks, stat]
    rw [Stat.levelLook_standIn, Stat.levelLook_updateTerminalInfo]
    rfl
  constructor
  · intro agrees
    have own := agrees (some (levelOf (serverOf tid)))
    rw [looked, store, counted, watched] at own
    by_contra wrong
    simp [wrong] at own
  · rintro ⟨entry, same⟩ place
    rw [store, counted]
    cases place with
    | none =>
      have more : (server.processReportUserStandRoom answers uid tid).looks none = server.looks none + 1 := by
        simp only [looks, stat]
        rw [Stat.onLookOn_updateLevelInfo, Stat.onLookOn_standTable]
      simp [more, watched none]
    | some level =>
      rw [same] at entry
      simp [looked, entry, same, watched (some level)]

/-- A user who stops is taken out of the counts exactly when the terminal type has
somebody who looks on and the own level is that of the table. -/
private theorem leave_watched_iff (keyed : server.Keyed) (watched : Watched levelOf places server) {uid tid : Int32}
    {user : GameUser} (stored : server.store.lookup uid = some user) (stands : places uid = some tid) :
    Watched levelOf (Function.update places uid none) (server.processReportStandLeaveRoom uid) ↔
      0 < (server.stat.terminal user.terminalType).onLookOnCount ∧
        user.serverLevel ≠ -1 ∧ user.serverLevel = levelOf (serverOf tid) := by
  obtain ⟨stat, store⟩ := leave_stored stored
  have key := keyed uid user stored
  rw [watched_iff] at watched ⊢
  have counted (place : Option Int16) : tally (onlooks levelOf (Function.update places uid none) place) server.store +
      (if ∀ level ∈ place, levelOf (serverOf tid) = level then 1 else 0) =
        tally (onlooks levelOf places place) server.store := by
    have report := @tally_report levelOf places server keyed uid none place
    rw [stored, hit_some, hit_some, @onlooks_absent levelOf (Function.update places uid none) user (by simp [key])]
      at report
    have there := @onlooks_present levelOf places user tid (by rw [key]; exact stands) place
    simpa [there] using report
  have terminals : (server.processReportStandLeaveRoom uid).looks none =
      server.looks none - if 0 < (server.stat.terminal user.terminalType).onLookOnCount then 1 else 0 := by
    simp only [looks, stat]
    rw [← Stat.onLookOn_standLeaveTable]
    split
    · rw [Stat.onLookOn_updateLevelInfo]
    · rfl
  have levels (level : Int16) : (server.processReportStandLeaveRoom uid).looks (some level) =
      if user.serverLevel ≠ -1 then lower server.stat.levelLook user.serverLevel level
      else server.stat.levelLook level := by
    simp only [looks, stat]
    split
    · rw [Stat.levelLook_standOut, Stat.levelLook_updateTerminalInfo]
    · rw [Stat.levelLook_updateTerminalInfo]
  constructor
  · intro agrees
    have all := agrees none
    have own := agrees (some (levelOf (serverOf tid)))
    have allBefore := counted none
    have ownBefore := counted (some (levelOf (serverOf tid)))
    rw [terminals, store, watched none] at all
    rw [levels, store] at own
    have before := watched (some (levelOf (serverOf tid)))
    simp only [looks] at before
    simp only [Option.mem_def, reduceCtorEq, false_imp_iff, implies_true, if_true] at allBefore
    simp only [Option.mem_def, Option.some.injEq, forall_eq', if_true] at ownBefore
    refine ⟨?_, ?_, ?_⟩
    · by_contra none
      rw [if_neg none] at all
      omega
    · intro level
      rw [if_neg (by simp [level])] at own
      omega
    · by_contra different
      have kept : lower server.stat.levelLook user.serverLevel (levelOf (serverOf tid)) =
          server.stat.levelLook (levelOf (serverOf tid)) := Function.update_of_ne (Ne.symm different) ..
      rw [kept] at own
      split at own <;> omega
  · rintro ⟨positive, levelled, same⟩ place
    have before := counted place
    rw [store]
    cases place with
    | none =>
      rw [terminals, if_pos positive, watched none]
      simp at before
      omega
    | some level =>
      have least : 0 < server.stat.levelLook user.serverLevel := by
        have own := watched (some user.serverLevel)
        have ownBefore := counted (some user.serverLevel)
        simp only [looks] at own
        simp [same] at ownBefore own ⊢
        omega
      have lowered := lower_apply least level
      have agreed := watched (some level)
      simp only [looks] at agreed
      rw [levels, if_pos levelled]
      by_cases there : user.serverLevel = level
      · simp [← same, there] at before
        rw [if_pos there] at lowered
        omega
      · simp [← same, there] at before
        rw [if_neg there] at lowered
        omega

private theorem standing_snoc (past : List (Event × Answers)) (input : Event × Answers) :
    standing (past ++ [input]) =
      input.1.onlooking.elim (standing past) fun report => Function.update (standing past) report.1 report.2 := by
  simp [standing]

/-- An event by which nobody is stored anew and nobody is taken out. -/
private theorem watched_kept (keyed : server.Keyed) (watched : Watched levelOf places server)
    (ran : server.step event answers = some after) (other : event.onlooking = none)
    (remains : ∀ change, Cause answers server event change →
      ∃ old new, change.old = some old ∧ change.new = some new ∧ old.uid = new.uid) :
    Watched levelOf places after := by
  obtain ⟨changes, follows, causes⟩ := step_changes keyed ran
  refine (watched_departures watched (step_looks other ran) follows fun change member user new => ?_).mpr ?_
  · obtain ⟨old, updated, found, stored, same⟩ := remains change (causes change member)
    obtain rfl := Option.some.inj (stored.symm.trans new)
    exact ⟨old, found, same⟩
  · intro change member new
    obtain ⟨old, updated, _, stored, _⟩ := remains change (causes change member)
    simp [stored] at new

private theorem departing {user : GameUser} {seated levelled : Bool} :
    Lasting (Change.depart user seated levelled) := by
  intro other stored
  simp [Change.depart] at stored

private theorem login_watched_iff (keyed : server.Keyed) (watched : Watched levelOf places server)
    {uid svid userId : Int32} {terminalType : Int16}
    (ran : server.step (.request (.userLogin uid svid userId terminalType)) answers = some after) :
    Watched levelOf places after ↔
      (0 < userId → server.gshm.lookup userId = none → server.gshm.freeNodes ≠ 0 → places userId = none) := by
  have looks := step_looks rfl ran
  obtain rfl := Option.some.inj ran
  rw [gshm_lookup]
  by_cases invalid : userId ≤ 0
  · rw [processUserLogin_refused invalid]
    exact iff_of_true watched fun valid => absurd valid (Int32.not_lt.mpr invalid)
  · have valid : 0 < userId := Int32.not_le.mp invalid
    cases found : server.store.lookup userId with
    | none =>
      have arrived := @processUserLogin_absent answers server keyed uid svid userId terminalType valid found
      have follows : Follows server.ledger [_] _ := .single (by exact found) arrived
      rw [watched_follows watched looks follows]
      by_cases full : server.gshm.freeNodes = 0
      · simp [Change.arrive, full]
      · cases stands : places userId with
        | none =>
          refine iff_of_true (fun place => ?_) fun _ _ _ => rfl
          have own : (loginRecord answers server svid userId terminalType none).uid = userId := rfl
          simp [Change.arrive, full, onlooks_absent (own ▸ stands)]
        | some tid =>
          refine iff_of_false (fun same => ?_) fun keeps => by simpa using keeps valid rfl full
          have all := same none
          simp [Change.arrive, full, onlooks, loginRecord, stands] at all
    | some user =>
      have again := @processUserLogin_stored answers server keyed uid svid userId terminalType user valid found
      refine iff_of_true ?_ fun _ absent => by simp at absent
      refine (watched_single watched looks again (keyed.own found) fun entered stored => ?_).mpr fun gone => ?_
      · obtain rfl := Option.some.inj stored
        exact ⟨user, rfl, keyed userId user found⟩
      · simp [Change.reenter] at gone

private theorem close_watched_iff (keyed : server.Keyed) (watched : Watched levelOf places server) {uid : Int32}
    (ran : server.step (.request (.clientClose uid)) answers = some after) : Watched levelOf places after ↔
      ∀ user, server.gshm.lookup uid = some user → ¬ 0 < user.tid → places uid = none := by
  have looks := step_looks rfl ran
  obtain rfl := Option.some.inj ran
  rw [gshm_lookup]
  cases found : server.store.lookup uid with
  | none =>
    have same := @processClientClose_absent answers server uid found
    refine iff_of_true ?_ fun user stored => by simp at stored
    have follows : Follows server.ledger [] (server.processClientClose answers uid).ledger := same ▸ .refl _
    exact (watched_departures watched looks follows (by simp)).mpr (by simp)
  | some user =>
    have closed := @processClientClose_stored answers server keyed uid user found
    have key := keyed uid user found
    by_cases seated : 0 < user.tid
    · rw [if_pos seated] at closed
      refine iff_of_true ?_ fun other stored standing => ?_
      · refine (watched_single watched looks closed (keyed.own found) fun updated stored => ?_).mpr fun gone => ?_
        · obtain rfl := Option.some.inj stored
          exact ⟨user, rfl, rfl⟩
        · simp [Change.detach] at gone
      · obtain rfl := Option.some.inj stored
        exact absurd seated standing
    · rw [if_neg seated] at closed
      rw [watched_single watched looks closed (keyed.own found) departing]
      simp [Change.depart, Int32.not_lt.mp seated, key]

private theorem expired_lasting (uid : Int32) : Lasting (expired server uid) := by
  intro user stored
  rw [expired] at stored
  split at stored <;> simp [Change.forget, Change.depart] at stored

private theorem offline_watched_iff (keyed : server.Keyed) (watched : Watched levelOf places server)
    (ran : server.step .offlineCheck answers = some after) : Watched levelOf places after ↔
      ∀ entry ∈ server.late (answers.time 0), server.gshm.lookup entry.1 ≠ none → places entry.1 = none := by
  have looks := step_looks rfl ran
  obtain rfl := Option.some.inj ran
  rw [watched_departures watched looks (processOfflineCheck_follows keyed answers) ?_]
  · rw [List.forall_mem_map]
    refine forall₂_congr fun entry _ => ?_
    have gone : (expired server entry.1).new = none := by
      rw [expired]
      split <;> rfl
    rw [expired_old, gshm_lookup, gone]
    cases found : server.store.lookup entry.1 with
    | none => simp
    | some user => simp [keyed entry.1 user found]
  · rw [List.forall_mem_map]
    exact fun entry _ => expired_lasting entry.1

private theorem flush_watched_iff (keyed : server.Keyed) (watched : Watched levelOf places server)
    (ran : server.step .flushCheck answers = some after) : Watched levelOf places after ↔
      ∀ user ∈ server.gshm.visit, idle (answers.time 0) user → places user.uid = none := by
  have looks := step_looks rfl ran
  obtain rfl := Option.some.inj ran
  rw [watched_departures watched looks (processFlushCheck_follows keyed answers) ?_]
  · rw [List.forall_mem_map]
    simp [Change.depart]
  · rw [List.forall_mem_map]
    exact fun user _ => departing

/-- A step keeps the counts right exactly when its condition holds. -/
private theorem step_watched_iff {past : List (Event × Answers)} {input : Event × Answers} {before after : Server}
    (keyed : before.Keyed) (watched : Watched levelOf (standing past) before)
    (reported : Reported levelOf past input before) (ran : take input before = some after) :
    Watched levelOf (standing (past ++ [input])) after ↔ Watchful levelOf (standing past) before input := by
  obtain ⟨event, answers⟩ := input
  rw [standing_snoc]
  cases event with
  | request request =>
    cases request with
    | userStandRoom uid tid =>
      obtain ⟨apart, known⟩ := reported
      obtain rfl := Option.some.inj ran
      change Watched levelOf (Function.update _ uid (some tid)) (before.processReportUserStandRoom answers uid tid) ↔
        ∀ user, before.gshm.lookup uid = some user → _
      rw [gshm_lookup]
      cases found : before.store.lookup uid with
      | none =>
        obtain ⟨looks, store⟩ := @stand_absent before answers uid found tid
        exact iff_of_true (report_absent keyed found watched looks store _) fun user stored => by simp at stored
      | some user => simpa using stand_watched_iff keyed watched found apart known
    | standLeaveRoom uid =>
      obtain ⟨tid, stands⟩ := Option.ne_none_iff_exists'.mp reported
      obtain rfl := Option.some.inj ran
      change Watched levelOf (Function.update _ uid none) (before.processReportStandLeaveRoom uid) ↔
        ∀ user tid, before.gshm.lookup uid = some user → _ → _
      rw [gshm_lookup]
      cases found : before.store.lookup uid with
      | none =>
        obtain ⟨looks, store⟩ := @leave_absent before uid found
        exact iff_of_true (report_absent keyed found watched looks store _) fun user tid stored => by simp at stored
      | some user => simpa [stands] using leave_watched_iff keyed watched found stands
    | userLogin uid svid userId terminalType => exact login_watched_iff keyed watched ran
    | clientClose uid => exact close_watched_iff keyed watched ran
    | getUserTable | getRoomLevelNum | userLeaveRoom | userEnterRoom | logicCore | hallCore | clearServerInfo | tjSwitch
    | getUserHallId | setLevelCountRandom | ignored =>
      refine iff_of_true (watched_kept keyed watched ran rfl fun change cause => ?_) trivial
      cases cause <;> exact ⟨_, _, rfl, rfl, rfl⟩
  | synData records =>
    refine iff_of_true (watched_kept keyed watched ran rfl fun change cause => ?_) trivial
    cases cause
  | offlineCheck => exact offline_watched_iff keyed watched ran
  | flushCheck => exact flush_watched_iff keyed watched ran

/-- In every run from the start in which the reports alternate, the counts of those
who look on are right after each step exactly when each step meets its condition. -/
theorem onlooker_counts_agree_iff (fresh : server.Fresh) (inputs : List (Event × Answers))
    (reported : AtEachStep take inputs server fun past input before _ => Reported levelOf past input before) :
    AtEachStep take inputs server (fun past input _ after => Watched levelOf (standing (past ++ [input])) after) ↔
      AtEachStep take inputs server fun past input before _ => Watchful levelOf (standing past) before input := by
  have empty : Watched levelOf (standing []) server := by
    refine watched_iff.mpr fun place => ?_
    rw [fresh.store, tally_empty]
    have none : server.looks = fun _ => 0 := by
      funext place
      cases place <;> rw [looks, fresh.stat] <;> rfl
    rw [none]
    rfl
  exact atEachStep_inv_iff (fun keyed ran => step_keyed keyed ran) step_watched_iff fresh.keyed empty reported

/-- A message about user 7, when memcached has each game server at level 5. -/
def about (request : Request) : Event × Answers := (.request request, levelInMemcached 1000)

/-- A user sits down, looks on at the same table and stops. -/
theorem onlooker_counts_agree_seated :
    AtEachStep take [about (.userLogin 7 1 7 3), about (.userEnterRoom 7 65536), about (.userStandRoom 7 65536),
      about (.standLeaveRoom 7)] (initial 1 0) fun past input _ after =>
        Watched (fun _ => 5) (standing (past ++ [input])) after := by
  let entered := (initial 1 0).processUserLogin (levelInMemcached 1000) 7 1 7 3
  let seated := entered.processReportUserEnterRoom (levelInMemcached 1000) 7 65536
  let stood := seated.processReportUserStandRoom (levelInMemcached 1000) 7 65536
  have login : take (about (.userLogin 7 1 7 3)) (initial 1 0) = some entered := rfl
  have enter : take (about (.userEnterRoom 7 65536)) entered = some seated := rfl
  have stand : take (about (.userStandRoom 7 65536)) seated = some stood := rfl
  have leave : take (about (.standLeaveRoom 7)) stood = some (stood.processReportStandLeaveRoom 7) := rfl
  refine (onlooker_counts_agree_iff (fresh_initial 1 0) _ ?_).mpr ?_
  · rw [atEachStep_cons login, atEachStep_cons enter, atEachStep_cons stand, atEachStep_cons leave]
    exact ⟨trivial, trivial, ⟨rfl, rfl⟩, Option.some_ne_none (65536 : Int32), atEachStep_nil⟩
  · rw [atEachStep_cons login, atEachStep_cons enter, atEachStep_cons stand, atEachStep_cons leave]
    refine ⟨fun _ _ _ => rfl, trivial, fun user stored => ?_, fun user tid stored stands => ?_, atEachStep_nil⟩
    · obtain rfl : (⟨7, 1, 65536, 3, 5, 1000⟩ : GameUser) = user := Option.some.inj stored
      decide
    · obtain rfl : (⟨7, 1, 65536, 3, 5, 1000⟩ : GameUser) = user := Option.some.inj stored
      obtain rfl : (65536 : Int32) = tid := Option.some.inj stands
      decide

/-- A user without a level looks on, and is closed meanwhile. -/
def lookOnAndClose : List (Event × Answers) :=
  [about (.userLogin 7 1 7 3), about (.userStandRoom 7 65536), about (.clientClose 7)]

/-- The level of the table has nobody while the user looks on, and the terminal type
keeps the user who is gone. -/
theorem onlookers_miscounted :
    (AtEachStep take lookOnAndClose (initial 1 0) fun past input before _ => Reported (fun _ => 5) past input before) ∧
      ∃ stood closed, run take (lookOnAndClose.take 2) (initial 1 0) = some stood ∧
        run take lookOnAndClose (initial 1 0) = some closed ∧
        ¬ Watched (fun _ => 5) (standing (lookOnAndClose.take 2)) stood ∧
        ¬ Watched (fun _ => 5) (standing lookOnAndClose) closed := by
  let entered := (initial 1 0).processUserLogin (levelInMemcached 1000) 7 1 7 3
  let stood := entered.processReportUserStandRoom (levelInMemcached 1000) 7 65536
  let closed := stood.processClientClose (levelInMemcached 1000) 7
  have login : take (about (.userLogin 7 1 7 3)) (initial 1 0) = some entered := rfl
  have stand : take (about (.userStandRoom 7 65536)) entered = some stood := rfl
  have close : take (about (.clientClose 7)) stood = some closed := rfl
  refine ⟨?_, stood, closed, rfl, rfl, fun watched => ?_, fun watched => ?_⟩
  · rw [lookOnAndClose, atEachStep_cons login, atEachStep_cons stand, atEachStep_cons close]
    exact ⟨trivial, ⟨rfl, rfl⟩, trivial, atEachStep_nil⟩
  · exact absurd (watched.levels 5) (by decide)
  · exact absurd watched.terminals (by decide)

end Server

end TeenpattiUserServer.UserServer
