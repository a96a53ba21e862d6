import TeenpattiUserServer.UserServer.LevelCounts
import TeenpattiUserServer.UserServer.OnlineCounts
import TeenpattiUserServer.UserServer.PlayCounts
import TeenpattiUserServer.UserServer.Process

/-! The statistics over the lives of several processes: each finds the users of the one
before it in the shared memory, or clears it, counts them, and goes on counting. -/

namespace TeenpattiUserServer.UserServer

open Std Bookkeeping Shm

/-- The options of a process that has read its configuration. -/
structure Options.Begun (options : Options) : Prop where
  serverList : options.serverList = ∅
  offlineUserMgr : options.offlineUserMgr = ∅
  levelTotalMgr : options.levelTotalMgr = ∅

/-- The counts are those of the stored users. No table id is negative, and a user without a table has no level. -/
structure Tallied (ledger : Ledger Int32 GameUser Book) : Prop where
  online : Agrees Book.online (inClass onlineClass) ledger
  play : Agrees Book.play (inClass playClass) ledger
  levels : Agrees Book.levels (inClass levelClass) ledger
  valid : AllStored (fun _ user => 0 ≤ user.tid) ledger
  levelled : AllStored Server.Levelled ledger

private theorem inClass_online (terminalType : Int16) :
    inClass onlineClass terminalType = fun user => decide (user.terminalType = terminalType) := by
  funext user
  simp [inClass, onlineClass]

private theorem inClass_play (terminalType : Int16) :
    inClass playClass terminalType = fun user => decide (user.terminalType = terminalType ∧ 0 < user.tid) := by
  funext user
  by_cases seated : 0 < user.tid <;> simp [inClass, playClass, seated]

private theorem inClass_level {level : Int16} (known : level ≠ -1) :
    inClass levelClass level = fun user => decide (user.serverLevel = level) := by
  funext user
  by_cases none : user.serverLevel = -1
  · have different : (-1 : Int16) ≠ level := known.symm
    simp [inClass, levelClass, levelOf, none, different]
  · simp [inClass, levelClass, levelOf, none]

namespace Server

/-- There is room for a new user, a room has a positive table id, and a login changes neither the table nor the
level of a user. -/
structure Careful (server : Server) (answers : Answers) (event : Event) : Prop where
  roomy : server.Roomy event
  positive : PositiveTable event
  unseeded : server.Unseeded answers event
  kept : server.LevelKept answers event

/-- The states of the first process and of those after it, each of which runs `InitSHM`. -/
inductive Lives (nodes : Nat) : Server → Prop
  | start {server} (fresh : server.Fresh) : Lives nodes server
  | step {server answers event after} (lives : Lives nodes server) (careful : server.Careful answers event)
      (ran : server.step event answers = some after) : Lives nodes after
  | restart {server os unassigned options after} (lives : Lives nodes server) (begun : Options.Begun options)
      (ran : server.live nodes (.begins os unassigned options) = some after) : Lives nodes after

variable {server after : Server} {answers : Answers} {event : Event} {options : Options} {nodes : Nat}
  {os : SVShm.Answers} {unassigned : Int}

/-- A process that begins counts the users of the one before it, or has none. -/
private theorem begins_gshm (ran : server.live nodes (.begins os unassigned options) = some after) :
    ∃ gshm, after = reportStartTJData ⟨gshm, Stat.empty, options, 0, []⟩ ∧
      gshm = if (SVShm.forceOpenAndAttach os).2 = 0 ∧ unassigned = 0 then server.gshm else ⟨∅, nodes⟩ := by
  have same : ((SVShm.forceOpenAndAttach os).2 ≠ 0 ∨ unassigned ≠ 0) ↔
      ¬((SVShm.forceOpenAndAttach os).2 = 0 ∧ unassigned = 0) := (not_and_or ..).symm
  simp only [live, TableCall.answer, same] at ran
  by_cases failed : (SVShm.forceOpenAndAttach os).1 < 0
  · simp [failed] at ran
  · rw [if_neg failed] at ran
    by_cases kept : (SVShm.forceOpenAndAttach os).2 = 0 ∧ unassigned = 0
    · rw [if_neg (not_not.mpr kept)] at ran
      exact ⟨_, (Option.some.inj ran).symm, (if_pos kept).symm⟩
    · rw [if_pos kept] at ran
      exact ⟨_, (Option.some.inj ran).symm, (if_neg kept).symm⟩

private theorem step_tallied (keyed : server.Keyed) (careful : server.Careful answers event)
    (ran : server.step event answers = some after) (tallied : Tallied server.ledger) : Tallied after.ledger := by
  refine step_keeps Tallied keyed ran (fun change cause ledger fits tallied => ?_) tallied
  have valid : ∀ user, change.old = some user → 0 ≤ user.tid :=
    fun user found => tallied.valid change.key user (fits.trans found)
  have levelled : ∀ user, change.old = some user → Levelled change.key user :=
    fun user found => tallied.levelled change.key user (fits.trans found)
  exact {
    online := (online_balanced careful.roomy cause).keeps fits tallied.online
    play := (play_balanced careful.positive careful.unseeded cause valid).keeps fits tallied.play
    levels := (level_balanced careful.kept cause levelled).keeps fits tallied.levels
    valid := tallied.valid.apply (tid_valid careful.positive careful.unseeded cause valid)
    levelled := tallied.levelled.apply (levelled_kept careful.positive careful.kept cause levelled) }

/-- `ReportStartTJData` counts what is stored. -/
private theorem reportStart_tallied (gshm : GameUserSHM) (options : Options)
    (valid : ∀ uid user, gshm.lookup uid = some user → 0 ≤ user.tid)
    (levelled : ∀ uid user, gshm.lookup uid = some user → Levelled uid user) :
    Tallied (reportStartTJData ⟨gshm, Stat.empty, options, 0, []⟩).ledger := by
  let begun := reportStartTJData ⟨gshm, Stat.empty, options, 0, []⟩
  have counts := reportStartTJData_counts ⟨gshm, Stat.empty, options, 0, []⟩ rfl
  have stored (uid : Int32) : begun.store.lookup uid = gshm.lookup uid := (gshm_lookup begun uid).symm
  have standing : AllStored Levelled begun.ledger := fun uid user found =>
    levelled uid user ((stored uid).symm.trans found)
  refine ⟨fun terminalType => ?_, fun terminalType => ?_, fun level => ?_, fun uid user found => ?_, standing⟩
  · exact (counts terminalType 0).1.trans (by rw [inClass_online, ledger_store, tally_store]; rfl)
  · exact (counts terminalType 0).2.1.trans (by rw [inClass_play, ledger_store, tally_store]; rfl)
  · by_cases known : level = -1
    · have uncounted : ∀ user, inClass levelClass level user = false := by
        intro user
        simp only [inClass, levelClass, levelOf, known]
        split <;> simp_all
      have none : tally (inClass levelClass level) begun.ledger.store = 0 := by
        rw [ledger_store, tally_store, List.countP_eq_zero]
        simp [uncounted]
      rw [none, Book.levels, known, Function.update_self]
      rfl
    · have seated : tally (fun user => decide (user.serverLevel = level ∧ 0 < user.tid)) begun.store =
          tally (inClass levelClass level) begun.store := by
        refine tally_congr fun uid user found => ?_
        have standing := standing uid user found
        rw [inClass_level known, decide_eq_decide]
        refine ⟨And.left, fun same => ⟨same, ?_⟩⟩
        by_contra gone
        exact known (same.symm.trans (standing gone))
      rw [ledger_store, ← seated, tally_store, Book.levels, Function.update_of_ne known]
      exact (counts 0 level).2.2
  · exact valid uid user ((stored uid).symm.trans found)

theorem Lives.keyed (lives : server.Lives nodes) : server.Keyed := by
  induction lives with
  | start fresh => exact fresh.keyed
  | step _ _ ran ih => exact step_keyed ih ran
  | @restart server _ _ _ _ _ _ ran ih =>
    obtain ⟨gshm, rfl, same⟩ := begins_gshm ran
    intro uid user found
    have stored : gshm.lookup uid = some user := (gshm_lookup _ uid).trans found
    split at same <;> subst gshm
    · exact ih uid user ((gshm_lookup server uid).symm.trans stored)
    · simp [GameUserSHM.lookup] at stored

theorem Lives.tallied (lives : server.Lives nodes) : Tallied server.ledger := by
  induction lives with
  | start fresh =>
    rw [ledger, fresh.store, fresh.book]
    refine ⟨fun _ => rfl, fun _ => rfl, fun level => ?_, by simp [AllStored], by simp [AllStored]⟩
    by_cases none : level = -1 <;> simp [Book.levels, none]
  | step lives careful ran ih => exact step_tallied lives.keyed careful ran ih
  | @restart server _ _ _ _ _ _ ran ih =>
    obtain ⟨gshm, rfl, same⟩ := begins_gshm ran
    split at same <;> subst gshm
    · have stored (uid : Int32) : server.ledger.store.lookup uid = server.gshm.lookup uid := (gshm_lookup server uid).symm
      exact reportStart_tallied _ _ (fun uid user found => ih.valid uid user ((stored uid).trans found))
        fun uid user found => ih.levelled uid user ((stored uid).trans found)
    · exact reportStart_tallied _ _ (by simp [GameUserSHM.lookup]) (by simp [GameUserSHM.lookup])

/-- The counts of a server are those of its users. -/
structure Counted (server : Server) : Prop where
  online : ∀ terminalType, server.stat.online terminalType =
    server.gshm.visit.countP fun user => user.terminalType = terminalType
  onPlay : ∀ terminalType, server.stat.onPlay terminalType =
    server.gshm.visit.countP fun user => user.terminalType = terminalType ∧ 0 < user.tid
  levelPlay : ∀ level, level ≠ -1 → server.stat.levelPlay level =
    server.gshm.visit.countP fun user => user.serverLevel = level

private theorem counted_of_tallied (tallied : Tallied server.ledger) : server.Counted where
  online terminalType := by
    rw [← inClass_online, ← tally_store]
    exact tallied.online terminalType
  onPlay terminalType := by
    rw [← inClass_play, ← tally_store]
    exact tallied.play terminalType
  levelPlay level known := by
    have counted := tallied.levels level
    rw [Book.levels, Function.update_of_ne known] at counted
    rw [← inClass_level known, ← tally_store]
    exact counted

/-- However often the process is replaced, the statistics are those of the users; a restart that keeps the users
keeps the counts, and one that clears the segment begins with none. -/
theorem counts_survive_restarts (lives : server.Lives nodes) : server.Counted ∧
    ∀ os unassigned options after, Options.Begun options →
      server.live nodes (.begins os unassigned options) = some after → after.Counted ∧
        if (SVShm.forceOpenAndAttach os).2 = 0 ∧ unassigned = 0 then
          ∀ terminalType level, level ≠ -1 → after.stat.online terminalType = server.stat.online terminalType ∧
            after.stat.onPlay terminalType = server.stat.onPlay terminalType ∧
            after.stat.levelPlay level = server.stat.levelPlay level
        else after.gshm.visit = [] := by
  have counted := counted_of_tallied lives.tallied
  refine ⟨counted, fun os unassigned options after begun ran => ?_⟩
  have recounted := counted_of_tallied (Lives.restart lives begun ran).tallied
  obtain ⟨gshm, rfl, same⟩ := begins_gshm ran
  refine ⟨recounted, ?_⟩
  split <;> rename_i kept
  · rw [if_pos kept] at same
    subst gshm
    intro terminalType level known
    exact ⟨(recounted.online _).trans (counted.online _).symm, (recounted.onPlay _).trans (counted.onPlay _).symm,
      (recounted.levelPlay _ known).trans (counted.levelPlay _ known).symm⟩
  · rw [if_neg kept] at same
    subst gshm
    rfl

/-- The segment is there. -/
def segmentThere : SVShm.Answers := ⟨-1, true, 5, 0, 0, 0, false⟩

/-- A user sits down at a table of level 5; a second process finds the user there, the user leaves the room, and
a third process clears the segment. -/
theorem counts_survive_restarts_seated :
    let seated := ((initial 1 0).processUserLogin (quiet 1000) 7 1 7 3).processReportUserEnterRoom
      (levelInMemcached 1001) 7 65536
    ∃ found cleared, seated.live 1 (.begins segmentThere 0 (Options.initial 2000)) = some found ∧
      found.stat.levelPlay 5 = 1 ∧ found.stat.levelPlay 5 = seated.stat.levelPlay 5 ∧
      let left := found.processReportUserLeaveRoom (quiet 2001) 7
      left.stat.levelPlay 5 = 0 ∧ left.stat.onPlay 3 = 0 ∧ left.stat.online 3 = 1 ∧
        left.live 1 (.begins segmentThere 9 (Options.initial 3000)) = some cleared ∧ cleared.stat.online 3 = 0 := by
  intro seated
  let entered := (initial 1 0).processUserLogin (quiet 1000) 7 1 7 3
  let found := reportStartTJData ⟨seated.gshm, Stat.empty, Options.initial 2000, 0, []⟩
  let left := found.processReportUserLeaveRoom (quiet 2001) 7
  let cleared := reportStartTJData ⟨⟨∅, 1⟩, Stat.empty, Options.initial 3000, 0, []⟩
  have positive : PositiveTable (.request (.userEnterRoom 7 65536)) := by
    rw [PositiveTable]
    decide
  have login : (initial 1 0).Careful (quiet 1000) (.request (.userLogin 7 1 7 3)) :=
    ⟨fun _ _ => by decide, trivial, fun _ _ => by decide, fun _ seeded => absurd seeded (by decide)⟩
  have enter : entered.Careful (levelInMemcached 1001) (.request (.userEnterRoom 7 65536)) :=
    ⟨trivial, positive, trivial, trivial⟩
  have leave : found.Careful (quiet 2001) (.request (.userLeaveRoom 7)) := ⟨trivial, trivial, trivial, trivial⟩
  have arrived : entered.Lives 1 := .step (.start (fresh_initial 1 0)) login rfl
  have sitting : seated.Lives 1 := .step arrived enter rfl
  have begun (time : Int32) : (Options.initial time).Begun := ⟨rfl, rfl, rfl⟩
  have attached : seated.live 1 (.begins segmentThere 0 (Options.initial 2000)) = some found := rfl
  have emptied : left.live 1 (.begins segmentThere 9 (Options.initial 3000)) = some cleared := rfl
  have gone : left.Lives 1 := .step (.restart sitting (begun 2000) attached) leave rfl
  obtain ⟨again, kept⟩ := (counts_survive_restarts sitting).2 _ _ _ _ (begun 2000) attached
  obtain ⟨counted, next⟩ := counts_survive_restarts gone
  have none := (next _ _ _ _ (begun 3000) emptied).1
  rw [if_pos (by decide)] at kept
  refine ⟨found, cleared, attached, (again.levelPlay 5 (by decide)).trans ?_, (kept 3 5 (by decide)).2.2,
    (counted.levelPlay 5 (by decide)).trans ?_, (counted.onPlay 3).trans ?_, (counted.online 3).trans ?_, emptied,
    (none.online 3).trans ?_⟩
  all_goals decide

end Server

end TeenpattiUserServer.UserServer
