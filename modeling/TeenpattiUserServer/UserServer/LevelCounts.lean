import TeenpattiUserServer.UserServer.Run

/-! The level counts: each is the number of stored users whose server has this
level, as long as a login finds the level that the record of the user has. -/

namespace TeenpattiUserServer.UserServer

open Std Bookkeeping

/-- `-1` stands for no level. -/
def levelOf (level : Int16) : Option Int16 := if level = -1 then none else some level

/-- The class a user is counted in by `playCount` of the level. -/
def levelClass (user : GameUser) : Option Int16 := levelOf user.serverLevel

/-- The counters, without what may stand at `-1`. -/
def Book.levels (book : Book) : Int16 → Int := Function.update book.level (-1) 0

private theorem levels_enter {book after : Book} {level : Int16} (noted : after.level = raise book.level level) :
    after.levels = move book.levels none (levelOf level) := by
  funext other
  by_cases none : level = -1
  · by_cases same : other = -1 <;> simp [Book.levels, levelOf, noted, none, raise, same]
  · by_cases same : other = -1
    · have different : (-1 : Int16) ≠ level := fun equal => none equal.symm
      simp [Book.levels, levelOf, none, raise, same, different]
    · by_cases own : other = level <;> simp [Book.levels, levelOf, noted, none, raise, same, own]

private theorem levels_leave {book after : Book} {user : GameUser}
    (noted : after.level = (book.logoutLevel user).level) :
    after.levels = move book.levels (levelClass user) none := by
  funext other
  by_cases none : user.serverLevel = -1
  · simp [Book.levels, levelClass, levelOf, noted, none, Book.logoutLevel]
  · by_cases same : other = -1
    · have different : (-1 : Int16) ≠ user.serverLevel := fun equal => none equal.symm
      simp [Book.levels, levelClass, levelOf, none, lower, same, different]
    · by_cases own : other = user.serverLevel <;>
        simp [Book.levels, levelClass, levelOf, noted, none, lower, same, own, Book.logoutLevel, Book.updateLevel]

private theorem sit_level_balanced (user : GameUser) (tid time : Int32) (level : Option Int16) :
    Balanced Book.levels (inClass levelClass) (Change.sit user tid time level) := by
  cases level with
  | none => exact .of_same rfl fun book => by simp [Change.sit, Book.levels]
  | some level =>
    by_cases same : level = user.serverLevel
    · exact .of_same (by simp [Change.sit, levelClass, same]) fun book => by simp [Change.sit, Book.levels, same]
    · refine .of_move fun book _ => ?_
      let seated := book.loginTable user
      have kept : seated.levels = book.levels := by simp [seated, Book.levels]
      have left : (seated.logoutLevel user).levels = move seated.levels (levelClass user) none := levels_leave rfl
      have entered : ((seated.logoutLevel user).updateLevel .login level).levels =
          move (seated.logoutLevel user).levels none (levelOf level) := levels_enter rfl
      have noted : (Change.sit user tid time (some level)).note book =
          (seated.logoutLevel user).updateLevel .login level := if_pos same
      rw [noted, entered, left, kept]
      rfl

private theorem leave_level_balanced (user : GameUser) (time : Int32) :
    Balanced Book.levels (inClass levelClass) (Change.leave user time) := by
  refine .of_move fun book _ => ?_
  have kept : (book.logoutTable (0 < user.tid) user).levels = book.levels := by simp [Book.levels]
  have left : ((book.logoutTable (0 < user.tid) user).logoutLevel user).levels =
      move (book.logoutTable (0 < user.tid) user).levels (levelClass user) none := levels_leave rfl
  rw [kept] at left
  exact left

private theorem depart_level_balanced (user : GameUser) (seated : Bool) :
    Balanced Book.levels (inClass levelClass) (Change.depart user seated true) := by
  refine .of_move fun book _ => ?_
  let gone := (book.updateTerminal .logoutHall user.terminalType).logoutTable seated user
  have kept : gone.levels = book.levels := by simp [gone, Book.levels]
  have left : (gone.logoutLevel user).levels = move gone.levels (levelClass user) none := levels_leave rfl
  rw [kept] at left
  exact left

namespace Server

/-- A login finds the server of the user's table at the level the record has; a
new user has none. -/
def LevelKept (server : Server) (answers : Answers) : Event → Prop
  | .request (.userLogin _ _ userId _) =>
    let found := server.store.lookup userId
    let tid := (found.map (·.tid)).getD (seededTid answers server.options.startTime userId)
    0 < userId → 0 < tid → lookedUpLevel answers server tid = (found.map (·.serverLevel)).getD (-1)
  | _ => True

variable {answers : Answers} {server : Server} {event : Event} {change : Change}

/-- The level a login stores is the one the record had. -/
private theorem loginRecord_level {uid svid userId : Int32} {terminalType : Int16}
    (kept : server.LevelKept answers (.request (.userLogin uid svid userId terminalType))) (valid : 0 < userId)
    {found : Option GameUser} (stored : server.store.lookup userId = found) :
    (loginRecord answers server svid userId terminalType found).serverLevel = (found.map (·.serverLevel)).getD (-1) := by
  subst stored
  simp only [loginRecord]
  split
  · next seated => exact kept valid seated
  · rfl

/-- A user without a table has no level. -/
def Levelled (_ : Int32) (user : GameUser) : Prop := ¬ 0 < user.tid → user.serverLevel = -1

theorem level_balanced (kept : server.LevelKept answers event) (cause : Cause answers server event change)
    (levelled : ∀ user, change.old = some user → Levelled change.key user) :
    Balanced Book.levels (inClass levelClass) change := by
  cases cause with
  | @arrive uid svid userId terminalType valid absent =>
    have level := loginRecord_level kept valid absent
    have uncounted : levelClass (loginRecord answers server svid userId terminalType none) = none := by
      rw [levelClass, level]
      rfl
    refine .of_same ?_ fun _ => rfl
    simp only [Change.arrive]
    split <;> simp [uncounted]
  | @reenter uid svid userId terminalType user valid stored =>
    have level := loginRecord_level kept valid stored
    refine .of_same ?_ fun book => by simp [Change.reenter, Book.levels]
    simp only [Change.reenter, Option.bind_some, levelClass]
    rw [level]
    rfl
  | @close uid user standing =>
    have none := levelled user rfl standing
    exact .of_same (by simp [Change.depart, levelClass, levelOf, none]) fun book => by simp [Change.depart, Book.levels]
  | expire | flush => exact depart_level_balanced _ _
  | leave | tid0 => exact leave_level_balanced _ _
  | sit level => exact sit_level_balanced _ _ _ level
  | disconnect =>
    refine .of_same rfl fun book => ?_
    simp only [Change.disconnect]
    split <;> simp [Book.levels]
  | refresh | detach | forget => exact .of_same rfl fun _ => rfl

theorem levelled_kept (positive : PositiveTable event) (kept : server.LevelKept answers event)
    (cause : Cause answers server event change)
    (levelled : ∀ user, change.old = some user → Levelled change.key user) :
    ∀ user, change.new = some user → Levelled change.key user := by
  intro user stored
  cases cause with
  | @arrive uid svid userId terminalType valid absent =>
    simp only [Change.arrive, Option.ite_none_right_eq_some, Option.some.injEq] at stored
    obtain ⟨-, rfl⟩ := stored
    exact fun _ => loginRecord_level kept valid absent
  | @reenter uid svid userId terminalType before valid present =>
    obtain rfl := Option.some.inj stored
    exact fun standing => (loginRecord_level kept valid present).trans (levelled before rfl standing)
  | close | expire | flush | forget => simp [Change.depart, Change.forget] at stored
  | sit =>
    obtain rfl := Option.some.inj stored
    exact fun standing => absurd positive standing
  | leave | tid0 =>
    obtain rfl := Option.some.inj stored
    exact fun _ => rfl
  | @refresh _ _ _ _ before | @detach _ before | @disconnect _ before =>
    obtain rfl := Option.some.inj stored
    exact levelled before rfl

/-- In every run in which each login finds the level that is on record, the level
counts are the numbers of stored users of these levels. -/
theorem level_counts_agree
    (reached : server.ReachedBy fun server answers event => PositiveTable event ∧ server.LevelKept answers event)
    (level : Int16) (known : level ≠ -1) :
    server.stat.levelPlay level = server.gshm.visit.countP (fun user => user.serverLevel = level) := by
  let sound (ledger : Ledger Int32 GameUser Book) : Prop :=
    Agrees Book.levels (inClass levelClass) ledger ∧ AllStored Levelled ledger
  have holds : sound server.ledger := by
    refine reached.invariant ⟨fun level => ?_, fun _ _ stored => by simp at stored⟩ ?_
    · by_cases none : level = -1 <;> simp [Book.levels, none]
    · rintro answers server event change - ⟨positive, kept⟩ cause ledger fits ⟨agrees, levelled⟩
      have old : ∀ user, change.old = some user → Levelled change.key user :=
        fun user found => levelled change.key user (fits.trans found)
      exact ⟨(level_balanced kept cause old).keeps fits agrees, levelled.apply (levelled_kept positive kept cause old)⟩
  have members : inClass levelClass level = fun user => decide (user.serverLevel = level) := by
    funext user
    by_cases none : user.serverLevel = -1
    · have different : (-1 : Int16) ≠ level := fun equal => known equal.symm
      simp [inClass, levelClass, levelOf, none, different]
    · simp [inClass, levelClass, levelOf, none]
  have counted := holds.1 level
  rw [members, ledger, tally_store] at counted
  rw [← counted, Book.levels, Function.update_of_ne known]
  rfl

/-- Memcached has each game server at level 5. -/
def levelInMemcached (time : Int32) : Answers := { quiet time with serverRecord := fun _ => [53, 44, 97, 44, 49] }

/-- A user logs in and sits down at a table of level 5. -/
theorem level_counts_agree_seated :
    (((initial 1 0).processUserLogin (quiet 1000) 7 1 7 3).processReportUserEnterRoom (levelInMemcached 1001) 7
      65536).stat.levelPlay 5 = 1 := by
  let entered := (initial 1 0).processUserLogin (quiet 1000) 7 1 7 3
  let seated := entered.processReportUserEnterRoom (levelInMemcached 1001) 7 65536
  have login : (initial 1 0).step (.request (.userLogin 7 1 7 3)) (quiet 1000) = some entered := rfl
  have enter : entered.step (.request (.userEnterRoom 7 65536)) (levelInMemcached 1001) = some seated := rfl
  have noTable : PositiveTable (.request (.userLogin 7 1 7 3)) := trivial
  have positive : PositiveTable (.request (.userEnterRoom 7 65536)) := by
    rw [PositiveTable]
    decide
  have kept : (initial 1 0).LevelKept (quiet 1000) (.request (.userLogin 7 1 7 3)) := fun _ seeded => by
    exact absurd seeded (by decide)
  have noLogin : entered.LevelKept (levelInMemcached 1001) (.request (.userEnterRoom 7 65536)) := trivial
  have arrived : entered.ReachedBy fun server answers event => PositiveTable event ∧ server.LevelKept answers event :=
    .next (.start (fresh_initial 1 0)) ⟨noTable, kept⟩ login
  have reached : seated.ReachedBy fun server answers event => PositiveTable event ∧ server.LevelKept answers event :=
    .next arrived ⟨positive, noLogin⟩ enter
  refine (level_counts_agree reached 5 (by decide)).trans ?_
  decide

/-- A user sits down at a table of an unknown server and logs in again when
memcached knows the server. -/
def relogin : Server :=
  (((initial 1 0).processUserLogin (quiet 1000) 7 1 7 3).processReportUserEnterRoom (quiet 1001) 7
    65536).processUserLogin (levelInMemcached 1002) 7 1 7 3

/-- The user has level 5 from this login on, and is not counted there. -/
theorem relogin_uncounted :
    (relogin.ReachedBy fun server _ event => server.Roomy event ∧ PositiveTable event) ∧
      relogin.stat.levelPlay 5 = 0 ∧ relogin.gshm.visit.countP (fun user => user.serverLevel = 5) = 1 := by
  let entered := (initial 1 0).processUserLogin (quiet 1000) 7 1 7 3
  let seated := entered.processReportUserEnterRoom (quiet 1001) 7 65536
  have login : (initial 1 0).step (.request (.userLogin 7 1 7 3)) (quiet 1000) = some entered := rfl
  have enter : entered.step (.request (.userEnterRoom 7 65536)) (quiet 1001) = some seated := rfl
  have again : seated.step (.request (.userLogin 7 1 7 3)) (levelInMemcached 1002) = some relogin := rfl
  have room : (initial 1 0).Roomy (.request (.userLogin 7 1 7 3)) := fun _ _ => by decide
  have positive : PositiveTable (.request (.userEnterRoom 7 65536)) := by
    rw [PositiveTable]
    decide
  have noLogin : entered.Roomy (.request (.userEnterRoom 7 65536)) := trivial
  have present : seated.Roomy (.request (.userLogin 7 1 7 3)) := fun _ absent => by
    exact absurd absent (by decide)
  have arrived : entered.ReachedBy fun server _ event => server.Roomy event ∧ PositiveTable event :=
    .next (.start (fresh_initial 1 0)) ⟨room, trivial⟩ login
  have reached : seated.ReachedBy fun server _ event => server.Roomy event ∧ PositiveTable event :=
    .next arrived ⟨noLogin, positive⟩ enter
  exact ⟨.next reached ⟨present, trivial⟩ again, by decide, by decide⟩

end Server

end TeenpattiUserServer.UserServer
