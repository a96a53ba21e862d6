import TeenpattiUserServer.UserServer.Presence

/-! How long the server keeps a user. The two checks look at the clock now and then;
between them a record or an entry of the offline list grows older by what passes. -/

namespace TeenpattiUserServer.UserServer

open Std Bookkeeping

/-- The time at which an event is handled. -/
def clock (input : Event × Answers) : Int := (input.2.time 0).toInt

/-- The time of the last such event, or of the start. -/
def lastTime (kind : Event → Bool) (start : Int) (inputs : List (Event × Answers)) : Int :=
  inputs.foldl (fun last input => if kind input.1 then clock input else last) start

/-- The clock does not go back, neither between events nor while one is handled. -/
def Ticks (start : Int) : List (Event × Answers) → Prop
  | [] => True
  | input :: inputs =>
    start ≤ clock input ∧ (∀ call, clock input ≤ (input.2.time call).toInt) ∧ Ticks (clock input) inputs

/-- At each event, the last such event is so many seconds ago at most. -/
def Regular (kind : Event → Bool) (seconds : Nat) (last : Int) : List (Event × Answers) → Prop
  | [] => True
  | input :: inputs =>
    let last := if kind input.1 then clock input else last
    clock input - last ≤ seconds ∧ Regular kind seconds last inputs

def isFlush : Event → Bool
  | .flushCheck => true
  | _ => false

def isOfflineCheck : Event → Bool
  | .offlineCheck => true
  | _ => false

/-- A record is not idle since the last flush, and an entry of the offline list not late since the
last check of it. -/
structure Presence.Timely (flushed checked : Int) (presence : Presence) : Prop where
  seat : ∀ seat, presence.seat = some seat → 0 ≤ seat.updateTime.toInt ∧ flushed - seat.updateTime.toInt < 7200
  since : ∀ time, presence.since = some time → 0 ≤ time.toInt ∧ checked - time.toInt < 300

private theorem toInt_passed {now time : Int32} (first : 0 ≤ now.toInt) (second : 0 ≤ time.toInt) :
    (now - time).toInt = now.toInt - time.toInt := by
  have bound := now.toInt_lt
  have other := time.toInt_lt
  rw [Int32.toInt_sub]
  exact Int.bmod_eq_of_le (by omega) (by omega)

/-- What is not taken out is younger than the limit. -/
private theorem young {now time limit : Int32} {seconds : Int} (same : limit.toInt = seconds) (first : 0 ≤ now.toInt)
    (second : 0 ≤ time.toInt) (stays : ¬ now - time ≥ limit) : now.toInt - time.toInt < seconds := by
  rw [ge_iff_le, Int32.le_iff_toInt_le, toInt_passed first second, same] at stays
  omega

namespace Presence

variable {flushed checked : Int} {presence : Presence} {startTime uid : Int32} {answers : Answers} {call : Nat}

private theorem absent_timely : Timely flushed checked absent := ⟨nofun, nofun⟩

/-- A record that is written now. -/
private theorem Timely.alter (timely : Timely flushed checked presence) {now : Int32} (later : flushed ≤ now.toInt)
    (positive : 0 ≤ now.toInt) {change : Seat → Seat}
    (writes : ∀ seat, (change seat).updateTime = now ∨ (change seat).updateTime = seat.updateTime) :
    Timely flushed checked (presence.alter change) := by
  refine ⟨fun seat there => ?_, timely.since⟩
  obtain ⟨old, before, rfl⟩ := Option.map_eq_some_iff.mp there
  rcases writes old with same | same
  · rw [same]
    exact ⟨positive, by omega⟩
  · rw [same]
    exact timely.seat old before

/-- The flush leaves nobody who is idle. -/
private theorem Timely.after_flush (timely : Timely flushed checked presence) (positive : 0 ≤ (answers.time 0).toInt) :
    Timely (answers.time 0).toInt checked (presence.next startTime uid .flushCheck answers call) := by
  have hour : (((1 : Int32) * 60 * 60)).toInt = 3600 := by decide
  have hours : (((2 : Int32) * 60 * 60)).toInt = 7200 := by decide
  simp only [next]
  cases there : presence.seat with
  | none => exact ⟨fun seat some' => by simp [there] at some', timely.since⟩
  | some seat =>
    have written := timely.seat seat there
    dsimp only
    by_cases idle : answers.time 0 - seat.updateTime ≥ (if seat.tid = 0 then 1 else 2) * 60 * 60
    · rw [if_pos idle]
      exact absent_timely
    · rw [if_neg idle]
      refine ⟨fun other same => ?_, timely.since⟩
      obtain rfl := Option.some.inj (there.symm.trans same)
      refine ⟨written.1, ?_⟩
      split at idle
      · have age := young hour positive written.1 idle
        omega
      · exact young hours positive written.1 idle

/-- The check of the offline list leaves nobody who is late. -/
private theorem Timely.after_check (timely : Timely flushed checked presence) (positive : 0 ≤ (answers.time 0).toInt) :
    Timely flushed (answers.time 0).toInt (presence.next startTime uid .offlineCheck answers call) := by
  have minutes : (((5 : Int32) * 60)).toInt = 300 := by decide
  simp only [next]
  cases listed : presence.since with
  | none => exact ⟨timely.seat, fun time some' => by simp [listed] at some'⟩
  | some time =>
    have noted := timely.since time listed
    dsimp only
    split
    · exact absent_timely
    · rename_i stays
      refine ⟨timely.seat, fun other same => ?_⟩
      obtain rfl := Option.some.inj (listed.symm.trans same)
      exact ⟨noted.1, young minutes positive noted.1 stays⟩

/-- Any other event stores the time of the clock, or leaves the times. -/
private theorem Timely.after_other (timely : Timely flushed checked presence) {event : Event}
    (noFlush : isFlush event = false) (noCheck : isOfflineCheck event = false)
    (flush : flushed ≤ (answers.time 0).toInt) (check : checked ≤ (answers.time 0).toInt)
    (positive : 0 ≤ (answers.time 0).toInt) (calls : (answers.time 0).toInt ≤ (answers.time call).toInt) :
    Timely flushed checked (presence.next startTime uid event answers call) := by
  have seated : ∀ {seat : Seat} {since : Option Int32}, seat.updateTime = answers.time 0 →
      (∀ time, since = some time → 0 ≤ time.toInt ∧ checked - time.toInt < 300) →
      Timely flushed checked ⟨some seat, since⟩ := by
    intro seat since now kept
    refine ⟨fun other same => ?_, kept⟩
    obtain rfl := Option.some.inj same
    rw [now]
    exact ⟨positive, by omega⟩
  have noted : ∀ time, some (answers.time 0) = some time → 0 ≤ time.toInt ∧ checked - time.toInt < 300 := by
    rintro time ⟨⟩
    exact ⟨positive, by omega⟩
  unfold next
  dsimp only
  split
  · split
    · exact seated rfl nofun
    · exact timely
  · split
    · refine timely.alter flush positive fun seat => ?_
      split
      · exact .inl rfl
      · exact .inr rfl
    · exact timely
  · split
    · split
      · exact timely
      · split
        · exact seated rfl noted
        · exact absent_timely
    · exact timely
  · split
    · exact timely.alter flush positive fun _ => .inl rfl
    · exact timely
  · split
    · exact timely.alter flush positive fun _ => .inl rfl
    · exact timely
  · refine timely.alter flush positive fun seat => ?_
    split <;> exact .inr rfl
  · split
    · exact timely
    · rename_i seat there
      split
      · refine ⟨fun other same => ?_, fun time some' => ?_⟩
        · obtain rfl := Option.some.inj same
          exact timely.seat seat there
        · cases since : presence.since with
          | none =>
            rw [since] at some'
            obtain rfl := Option.some.inj some'
            exact ⟨by omega, by omega⟩
          | some old =>
            rw [since] at some'
            obtain rfl := Option.some.inj some'
            exact timely.since old since
      · exact timely
  · cases noCheck
  · cases noFlush
  · exact timely

/-- The events that mark the user anew: a login, and a client that closes. -/
def remarks (uid : Int32) : Event → Bool
  | .request (.userLogin _ _ user _) | .request (.clientClose user) => user = uid
  | _ => false

/-- Who is cut off stays so, or leaves for good. -/
private theorem next_cutOff {event : Event} {time : Int32} (silent : remarks uid event = false)
    (cut : presence = absent ∨ presence.since = some time) :
    presence.next startTime uid event answers call = absent ∨
      (presence.next startTime uid event answers call).since = some time := by
  rcases cut with rfl | since
  · refine .inl ?_
    unfold next
    split <;> simp_all [remarks, absent, alter]
  · have checked (aged : Prop) [Decidable aged] : (if aged then absent else presence) = absent ∨
        (if aged then absent else presence).since = some time := by
      split
      · exact .inl rfl
      · exact .inr since
    unfold next
    split
    case h_1 => simp_all [remarks]
    case h_3 => simp_all [remarks]
    case h_7 =>
      split
      · exact .inr since
      · split
        · exact .inr (by simp [since])
        · exact .inr since
    case h_8 =>
      split
      · exact .inr since
      · exact checked _
    case h_9 =>
      split
      · exact .inr since
      · exact checked _
    all_goals (try split) <;> exact .inr since

end Presence

variable {flushed checked start : Int} {startTime uid : Int32} {inputs : List (Event × Answers)} {before after : Presence}

/-- What a run leaves is timely at its last checks. -/
theorem timely_run (path : Path (Presence.MovesOrRefused startTime uid) inputs before after) (ticks : Ticks start inputs)
    (epoch : 0 ≤ start) (flush : flushed ≤ start) (check : checked ≤ start) (timely : before.Timely flushed checked) :
    after.Timely (lastTime isFlush flushed inputs) (lastTime isOfflineCheck checked inputs) := by
  induction path generalizing start flushed checked with
  | done => exact timely
  | @step input inputs before next after moved path ih =>
    obtain ⟨later, calls, ticks⟩ := ticks
    have now : (input.2.time 0).toInt = clock input := rfl
    rw [lastTime, lastTime, List.foldl_cons, List.foldl_cons]
    rcases moved with ⟨call, rfl⟩ | ⟨_, _⟩
    case inr => exact ih ticks (by omega) (by omega) (by omega) Presence.absent_timely
    by_cases flushes : isFlush input.1 = true
    · have event : input.1 = .flushCheck := by
        cases same : input.1 <;> simp [same, isFlush] at flushes
        rfl
      have other : ¬ isOfflineCheck input.1 = true := by simp [event, isOfflineCheck]
      rw [if_pos flushes, if_neg other]
      refine ih ticks (by omega) (Int.le_refl _) (by omega) ?_
      rw [event]
      exact timely.after_flush (by omega)
    · by_cases checks : isOfflineCheck input.1 = true
      · have event : input.1 = .offlineCheck := by
          cases same : input.1 <;> simp [same, isOfflineCheck] at checks
          rfl
        rw [if_neg flushes, if_pos checks]
        refine ih ticks (by omega) (by omega) (Int.le_refl _) ?_
        rw [event]
        exact timely.after_check (by omega)
      · rw [if_neg flushes, if_neg checks]
        refine ih ticks (by omega) (by omega) (by omega) ?_
        exact timely.after_other (by simpa using flushes) (by simpa using checks) (by omega) (by omega) (by omega) (calls call)

/-- The last event of a run, or its start, is so long after the last check. -/
private theorem passed_le {kind : Event → Bool} {seconds : Nat} {last : Int} (passed : start - last ≤ seconds)
    (regular : Regular kind seconds last inputs) :
    lastTime (fun _ => true) start inputs - lastTime kind last inputs ≤ seconds := by
  induction inputs generalizing start last with
  | nil => exact passed
  | cons input inputs ih => exact ih regular.1 regular.2

private theorem cutOff_run (path : Path (Presence.MovesOrRefused startTime uid) inputs before after) {time : Int32}
    (silent : ∀ input ∈ inputs, Presence.remarks uid input.1 = false)
    (cut : before = .absent ∨ before.since = some time) : after = .absent ∨ after.since = some time := by
  induction path with
  | done => exact cut
  | step moved _ ih =>
    have quiet := silent _ (List.mem_cons_self ..)
    refine ih (fun later member => silent later (List.mem_cons_of_mem _ member)) ?_
    rcases moved with ⟨call, rfl⟩ | ⟨_, _⟩
    · exact Presence.next_cutOff quiet cut
    · simp [Presence.remarks] at quiet

namespace Server

variable {server after : Server}

/-- When the checks are made regularly and the clock does not go back, no record gets older than two hours and
the time between two flushes, and no entry of the offline list older than five minutes and the time between
two checks of it. -/
theorem records_expire (keyed : server.Keyed)
    (recent : ∀ uid, (server.presence uid).Timely start start) (epoch : 0 ≤ start) (ticks : Ticks start inputs)
    {flushSeconds checkSeconds : Nat} (flushes : Regular isFlush flushSeconds start inputs)
    (checks : Regular isOfflineCheck checkSeconds start inputs)
    (ran : run (fun input : Event × Answers => step input.1 input.2) inputs server = some after) :
    (∀ uid user, after.gshm.lookup uid = some user →
      lastTime (fun _ => true) start inputs - user.updateTime.toInt < 7200 + flushSeconds) ∧
    ∀ (uid time : Int32), after.options.offlineUserMgr[uid]? = some time →
      lastTime (fun _ => true) start inputs - time.toInt < 300 + checkSeconds := by
  have timely (uid : Int32) := timely_run (presence_run keyed ran uid) ticks epoch (Int.le_refl _) (Int.le_refl _)
    (recent uid)
  have flushed := passed_le (by omega : start - start ≤ flushSeconds) flushes
  have checked := passed_le (by omega : start - start ≤ checkSeconds) checks
  constructor
  · intro uid user stored
    have seat : (after.presence uid).seat = some user.seat := by rw [presence, stored, Option.map_some]
    have age := ((timely uid).seat user.seat seat).2
    have same : user.seat.updateTime = user.updateTime := rfl
    rw [same] at age
    omega
  · intro uid time listed
    have age := ((timely uid).since time listed).2
    omega

/-- A user who sits down and is never heard of again, and one for whom there is no room. -/
def unheard : List (Event × Answers) :=
  [(.request (.userLogin 7 1 7 3), quiet 1000), (.request (.userLogin 8 1 8 3), quiet 1000),
    (.request (.userEnterRoom 7 65536), quiet 1000),
    (.flushCheck, quiet 4600), (.offlineCheck, quiet 4600)]

theorem records_expire_unheard : ∃ after,
    run (fun input : Event × Answers => step input.1 input.2) unheard (initial 1 0) = some after ∧
      after.gshm.lookup 7 ≠ none ∧ after.gshm.lookup 8 = none ∧ (∀ uid user, after.gshm.lookup uid = some user →
        4600 - user.updateTime.toInt < 7200 + (0 : Nat)) ∧
      ∀ (uid time : Int32), after.options.offlineUserMgr[uid]? = some time → 4600 - time.toInt < 300 + (3600 : Nat) := by
  have facts : (run (fun input : Event × Answers => step input.1 input.2) unheard (initial 1 0)).map (fun after =>
      ((after.gshm.lookup 7).isSome, (after.gshm.lookup 8).isSome)) = some (true, false) := by decide +kernel
  obtain ⟨after, ran, seen⟩ := Option.map_eq_some_iff.mp facts
  obtain ⟨there, refused⟩ := Prod.mk.inj seen
  have ticks : Ticks 1000 unheard := by simp [Ticks, unheard, clock, quiet]
  have recent (uid : Int32) : ((initial 1 0).presence uid).Timely 1000 1000 :=
    ⟨by simp [presence, initial, GameUserSHM.lookup], by simp [presence, initial, Options.initial]⟩
  refine ⟨after, ran, by rw [← Option.isSome_iff_ne_none, there], by simpa using refused, ?_⟩
  exact records_expire (fresh_initial 1 0).keyed recent (by decide) ticks
    (by simp [Regular, unheard, clock, quiet, isFlush]) (by simp [Regular, unheard, clock, quiet, isOfflineCheck]) ran

/-- A user who is cut off at a table, and does not log in again, is gone five minutes and the time between two
checks later, whatever is reported of the user in between. -/
theorem cut_off_users_leave (keyed : server.Keyed)
    {time : Int32} (cut : (server.presence uid).since = some time) (epoch : 0 ≤ time.toInt)
    (recorded : ∀ seat, (server.presence uid).seat = some seat → 0 ≤ seat.updateTime.toInt)
    (silent : ∀ input ∈ inputs, Presence.remarks uid input.1 = false) (ticks : Ticks time.toInt inputs)
    {checkSeconds : Nat} (checks : Regular isOfflineCheck checkSeconds time.toInt inputs)
    (passed : time.toInt + 300 + checkSeconds ≤ lastTime (fun _ => true) time.toInt inputs)
    (ran : run (fun input : Event × Answers => step input.1 input.2) inputs server = some after) :
    after.gshm.lookup uid = none ∧ uid ∉ after.options.offlineUserMgr := by
  have path := presence_run keyed ran uid
  have timely : (server.presence uid).Timely 0 time.toInt := by
    refine ⟨fun seat stored => ?_, fun since listed => ?_⟩
    · have positive := recorded seat stored
      omega
    · cases cut.symm.trans listed
      omega
  have last := timely_run path ticks epoch epoch (Int.le_refl _) timely
  rcases cutOff_run path silent (.inr cut) with gone | still
  · have record : (after.gshm.lookup uid).map GameUser.seat = none := congrArg Presence.seat gone
    have entry : after.options.offlineUserMgr[uid]? = none := congrArg Presence.since gone
    exact ⟨by simpa using record, by simpa using entry⟩
  · have checked := passed_le (by omega : time.toInt - time.toInt ≤ checkSeconds) checks
    have young := (last.since time still).2
    omega

/-- The hall of user 7 fails; the user is reported at another table, which does not help. -/
def reportedElsewhere : List (Event × Answers) :=
  [(.request (.userEnterRoom 7 131072), quiet 1100), (.offlineCheck, quiet 1290), (.offlineCheck, quiet 1590)]

theorem cut_off_users_leave_reportedElsewhere : ∃ before after,
    run (fun input : Event × Answers => step input.1 input.2)
      [(.request (.userLogin 7 1 7 3), quiet 900), (.request (.userEnterRoom 7 65536), quiet 950),
        (.request (.hallCore 1), quiet 1000)] (initial 2 0) = some before ∧
      run (fun input : Event × Answers => step input.1 input.2) reportedElsewhere before = some after ∧
      (before.presence 7).seat = some ⟨-1, 65536, 3, 950⟩ ∧ after.gshm.lookup 7 = none ∧
      7 ∉ after.options.offlineUserMgr := by
  have facts : (run (fun input : Event × Answers => step input.1 input.2)
      [(.request (.userLogin 7 1 7 3), quiet 900), (.request (.userEnterRoom 7 65536), quiet 950),
        (.request (.hallCore 1), quiet 1000)] (initial 2 0)).bind (fun before =>
      (run (fun input : Event × Answers => step input.1 input.2) reportedElsewhere before).map fun _ =>
        before.presence 7) = some ⟨some ⟨-1, 65536, 3, 950⟩, some 1000⟩ := by decide +kernel
  obtain ⟨before, began, facts⟩ := Option.bind_eq_some_iff.mp facts
  obtain ⟨after, ran, seen⟩ := Option.map_eq_some_iff.mp facts
  have keyed : before.Keyed := run_keeps (fun keyed stepped => step_keyed keyed stepped) began (fresh_initial 2 0).keyed
  have cut : (before.presence 7).since = some 1000 := by rw [seen]
  have recorded : ∀ seat, (before.presence 7).seat = some seat → 0 ≤ seat.updateTime.toInt := by
    simp [seen]
  refine ⟨before, after, began, ran, by rw [seen], ?_⟩
  exact @cut_off_users_leave _ reportedElsewhere before after keyed 1000 cut (by decide) recorded (by decide)
    (by simp [Ticks, reportedElsewhere, clock, quiet]) 290
    (by simp [Regular, reportedElsewhere, clock, quiet, isOfflineCheck])
    (by simp [lastTime, reportedElsewhere, clock, quiet]) ran

end Server

end TeenpattiUserServer.UserServer
