import TeenpattiUserServer.Net.SocketServer

/-! When the loop that accepts connections returns, and whether every connection that it
has accepted is then registered or closed. -/

namespace TeenpattiUserServer.Net

open Loops

variable {accept : Nat → Accept} {handling : Nat → Welcome} {answers : AcceptAnswers} {server state : SocketServer}

/-- The calls of a batch follow each other. -/
theorem callsOf_eq (left call : Nat) :
    callsOf accept left call = (List.range' call (callsOf accept left call).length).map accept := by
  induction left generalizing call with
  | zero => rfl
  | succ left ih =>
    rw [callsOf]
    split_ifs
    · rfl
    · rw [List.length_cons, List.range'_succ, List.map_cons, ← ih (call + 1)]

theorem callsOf_getElem? {left call i : Nat} (inside : i < (callsOf accept left call).length) :
    (callsOf accept left call)[i]? = some (accept (call + i)) := by
  conv => lhs; rw [callsOf_eq]
  simp [inside]

/-- A batch is short when a call would block, and that call ends it. -/
theorem callsOf_short {left call : Nat} (short : (callsOf accept left call).length < left) :
    accept (call + (callsOf accept left call).length) = .eagain := by
  induction left generalizing call with
  | zero => exact absurd short (Nat.not_lt_zero _)
  | succ left ih =>
    rw [callsOf] at short ⊢
    split_ifs at short ⊢ with blocks
    · exact blocks
    · rw [List.length_cons] at short ⊢
      have later : accept (call + 1 + (callsOf accept left (call + 1)).length) = .eagain := ih (by omega)
      rwa [Nat.add_assoc, Nat.add_comm 1] at later

theorem callsOf_ready {left call i : Nat} (inside : i < (callsOf accept left call).length) :
    accept (call + i) ≠ .eagain := by
  induction left generalizing call i with
  | zero => exact absurd inside (Nat.not_lt_zero _)
  | succ left ih =>
    rw [callsOf] at inside
    split_ifs at inside with blocks
    · exact absurd inside (Nat.not_lt_zero _)
    · cases i with
      | zero => exact blocks
      | succ i =>
        have later : accept (call + 1 + i) ≠ .eagain := ih (by simpa using inside)
        rwa [Nat.add_assoc, Nat.add_comm 1] at later

namespace SocketServer

/-- A batch that begins with this call ends the loop. -/
def EndsAt (accept : Nat → Accept) (acceptCnt call : Nat) : Prop :=
  (∃ i, i < acceptCnt ∧ accept (call + i) = .eagain) ∨ ∀ i, i < acceptCnt → accept (call + i) = .eintr

theorem ends_iff : server.Ends accept ↔ EndsAt accept server.acceptCnt server.accepts := by
  have idle : counted (server.batch accept) = 0 ↔ ∀ call ∈ server.batch accept, call = .eintr := by
    simp [counted, List.countP_eq_zero]
  have inBatch {i : Nat} (inside : i < (server.batch accept).length) :
      (server.batch accept)[i]? = some (accept (server.accepts + i)) := callsOf_getElem? inside
  have short (less : (server.batch accept).length < server.acceptCnt) :
      accept (server.accepts + (server.batch accept).length) = .eagain := callsOf_short less
  constructor
  · rintro (less | none)
    · exact .inl ⟨_, less, short less⟩
    · by_cases less : (server.batch accept).length < server.acceptCnt
      · exact .inl ⟨_, less, short less⟩
      · exact .inr fun i inside => idle.mp none _ (List.mem_of_getElem? (inBatch (by omega)))
  · rintro (⟨i, inside, blocks⟩ | interrupted)
    · refine .inl ?_
      by_contra full
      have within : i < (server.batch accept).length := by omega
      exact callsOf_ready within blocks
    · refine .inr (idle.mpr fun call member => ?_)
      obtain ⟨i, inside, rfl⟩ := List.mem_iff_getElem.mp member
      have within : (server.batch accept).length ≤ server.acceptCnt := callsOf_length_le ..
      have here := inBatch inside
      rw [List.getElem?_eq_getElem inside, interrupted i (by omega)] at here
      exact Option.some.inj here

/-- A turn that goes on has made all the calls of its batch. -/
private theorem turn_goes {after : SocketServer} (goes : server.inputTurn answers = (after, false)) :
    ¬ EndsAt answers.accept server.acceptCnt server.accepts ∧ after.accepts = server.accepts + server.acceptCnt ∧
      after.acceptCnt = server.acceptCnt := by
  have turned := inputTurn_turned answers server
  rw [goes] at turned
  have goesOn : ¬ server.Ends answers.accept := fun ends => by simpa using turned.done.mpr ends
  have full : ¬ (server.batch answers.accept).length < server.acceptCnt := fun less => goesOn (.inl less)
  have within : (server.batch answers.accept).length ≤ server.acceptCnt := callsOf_length_le ..
  have accepts : after.accepts = _ := turned.accepts
  rw [if_neg full] at accepts
  exact ⟨fun ends => goesOn (ends_iff.mpr ends), by omega, turned.acceptCnt⟩

/-- A turn whose batch ends the loop is its last. -/
private theorem turn_ends (ends : EndsAt answers.accept server.acceptCnt server.accepts) :
    (server.inputTurn answers).2 = true :=
  (inputTurn_turned answers server).done.mpr (ends_iff.mpr ends)

/-- `InputNotify`, by its first turn. -/
theorem inputNotify_succ (answers : AcceptAnswers) (fuel : Nat) (server : SocketServer) :
    server.inputNotify answers (fuel + 1) =
      (iterate (inputRound answers) fuel (server.inputTurn answers)).map Prod.fst := by
  have first : inputRound answers (server, false) = some (server.inputTurn answers) := rfl
  rw [inputNotify, iterate_next first]

/-- With a batch that ends the loop ahead, it returns. -/
private theorem inputNotify_returns {k : Nat}
    (ends : EndsAt answers.accept server.acceptCnt (server.accepts + k * server.acceptCnt)) :
    ∃ fuel final, server.inputNotify answers fuel = some final := by
  induction k generalizing server with
  | zero =>
    rw [Nat.zero_mul, Nat.add_zero] at ends
    have last := turn_ends ends
    refine ⟨2, (server.inputTurn answers).1, ?_⟩
    rw [inputNotify_succ, iterate_stop (by rw [inputRound, if_pos last])]
    rfl
  | succ k ih =>
    generalize turn : server.inputTurn answers = outcome
    obtain ⟨after, done⟩ := outcome
    cases done with
    | true =>
      refine ⟨2, after, ?_⟩
      rw [inputNotify_succ, turn, iterate_stop (by rw [inputRound, if_pos rfl])]
      rfl
    | false =>
      obtain ⟨_, accepts, acceptCnt⟩ := turn_goes turn
      have place : server.accepts + (k + 1) * server.acceptCnt = after.accepts + k * after.acceptCnt := by
        rw [accepts, acceptCnt, Nat.succ_mul]
        omega
      rw [place, ← acceptCnt] at ends
      obtain ⟨fuel, final, ran⟩ := ih ends
      refine ⟨fuel + 1, final, ?_⟩
      rw [inputNotify_succ, turn]
      exact ran

/-- Without one, it does not. -/
private theorem inputNotify_stays
    (never : ∀ k, ¬ EndsAt answers.accept server.acceptCnt (server.accepts + k * server.acceptCnt)) (fuel : Nat) :
    server.inputNotify answers fuel = none := by
  let inv (state : SocketServer × Bool) : Prop := state.2 = false ∧
    ∀ k, ¬ EndsAt answers.accept state.1.acceptCnt (state.1.accepts + k * state.1.acceptCnt)
  have kept (state : SocketServer × Bool) (held : inv state) :
      ∃ next, inputRound answers state = some next ∧ inv next := by
    obtain ⟨goes, never⟩ := held
    refine ⟨state.1.inputTurn answers, by rw [inputRound, if_neg (by simp [goes])], ?_⟩
    have further : (state.1.inputTurn answers).2 = false := by
      by_contra done
      have ends := ends_iff.mp ((inputTurn_turned answers state.1).done.mp (by simpa using done))
      exact never 0 (by rwa [Nat.zero_mul, Nat.add_zero])
    obtain ⟨_, accepts, acceptCnt⟩ := turn_goes (Prod.ext rfl further)
    refine ⟨further, fun k ends => never (k + 1) ?_⟩
    rw [accepts, acceptCnt] at ends
    rwa [Nat.succ_mul, Nat.add_comm (k * _), ← Nat.add_assoc]
  have start : inv (server, false) := ⟨rfl, never⟩
  rw [inputNotify, iterate_never kept start]
  rfl

/-- `InputNotify` returns exactly when a later call would block, or a whole batch of calls
is interrupted. -/
theorem input_notify_returns_iff (answers : AcceptAnswers) (server : SocketServer) :
    (∃ fuel final, server.inputNotify answers fuel = some final) ↔
      (∃ call, server.accepts ≤ call ∧ answers.accept call = .eagain) ∨
        ∃ k, ∀ i, i < server.acceptCnt →
          answers.accept (server.accepts + k * server.acceptCnt + i) = .eintr := by
  constructor
  · rintro ⟨fuel, final, ran⟩
    by_contra neither
    rw [not_or] at neither
    have stays := @inputNotify_stays answers server (fun k ends => ?_) fuel
    · rw [stays] at ran
      cases ran
    · rcases ends with ⟨i, _, blocks⟩ | interrupted
      · exact neither.1 ⟨_, by omega, blocks⟩
      · exact neither.2 ⟨k, interrupted⟩
  · rintro (⟨call, later, blocks⟩ | ⟨k, interrupted⟩)
    · obtain ⟨rest, rfl⟩ := Nat.exists_eq_add_of_le later
      by_cases empty : server.acceptCnt = 0
      · exact inputNotify_returns (k := 0) (.inr fun i inside => by omega)
      · have positive : 0 < server.acceptCnt := Nat.pos_of_ne_zero empty
        refine inputNotify_returns (k := rest / server.acceptCnt) (.inl ⟨_, Nat.mod_lt rest positive, ?_⟩)
        rwa [Nat.add_assoc, Nat.mul_comm, Nat.div_add_mod]
    · exact inputNotify_returns (.inr interrupted)

/-- The error that stays: there is no descriptor left for the connection that waits. -/
def noDescriptors : AcceptAnswers := ⟨fun _ => .failed, fun _ => .registered⟩

theorem input_notify_hangs : ¬ ∃ fuel final, (initial 256).inputNotify noDescriptors fuel = some final := by
  rintro ⟨fuel, final, ran⟩
  have stays : (initial 256).inputNotify noDescriptors fuel = none :=
    inputNotify_stays (fun k ends => by
      rcases ends with ⟨i, _, blocks⟩ | interrupted
      · cases blocks
      · cases interrupted 0 (by decide)) fuel
  rw [stays] at ran
  cases ran

/-- The descriptors that calls gave. -/
def acceptedFds (accept : Nat → Accept) (start stop : Nat) : List Nat :=
  (List.range' start (stop - start)).filterMap fun call => (accept call).fd?

/-- Each of the descriptors accepted in between was closed or registered, once, and each
registration has a handler of its own. -/
structure Settled (answers : AcceptAnswers) (before after : SocketServer) : Prop where
  once : ((after.fates.drop before.fates.length).map Fate.fd).Perm
    ((acceptedFds answers.accept before.accepts after.accepts).map Int.ofNat)
  handlers : ((after.fates.drop before.fates.length).filterMap Fate.handler?).Nodup

/-- The states in which a turn of the loop begins. -/
inductive AtTurn (answers : AcceptAnswers) (server : SocketServer) : SocketServer → Prop where
  | first : AtTurn answers server server
  | next {state after : SocketServer} (before : AtTurn answers server state)
      (goes : state.inputTurn answers = (after, false)) : AtTurn answers server after

/-- In the batch of this turn, every new descriptor is in one of the first slots, of which
as many are looked at as calls were not interrupted; and if it is 0, its handler is not deleted. -/
def Kept (answers : AcceptAnswers) (state : SocketServer) : Prop :=
  ∀ i fd, (state.batch answers.accept)[i]? = some (.newfd fd) →
    i < counted (state.batch answers.accept) ∧
      (fd = 0 → answers.handling
          (state.handlers + (((state.batch answers.accept).take i).filterMap Accept.fd?).length) ∈
        [Welcome.notCreated, Welcome.registered])

private theorem fateOf_part (handling : Nat → Welcome) (handler fd : Nat) :
    ((fateOf handling handler fd).map Fate.fd).Sublist [Int.ofNat fd] ∧
      ((fateOf handling handler fd).filterMap Fate.handler?).Sublist [handler] ∧
      ((fateOf handling handler fd).length = 1 ↔
        (fd = 0 → handling handler ∈ [Welcome.notCreated, Welcome.registered])) := by
  have gone : ((destroyed fd).map Fate.fd).Sublist [Int.ofNat fd] ∧
      ((destroyed fd).filterMap Fate.handler?).Sublist [handler] ∧ ((destroyed fd).length = 1 ↔ fd ≠ 0) := by
    rw [destroyed]
    split_ifs with positive
    · exact ⟨.refl _, List.nil_sublist _, iff_of_true rfl (by omega)⟩
    · exact ⟨List.nil_sublist _, List.nil_sublist _, iff_of_false (by simp) (by omega)⟩
  rw [fateOf]
  cases handling handler with
  | notCreated => exact ⟨.refl _, List.nil_sublist _, by simp⟩
  | registered => exact ⟨.refl _, .refl _, by simp⟩
  | notConnected | notRegistered => exact ⟨gone.1, gone.2.1, by simpa using gone.2.2⟩

/-- What is done with the descriptors of a batch is done in their order. -/
private theorem fatesOf_part (handler : Nat) (fds : List Nat) :
    ((fatesOf handling handler fds).map Fate.fd).Sublist (fds.map Int.ofNat) ∧
      ((fatesOf handling handler fds).filterMap Fate.handler?).Sublist (List.range' handler fds.length) := by
  induction fds generalizing handler with
  | nil => exact ⟨.refl _, .refl _⟩
  | cons fd rest ih =>
    obtain ⟨part, own, _⟩ := fateOf_part handling handler fd
    obtain ⟨parts, others⟩ := ih (handler + 1)
    rw [fatesOf, List.map_append, List.filterMap_append, List.map_cons, List.length_cons, List.range'_succ]
    exact ⟨part.append parts, own.append others⟩

private theorem fatesOf_length_le (handler : Nat) (fds : List Nat) :
    (fatesOf handling handler fds).length ≤ fds.length := by
  have part := (@fatesOf_part handling handler fds).1.length_le
  simpa using part

/-- Something is done with each of them, unless one is 0 and its handler is deleted. -/
private theorem fatesOf_full_iff (handler : Nat) (calls : List Accept) :
    (fatesOf handling handler (calls.filterMap Accept.fd?)).length = (calls.filterMap Accept.fd?).length ↔
      ∀ i fd, calls[i]? = some (.newfd fd) → fd = 0 →
        handling (handler + ((calls.take i).filterMap Accept.fd?).length) ∈
          [Welcome.notCreated, Welcome.registered] := by
  induction calls generalizing handler with
  | nil => simp [fatesOf]
  | cons call rest ih =>
    cases call with
    | newfd first =>
      have found : (Accept.newfd first).fd? = some first := rfl
      obtain ⟨part, _, whole⟩ := fateOf_part handling handler first
      have one : (fateOf handling handler first).length ≤ 1 := by simpa using part.length_le
      have less := @fatesOf_length_le handling (handler + 1) (rest.filterMap Accept.fd?)
      have behind (i : Nat) : handler + (((Accept.newfd first :: rest).take (i + 1)).filterMap Accept.fd?).length =
          handler + 1 + ((rest.take i).filterMap Accept.fd?).length := by
        rw [List.take_succ_cons, List.filterMap_cons_some found, List.length_cons]
        omega
      rw [List.filterMap_cons_some found, fatesOf, List.length_append, List.length_cons]
      constructor
      · intro full i fd here zero
        cases i with
        | zero =>
          obtain rfl : first = fd := by simpa using here
          exact whole.mp (by omega) zero
        | succ i =>
          rw [behind]
          exact (ih (handler + 1)).mp (by omega) i fd here zero
      · intro all
        have own := whole.mpr fun zero => all 0 first rfl zero
        have others := (ih (handler + 1)).mpr fun i fd here zero => behind i ▸ all (i + 1) fd here zero
        omega
    | eintr | eagain | failed =>
      rw [List.filterMap_cons_none rfl, ih handler]
      constructor
      · intro all i fd here zero
        cases i with
        | zero => simp at here
        | succ i =>
          rw [List.take_succ_cons, List.filterMap_cons_none rfl]
          exact all i fd here zero
      · intro all i fd here zero
        have shifted := all (i + 1) fd here zero
        rwa [List.take_succ_cons, List.filterMap_cons_none rfl] at shifted

/-- A batch is kept exactly when something is done with each of its descriptors. -/
private theorem kept_iff : Kept answers state ↔
    (fatesOf answers.handling state.handlers (servedFds (state.batch answers.accept))).length =
      ((state.batch answers.accept).filterMap Accept.fd?).length := by
  rw [Kept]
  generalize state.batch answers.accept = calls
  have split :=
    congrArg List.length (congrArg (List.filterMap Accept.fd?) (List.take_append_drop (counted calls) calls))
  rw [List.filterMap_append, List.length_append] at split
  have less := @fatesOf_length_le answers.handling state.handlers (servedFds calls)
  have served := @fatesOf_full_iff answers.handling state.handlers (calls.take (counted calls))
  rw [← servedFds] at served split
  constructor
  · intro kept
    have none : (calls.drop (counted calls)).filterMap Accept.fd? = [] := by
      apply List.filterMap_eq_nil_iff.mpr
      intro call member
      obtain ⟨i, here⟩ := List.mem_iff_getElem?.mp member
      rw [List.getElem?_drop] at here
      cases call with
      | newfd fd => exact absurd (kept _ fd here).1 (by omega)
      | eintr | eagain | failed => rfl
    have full := served.mpr fun i fd here zero => by
      have inside : i < counted calls := by
        by_contra outside
        rw [List.getElem?_take_eq_none (by omega)] at here
        cases here
      rw [List.getElem?_take_of_lt inside] at here
      rw [List.take_take, Nat.min_eq_left (by omega)]
      exact (kept i fd here).2 zero
    rw [none, List.length_nil] at split
    omega
  · intro same i fd here
    have full : (fatesOf answers.handling state.handlers (servedFds calls)).length = (servedFds calls).length := by
      omega
    have inside : i < counted calls := by
      by_contra outside
      have member : Accept.newfd fd ∈ calls.drop (counted calls) := by
        refine List.mem_iff_getElem?.mpr ⟨i - counted calls, ?_⟩
        rwa [List.getElem?_drop, Nat.add_sub_cancel' (by omega)]
      have lost : 0 < ((calls.drop (counted calls)).filterMap Accept.fd?).length :=
        List.length_pos_of_mem (List.mem_filterMap.mpr ⟨_, member, rfl⟩)
      omega
    refine ⟨inside, fun zero => ?_⟩
    have own := served.mp full i fd (by rwa [List.getElem?_take_of_lt inside]) zero
    rwa [List.take_take, Nat.min_eq_left (by omega)] at own

private theorem acceptedFds_append {start middle stop : Nat} (early : start ≤ middle) (late : middle ≤ stop) :
    acceptedFds accept start stop = acceptedFds accept start middle ++ acceptedFds accept middle stop := by
  have whole : stop - start = (middle - start) + (stop - middle) := by omega
  have place : start + (middle - start) = middle := by omega
  have calls := @List.range'_append_1 start (middle - start) (stop - middle)
  rw [place, ← whole] at calls
  rw [acceptedFds, ← calls, List.filterMap_append, acceptedFds, acceptedFds]

/-- The descriptors of a turn are those of its batch: a call that would block gives none. -/
private theorem acceptedFds_turn (answers : AcceptAnswers) (server : SocketServer) :
    acceptedFds answers.accept server.accepts (server.inputTurn answers).1.accepts =
      (server.batch answers.accept).filterMap Accept.fd? := by
  have calls : (server.batch answers.accept).filterMap Accept.fd? =
      (List.range' server.accepts (server.batch answers.accept).length).filterMap fun call =>
        (answers.accept call).fd? := by
    conv => lhs; rw [batch, callsOf_eq, List.filterMap_map]
    rfl
  rw [acceptedFds, (inputTurn_turned answers server).accepts, calls, Nat.add_assoc, Nat.add_sub_cancel_left]
  split_ifs with short
  · have blocks : answers.accept (server.accepts + (server.batch answers.accept).length) = .eagain :=
      callsOf_short short
    rw [List.range'_1_concat, List.filterMap_append, List.filterMap_cons_none (by rw [blocks]; rfl),
      List.filterMap_nil, List.append_nil]
  · rfl

/-- What was done with descriptors in between: with some of those accepted, in their order. -/
structure Served (answers : AcceptAnswers) (before after : SocketServer) (done : List Fate) : Prop where
  fates : after.fates = before.fates ++ done
  accepts : before.accepts ≤ after.accepts
  handlers : before.handlers ≤ after.handlers
  part : (done.map Fate.fd).Sublist ((acceptedFds answers.accept before.accepts after.accepts).map Int.ofNat)
  own : (done.filterMap Fate.handler?).Sublist (List.range' before.handlers (after.handlers - before.handlers))

private theorem Served.length_le {before after : SocketServer} {fates : List Fate}
    (served : Served answers before after fates) :
    fates.length ≤ (acceptedFds answers.accept before.accepts after.accepts).length := by
  simpa using served.part.length_le

private theorem Served.trans {before middle after : SocketServer} {early late : List Fate}
    (first : Served answers before middle early) (rest : Served answers middle after late) :
    Served answers before after (early ++ late) := by
  have handlers := first.handlers
  have more := rest.handlers
  refine ⟨?_, Nat.le_trans first.accepts rest.accepts, Nat.le_trans handlers more, ?_, ?_⟩
  · rw [rest.fates, first.fates, List.append_assoc]
  · rw [acceptedFds_append first.accepts rest.accepts, List.map_append, List.map_append]
    exact first.part.append rest.part
  · have whole : after.handlers - before.handlers =
        (middle.handlers - before.handlers) + (after.handlers - middle.handlers) := by omega
    have place : before.handlers + (middle.handlers - before.handlers) = middle.handlers := by omega
    have numbers := @List.range'_append_1 before.handlers (middle.handlers - before.handlers)
      (after.handlers - middle.handlers)
    rw [place, ← whole] at numbers
    rw [← numbers, List.filterMap_append]
    exact first.own.append rest.own

private theorem turn_served (answers : AcceptAnswers) (server : SocketServer) :
    Served answers server (server.inputTurn answers).1
      (fatesOf answers.handling server.handlers (servedFds (server.batch answers.accept))) := by
  have turned := inputTurn_turned answers server
  have accepts := turned.accepts
  have handlers := turned.handlers
  obtain ⟨part, own⟩ := @fatesOf_part answers.handling server.handlers (servedFds (server.batch answers.accept))
  refine ⟨turned.fates, by omega, by omega, ?_, ?_⟩
  · rw [acceptedFds_turn]
    exact part.trans (((List.take_sublist _ _).filterMap _).map _)
  · rwa [handlers, Nat.add_sub_cancel_left]

/-- The turns of a run are its first and those of the rest. -/
private theorem atTurn_iff {server state : SocketServer} : AtTurn answers server state ↔
    state = server ∨ ∃ after, server.inputTurn answers = (after, false) ∧ AtTurn answers after state := by
  constructor
  · intro turn
    induction turn with
    | first => exact .inl rfl
    | next before goes ih =>
      rcases ih with rfl | ⟨after, turn, further⟩
      · exact .inr ⟨_, goes, .first⟩
      · exact .inr ⟨after, turn, .next further goes⟩
  · rintro (rfl | ⟨after, turn, further⟩)
    · exact .first
    · induction further with
      | first => exact .next .first turn
      | next _ goes ih => exact .next ih goes

private theorem run_served {fuel : Nat} {server final : SocketServer}
    (ran : server.inputNotify answers fuel = some final) :
    ∃ fates, Served answers server final fates ∧
      (fates.length = (acceptedFds answers.accept server.accepts final.accepts).length ↔
        ∀ state, AtTurn answers server state → Kept answers state) := by
  induction fuel generalizing server with
  | zero => cases ran
  | succ fuel ih =>
    rw [inputNotify_succ] at ran
    have served := turn_served answers server
    have kept := @kept_iff answers server
    have accepted := acceptedFds_turn answers server
    generalize turn : server.inputTurn answers = outcome at ran served accepted
    obtain ⟨after, done⟩ := outcome
    dsimp only at served accepted
    cases done with
    | true =>
      have last : ∀ state, AtTurn answers server state ↔ state = server := fun state => by
        rw [atTurn_iff, turn]
        simp
      cases fuel with
      | zero => cases ran
      | succ fuel =>
        rw [iterate_stop (by rw [inputRound, if_pos rfl])] at ran
        obtain rfl : after = final := Option.some.inj ran
        refine ⟨_, served, ?_⟩
        rw [accepted, ← kept]
        exact ⟨fun own state there => (last state).mp there ▸ own, fun all => all server .first⟩
    | false =>
      obtain ⟨late, rest, all⟩ := ih ran
      refine ⟨_, served.trans rest, ?_⟩
      have first := served.length_le
      have second := rest.length_le
      have both : (∀ state, AtTurn answers server state → Kept answers state) ↔
          Kept answers server ∧ ∀ state, AtTurn answers after state → Kept answers state := by
        constructor
        · intro each
          exact ⟨each server .first, fun state there => each state (atTurn_iff.mpr (.inr ⟨after, turn, there⟩))⟩
        · rintro ⟨own, others⟩ state there
          rcases atTurn_iff.mp there with rfl | ⟨middle, goes, further⟩
          · exact own
          · obtain rfl : after = middle := congrArg Prod.fst (turn.symm.trans goes)
            exact others state further
      rw [both, ← all, kept, ← accepted, acceptedFds_append served.accepts rest.accepts, List.length_append,
        List.length_append]
      omega

/-- When `InputNotify` returns, every connection is settled exactly when each batch was kept. -/
theorem accepted_settled_iff {fuel : Nat} {server final : SocketServer}
    (ran : server.inputNotify answers fuel = some final) :
    Settled answers server final ↔ ∀ state, AtTurn answers server state → Kept answers state := by
  obtain ⟨fates, served, whole⟩ := run_served ran
  have new : final.fates.drop server.fates.length = fates := by rw [served.fates, List.drop_left]
  rw [← whole]
  constructor
  · intro settled
    have once := settled.once.length_eq
    rwa [new, List.length_map, List.length_map] at once
  · intro full
    refine ⟨?_, ?_⟩
    · rw [new, served.part.eq_of_length (by rw [List.length_map, List.length_map, full])]
    · rw [new]
      exact served.own.nodup List.nodup_range'

/-- A batch of three calls, of which one fails, and a connection in the next batch. The second
handler is not registered. -/
def threeConnections : AcceptAnswers where
  accept call := [.newfd 5, .failed, .newfd 6, .newfd 7].getD call .eagain
  handling handler := if handler = 1 then .notRegistered else .registered

/-- What is left of them when `InputNotify` returns. -/
def threeSettled : SocketServer := ⟨3, 1, [7, -1, -1], 5, 3, [.registered 5 0, .closed 6, .registered 7 2]⟩

theorem accepted_settled_iff_threeConnections :
    (initial 3).inputNotify threeConnections 3 = some threeSettled ∧
      Settled threeConnections (initial 3) threeSettled ∧
        ∀ state, AtTurn threeConnections (initial 3) state → Kept threeConnections state := by
  have settled : Settled threeConnections (initial 3) threeSettled := ⟨by decide, by decide⟩
  exact ⟨rfl, settled, (@accepted_settled_iff threeConnections 3 _ _ rfl).mp settled⟩

/-- The call is interrupted once before the connection is there. -/
def interruptedOnce : AcceptAnswers :=
  ⟨fun call => if call = 0 then .eintr else if call = 1 then .newfd 5 else .eagain, fun _ => .registered⟩

/-- The descriptor is in the second slot, and only the first is looked at. -/
theorem interrupted_accept_loses :
    ∃ final, (initial 3).inputNotify interruptedOnce 2 = some final ∧ ¬ Settled interruptedOnce (initial 3) final := by
  refine ⟨⟨3, 1, [-1, 5, -1], 3, 0, []⟩, rfl, fun settled => ?_⟩
  exact absurd settled.once.length_eq (by decide)

end SocketServer

end TeenpattiUserServer.Net
