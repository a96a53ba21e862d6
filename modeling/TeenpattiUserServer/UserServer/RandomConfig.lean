import TeenpattiUserServer.Bookkeeping.Runs
import TeenpattiUserServer.Config.Numbers
import TeenpattiUserServer.UserServer.RoundLimit

/-! The configuration of the random room counts: what `ReadRandomConfig` takes from the
file, at the start and whenever it is told to read it again, and which requests for room
counts then divide by zero. -/

namespace TeenpattiUserServer.UserServer

open Bookkeeping Config

/-- `LEVELCOUNT` -/
def levelCountSection : List UInt8 := [76, 69, 86, 69, 76, 67, 79, 85, 78, 84]

/-- `RANDCOUNT` -/
def randCountKey : List UInt8 := [82, 65, 78, 68, 67, 79, 85, 78, 84]

/-- `ADDCOUNT` -/
def addCountKey : List UInt8 := [65, 68, 68, 67, 79, 85, 78, 84]

/-- The numbers that `ReadRandomConfig` sets, or none when the file cannot be opened, if the
lookups end within the fuel. -/
def readRandomConfig (file : Option (List UInt8)) (fuel : Nat) : Option (Option (Int32 × Int32)) :=
  let iniFile := openFile file
  if ¬ iniFile.isOpen then some none
  else do
    let roundLimit ← iniFile.readInt levelCountSection randCountKey 100 fuel
    let addCount ← iniFile.readInt levelCountSection addCountKey 0 fuel
    pure (some (roundLimit, addCount))

/-- More rounds than the file has bytes. -/
def rounds (file : Option (List UInt8)) : Nat := (file.getD []).length + 2

def Options.setRandomConfig (options : Options) : Option (Int32 × Int32) → Options
  | none => options
  | some (roundLimit, addCount) => { options with roundLimit := roundLimit, addCount := addCount }

/-- What happens to the server, and the configuration file there is at that time. -/
structure Input where
  event : Event
  answers : Answers
  file : Option (List UInt8)

namespace Input

def step (input : Input) (server : Server) : Option Server := do
  let randomConfig ← readRandomConfig input.file (rounds input.file)
  server.step input.event { input.answers with randomConfig := randomConfig }

/-- The file, if it is read and can be opened. -/
def reads (input : Input) : Option (List UInt8) := if input.event.reloads then input.file else none

end Input

/-- The options are constructed, and the file is read for the first time. The users and the
statistics are those that were found. -/
def started (server : Server) (startTime : Int32) (file : Option (List UInt8)) : Option Server := do
  let randomConfig ← readRandomConfig file (rounds file)
  pure { server with options := (Options.initial startTime).setRandomConfig randomConfig }

def history (server : Server) (startTime : Int32) (file : Option (List UInt8)) (inputs : List Input) :
    Option Server :=
  (started server startTime file).bind (run Input.step inputs)

/-- The file that was read last. -/
def lastRead (file : Option (List UInt8)) (inputs : List Input) : Option (List UInt8) :=
  inputs.foldl (fun last input => input.reads.or last) file

/-- The file has no `RANDCOUNT`, or one that begins with a number other than zero. A text
without a number counts as zero, and so does a multiple of 2^32. -/
def NonZero (content : List UInt8) : Prop := numberRead content levelCountSection randCountKey ≠ some 0

variable {server state after : Server} {startTime : Int32} {file : Option (List UInt8)} {inputs : List Input}
  {content : List UInt8}

private theorem randCountKey_identifier : Identifier randCountKey := ⟨by decide, List.all_eq_true.mp rfl⟩

private theorem addCountKey_identifier : Identifier addCountKey := ⟨by decide, List.all_eq_true.mp rfl⟩

/-- The modulus a file says, or the default. -/
def modulus (content : List UInt8) : Int32 := (numberRead content levelCountSection randCountKey).getD 100

/-- `ReadRandomConfig` comes back, with what the file says. -/
theorem readRandomConfig_returns (file : Option (List UInt8)) : readRandomConfig file (rounds file) =
    some (file.map fun content =>
      (modulus content, (numberRead content levelCountSection addCountKey).getD 0)) := by
  cases file with
  | none => rfl
  | some content =>
    have enough : content.length + 1 < rounds (some content) := Nat.lt_succ_self _
    have opened : ¬ ¬ (openFile (some content)).isOpen = true := not_not.mpr rfl
    simp only [readRandomConfig, if_neg opened, readInt_assigned randCountKey_identifier enough,
      readInt_assigned addCountKey_identifier enough, modulus, Option.bind_eq_bind, Option.bind_some,
      Option.pure_def, Option.map_some]

theorem nonZero_iff : NonZero content ↔ modulus content ≠ 0 := by
  rw [NonZero, modulus]
  cases numberRead content levelCountSection randCountKey with
  | none => exact iff_of_true (Option.some_ne_none _).symm (by decide)
  | some number => simp

/-- The start succeeds. -/
private theorem started_eq (server : Server) (startTime : Int32) (file : Option (List UInt8)) :
    ∃ begun, started server startTime file = some begun ∧
      begun.options.roundLimit = (file.map modulus).getD 100 := by
  rw [started, readRandomConfig_returns]
  refine ⟨_, rfl, ?_⟩
  cases file <;> rfl

private theorem step_limit {input : Input} (ran : input.step state = some after) :
    after.options.roundLimit = (input.reads.map modulus).getD state.options.roundLimit := by
  rw [Input.step, readRandomConfig_returns] at ran
  have set := Server.step_roundLimit ran
  rw [set, Input.reads]
  split
  · cases input.file <;> rfl
  · rfl

/-- In every state the modulus is that of the file read last. -/
theorem history_limit (ran : history server startTime file inputs = some state) :
    state.options.roundLimit = ((lastRead file inputs).map modulus).getD 100 := by
  obtain ⟨begun, start, limit⟩ := started_eq server startTime file
  rw [history, start, Option.bind_some] at ran
  induction inputs using List.reverseRecOn generalizing state with
  | nil =>
    obtain rfl := Option.some.inj ran
    exact limit
  | append_singleton inputs input ih =>
    rw [run_snoc] at ran
    obtain ⟨middle, before, stepped⟩ := Option.bind_eq_some_iff.mp ran
    rw [step_limit stepped, ih before, lastRead, lastRead, List.foldl_append, List.foldl_cons, List.foldl_nil]
    cases input.reads <;> rfl

theorem lastRead_mem (last : lastRead file inputs = some content) :
    file = some content ∨ ∃ input ∈ inputs, input.reads = some content := by
  induction inputs using List.reverseRecOn with
  | nil => exact .inl last
  | append_singleton inputs input ih =>
    rw [lastRead, List.foldl_append, List.foldl_cons, List.foldl_nil] at last
    rcases Option.or_eq_some_iff.mp last with own | ⟨_, earlier⟩
    · exact .inr ⟨input, by simp, own⟩
    · rcases ih earlier with first | ⟨other, member, read⟩
      · exact .inl first
      · exact .inr ⟨other, by simp [member], read⟩

/-- The modulus is zero just when the file read last says so. -/
private theorem limit_zero_iff (ran : history server startTime file inputs = some state) :
    state.options.roundLimit = 0 ↔ ∃ content, lastRead file inputs = some content ∧ ¬ NonZero content := by
  rw [history_limit ran]
  cases lastRead file inputs with
  | none => exact iff_of_false (by decide) (by simp)
  | some content => simp [nonZero_iff]

private theorem step_served_iff {input : Input} :
    (∃ after, input.step state = some after) ↔ ¬ (input.event.asksCounts = true ∧ state.options.roundLimit = 0) := by
  rw [Input.step, readRandomConfig_returns, ← Server.step_none_iff, ← Option.ne_none_iff_exists']
  rfl

/-- All requests are served just when the file read last before each request for a room count
was not zero; and while no file is, no state has a zero modulus. -/
theorem room_counts_served_iff (server : Server) (startTime : Int32) (file : Option (List UInt8))
    (inputs : List Input) :
    ((∃ after, history server startTime file inputs = some after) ↔
      ∀ past input rest, inputs = past ++ input :: rest → input.event.asksCounts = true →
        ∀ content, lastRead file past = some content → NonZero content) ∧
    ((∀ content, file = some content ∨ (∃ input ∈ inputs, input.reads = some content) → NonZero content) →
      ∀ past, past <+: inputs →
        ∃ state, history server startTime file past = some state ∧ state.options.roundLimit ≠ 0) := by
  have served (inputs : List Input) : (∃ after, history server startTime file inputs = some after) ↔
      ∀ past input rest, inputs = past ++ input :: rest → input.event.asksCounts = true →
        ∀ content, lastRead file past = some content → NonZero content := by
    obtain ⟨begun, start, _⟩ := started_eq server startTime file
    have reached (past : List Input) : history server startTime file past = run Input.step past begun := by
      rw [history, start, Option.bind_some]
    simp only [reached]
    constructor
    · rintro ⟨after, ran⟩ past input rest rfl asks content last
      rw [run_append] at ran
      obtain ⟨before, passed, further⟩ := Option.bind_eq_some_iff.mp ran
      obtain ⟨middle, stepped, _⟩ := Option.bind_eq_some_iff.mp further
      have limit : before.options.roundLimit ≠ 0 := fun zero => step_served_iff.mp ⟨middle, stepped⟩ ⟨asks, zero⟩
      by_contra zero
      exact limit ((limit_zero_iff ((reached past).trans passed)).mpr ⟨content, last, zero⟩)
    · intro spared
      refine run_isSome_iff.mpr fun past input rest before split passed => step_served_iff.mpr ?_
      rintro ⟨asks, limit⟩
      obtain ⟨content, last, zero⟩ := (limit_zero_iff ((reached past).trans passed)).mp limit
      exact zero (spared past input rest split asks content last)
  refine ⟨served inputs, fun sound past part => ?_⟩
  have safe (earlier : List Input) (inside : earlier <+: inputs) (content : List UInt8)
      (last : lastRead file earlier = some content) : NonZero content := by
    rcases lastRead_mem last with first | ⟨input, member, read⟩
    · exact sound content (.inl first)
    · exact sound content (.inr ⟨input, inside.subset member, read⟩)
  obtain ⟨state, ran⟩ := (served past).mpr fun earlier input rest split _ =>
    safe earlier ((List.prefix_append earlier (input :: rest)).trans (split ▸ part))
  refine ⟨state, ran, fun limit => ?_⟩
  obtain ⟨content, last, zero⟩ := (limit_zero_iff ran).mp limit
  exact zero (safe past part content last)

/-- `[LEVELCOUNT]` with `RANDCOUNT=0` -/
def zeroFile : List UInt8 := [91] ++ levelCountSection ++ [93, 10] ++ randCountKey ++ [61, 48, 10]

/-- A client asks for the count of level 1 of a server that was started with that file. -/
theorem zero_rand_count_faults :
    (∃ server, started (Server.initial 1 0) 0 (some zeroFile) = some server ∧ server.options.roundLimit = 0 ∧
      server.processPacket (Packet.fresh.copy (question 7 2 [1])).2 (Server.quiet 0) = none) ∧
    history (Server.initial 1 0) 0 (some zeroFile)
      [⟨.request (request (Packet.fresh.copy (question 7 2 [1])).2), Server.quiet 0, none⟩] = none := by
  have zero : modulus zeroFile = 0 := rfl
  have asks := question_asks 7 2 (show [1].length ≤ 4080 by decide) Packet.fresh
  obtain ⟨server, start, limit⟩ := started_eq (Server.initial 1 0) 0 (some zeroFile)
  have faults (answers : Answers) : server.step (.request (request (Packet.fresh.copy (question 7 2 [1])).2)) answers =
      none := by
    rw [asks]
    exact Server.step_none_iff.mpr ⟨rfl, limit.trans zero⟩
  have stopped : Input.step ⟨.request (request (Packet.fresh.copy (question 7 2 [1])).2), Server.quiet 0, none⟩ server =
      none := by
    rw [Input.step, readRandomConfig_returns, Option.bind_eq_bind, Option.bind_some, faults]
  refine ⟨⟨server, start, limit.trans zero, faults _⟩, ?_⟩
  rw [history, start, Option.bind_some, run, stopped, Option.bind_none]

end TeenpattiUserServer.UserServer
