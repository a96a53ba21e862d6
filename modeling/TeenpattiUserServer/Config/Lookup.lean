import Mathlib.Data.List.TakeWhile
import TeenpattiUserServer.Config.IniFile
import TeenpattiUserServer.Words.Scan

/-! What `ReadString` reads, in terms of the text of the file: the section is what stands
behind the first mention of its header, and the value what stands behind the first mention
of the key in front of a `=`. -/

namespace TeenpattiUserServer.Config

open Words

/-- What `SearchMarchStr` looks at around a word; the text is searched in lower case. -/
def wordRules : Rules UInt8 := ⟨toLowerByte, fun byte => isBlank byte || isLineEnd byte, endsName, fun byte => byte = 0⟩

def headerWord (sectionName : List UInt8) : List UInt8 := toLower ([91] ++ sectionName ++ [93])

/-- What stands behind the end of the line, and behind empty lines. -/
def nextLine (text : List UInt8) : List UInt8 := (text.dropWhile fun byte => !isLineEnd byte).dropWhile isLineEnd

def sectionOf (text : List UInt8) : List UInt8 := text.take (sectionLength true text)

/-- The text that is searched for a key of the section. -/
def region (content sectionName : List UInt8) : Option (List UInt8) :=
  (mention wordRules (headerWord sectionName) true content).map fun behind => sectionOf (nextLine behind)

def valueText (text : List UInt8) : List UInt8 :=
  (text.dropWhile isBlank).takeWhile fun byte => !(byte = 9 || isLineEnd byte)

/-- A key has a value when a `=` follows. -/
def setting (behind : List UInt8) : Verdict (List UInt8) :=
  if (behind.dropWhile isBlank).head? = some 61 then .found (valueText ((behind.dropWhile isBlank).drop 1))
  else .goOn (behind.takeWhile isBlank).length

/-- The value of the key in this text; an empty one is none. -/
def setTo (keyName text : List UInt8) : Option (List UInt8) :=
  (scan wordRules (toLower keyName) setting 0 true text).filter fun value => !value.isEmpty

/-- What `ReadString` reads, unless it takes the default. -/
def reading (content sectionName keyName : List UInt8) : Option (List UInt8) :=
  ((region content sectionName).bind (setTo keyName)).map fun value => IniFile.fitted value 1024

variable {content text word : List UInt8} {fuel : Nat} {free : Bool}

@[simp] theorem isBlank_toLowerByte (byte : UInt8) : isBlank (toLowerByte byte) = isBlank byte := by
  unfold toLowerByte
  split_ifs with upper
  · obtain ⟨least, most⟩ := upper
    unfold isBlank
    grind
  · rfl

@[simp] theorem isLineEnd_toLowerByte (byte : UInt8) : isLineEnd (toLowerByte byte) = isLineEnd byte := by
  unfold toLowerByte
  split_ifs with upper
  · obtain ⟨least, most⟩ := upper
    unfold isLineEnd
    grind
  · rfl

@[simp] theorem endsName_toLowerByte (byte : UInt8) : endsName (toLowerByte byte) = endsName byte := by
  unfold endsName
  rw [isBlank_toLowerByte, isLineEnd_toLowerByte]
  unfold toLowerByte
  split_ifs with upper
  · obtain ⟨least, most⟩ := upper
    grind
  · rfl

theorem toLowerByte_eq_zero (byte : UInt8) : toLowerByte byte = 0 ↔ byte = 0 := by
  unfold toLowerByte
  split_ifs with upper
  · obtain ⟨least, most⟩ := upper
    grind
  · rfl

theorem byteAt_toLower (text : List UInt8) (p : Nat) : byteAt (toLower text) p = toLowerByte (byteAt text p) := by
  unfold byteAt toLower
  rw [List.getD_eq_getElem?_getD, List.getD_eq_getElem?_getD, List.getElem?_map]
  cases text[p]? <;> rfl

theorem byteAt_drop (text : List UInt8) (p q : Nat) : byteAt (text.drop p) q = byteAt text (p + q) := by
  unfold byteAt
  rw [List.getD_eq_getElem?_getD, List.getD_eq_getElem?_getD, List.getElem?_drop]

/-- Whether a word may begin at this place of a text that is searched from its start. -/
def opens (free : Bool) (text : List UInt8) (place : Nat) : Bool :=
  if place = 0 then free else wordRules.front (byteAt text (place - 1))

variable {β : Type} {judge : List UInt8 → Verdict β}

theorem scan_strstr (nonempty : word ≠ []) : scan wordRules word judge 0 free text =
    match strstr word (toLower text) with
    | none => none
    | some place => scan wordRules word judge 0 (opens free text place) (text.drop place) := by
  induction text generalizing free with
  | nil =>
    have none : strstr word (toLower []) = none := if_neg (by simpa using nonempty)
    rw [none, scan_nil]
  | cons byte rest ih =>
    have same : strstr word (toLower (byte :: rest)) =
        if wordRules.startsWith word (byte :: rest) then some 0
        else if toLowerByte byte = 0 then none else (strstr word (toLower rest)).map (· + 1) := rfl
    rw [same]
    by_cases here : wordRules.startsWith word (byte :: rest) = true
    · rw [if_pos here]
      rfl
    · rw [if_neg here]
      rw [Bool.not_eq_true] at here
      by_cases last : byte = 0
      · rw [if_pos ((toLowerByte_eq_zero byte).mpr last)]
        exact scan_stop here (by simp [wordRules, last])
      · rw [if_neg (mt (toLowerByte_eq_zero byte).mp last), scan_other here (by simp [wordRules, last]), ih]
        cases strstr word (toLower rest) with
        | none => rfl
        | some place =>
          have front : opens (wordRules.front byte) rest place = opens free (byte :: rest) (place + 1) := by
            cases place <;> rfl
          simp only [Option.map_some, front, List.drop_succ_cons]

theorem strstr_here (nonempty : word ≠ []) {place : Nat} (located : strstr word (toLower text) = some place) :
    wordRules.startsWith word (text.drop place) = true := by
  induction text generalizing place with
  | nil =>
    have none : strstr word (toLower []) = none := if_neg (by simpa using nonempty)
    rw [none] at located
    cases located
  | cons byte rest ih =>
    have same : strstr word (toLower (byte :: rest)) =
        if wordRules.startsWith word (byte :: rest) then some 0
        else if toLowerByte byte = 0 then none else (strstr word (toLower rest)).map (· + 1) := rfl
    rw [same] at located
    split_ifs at located with here
    · obtain rfl := Option.some.inj located
      exact here
    · obtain ⟨later, within, rfl⟩ := Option.map_eq_some_iff.mp located
      exact ih within

private theorem endsName_byteAt (place : Nat) :
    endsName (byteAt (toLower content) place) = wordRules.endsWord (content.drop place) := by
  rw [byteAt_toLower, endsName_toLowerByte]
  by_cases inside : place < content.length
  · rw [List.drop_eq_getElem_cons inside, byteAt, List.getD_eq_getElem?_getD, List.getElem?_eq_getElem inside]
    rfl
  · rw [List.drop_eq_nil_of_le (Nat.le_of_not_lt inside), byteAt, List.getD_eq_getElem?_getD,
      List.getElem?_eq_none (Nat.le_of_not_lt inside)]
    rfl

/-- `SearchMarchStr` finds the first mention of a word. -/
theorem searchMarchStr_mention (nonempty : word ≠ []) {tempBegin : Nat} (enough : content.length < fuel + tempBegin)
    (inside : tempBegin ≤ content.length) :
    ∃ located, searchMarchStr (toLower content) word fuel tempBegin = some located ∧
      (located.map fun find => content.drop (find + word.length)) =
        mention wordRules word true (content.drop tempBegin) ∧
      ∀ find, located = some find → tempBegin ≤ find ∧ find + word.length ≤ content.length := by
  have positive := List.length_pos_of_ne_nil nonempty
  induction fuel generalizing tempBegin with
  | zero => omega
  | succ fuel ih =>
    have shadow : (toLower content).drop tempBegin = toLower (content.drop tempBegin) := List.map_drop.symm
    have search : mention wordRules word true (content.drop tempBegin) = _ := scan_strstr nonempty
    rw [search, searchMarchStr, shadow]
    cases located : strstr word (toLower (content.drop tempBegin)) with
    | none => exact ⟨none, rfl, rfl, fun _ absent => by cases absent⟩
    | some offset =>
      have here := strstr_here nonempty located
      have long := startsWith_length here
      rw [List.drop_drop] at here long
      rw [List.length_drop] at long
      have next : (content.drop (tempBegin + offset)).drop word.length =
          content.drop (tempBegin + offset + word.length) := List.drop_drop
      have again := @ih (tempBegin + offset + word.length) (by omega) (by omega)
      have later : ∃ located,
          searchMarchStr (toLower content) word fuel (tempBegin + offset + word.length) = some located ∧
          (located.map fun find => content.drop (find + word.length)) =
            scan wordRules word .found 0 true ((content.drop (tempBegin + offset)).drop word.length) ∧
          ∀ find, located = some find → tempBegin ≤ find ∧ find + word.length ≤ content.length := by
        obtain ⟨further, ran, same, bounds⟩ := again
        refine ⟨further, ran, by rw [same, next]; rfl, fun find at_find => ?_⟩
        have bound := bounds find at_find
        omega
      dsimp only
      rw [List.drop_drop]
      have front : opens true (content.drop tempBegin) offset = true ↔
          ¬ (tempBegin < tempBegin + offset ∧ ¬ isBlank (byteAt (toLower content) (tempBegin + offset - 1)) ∧
            ¬ isLineEnd (byteAt (toLower content) (tempBegin + offset - 1))) := by
        cases offset with
        | zero => simp [opens]
        | succ offset =>
          rw [← Nat.add_assoc, Nat.add_sub_cancel, byteAt_toLower, isBlank_toLowerByte, isLineEnd_toLowerByte,
            opens, if_neg (Nat.succ_ne_zero offset), Nat.add_sub_cancel, byteAt_drop]
          simp [wordRules]
          grind
      split_ifs with blocked ends
      · have closed : opens true (content.drop tempBegin) offset = false := by
          rw [← Bool.not_eq_true, front, not_not]
          exact blocked
        rw [closed, scan_refused nonempty here (.inl rfl)]
        exact later
      · rw [front.mpr blocked]
        rw [endsName_byteAt, ← next] at ends
        rw [scan_here nonempty here ends]
        exact ⟨_, rfl, by rw [Option.map_some, next], fun find same => by obtain rfl := Option.some.inj same; omega⟩
      · rw [endsName_byteAt, ← next, Bool.not_eq_true] at ends
        rw [scan_refused nonempty here (.inr ends)]
        exact later

theorem drop_takeWhile_length (passes : UInt8 → Bool) (text : List UInt8) :
    text.drop (text.takeWhile passes).length = text.dropWhile passes := by
  have split : text.takeWhile passes ++ text.dropWhile passes = text := List.takeWhile_append_dropWhile
  calc text.drop (text.takeWhile passes).length
    _ = (text.takeWhile passes ++ text.dropWhile passes).drop (text.takeWhile passes).length := by rw [split]
    _ = text.dropWhile passes := List.drop_left

theorem skip_drop (passes : UInt8 → Bool) (stop p : Nat) :
    (content.take stop).drop (skip passes content stop p) = ((content.take stop).drop p).dropWhile passes := by
  rw [skip, ← List.drop_drop]
  exact drop_takeWhile_length passes _

theorem skip_take (passes : UInt8 → Bool) (stop p : Nat) :
    (content.take (skip passes content stop p)).drop p = ((content.take stop).drop p).takeWhile passes := by
  have front : ((content.take stop).drop p).takeWhile passes <+: content.drop p := by
    refine (List.takeWhile_prefix passes).trans ?_
    rw [List.drop_take]
    exact List.take_prefix ..
  rw [skip, List.drop_take, Nat.add_sub_cancel_left]
  exact (List.prefix_iff_eq_take.mp front).symm

theorem skip_bounds (content : List UInt8) (passes : UInt8 → Bool) {stop p : Nat} (inside : p ≤ stop) :
    p ≤ skip passes content stop p ∧ skip passes content stop p ≤ stop := by
  have short := (List.takeWhile_prefix passes (l := (content.take stop).drop p)).length_le
  rw [List.length_drop, List.length_take] at short
  unfold skip
  omega

/-- A section ends in front of a `[`, a 0 or nothing, and has no 0 in it. -/
theorem section_ends (first : Bool) (text : List UInt8) : sectionLength first text ≤ text.length ∧
    (∀ byte ∈ text.take (sectionLength first text), byte ≠ 0) ∧
      (text.drop (sectionLength first text) = [] ∨
        ∃ mark rest, text.drop (sectionLength first text) = mark :: rest ∧ (mark = 91 ∨ mark = 0)) := by
  induction text generalizing first with
  | nil => exact ⟨Nat.le_refl 0, by simp, .inl rfl⟩
  | cons byte rest ih =>
    have further (next : Bool) (goes : byte ≠ 0) : sectionLength next rest + 1 ≤ (byte :: rest).length ∧
        (∀ other ∈ (byte :: rest).take (sectionLength next rest + 1), other ≠ 0) ∧
          ((byte :: rest).drop (sectionLength next rest + 1) = [] ∨
            ∃ mark more, (byte :: rest).drop (sectionLength next rest + 1) = mark :: more ∧
              (mark = 91 ∨ mark = 0)) := by
      obtain ⟨inside, plain, ends⟩ := ih next
      refine ⟨Nat.succ_le_succ inside, ?_, ends⟩
      rw [List.take_succ_cons]
      exact List.forall_mem_cons.mpr ⟨goes, plain⟩
    rw [sectionLength]
    split_ifs with header last lineEnd other
    · exact ⟨Nat.zero_le _, by simp, .inr ⟨byte, rest, rfl, .inl header.2⟩⟩
    · exact ⟨Nat.zero_le _, by simp, .inr ⟨byte, rest, rfl, .inr last⟩⟩
    · exact further true last
    · exact further first last
    · exact further false last

variable {sectionName keyName : List UInt8}

/-- `LocateSection` finds the section of a name that has a header. -/
theorem locateSection_region (sectionName : List UInt8) (enough : content.length < fuel) :
    ∃ located, (openFile (some content)).locateSection sectionName fuel = some located ∧
      match mention wordRules (headerWord sectionName) true content with
      | none => located = none
      | some behind => ∃ start, start ≤ content.length ∧ content.drop start = nextLine behind ∧
          located = some (start, start + sectionLength true (nextLine behind)) := by
  have nonempty : headerWord sectionName ≠ [] := by simp [headerWord, toLower]
  have shadow : (toLower content).length = content.length := List.length_map ..
  simp only [IniFile.locateSection, openFile, locateStr, shadow]
  by_cases empty : content.length ≤ 0
  · obtain rfl := List.length_eq_zero_iff.mp (Nat.le_zero.mp empty)
    exact ⟨none, rfl, rfl⟩
  · obtain ⟨located, ran, same, bounds⟩ := @searchMarchStr_mention content _ fuel nonempty 0 (by omega) (by omega)
    rw [if_neg empty]
    rw [List.drop_zero] at same
    change ∃ result, ((searchMarchStr (toLower content) (headerWord sectionName) fuel 0).map _).map _ = some result ∧ _
    rw [ran, ← same]
    refine ⟨_, rfl, ?_⟩
    cases located with
    | none => rfl
    | some find =>
      obtain ⟨_, inside⟩ := bounds find rfl
      have place : (if content.length < find + (headerWord sectionName).length then none else some find) = some find :=
        if_neg (by omega)
      have whole : content.take content.length = content := List.take_length
      let lineEnd := skip (fun byte => !isLineEnd byte) content content.length (find + (headerWord sectionName).length)
      have first : content.drop lineEnd = (content.drop (find + (headerWord sectionName).length)).dropWhile
          fun byte => !isLineEnd byte := by
        have skipped := @skip_drop content (fun byte => !isLineEnd byte) content.length
          (find + (headerWord sectionName).length)
        rwa [whole] at skipped
      have second : content.drop (skip isLineEnd content content.length lineEnd) =
          (content.drop lineEnd).dropWhile isLineEnd := by
        have skipped := @skip_drop content isLineEnd content.length lineEnd
        rwa [whole] at skipped
      have bound : lineEnd ≤ content.length := (skip_bounds content _ inside).2
      refine ⟨skip isLineEnd content content.length lineEnd, (skip_bounds content _ bound).2, ?_, ?_⟩
      · rw [second, first]
        rfl
      · have start : content.drop (skip isLineEnd content content.length lineEnd) =
            nextLine (content.drop (find + (headerWord sectionName).length)) := by
          rw [second, first]
          rfl
        rw [← start]
        change Option.map _ (if content.length < find + (headerWord sectionName).length then none else some find) = _
        rw [place]
        rfl

/-- Letters, digits and underscores. -/
def isNameByte (byte : UInt8) : Bool :=
  48 ≤ byte && byte ≤ 57 || 65 ≤ byte && byte ≤ 90 || 97 ≤ byte && byte ≤ 122 || byte = 95

def Identifier (name : List UInt8) : Prop := name ≠ [] ∧ ∀ byte ∈ name, isNameByte byte = true

theorem Identifier.toLower_nonempty (name : Identifier keyName) : toLower keyName ≠ [] := by
  simpa [toLower] using name.1

/-- A byte that is in no name is not in its lower case either. -/
theorem Identifier.not_mem_toLower (name : Identifier keyName) {mark : UInt8} (other : isNameByte mark = false) :
    mark ∉ toLower keyName := by
  intro member
  obtain ⟨byte, inside, rfl⟩ := List.mem_map.mp member
  have own := name.2 byte inside
  unfold toLowerByte at other
  split_ifs at other with upper
  · obtain ⟨least, most⟩ := upper
    have lower : 97 ≤ byte + 32 ∧ byte + 32 ≤ 122 := by grind
    simp [isNameByte, lower.1, lower.2] at other
  · rw [own] at other
    cases other

theorem setting_goOn {behind : List UInt8} (other : (behind.dropWhile isBlank).head? ≠ some 61) :
    setting behind = .goOn (behind.takeWhile isBlank).length := if_neg other

theorem setting_found {behind : List UInt8} (equals : (behind.dropWhile isBlank).head? = some 61) :
    setting behind = .found (valueText ((behind.dropWhile isBlank).drop 1)) := if_pos equals

/-- What a search for a key in a section makes of it. -/
theorem setTo_eq (name : Identifier keyName) (text : List UInt8) : setTo keyName text =
    match mention wordRules (toLower keyName) true text with
    | none => none
    | some behind =>
      if (behind.dropWhile isBlank).head? = some 61 then
        some (valueText ((behind.dropWhile isBlank).drop 1)) |>.filter fun value => !value.isEmpty
      else setTo keyName (behind.dropWhile isBlank) := by
  rw [setTo, scan_eq name.toLower_nonempty]
  cases mention wordRules (toLower keyName) true text with
  | none => rfl
  | some behind =>
    dsimp only
    by_cases equals : (behind.dropWhile isBlank).head? = some 61
    · rw [if_pos equals, setting_found equals]
    · rw [if_neg equals, setting_goOn equals]
      dsimp only
      rw [drop_takeWhile_length, setTo]

/-- A section of the content, from one place to another. -/
structure Bounded (content : List UInt8) (start stop : Nat) : Prop where
  inside : stop ≤ content.length
  plain : ∀ byte ∈ (content.take stop).drop start, byte ≠ 0
  ends : content.drop stop = [] ∨ ∃ mark rest, content.drop stop = mark :: rest ∧ (mark = 91 ∨ mark = 0)

/-- A mention in the section is the one `LocateStr` finds. -/
private theorem locateStr_section (fuel : Nat) {start stop : Nat} (bounded : Bounded content start stop)
    (name : Identifier keyName) (before : start < stop) (enough : content.length < fuel + start) :
    ∃ located, locateStr (toLower content) (toLower keyName) fuel start stop = some located ∧
      (located.map fun find => (content.take stop).drop (find + keyName.length)) =
        mention wordRules (toLower keyName) true ((content.take stop).drop start) ∧
      ∀ find, located = some find → start ≤ find ∧ find + keyName.length ≤ stop := by
  have inside := bounded.inside
  have length : (toLower keyName).length = keyName.length := List.length_map ..
  have positive := List.length_pos_of_ne_nil name.1
  obtain ⟨located, ran, same, bounds⟩ :=
    @searchMarchStr_mention content _ fuel name.toLower_nonempty start enough (by omega)
  rw [length] at same bounds
  rw [locateStr, if_neg (by omega), ran, length]
  have split : content.drop start = (content.take stop).drop start ++ content.drop stop := by
    conv => lhs; rw [← List.take_append_drop stop content]
    rw [List.drop_append_of_le_length (by rw [List.length_take]; omega)]
  have unstopped : ∀ symbol ∈ (content.take stop).drop start, wordRules.stop symbol = false := fun symbol member => by
    simpa [wordRules] using bounded.plain symbol member
  have size (find : Nat) (within : find + keyName.length ≤ stop) :
      content.drop (find + keyName.length) = (content.take stop).drop (find + keyName.length) ++ content.drop stop := by
    conv => lhs; rw [← List.take_append_drop stop content]
    rw [List.drop_append_of_le_length (by rw [List.length_take]; omega)]
  refine ⟨_, rfl, ?_, ?_⟩
  · rcases bounded.ends with nothing | ⟨mark, rest, tail, which⟩
    · have last : content.length ≤ stop := List.drop_eq_nil_iff.mp nothing
      rw [split, nothing, List.append_nil] at same
      rw [← same]
      cases located with
      | none => rfl
      | some find =>
        have within : find + keyName.length ≤ stop := Nat.le_trans (bounds find rfl).2 last
        dsimp only
        rw [Option.bind_some, if_neg (by omega), Option.map_some, Option.map_some, size find within, nothing,
          List.append_nil]
    · have apart : wordRules.fold mark ∉ toLower keyName := by
        rcases which with rfl | rfl <;> exact name.not_mem_toLower (by decide)
      have closed : wordRules.behind mark = false := by
        rcases which with rfl | rfl <;> decide
      obtain ⟨kept, beyond⟩ :=
        @mention_front _ _ wordRules _ true rest mark name.toLower_nonempty apart closed _ unstopped
      rw [split, tail] at same
      have rests : rest.length + 1 + stop = content.length := by
        have sizes := congrArg List.length tail
        rw [List.length_drop, List.length_cons] at sizes
        omega
      cases first : mention wordRules (toLower keyName) true ((content.take stop).drop start) with
      | none =>
        cases located with
        | none => rfl
        | some find =>
          have behind := beyond first _ same.symm
          rw [List.length_drop] at behind
          have inner := (bounds find rfl).2
          dsimp only
          rw [Option.bind_some, if_pos (by omega)]
          rfl
      | some behind =>
        rw [kept behind first] at same
        obtain ⟨find, rfl, found⟩ := Option.map_eq_some_iff.mp same
        have sizes := congrArg List.length found
        rw [List.length_drop, List.length_append, List.length_cons] at sizes
        have inner := (bounds find rfl).2
        have within : find + keyName.length ≤ stop := by omega
        rw [size find within, tail] at found
        dsimp only
        rw [Option.bind_some, if_neg (by omega), Option.map_some, List.append_cancel_right found]
  · intro find at_find
    obtain ⟨found, rfl, chosen⟩ := Option.bind_eq_some_iff.mp at_find
    split_ifs at chosen with beyond
    obtain rfl := Option.some.inj chosen
    exact ⟨(bounds _ rfl).1, by omega⟩

theorem Bounded.later {start behind stop : Nat} (bounded : Bounded content start stop) (further : start ≤ behind) :
    Bounded content behind stop := by
  refine ⟨bounded.inside, fun byte member => bounded.plain byte ?_, bounded.ends⟩
  rw [← Nat.add_sub_cancel' further, ← List.drop_drop] at member
  exact List.mem_of_mem_drop member

/-- A `=` is never behind a section. -/
private theorem byteAt_section {start behind stop : Nat} (bounded : Bounded content start stop)
    (inside : behind ≤ stop) : byteAt content behind = 61 ↔ ((content.take stop).drop behind).head? = some 61 := by
  have long := bounded.inside
  rw [byteAt, List.getD_eq_getElem?_getD, List.head?_drop, List.getElem?_take]
  split_ifs with within
  · rw [List.getElem?_eq_getElem (by omega)]
    simp
  · obtain rfl : behind = stop := by omega
    rw [← List.head?_drop]
    rcases bounded.ends with nothing | ⟨mark, rest, tail, which⟩
    · simp [nothing]
    · rcases which with rfl | rfl <;> simp [tail]

/-- `LocateKeyValue` finds the first mention of a key in front of a `=`. -/
theorem locateKeyValue_region (fuel : Nat) (name : Identifier keyName) {start stop : Nat}
    (bounded : Bounded content start stop) (inside : start ≤ stop) (enough : content.length + 1 < fuel + start) :
    ∃ located, (openFile (some content)).locateKeyValue keyName fuel start stop = some located ∧
      (located.map fun place => (content.take place.2).drop place.1) =
        setTo keyName ((content.take stop).drop start) := by
  induction fuel generalizing start with
  | zero =>
    have long := bounded.inside
    omega
  | succ fuel ih =>
    rw [IniFile.locateKeyValue]
    by_cases ended : stop ≤ start
    · have nothing : (content.take stop).drop start = [] :=
        List.drop_eq_nil_iff.mpr (Nat.le_trans (List.length_take_le ..) ended)
      rw [if_pos ended, nothing]
      exact ⟨none, rfl, by simp [setTo]⟩
    · obtain ⟨located, ran, same, bounds⟩ := locateStr_section fuel bounded name (by omega) (by omega)
      have positive := List.length_pos_of_ne_nil name.1
      rw [if_neg ended, setTo_eq name, ← same]
      have searched : locateStr (openFile (some content)).shadow (toLower keyName) fuel start stop = some located := ran
      rw [searched]
      cases located with
      | none => exact ⟨none, rfl, rfl⟩
      | some find =>
        obtain ⟨further, within⟩ := bounds find rfl
        let behind := skip isBlank content stop (find + keyName.length)
        have place : (content.take stop).drop behind =
            ((content.take stop).drop (find + keyName.length)).dropWhile isBlank := skip_drop isBlank stop _
        obtain ⟨forward, upTo⟩ : find + keyName.length ≤ behind ∧ behind ≤ stop := skip_bounds content isBlank within
        rw [Option.map_some]
        dsimp only
        rw [← place]
        have sign := byteAt_section bounded upTo
        by_cases equals : byteAt content behind = 61
        · have rest : behind < stop := by
            have head := sign.mp equals
            rw [List.head?_drop, List.getElem?_take] at head
            split_ifs at head with short
            exact short
          let valueBegin := skip isBlank content stop (behind + 1)
          let valueEnd := skip (fun byte => !(byte = 9 || isLineEnd byte)) content stop valueBegin
          have value : (content.take valueEnd).drop valueBegin =
              valueText (((content.take stop).drop behind).drop 1) := by
            rw [skip_take, skip_drop, List.drop_drop]
            rfl
          have length : valueEnd - valueBegin = (valueText (((content.take stop).drop behind).drop 1)).length := by
            have bound := (skip_bounds content (fun byte => !(byte = 9 || isLineEnd byte))
              (skip_bounds content isBlank rest).2).2
            have long := bounded.inside
            rw [← value, List.length_drop, List.length_take, Nat.min_eq_left (Nat.le_trans bound long)]
          rw [if_pos (sign.mp equals)]
          by_cases remains : valueBegin < valueEnd
          · refine ⟨some (valueBegin, valueEnd), (if_neg (not_not.mpr equals)).trans (if_pos remains), ?_⟩
            rw [Option.map_some, value, Option.filter_some, if_pos]
            rw [Bool.not_eq_true', List.isEmpty_eq_false_iff, ← List.length_pos_iff]
            omega
          · refine ⟨none, (if_neg (not_not.mpr equals)).trans (if_neg remains), ?_⟩
            rw [Option.map_none, List.length_eq_zero_iff.mp (by omega : (valueText _).length = 0)]
            rfl
        · rw [if_neg (mt sign.mpr equals)]
          obtain ⟨result, searched, found⟩ := ih (bounded.later (show start ≤ behind by omega)) upTo (by omega)
          exact ⟨result, (if_pos equals).trans searched, found⟩

theorem mem_valueText {text : List UInt8} {byte : UInt8} (member : byte ∈ valueText text) : byte ∈ text :=
  (List.dropWhile_suffix _).subset ((List.takeWhile_prefix _).subset member)

/-- A value is of the section, and not empty. -/
theorem setTo_value (name : Identifier keyName) {text value : List UInt8} (found : setTo keyName text = some value) :
    value ≠ [] ∧ ∀ byte ∈ value, byte ∈ text := by
  obtain ⟨result, taken⟩ := Option.filter_eq_some_iff.mp found
  obtain ⟨front, behind, rfl, verdict⟩ := scan_result name.toLower_nonempty result
  refine ⟨by simpa using taken, fun byte member => ?_⟩
  by_cases equals : (behind.dropWhile isBlank).head? = some 61
  · rw [setting_found equals] at verdict
    obtain rfl := Verdict.found.inj verdict
    exact List.mem_append_right _ ((List.dropWhile_suffix _).subset (List.mem_of_mem_drop (mem_valueText member)))
  · rw [setting_goOn equals] at verdict
    cases verdict

/-- Something of a value that is not empty fits. -/
theorem fitted_value {value : List UInt8} (nonempty : value ≠ []) {size : Nat} (room : 2 < size) :
    IniFile.fitted value size ≠ [] ∧ ∀ byte ∈ IniFile.fitted value size, byte ∈ value := by
  have positive := List.length_pos_of_ne_nil nonempty
  unfold IniFile.fitted
  dsimp only
  refine ⟨?_, fun byte member => ?_⟩
  · rw [← List.length_pos_iff]
    split_ifs with half
    · rw [List.length_dropLast, half.1]
      omega
    · rw [List.length_take]
      omega
  · split_ifs at member
    · exact List.mem_of_mem_take ((List.dropLast_sublist _).subset member)
    · exact List.mem_of_mem_take member

/-- The whole value of the key in the section. -/
def assigned (content sectionName keyName : List UInt8) : Option (List UInt8) :=
  (region content sectionName).bind (setTo keyName)

theorem assigned_value (name : Identifier keyName) {value : List UInt8}
    (found : assigned content sectionName keyName = some value) : value ≠ [] ∧ ∀ byte ∈ value, byte ≠ 0 := by
  obtain ⟨text, inSection, set⟩ := Option.bind_eq_some_iff.mp found
  obtain ⟨behind, _, rfl⟩ := Option.map_eq_some_iff.mp inSection
  obtain ⟨nonempty, members⟩ := setTo_value name set
  exact ⟨nonempty, fun byte member => (section_ends true (nextLine behind)).2.1 byte (members byte member)⟩

/-- `GetItemValue` gives what fits of the value behind the first mentions of the header and the key. -/
theorem getItemValue_assigned (name : Identifier keyName) (enough : content.length + 1 < fuel) {size : Nat}
    (positive : size ≠ 0) : (openFile (some content)).getItemValue sectionName keyName size fuel =
      some (((assigned content sectionName keyName).map fun value => IniFile.fitted value size).getD []) := by
  obtain ⟨located, ran, which⟩ := locateSection_region sectionName (Nat.lt_of_succ_lt enough)
  have opened : ¬ ¬ (openFile (some content)).isOpen = true := not_not.mpr rfl
  rw [IniFile.getItemValue, if_neg opened, if_neg positive, ran]
  rw [assigned, region]
  cases first : mention wordRules (headerWord sectionName) true content with
  | none =>
    rw [first] at which
    obtain rfl := which
    rfl
  | some behind =>
    rw [first] at which
    obtain ⟨start, inside, begins, rfl⟩ := which
    obtain ⟨short, plain, ends⟩ := section_ends true (nextLine behind)
    have whole : (content.take (start + sectionLength true (nextLine behind))).drop start =
        sectionOf (nextLine behind) := by
      rw [List.drop_take, Nat.add_sub_cancel_left, begins]
      rfl
    have bounded : Bounded content start (start + sectionLength true (nextLine behind)) := by
      refine ⟨?_, whole ▸ plain, ?_⟩
      · have size := congrArg List.length begins
        rw [List.length_drop] at size
        omega
      · rw [← List.drop_drop, begins]
        exact ends
    obtain ⟨place, searched, found⟩ := locateKeyValue_region fuel name bounded (Nat.le_add_right ..) (by omega)
    rw [whole] at found
    dsimp only
    rw [searched, Option.map_some, Option.map_some, Option.bind_some, ← found]
    cases place <;> rfl

/-- The buffer then holds a string without an end in it. -/
theorem fitted_assigned (name : Identifier keyName) {value : List UInt8}
    (found : assigned content sectionName keyName = some value) {size : Nat} (room : 2 < size) :
    (IniFile.fitted value size).length ≠ 0 ∧
      (IniFile.fitted value size).takeWhile (· ≠ 0) = IniFile.fitted value size := by
  obtain ⟨nonempty, plain⟩ := assigned_value name found
  obtain ⟨remains, within⟩ := fitted_value nonempty room
  refine ⟨mt List.length_eq_zero_iff.mp remains, List.takeWhile_eq_self_iff.mpr fun byte member => ?_⟩
  simpa using plain byte (within byte member)

/-- `ReadString` reads what stands behind the first mentions of the header and the key. -/
theorem readString_reading (name : Identifier keyName) (enough : content.length + 1 < fuel)
    (defaultValue : List UInt8) : (openFile (some content)).readString sectionName keyName defaultValue fuel =
      some ((reading content sectionName keyName).getD defaultValue) := by
  rw [IniFile.readString, getItemValue_assigned name enough (by decide), reading, ← assigned, Option.map_some]
  cases found : assigned content sectionName keyName with
  | none => rfl
  | some value =>
    obtain ⟨nonempty, text⟩ := fitted_assigned name found (show 2 < 1024 by decide)
    exact congrArg some ((if_neg nonempty).trans text)

end TeenpattiUserServer.Config
