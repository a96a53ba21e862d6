import TeenpattiUserServer.Config.Lookup

/-! What `ReadString` reads, in terms of the rows of the text: a row goes up to its line end
and has it. -/

namespace TeenpattiUserServer.Config

open Words

def rowsOf : List UInt8 → List (List UInt8)
  | [] => []
  | byte :: rest =>
    if isLineEnd byte then [byte] :: rowsOf rest
    else
      match rowsOf rest with
      | [] => [[byte]]
      | row :: more => (byte :: row) :: more

/-- The rows behind the first one with the header in it; a 0 ends the search. -/
def rowsBehind (sectionName : List UInt8) : List (List UInt8) → Option (List (List UInt8))
  | [] => none
  | row :: rest =>
    if (mention wordRules (headerWord sectionName) true row).isSome then some rest
    else if 0 ∈ row then none
    else rowsBehind sectionName rest

/-- The value in the first row that has the key in front of a `=`, up to the end of the section. -/
def firstSetting (keyName : List UInt8) : List (List UInt8) → Option (List UInt8)
  | [] => none
  | row :: rest =>
    if sectionLength true row < row.length then setTo keyName (sectionOf row)
    else if (scan wordRules (toLower keyName) setting 0 true row).isSome then setTo keyName row
    else firstSetting keyName rest

/-- A text of rows. -/
inductive Lined : List UInt8 → Prop where
  | nil : Lined []
  | row {body rest : List UInt8} {mark : UInt8} (plain : ∀ byte ∈ body, isLineEnd byte = false)
      (ends : isLineEnd mark = true) (others : Lined rest) : Lined (body ++ mark :: rest)

variable {sectionName keyName body text : List UInt8} {mark : UInt8}

theorem lineEnd_cases (ends : isLineEnd mark = true) : mark = 13 ∨ mark = 10 := by
  rcases Bool.or_eq_true_iff.mp ends with cr | lf
  · exact .inl (of_decide_eq_true cr)
  · exact .inr (of_decide_eq_true lf)

/-- A line end is in no name, may stand around a word and ends no text. -/
theorem lineEnd_around (ends : isLineEnd mark = true) : isNameByte mark = false ∧ isBlank mark = false ∧
    wordRules.fold mark = mark ∧ wordRules.front mark = true ∧ wordRules.stop mark = false := by
  rcases lineEnd_cases ends with rfl | rfl <;> decide

theorem lineEnd_other (ends : isLineEnd mark = true) : mark ≠ 91 ∧ mark ≠ 0 ∧ mark ≠ 61 ∧ mark ≠ 93 := by
  rcases lineEnd_cases ends with rfl | rfl <;> decide

theorem Identifier.lineEnd_apart (name : Identifier keyName) (ends : isLineEnd mark = true) :
    wordRules.fold mark ∉ toLower keyName := by
  obtain ⟨other, _, same, _⟩ := lineEnd_around ends
  rw [same]
  exact name.not_mem_toLower other

/-- Neither a line end nor a 0 is in a header. -/
theorem Identifier.header_apart (name : Identifier sectionName) (other : isNameByte mark = false) (left : mark ≠ 91)
    (right : mark ≠ 93) : mark ∉ headerWord sectionName := by
  have split : headerWord sectionName = 91 :: (toLower sectionName ++ [93]) := by
    simp [headerWord, toLower, toLowerByte]
  rw [split]
  simpa [left, right] using name.not_mem_toLower other

theorem headerWord_nonempty : headerWord sectionName ≠ [] := by
  simp [headerWord, toLower]

theorem lined_append (text : List UInt8) {rest : List UInt8} (ends : isLineEnd mark = true) (others : Lined rest) :
    Lined (text ++ mark :: rest) := by
  induction text with
  | nil => exact @Lined.row [] rest mark (by simp) ends others
  | cons byte text ih =>
    by_cases last : isLineEnd byte = true
    · exact @Lined.row [] _ byte (by simp) last ih
    · rw [Bool.not_eq_true] at last
      generalize more : text ++ mark :: rest = whole at ih
      cases ih with
      | nil => exact absurd more (by simp)
      | row plain ends others =>
        rw [List.cons_append, more]
        exact @Lined.row (byte :: _) _ _ (List.forall_mem_cons.mpr ⟨last, plain⟩) ends others

theorem rowsOf_row (plain : ∀ byte ∈ body, isLineEnd byte = false) (ends : isLineEnd mark = true) (rest : List UInt8) :
    rowsOf (body ++ mark :: rest) = (body ++ [mark]) :: rowsOf rest := by
  induction body with
  | nil => exact if_pos ends
  | cons byte body ih =>
    obtain ⟨here, others⟩ := List.forall_mem_cons.mp plain
    rw [List.cons_append, rowsOf, if_neg (by simp [here]), ih others]
    rfl

/-- Behind a mention in a row, the next line is the next row that is not empty. -/
theorem nextLine_row (plain : ∀ byte ∈ body, isLineEnd byte = false) (ends : isLineEnd mark = true)
    (rest : List UInt8) : nextLine (body ++ mark :: rest) = rest.dropWhile isLineEnd := by
  have inner : ∀ byte ∈ body, (!isLineEnd byte) = true := fun byte member => by rw [plain byte member]; rfl
  rw [nextLine, List.dropWhile_append_of_pos inner, List.dropWhile_cons_of_neg (by simp [ends]),
    List.dropWhile_cons_of_pos ends]

/-- The section of a name is in the rows behind the first one with its header in it. -/
theorem mention_rows (name : Identifier sectionName) (lined : Lined text) :
    match rowsBehind sectionName (rowsOf text) with
    | none => mention wordRules (headerWord sectionName) true text = none
    | some rows => ∃ behind rest, mention wordRules (headerWord sectionName) true text = some behind ∧ Lined rest ∧
        rowsOf rest = rows ∧ nextLine behind = rest.dropWhile isLineEnd := by
  induction lined with
  | nil => exact scan_nil 0
  | @row body rest mark plain ends others ih =>
    rw [rowsOf_row plain ends, rowsBehind]
    obtain ⟨left, positive, _, right⟩ := lineEnd_other ends
    obtain ⟨other, _, same, opens, goes⟩ := lineEnd_around ends
    have apart : wordRules.fold mark ∉ headerWord sectionName := by
      rw [same]
      exact name.header_apart other left right
    by_cases nul : 0 ∈ body
    · obtain ⟨front, back, rfl⟩ := List.append_of_mem nul
      have outside : (0 : UInt8) ∉ headerWord sectionName := name.header_apart (by decide) (by decide) (by decide)
      have stopped :=
        @mention_stopped _ _ wordRules _ true 0 headerWord_nonempty outside rfl front (back ++ [mark]) rest
      have whole (more : List UInt8) : front ++ 0 :: (back ++ [mark]) ++ more = front ++ 0 :: back ++ mark :: more := by
        simp
      rw [whole, ← List.cons_append, ← List.append_assoc] at stopped
      rw [stopped]
      cases found : mention wordRules (headerWord sectionName) true (front ++ 0 :: back ++ [mark]) with
      | none => simp
      | some behind =>
        obtain ⟨inner, suffix, rfl⟩ := mention_last headerWord_nonempty found
        have own : ∀ byte ∈ inner, isLineEnd byte = false := fun byte member => plain byte (suffix.subset member)
        refine ⟨_, rest, rfl, others, rfl, ?_⟩
        dsimp only
        rw [List.append_assoc]
        exact nextLine_row own ends rest
    · have unstopped : ∀ byte ∈ body, wordRules.stop byte = false := fun byte member => by
        simpa [wordRules] using ne_of_mem_of_not_mem member nul
      rcases mention_line true headerWord_nonempty apart opens goes unstopped with
        ⟨behind, suffix, found⟩ | passed
      · rw [found [], found rest]
        have inner : ∀ byte ∈ behind, isLineEnd byte = false := fun byte member => plain byte (suffix.subset member)
        exact ⟨_, rest, rfl, others, rfl, nextLine_row inner ends rest⟩
      · have absent : mention wordRules (headerWord sectionName) true (body ++ [mark]) = none :=
          (passed []).trans (scan_nil 0)
        rw [absent, passed rest]
        simpa [nul, positive.symm] using ih

theorem dropWhile_mark {passes : UInt8 → Bool} (stays : passes mark = false) (body rest : List UInt8) :
    (body ++ mark :: rest).dropWhile passes = body.dropWhile passes ++ mark :: rest := by
  rw [List.dropWhile_append]
  split_ifs with empty
  · rw [List.isEmpty_iff.mp empty, List.dropWhile_cons_of_neg (by simp [stays])]
    rfl
  · rfl

theorem takeWhile_mark {passes : UInt8 → Bool} (stays : passes mark = false) (body rest : List UInt8) :
    (body ++ mark :: rest).takeWhile passes = body.takeWhile passes := by
  rw [List.takeWhile_append]
  split_ifs with whole
  · rw [List.takeWhile_cons_of_neg (by simp [stays]), List.append_nil]
    exact ((List.takeWhile_prefix passes).eq_of_length whole).symm
  · rfl

/-- A value does not go on behind its row. -/
theorem valueText_row (ends : isLineEnd mark = true) (body rest : List UInt8) :
    valueText (body ++ mark :: rest) =
      (body.dropWhile isBlank).takeWhile fun byte => !(byte = 9 || isLineEnd byte) := by
  rw [valueText, dropWhile_mark (lineEnd_around ends).2.1, takeWhile_mark (by simp [ends])]

/-- A key's `=` and value are looked for in its row. -/
theorem near_setting (ends : isLineEnd mark = true) : Near setting mark := by
  obtain ⟨_, solid, _⟩ := lineEnd_around ends
  obtain ⟨_, _, sign, _⟩ := lineEnd_other ends
  have dropped (body rest : List UInt8) := dropWhile_mark solid body rest
  have head (body rest : List UInt8) : ((body ++ mark :: rest).dropWhile isBlank).head? =
      ((body ++ [mark]).dropWhile isBlank).head? := by
    rw [dropped, dropped]
    cases body.dropWhile isBlank <;> rfl
  constructor
  · intro body more goes
    by_cases equals : ((body ++ [mark]).dropWhile isBlank).head? = some 61
    · rw [setting_found equals] at goes
      cases goes
    · rw [setting_goOn equals, takeWhile_mark solid] at goes
      obtain rfl := Verdict.goOn.inj goes
      refine ⟨(List.takeWhile_prefix isBlank).length_le, fun rest => ?_⟩
      rw [setting_goOn (mt (head body rest).symm.trans equals), takeWhile_mark solid]
  · intro body result found rest
    by_cases equals : ((body ++ [mark]).dropWhile isBlank).head? = some 61
    · rw [setting_found equals] at found
      obtain rfl := Verdict.found.inj found
      rw [setting_found ((head body rest).trans equals), dropped, dropped]
      rw [dropped] at equals
      cases front : body.dropWhile isBlank with
      | nil =>
        rw [front] at equals
        exact absurd (Option.some.inj equals) sign
      | cons first more =>
        rw [List.cons_append, List.cons_append, List.drop_one, List.drop_one, List.tail_cons, List.tail_cons,
          valueText_row ends, valueText_row ends]
    · rw [setting_goOn equals] at found
      cases found

/-- A section ends in a row, or goes on behind it. -/
theorem section_row (ends : isLineEnd mark = true) (body : List UInt8) :
    (sectionLength true (body ++ [mark]) < (body ++ [mark]).length ∧
        ∀ rest, sectionOf (body ++ mark :: rest) = sectionOf (body ++ [mark])) ∨
      (sectionLength true (body ++ [mark]) = (body ++ [mark]).length ∧
        ∀ rest, sectionOf (body ++ mark :: rest) = body ++ mark :: sectionOf rest) := by
  obtain ⟨header, last, _⟩ := lineEnd_other ends
  have length (first : Bool) : (sectionLength first (body ++ [mark]) < body.length + 1 ∧
        ∀ rest, sectionLength first (body ++ mark :: rest) = sectionLength first (body ++ [mark])) ∨
      ∀ rest, sectionLength first (body ++ mark :: rest) = body.length + (sectionLength true rest + 1) := by
    induction body generalizing first with
    | nil =>
      refine .inr fun rest => ?_
      rw [List.nil_append, sectionLength, if_neg (by simp [header]), if_neg last, if_pos ends, List.length_nil,
        Nat.zero_add]
    | cons byte body ih =>
      have further (next : Bool) (goes : ∀ rest, sectionLength first (byte :: body ++ mark :: rest) =
          sectionLength next (body ++ mark :: rest) + 1) :
          (sectionLength first (byte :: body ++ [mark]) < (byte :: body).length + 1 ∧
            ∀ rest, sectionLength first (byte :: body ++ mark :: rest) = sectionLength first (byte :: body ++ [mark])) ∨
          ∀ rest, sectionLength first (byte :: body ++ mark :: rest) =
            (byte :: body).length + (sectionLength true rest + 1) := by
        simp only [goes, List.length_cons]
        rcases ih next with ⟨short, same⟩ | longer
        · exact .inl ⟨Nat.succ_lt_succ short, fun rest => congrArg _ (same rest)⟩
        · refine .inr fun rest => ?_
          rw [longer]
          omega
      by_cases opens : first = true ∧ byte = 91
      · have none (rest : List UInt8) : sectionLength first (byte :: body ++ mark :: rest) = 0 := if_pos opens
        exact .inl ⟨none [] ▸ Nat.succ_pos _, fun rest => (none rest).trans (none []).symm⟩
      · by_cases nul : byte = 0
        · have none (rest : List UInt8) : sectionLength first (byte :: body ++ mark :: rest) = 0 :=
            (if_neg opens).trans (if_pos nul)
          exact .inl ⟨none [] ▸ Nat.succ_pos _, fun rest => (none rest).trans (none []).symm⟩
        · have step (rest : List UInt8) : sectionLength first (byte :: body ++ mark :: rest) =
              if isLineEnd byte then sectionLength true (body ++ mark :: rest) + 1
              else if ¬ isBlank byte then sectionLength false (body ++ mark :: rest) + 1
              else sectionLength first (body ++ mark :: rest) + 1 := (if_neg opens).trans (if_neg nul)
          by_cases lineEnd : isLineEnd byte = true
          · exact further true fun rest => (step rest).trans (if_pos lineEnd)
          · by_cases blank : isBlank byte = true
            · exact further first fun rest => (step rest).trans ((if_neg lineEnd).trans (if_neg (not_not.mpr blank)))
            · exact further false fun rest => (step rest).trans ((if_neg lineEnd).trans (if_pos blank))
  rcases length true with ⟨short, same⟩ | longer
  · refine .inl ⟨by simpa using short, fun rest => ?_⟩
    have inside : sectionLength true (body ++ [mark]) ≤ body.length := Nat.le_of_lt_succ short
    rw [sectionOf, same, sectionOf, List.take_append_of_le_length inside, List.take_append_of_le_length inside]
  · refine .inr ⟨?_, fun rest => ?_⟩
    · rw [longer, List.length_append]
      rfl
    · rw [sectionOf, longer, List.take_length_add_append, List.take_succ_cons]
      rfl

/-- What is read of a section is in the first row with the key in front of a `=`. -/
theorem setTo_rows (name : Identifier keyName) (lined : Lined text) :
    setTo keyName (sectionOf text) = firstSetting keyName (rowsOf text) := by
  induction lined with
  | nil => rfl
  | @row body rest mark plain ends others ih =>
    rw [rowsOf_row plain ends, firstSetting]
    rcases section_row ends body with ⟨short, same⟩ | ⟨whole, goes⟩
    · rw [if_pos short, same]
    · rw [if_neg (by omega), goes]
      obtain ⟨_, _, _, opens, runs⟩ := lineEnd_around ends
      have unstopped : ∀ byte ∈ body, wordRules.stop byte = false := fun byte member => by
        have taken := (section_ends true (body ++ [mark])).2.1
        rw [whole, List.take_length] at taken
        simpa [wordRules] using taken byte (List.mem_append_left _ member)
      rcases scan_line true name.toLower_nonempty (name.lineEnd_apart ends) opens runs (near_setting ends)
        unstopped with ⟨result, found⟩ | passed
      · rw [found [], if_pos Option.isSome_some, setTo, setTo, found, found []]
      · have absent : scan wordRules (toLower keyName) setting 0 true (body ++ [mark]) = none :=
          (passed []).trans (scan_nil 0)
        rw [absent, if_neg (by decide), setTo, passed]
        exact ih

/-- Empty rows in front of a section make no difference. -/
theorem setTo_emptyRows (name : Identifier keyName) (text : List UInt8) :
    setTo keyName (sectionOf (text.dropWhile isLineEnd)) = setTo keyName (sectionOf text) := by
  induction text with
  | nil => rfl
  | cons byte rest ih =>
    by_cases empty : isLineEnd byte = true
    · obtain ⟨header, last, _⟩ := lineEnd_other empty
      obtain ⟨_, _, _, opens, goes⟩ := lineEnd_around empty
      have inner : sectionOf (byte :: rest) = byte :: sectionOf rest := by
        rw [sectionOf, sectionLength, if_neg (by simp [header]), if_neg last, if_pos empty, List.take_succ_cons]
        rfl
      have apart : wordRules.startsWith (toLower keyName) (byte :: sectionOf rest) = false :=
        (startsWith_mark (name.lineEnd_apart empty) [] _).trans (startsWith_nil name.toLower_nonempty)
      rw [List.dropWhile_cons_of_pos empty, ih, inner, setTo, setTo, scan_other apart goes, opens]
    · rw [List.dropWhile_cons_of_neg empty]

/-- `ReadString` reads the first row with the key in front of a `=`, behind the first one with the header. -/
theorem reading_rows (section' : Identifier sectionName) (name : Identifier keyName) (lined : Lined text) :
    reading text sectionName keyName = ((rowsBehind sectionName (rowsOf text)).bind (firstSetting keyName)).map
      fun value => IniFile.fitted value 1024 := by
  have found := mention_rows section' lined
  rw [reading, region]
  cases behind : rowsBehind sectionName (rowsOf text) with
  | none =>
    rw [behind] at found
    rw [found]
    rfl
  | some rows =>
    rw [behind] at found
    obtain ⟨_, rest, here, others, same, next⟩ := found
    rw [here, Option.map_some, Option.bind_some, Option.bind_some, next, setTo_emptyRows name,
      setTo_rows name others, same]

end TeenpattiUserServer.Config
