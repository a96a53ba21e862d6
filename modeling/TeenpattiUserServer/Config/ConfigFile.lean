import TeenpattiUserServer.Config.Rows

/-! A configuration file line by line, the value of a key's own line, and when `ReadString`
reads it. -/

namespace TeenpattiUserServer.Config

open Words

inductive Line where
  | header (name : List UInt8)
  | blank (text : List UInt8)
  | comment (text : List UInt8)
  | entry (key : List UInt8) (spaced : Bool) (value : List UInt8)

namespace Line

def text : Line → List UInt8
  | header name => [91] ++ name ++ [93]
  | blank text => text
  | comment text => text
  | entry key spaced value => key ++ (if spaced then [32, 61, 32] else [61]) ++ value

/-- A comment is anything behind `;` or `#`, and a value is of one line and not too long. -/
def Valid : Line → Prop
  | header name => ∀ byte ∈ name, byte ≠ 0 ∧ isLineEnd byte = false
  | blank text => ∀ byte ∈ text, isBlank byte = true ∨ byte = 13
  | comment text => 10 ∉ text ∧ ((text.dropWhile isBlank).head? = some 59 ∨ (text.dropWhile isBlank).head? = some 35)
  | entry key _ value => Identifier key ∧ value.head?.map isBlank = some false ∧ value.length < 1023 ∧
      ∀ byte ∈ value, byte < 128 ∧ byte ≠ 0 ∧ byte ≠ 9 ∧ isLineEnd byte = false

def isHeader : Line → Bool
  | header _ => true
  | _ => false

/-- Whether this is the header of a section, or the line of a key. -/
def heads (sectionName : List UInt8) : Line → Bool
  | header name => toLower name = toLower sectionName
  | _ => false

def sets (keyName : List UInt8) : Line → Bool
  | entry key _ _ => toLower key = toLower keyName
  | _ => false

end Line

/-- No section has two headers, and no key has two lines in a section. -/
def distinct : List Line → Bool
  | [] => true
  | .header name :: rest => rest.all (fun other => !other.heads name) && distinct rest
  | .entry key _ _ :: rest =>
    (rest.takeWhile fun other => !other.isHeader).all (fun other => !other.sets key) && distinct rest
  | _ :: rest => distinct rest

structure ValidFile (file : List Line) : Prop where
  lines : ∀ line ∈ file, line.Valid
  distinct : distinct file = true

def fileText (file : List Line) : List UInt8 := file.flatMap fun line => line.text ++ [10]

/-- The lines behind the header of a section. -/
def linesBehind (sectionName : List UInt8) : List Line → Option (List Line)
  | [] => none
  | line :: rest => if line.heads sectionName then some rest else linesBehind sectionName rest

/-- What the key's own line says, in front of the next header. -/
def ownLine (keyName : List UInt8) : List Line → Option (List UInt8)
  | [] => none
  | .header _ :: _ => none
  | .entry key _ value :: rest => if toLower key = toLower keyName then some value else ownLine keyName rest
  | _ :: rest => ownLine keyName rest

def own (file : List Line) (sectionName keyName : List UInt8) : Option (List UInt8) :=
  (linesBehind sectionName file).bind (ownLine keyName)

/-- A line without the header in it, neither as a part of a comment nor of a value. -/
structure Unnamed (sectionName : List UInt8) (line : Line) : Prop where
  plain : ∀ byte ∈ line.text, byte ≠ 0
  silent : mention wordRules (headerWord sectionName) true (line.text ++ [10]) = none

/-- A line without the key in front of a `=` in it, and within which no section ends. -/
structure Unset (keyName : List UInt8) (line : Line) : Prop where
  plain : ∀ byte ∈ line.text, byte ≠ 0
  whole : sectionLength true (line.text ++ [10]) = line.text.length + 1
  silent : scan wordRules (toLower keyName) setting 0 true (line.text ++ [10]) = none

/-- Nothing in front of the header and of the key's own line is taken for them. -/
structure Clean (file : List Line) (sectionName keyName : List UInt8) : Prop where
  header : ∀ line ∈ file.takeWhile (fun line => !line.heads sectionName), Unnamed sectionName line
  key : ∀ rest, linesBehind sectionName file = some rest →
    ∀ line ∈ rest.takeWhile (fun line => !(line.isHeader || line.sets keyName)), Unset keyName line

variable {sectionName keyName : List UInt8} {file : List Line} {fuel : Nat}

@[simp] theorem fileText_cons (line : Line) (rest : List Line) :
    fileText (line :: rest) = line.text ++ 10 :: fileText rest := by
  rw [fileText, List.flatMap_cons, List.append_assoc]
  rfl

private theorem sectionOf_line {body : List UInt8} (whole : sectionLength true (body ++ [10]) = body.length + 1)
    (rest : List UInt8) : sectionOf (body ++ 10 :: rest) = body ++ 10 :: sectionOf rest := by
  rcases section_row (show isLineEnd 10 = true from rfl) body with ⟨short, _⟩ | ⟨_, goes⟩
  · rw [whole, List.length_append] at short
    exact absurd short (Nat.lt_irrefl _)
  · exact goes rest

private theorem nameByte_plain {byte : UInt8} (named : isNameByte byte = true) :
    byte ≠ 91 ∧ byte ≠ 0 ∧ isLineEnd byte = false ∧ isBlank byte = false := by
  have other (mark : UInt8) (never : isNameByte mark = false) : byte ≠ mark := by
    intro same
    rw [same, never] at named
    cases named
  refine ⟨other 91 (by decide), other 0 (by decide), ?_, ?_⟩
  · simp [isLineEnd, other 13 (by decide), other 10 (by decide)]
  · simp [isBlank, other 32 (by decide), other 9 (by decide)]

/-- The bytes of an entry are of one line. -/
private theorem entry_plain {key value : List UInt8} {spaced : Bool} (valid : (Line.entry key spaced value).Valid) :
    ∀ byte ∈ (Line.entry key spaced value).text, byte ≠ 0 ∧ isLineEnd byte = false := by
  obtain ⟨name, _, _, plain⟩ := valid
  intro byte member
  rcases List.mem_append.mp member with front | inside
  · rcases List.mem_append.mp front with named | sign
    · have only := nameByte_plain (name.2 byte named)
      exact ⟨only.2.1, only.2.2.1⟩
    · cases spaced <;> simp at sign
      · rw [sign]
        decide
      · rcases sign with rfl | rfl | rfl <;> decide
  · exact ⟨(plain byte inside).2.1, (plain byte inside).2.2.2⟩

/-- The key's own line is in its section. -/
private theorem entry_whole {key value : List UInt8} {spaced : Bool} (valid : (Line.entry key spaced value).Valid) :
    sectionLength true ((Line.entry key spaced value).text ++ [10]) =
      (Line.entry key spaced value).text.length + 1 := by
  have inner {body : List UInt8} (plain : ∀ byte ∈ body, byte ≠ 0 ∧ isLineEnd byte = false) :
      sectionLength false (body ++ [10]) = body.length + 1 := by
    induction body with
    | nil => rfl
    | cons byte body ih =>
      obtain ⟨here, others⟩ := List.forall_mem_cons.mp plain
      rw [List.cons_append, sectionLength, if_neg (by simp), if_neg here.1, if_neg (by simp [here.2]), ih others,
        ite_self, List.length_cons]
  have plain := entry_plain valid
  obtain ⟨first, more, begins⟩ : ∃ first more, key = first :: more := List.exists_cons_of_ne_nil valid.1.1
  obtain ⟨header, last, lineEnd, blank⟩ := nameByte_plain (valid.1.2 first (begins ▸ List.mem_cons_self))
  obtain ⟨tail, whole⟩ : ∃ tail, (Line.entry key spaced value).text = first :: tail :=
    ⟨_, by rw [Line.text, begins, List.cons_append, List.cons_append]⟩
  rw [whole] at plain ⊢
  rw [List.cons_append, sectionLength, if_neg (by simp [header]), if_neg last, if_neg (by simp [lineEnd]),
    if_pos (by simp [blank]), inner (List.forall_mem_cons.mp plain).2, List.length_cons]

/-- A text that begins with a word, whatever the case. -/
private theorem word_here {here word : List UInt8} (same : toLower here = word) (rest : List UInt8) :
    wordRules.startsWith word (here ++ rest) = true ∧ (here ++ rest).drop word.length = rest := by
  constructor
  · rw [Rules.startsWith, List.isPrefixOf_iff_prefix, List.map_append, ← same]
    exact List.prefix_append ..
  · rw [← same, toLower, List.length_map, List.drop_left]

/-- The key's own line is read as such. -/
private theorem entry_found {key value : List UInt8} {spaced : Bool} (valid : (Line.entry key spaced value).Valid)
    (same : toLower key = toLower keyName) (rest : List UInt8) :
    setTo keyName ((Line.entry key spaced value).text ++ 10 :: rest) = some value := by
  obtain ⟨name, front, _, plain⟩ := valid
  let behind := (if spaced then [32, 61, 32] else [61]) ++ value ++ 10 :: rest
  have text : (Line.entry key spaced value).text ++ 10 :: rest = key ++ behind := by
    simp only [Line.text, behind, List.append_assoc]
  have nonempty : toLower keyName ≠ [] := same ▸ name.toLower_nonempty
  obtain ⟨here, drop⟩ := word_here same behind
  have ends : wordRules.endsWord behind = true := by cases spaced <;> rfl
  have sign : behind.dropWhile isBlank = 61 :: ((if spaced then [32] else []) ++ value ++ 10 :: rest) := by
    cases spaced <;> rfl
  have read : valueText ((if spaced then [32] else []) ++ value ++ 10 :: rest) = value := by
    obtain ⟨first, begins, solid⟩ := Option.map_eq_some_iff.mp front
    obtain ⟨more, rfl⟩ := List.head?_eq_some_iff.mp begins
    have blanks : ((if spaced then [32] else []) ++ first :: more ++ 10 :: rest).dropWhile isBlank =
        first :: more ++ 10 :: rest := by
      cases spaced <;> simp [solid, show isBlank 32 = true by decide]
    have one : ∀ byte ∈ first :: more, (!(byte = 9 || isLineEnd byte)) = true := fun byte member => by
      simp [(plain byte member).2.2]
    rw [valueText, blanks, List.takeWhile_append_of_pos one, List.takeWhile_cons_of_neg (by decide), List.append_nil]
  rw [text, setTo, scan_here nonempty here (drop.symm ▸ ends), drop, setting_found (by rw [sign]; rfl), sign]
  rw [List.drop_one, List.tail_cons, read, Option.filter_some, if_pos]
  cases value with
  | nil => cases front
  | cons => rfl

/-- In lines in which nothing else is taken for the key, its own line is read. -/
theorem setTo_lines (name : Identifier keyName) (valid : ∀ line ∈ file, line.Valid)
    (clean : ∀ line ∈ file.takeWhile (fun line => !(line.isHeader || line.sets keyName)), Unset keyName line) :
    setTo keyName (sectionOf (fileText file)) = ownLine keyName file := by
  have header (title : List UInt8) (rest : List Line) :
      setTo keyName (sectionOf (fileText (.header title :: rest))) = none := by
    rw [fileText_cons]
    rfl
  induction file with
  | nil => rfl
  | cons line rest ih =>
    have others : ∀ line ∈ rest, line.Valid := fun other member => valid other (List.mem_cons_of_mem line member)
    have lineFeed : isLineEnd 10 = true := rfl
    have further (goes : (line.isHeader || line.sets keyName) = false) :
        setTo keyName (sectionOf (fileText (line :: rest))) = ownLine keyName rest := by
      have passed : (line :: rest).takeWhile (fun line => !(line.isHeader || line.sets keyName)) =
          line :: rest.takeWhile (fun line => !(line.isHeader || line.sets keyName)) :=
        List.takeWhile_cons_of_pos (by rw [goes]; rfl)
      rw [passed] at clean
      obtain ⟨plain, whole, silent⟩ := clean line List.mem_cons_self
      rcases scan_line true name.toLower_nonempty (name.lineEnd_apart lineFeed) rfl rfl (near_setting lineFeed)
        (fun byte member => by simpa [wordRules] using plain byte member) with ⟨result, found⟩ | passed
      · rw [found []] at silent
        cases silent
      · rw [fileText_cons, sectionOf_line whole, setTo, passed]
        exact ih others fun other member => clean other (List.mem_cons_of_mem line member)
    cases line with
    | header title => exact header title rest
    | blank text => exact further rfl
    | comment text => exact further rfl
    | entry key spaced value =>
      have own := valid _ List.mem_cons_self
      rw [ownLine]
      by_cases same : toLower key = toLower keyName
      · rw [if_pos same, fileText_cons, sectionOf_line (entry_whole own), entry_found own same]
      · rw [if_neg same]
        exact further (decide_eq_false same)

/-- A header is found behind lines in which nothing else is taken for it. -/
theorem mention_lines (section' : Identifier sectionName)
    (clean : ∀ line ∈ file.takeWhile (fun line => !line.heads sectionName), Unnamed sectionName line) :
    mention wordRules (headerWord sectionName) true (fileText file) =
      (linesBehind sectionName file).map fun rest => 10 :: fileText rest := by
  have apart : wordRules.fold 10 ∉ headerWord sectionName :=
    show 10 ∉ headerWord sectionName from section'.header_apart (by decide) (by decide) (by decide)
  induction file with
  | nil => exact scan_nil 0
  | cons line rest ih =>
    rw [fileText_cons, linesBehind]
    by_cases here : line.heads sectionName = true
    · rw [if_pos here, Option.map_some]
      cases line with
      | header title =>
        have same : toLower title = toLower sectionName := of_decide_eq_true here
        have whole : toLower (Line.header title).text = headerWord sectionName := by
          unfold toLower at same
          rw [headerWord, toLower, toLower, Line.text, List.map_append, List.map_append, same, List.map_append,
            List.map_append]
        obtain ⟨starts, drop⟩ := word_here whole (10 :: fileText rest)
        rw [mention, scan_here headerWord_nonempty starts (by rw [drop]; rfl), drop]
      | blank text => cases here
      | comment text => cases here
      | entry key spaced value => cases here
    · rw [if_neg here]
      rw [Bool.not_eq_true] at here
      have passed : (line :: rest).takeWhile (fun line => !line.heads sectionName) =
          line :: rest.takeWhile (fun line => !line.heads sectionName) :=
        List.takeWhile_cons_of_pos (by rw [here]; rfl)
      rw [passed] at clean
      obtain ⟨plain, silent⟩ := clean line List.mem_cons_self
      rcases mention_line true headerWord_nonempty apart rfl rfl
        (fun byte member => by simpa [wordRules] using plain byte member) with ⟨behind, _, found⟩ | passed
      · rw [found []] at silent
        cases silent
      · rw [passed]
        exact ih fun other member => clean other (List.mem_cons_of_mem line member)

private theorem linesBehind_subset {rest : List Line} (behind : linesBehind sectionName file = some rest) :
    rest ⊆ file := by
  induction file with
  | nil => cases behind
  | cons line lines ih =>
    rw [linesBehind] at behind
    split_ifs at behind with here
    · obtain rfl := Option.some.inj behind
      exact List.subset_cons_self ..
    · exact List.subset_cons_of_subset line (ih behind)

private theorem ownLine_short {value : List UInt8} (valid : ∀ line ∈ file, line.Valid)
    (told : ownLine keyName file = some value) : value.length < 1023 := by
  induction file with
  | nil => cases told
  | cons line rest ih =>
    obtain ⟨here, others⟩ := List.forall_mem_cons.mp valid
    cases line with
    | header title => cases told
    | blank text => exact ih others told
    | comment text => exact ih others told
    | entry key spaced own =>
      rw [ownLine] at told
      split_ifs at told with same
      · obtain rfl := Option.some.inj told
        exact here.2.2.1
      · exact ih others told

/-- Where nothing else is taken for them, the header and the key's own line are read. -/
theorem reading_own (section' : Identifier sectionName) (name : Identifier keyName) (valid : ∀ line ∈ file, line.Valid)
    (clean : Clean file sectionName keyName) :
    reading (fileText file) sectionName keyName = own file sectionName keyName := by
  rw [reading, region, mention_lines section' clean.header, own]
  cases behind : linesBehind sectionName file with
  | none => rfl
  | some rest =>
    have others : ∀ line ∈ rest, line.Valid := fun line member => valid line (linesBehind_subset behind member)
    have read : setTo keyName (sectionOf (nextLine (10 :: fileText rest))) = ownLine keyName rest :=
      (setTo_emptyRows name (fileText rest)).trans (setTo_lines name others (clean.key rest behind))
    rw [Option.map_some, Option.map_some, Option.bind_some, Option.bind_some, read]
    cases told : ownLine keyName rest with
    | none => rfl
    | some value =>
      have short := ownLine_short others told
      have whole : value.take (1024 - 1) = value := List.take_of_length_le (Nat.le_of_lt short)
      rw [Option.map_some, IniFile.fitted, whole, if_neg (by omega)]

/-- With whatever default they are read, they are told apart. -/
private theorem eq_of_getD {read told : Option (List UInt8)}
    (same : ∀ defaultValue, read.getD defaultValue = told.getD defaultValue) : read = told := by
  have longer (value : List UInt8) : 0 :: value ≠ value := fun equal => by simpa using congrArg List.length equal
  cases read with
  | none =>
    cases told with
    | none => rfl
    | some value => exact absurd (same (0 :: value)) (longer value)
  | some value =>
    cases told with
    | none => exact absurd (same (0 :: value)).symm (longer value)
    | some other => exact congrArg some (same [])

theorem lined_fileText (file : List Line) : Lined (fileText file) := by
  induction file with
  | nil => exact .nil
  | cons line rest ih =>
    rw [fileText_cons]
    exact lined_append line.text rfl ih

/-- The first row with the header in it and, behind it, the first row of the section with the key in front of a `=`
say the same as the key's own line, and are missing if it is. -/
def Undisturbed (file : List Line) (sectionName keyName : List UInt8) : Prop :=
  (((rowsBehind sectionName (rowsOf (fileText file))).bind (firstSetting keyName)).map
    fun value => IniFile.fitted value 1024) = own file sectionName keyName

/-- `ReadString` gives the value of the key's own line, or the default if it has none, just when the lines in front
do not disturb; those in which there is nothing like the header or the key do not. -/
theorem readString_own_iff (valid : ValidFile file) (section' : Identifier sectionName) (name : Identifier keyName)
    (enough : (fileText file).length + 1 < fuel) :
    ((∀ defaultValue, (openFile (some (fileText file))).readString sectionName keyName defaultValue fuel =
        some ((own file sectionName keyName).getD defaultValue)) ↔ Undisturbed file sectionName keyName) ∧
      (Clean file sectionName keyName → Undisturbed file sectionName keyName) := by
  have rows := reading_rows section' name (lined_fileText file)
  refine ⟨⟨fun reads => ?_, fun undisturbed defaultValue => ?_⟩, fun clean => ?_⟩
  · refine rows.symm.trans (eq_of_getD fun defaultValue => ?_)
    exact Option.some.inj ((readString_reading name enough defaultValue).symm.trans (reads defaultValue))
  · rw [readString_reading name enough, rows]
    exact congrArg (fun read => some (read.getD defaultValue)) undisturbed
  · exact rows.symm.trans (reading_own section' name valid.lines clean)

/-- A section with a key in it, looked up in another case. -/
def plainFile : List Line := [.header [97], .blank [], .entry [107] true [50]]

theorem readString_own_plain : (openFile (some (fileText plainFile))).readString [65] [75] [63] 40 =
    some ((own plainFile [65] [75]).getD [63]) := by
  have valid : ValidFile plainFile := ⟨by simp [plainFile, Line.Valid, Identifier]; decide, by decide⟩
  obtain ⟨settled, quiet⟩ :=
    @readString_own_iff [65] [75] plainFile 40 valid ⟨by decide, List.all_eq_true.mp rfl⟩
      ⟨by decide, List.all_eq_true.mp rfl⟩ (by decide)
  refine settled.mpr (quiet ⟨?_, ?_⟩) [63]
  · intro line member
    cases member
  · intro rest behind line member
    obtain rfl := Option.some.inj behind
    obtain rfl : line = .blank [] := List.mem_singleton.mp member
    exact ⟨by simp [Line.text], rfl, rfl⟩

/-- Two keys, of which one is twice the other. -/
def doubledFile : List Line := [.header [97], .entry [107, 107] false [49], .entry [107] false [50]]

/-- The longer key is read: its first half does not match, and the byte in front of the second is not looked at. -/
theorem longer_key_is_read : ValidFile doubledFile ∧ Identifier [97] ∧ Identifier [107] ∧
    own doubledFile [97] [107] = some [50] ∧
    (openFile (some (fileText doubledFile))).readString [97] [107] [] 40 = some [49] := by
  have valid : ValidFile doubledFile := ⟨by simp [doubledFile, Line.Valid, Identifier]; decide, by decide⟩
  exact ⟨valid, ⟨by decide, List.all_eq_true.mp rfl⟩, ⟨by decide, List.all_eq_true.mp rfl⟩, rfl, rfl⟩

/-- A setting that is commented out in front of the key's line is read as well. -/
example : (openFile (some (fileText [.header [97], .comment [59, 32, 107, 32, 61, 32, 53],
    .entry [107] false [50]]))).readString [97] [107] [] 40 = some [53] := rfl

end TeenpattiUserServer.Config
