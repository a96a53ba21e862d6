import Mathlib.Data.List.Basic

/-! Searching a word in a text. An occurrence counts when the symbols around it may stand
there; behind one that does not count the search goes on and does not look in front. What
stands behind an occurrence may send the search on as well. -/

namespace Words

variable {α β : Type}

/-- What is compared of a symbol, which symbols may stand around a word, and which end the text. -/
structure Rules (α : Type) where
  fold : α → α
  front : α → Bool
  behind : α → Bool
  stop : α → Bool

/-- What is made of an occurrence: a result, or so many symbols are passed over. -/
inductive Verdict (β : Type) where
  | found (result : β)
  | goOn (more : Nat)

variable [DecidableEq α] (rules : Rules α) (word : List α) (judge : List α → Verdict β)

namespace Rules

def startsWith (text : List α) : Bool := word.isPrefixOf (text.map rules.fold)

def endsWord : List α → Bool
  | [] => false
  | symbol :: _ => rules.behind symbol

end Rules

/-- The search, with so many symbols to pass over; `free` when an occurrence here would not be
held against what is in front. -/
def scan : Nat → Bool → List α → Option β
  | _, _, [] => none
  | skip + 1, _, _ :: rest => scan skip true rest
  | 0, free, symbol :: rest =>
    if rules.startsWith word (symbol :: rest) then
      if free && rules.endsWord ((symbol :: rest).drop word.length) then
        match judge ((symbol :: rest).drop word.length) with
        | .found result => some result
        | .goOn more => scan (word.length - 1 + more) true rest
      else scan (word.length - 1) true rest
    else if rules.stop symbol then none
    else scan 0 (rules.front symbol) rest

/-- What stands behind the first occurrence that counts. -/
def mention (free : Bool) (text : List α) : Option (List α) := scan rules word .found 0 free text

variable {rules word judge} {free : Bool} {text rest : List α} {symbol mark : α}

@[simp] theorem scan_nil (skip : Nat) : scan rules word judge skip free [] = none := by
  cases skip <;> rfl

theorem startsWith_nil (nonempty : word ≠ []) : rules.startsWith word [] = false := by
  cases word with
  | nil => exact absurd rfl nonempty
  | cons => rfl

/-- Symbols that are passed over are not looked at. -/
theorem scan_skip (skip : Nat) (text : List α) :
    scan rules word judge skip true text = scan rules word judge 0 true (text.drop skip) := by
  induction text generalizing skip with
  | nil => simp
  | cons symbol rest ih =>
    cases skip with
    | zero => rfl
    | succ skip => exact ih skip

theorem scan_stop (apart : rules.startsWith word (symbol :: rest) = false) (stops : rules.stop symbol = true) :
    scan rules word judge 0 free (symbol :: rest) = none := by
  rw [scan, if_neg (by simp [apart]), if_pos stops]

theorem scan_other (apart : rules.startsWith word (symbol :: rest) = false) (goes : rules.stop symbol = false) :
    scan rules word judge 0 free (symbol :: rest) = scan rules word judge 0 (rules.front symbol) rest := by
  rw [scan, if_neg (by simp [apart]), if_neg (by simp [goes])]

theorem scan_refused (nonempty : word ≠ []) (here : rules.startsWith word text = true)
    (refused : free = false ∨ rules.endsWord (text.drop word.length) = false) :
    scan rules word judge 0 free text = scan rules word judge 0 true (text.drop word.length) := by
  cases text with
  | nil => simp [startsWith_nil nonempty] at here
  | cons symbol rest =>
    have refuses : (free && rules.endsWord ((symbol :: rest).drop word.length)) = false := by
      rcases refused with caught | ends
      · simp [caught]
      · simp [ends]
    obtain ⟨length, size⟩ := Nat.exists_eq_succ_of_ne_zero (mt List.length_eq_zero_iff.mp nonempty)
    rw [scan, if_pos here, if_neg (by simp [refuses]), scan_skip, size]
    rfl

theorem scan_here (nonempty : word ≠ []) (here : rules.startsWith word text = true)
    (ends : rules.endsWord (text.drop word.length) = true) :
    scan rules word judge 0 true text =
      match judge (text.drop word.length) with
      | .found result => some result
      | .goOn more => scan rules word judge 0 true ((text.drop word.length).drop more) := by
  cases text with
  | nil => simp [Rules.endsWord] at ends
  | cons symbol rest =>
    obtain ⟨length, size⟩ := Nat.exists_eq_succ_of_ne_zero (mt List.length_eq_zero_iff.mp nonempty)
    rw [scan, if_pos here, if_pos (by simp [ends])]
    cases judge ((symbol :: rest).drop word.length) with
    | found result => rfl
    | goOn more =>
      dsimp only
      rw [scan_skip, List.drop_drop, size]
      congr 1
      rw [show length.succ - 1 + more = length + more from rfl, Nat.succ_add, List.drop_succ_cons]

private theorem shorter (nonempty : word ≠ []) (here : rules.startsWith word text = true) :
    (text.drop word.length).length < text.length := by
  cases text with
  | nil => simp [startsWith_nil nonempty] at here
  | cons symbol rest =>
    have positive := List.length_pos_of_ne_nil nonempty
    rw [List.length_drop, List.length_cons]
    omega

theorem startsWith_length (here : rules.startsWith word text = true) : word.length ≤ text.length := by
  have prefixed := List.isPrefixOf_iff_prefix.mp here
  simpa using prefixed.length_le

variable (rules) in
/-- Induction along a search: it is at an occurrence that counts, or goes on behind another one, or behind a symbol
at which there is none, or ends. -/
@[elab_as_elim]
theorem scan_induction (nonempty : word ≠ []) {motive : Bool → List α → Prop} (nil : ∀ free, motive free [])
    (here : ∀ text, rules.startsWith word text = true → rules.endsWord (text.drop word.length) = true →
      motive true text)
    (refused : ∀ free text, rules.startsWith word text = true →
      (free = false ∨ rules.endsWord (text.drop word.length) = false) → motive true (text.drop word.length) →
      motive free text)
    (stopped : ∀ free symbol rest, rules.startsWith word (symbol :: rest) = false → rules.stop symbol = true →
      motive free (symbol :: rest))
    (other : ∀ free symbol rest, rules.startsWith word (symbol :: rest) = false → rules.stop symbol = false →
      motive (rules.front symbol) rest → motive free (symbol :: rest))
    (free : Bool) (text : List α) : motive free text := by
  induction size : text.length using Nat.strongRecOn generalizing text free with
  | ind length ih =>
    by_cases begins : rules.startsWith word text = true
    · by_cases counts : free = true ∧ rules.endsWord (text.drop word.length) = true
      · obtain ⟨rfl, ends⟩ := counts
        exact here text begins ends
      · rw [not_and_or, Bool.not_eq_true, Bool.not_eq_true] at counts
        exact refused free text begins counts (ih _ (size ▸ shorter nonempty begins) true _ rfl)
    · rw [Bool.not_eq_true] at begins
      cases text with
      | nil => exact nil free
      | cons symbol rest =>
        by_cases stops : rules.stop symbol = true
        · exact stopped free symbol rest begins stops
        · rw [Bool.not_eq_true] at stops
          have less : rest.length < length := by
            rw [← size, List.length_cons]
            exact Nat.lt_succ_self _
          exact other free symbol rest begins stops (ih _ less _ rest rfl)

/-- A search is the search for the first occurrence, its verdict, and the search behind it. -/
theorem scan_eq (nonempty : word ≠ []) (free : Bool) (text : List α) :
    scan rules word judge 0 free text =
      match mention rules word free text with
      | none => none
      | some behind =>
        match judge behind with
        | .found result => some result
        | .goOn more => scan rules word judge 0 true (behind.drop more) := by
  unfold mention
  induction free, text using scan_induction rules nonempty with
  | nil free => simp
  | here text begins ends => rw [scan_here nonempty begins ends, scan_here nonempty begins ends]
  | refused free text begins counts ih =>
    rw [scan_refused nonempty begins counts, scan_refused nonempty begins counts]
    exact ih
  | stopped free symbol rest apart stops => rw [scan_stop apart stops, scan_stop apart stops]
  | other free symbol rest apart goes ih =>
    rw [scan_other apart goes, scan_other apart goes]
    exact ih

/-- What stands behind an occurrence is an end of the text, and may stand behind the word. -/
theorem mention_suffix (nonempty : word ≠ []) {behind : List α} (found : mention rules word free text = some behind) :
    ∃ front, text = front ++ behind ∧ word.length ≤ front.length ∧ rules.endsWord behind = true := by
  unfold mention at found
  induction free, text using scan_induction rules nonempty with
  | nil free => simp at found
  | here text begins ends =>
    rw [scan_here nonempty begins ends] at found
    obtain rfl := Option.some.inj found
    exact ⟨text.take word.length, (List.take_append_drop ..).symm, by simp [startsWith_length begins], ends⟩
  | refused free text begins counts ih =>
    rw [scan_refused nonempty begins counts] at found
    obtain ⟨front, split, long, ends⟩ := ih found
    refine ⟨text.take word.length ++ front, ?_, by simp; omega, ends⟩
    rw [List.append_assoc, ← split, List.take_append_drop]
  | stopped free symbol rest apart stops =>
    rw [scan_stop apart stops] at found
    cases found
  | other free symbol rest apart goes ih =>
    rw [scan_other apart goes] at found
    obtain ⟨front, split, long, ends⟩ := ih found
    exact ⟨symbol :: front, by rw [split, List.cons_append], Nat.le_succ_of_le long, ends⟩

/-- The last symbol of a text is behind its mentions. -/
theorem mention_last (nonempty : word ≠ []) {body behind : List α}
    (found : mention rules word free (body ++ [mark]) = some behind) :
    ∃ inner, inner <:+ body ∧ behind = inner ++ [mark] := by
  obtain ⟨front, split, _, stands⟩ := mention_suffix nonempty found
  rcases List.eq_nil_or_concat behind with rfl | ⟨inner, last, rfl⟩
  · cases stands
  · rw [List.concat_eq_append, ← List.append_assoc] at split
    obtain ⟨rfl, same⟩ := List.append_inj' split rfl
    exact ⟨inner, List.suffix_append .., by rw [same, List.concat_eq_append]⟩

/-- A result is made of what stands behind an occurrence. -/
theorem scan_result (nonempty : word ≠ []) {result : β} (found : scan rules word judge 0 free text = some result) :
    ∃ front behind, text = front ++ behind ∧ judge behind = .found result := by
  induction size : text.length using Nat.strongRecOn generalizing text free with
  | ind length ih =>
    rw [scan_eq nonempty] at found
    cases first : mention rules word free text with
    | none =>
      rw [first] at found
      cases found
    | some behind =>
      obtain ⟨front, rfl, long, _⟩ := mention_suffix nonempty first
      have positive := List.length_pos_of_ne_nil nonempty
      rw [List.length_append] at size
      rw [first] at found
      dsimp only at found
      cases verdict : judge behind with
      | found made =>
        rw [verdict] at found
        obtain rfl := Option.some.inj found
        exact ⟨front, behind, rfl, verdict⟩
      | goOn more =>
        rw [verdict] at found
        obtain ⟨later, rest, split, made⟩ := ih _ (by rw [List.length_drop]; omega) found rfl
        refine ⟨front ++ (behind.take more ++ later), rest, ?_, made⟩
        rw [List.append_assoc, List.append_assoc, ← split, List.take_append_drop]

/-- A mark that is no symbol of the word bounds its occurrences. -/
theorem startsWith_mark (apart : rules.fold mark ∉ word) (body rest : List α) :
    rules.startsWith word (body ++ mark :: rest) = rules.startsWith word body := by
  unfold Rules.startsWith
  induction word generalizing body with
  | nil => simp
  | cons first word ih =>
    obtain ⟨different, others⟩ := List.ne_and_not_mem_of_not_mem_cons apart
    cases body with
    | nil => simp [List.isPrefixOf, Ne.symm different]
    | cons symbol body =>
      have same := ih others body
      simp only [List.cons_append, List.map_cons, List.isPrefixOf, same]

/-- A verdict on what stands in front of the mark, whatever is behind it. -/
structure Near (judge : List α → Verdict β) (mark : α) : Prop where
  goOn : ∀ body more, judge (body ++ [mark]) = .goOn more →
    more ≤ body.length ∧ ∀ rest, judge (body ++ mark :: rest) = .goOn more
  found : ∀ body result, judge (body ++ [mark]) = .found result → ∀ rest, judge (body ++ mark :: rest) = .found result

omit [DecidableEq α] in
private theorem endsWord_mark (body rest : List α) :
    rules.endsWord (body ++ mark :: rest) = rules.endsWord (body ++ [mark]) := by
  cases body <;> rfl

/-- How a search in a line begins: with an occurrence that counts, or with less of the line to search. -/
private theorem line_cases (nonempty : word ≠ []) (apart : rules.fold mark ∉ word) (goes : rules.stop mark = false)
    {body : List α} (unstopped : ∀ symbol ∈ body, rules.stop symbol = false) :
    (body = [] ∧
        ∀ rest, scan rules word judge 0 free (mark :: rest) = scan rules word judge 0 (rules.front mark) rest) ∨
      ∃ front back, body = front ++ back ∧ front ≠ [] ∧
        ((∀ rest, scan rules word judge 0 free (body ++ mark :: rest) =
            match judge (back ++ mark :: rest) with
            | .found result => some result
            | .goOn more => scan rules word judge 0 true ((back ++ mark :: rest).drop more)) ∨
          ∃ further, ∀ rest, scan rules word judge 0 free (body ++ mark :: rest) =
            scan rules word judge 0 further (back ++ mark :: rest)) := by
  have begins (rest : List α) : rules.startsWith word (body ++ mark :: rest) = rules.startsWith word body :=
    startsWith_mark apart body rest
  by_cases here : rules.startsWith word body = true
  · have cut (rest : List α) : (body ++ mark :: rest).drop word.length = body.drop word.length ++ mark :: rest :=
      List.drop_append_of_le_length (startsWith_length here)
    have taken : body.take word.length ≠ [] := by
      have positive := List.length_pos_of_ne_nil nonempty
      have long := startsWith_length here
      rw [← List.length_pos_iff, List.length_take]
      omega
    refine .inr ⟨_, _, (List.take_append_drop word.length body).symm, taken, ?_⟩
    have ends (rest : List α) : rules.endsWord ((body ++ mark :: rest).drop word.length) =
        rules.endsWord (body.drop word.length ++ [mark]) := by
      rw [cut]
      exact endsWord_mark ..
    by_cases counts : free = true ∧ rules.endsWord (body.drop word.length ++ [mark]) = true
    · obtain ⟨rfl, right⟩ := counts
      refine .inl fun rest => ?_
      rw [scan_here nonempty ((begins rest).trans here) ((ends rest).trans right), cut]
    · rw [not_and_or, Bool.not_eq_true, Bool.not_eq_true] at counts
      refine .inr ⟨true, fun rest => ?_⟩
      rw [scan_refused nonempty ((begins rest).trans here) (counts.imp_right (ends rest).trans), cut]
  · rw [Bool.not_eq_true] at here
    cases body with
    | nil => exact .inl ⟨rfl, fun rest => scan_other ((begins rest).trans here) goes⟩
    | cons symbol body =>
      refine .inr ⟨[symbol], body, rfl, by simp, .inr ⟨rules.front symbol, fun rest => ?_⟩⟩
      exact scan_other ((begins rest).trans here) (unstopped symbol List.mem_cons_self)

/-- A line has a result in it, or is passed over when its end may stand in front of a word. -/
theorem scan_line (free : Bool) (nonempty : word ≠ []) (apart : rules.fold mark ∉ word)
    (opens : rules.front mark = true) (goes : rules.stop mark = false) (near : Near judge mark) {body : List α}
    (unstopped : ∀ symbol ∈ body, rules.stop symbol = false) :
    (∃ result, ∀ rest, scan rules word judge 0 free (body ++ mark :: rest) = some result) ∨
      ∀ rest, scan rules word judge 0 free (body ++ mark :: rest) = scan rules word judge 0 true rest := by
  induction size : body.length using Nat.strongRecOn generalizing body free with
  | ind length ih =>
    rcases line_cases nonempty apart goes unstopped with ⟨rfl, at_mark⟩ | ⟨front, back, rfl, some', either⟩
    · refine .inr fun rest => ?_
      rw [List.nil_append, at_mark, opens]
    · have positive := List.length_pos_of_ne_nil some'
      rw [List.length_append] at size
      have others {count : Nat} : ∀ symbol ∈ back.drop count, rules.stop symbol = false := fun symbol member =>
        unstopped symbol (List.mem_append_right _ (List.mem_of_mem_drop member))
      rcases either with counts | ⟨further, passed⟩
      · cases verdict : judge (back ++ [mark]) with
        | found result =>
          refine .inl ⟨result, fun rest => ?_⟩
          rw [counts, near.found back result verdict]
        | goOn more =>
          obtain ⟨inside, same⟩ := near.goOn back more verdict
          have cut (rest : List α) : scan rules word judge 0 free (front ++ back ++ mark :: rest) =
              scan rules word judge 0 true (back.drop more ++ mark :: rest) := by
            rw [counts, same, ← List.drop_append_of_le_length inside]
          simp only [cut]
          exact ih _ (by rw [List.length_drop]; omega) true others rfl
      · simp only [passed]
        exact ih _ (by omega) further (fun symbol member => unstopped symbol (List.mem_append_right _ member)) rfl

/-- A line has a mention in it, or is passed over. -/
theorem mention_line (free : Bool) (nonempty : word ≠ []) (apart : rules.fold mark ∉ word)
    (opens : rules.front mark = true) (goes : rules.stop mark = false) {body : List α}
    (unstopped : ∀ symbol ∈ body, rules.stop symbol = false) :
    (∃ behind, behind <:+ body ∧
        ∀ rest, mention rules word free (body ++ mark :: rest) = some (behind ++ mark :: rest)) ∨
      ∀ rest, mention rules word free (body ++ mark :: rest) = mention rules word true rest := by
  unfold mention
  induction size : body.length using Nat.strongRecOn generalizing body free with
  | ind length ih =>
    rcases line_cases nonempty apart goes unstopped with ⟨rfl, at_mark⟩ | ⟨front, back, rfl, some', either⟩
    · refine .inr fun rest => ?_
      rw [List.nil_append, at_mark, opens]
    · have positive := List.length_pos_of_ne_nil some'
      rw [List.length_append] at size
      rcases either with counts | ⟨further, passed⟩
      · exact .inl ⟨back, List.suffix_append .., counts⟩
      · simp only [passed]
        have others : ∀ symbol ∈ back, rules.stop symbol = false := fun symbol member =>
          unstopped symbol (List.mem_append_right _ member)
        refine (ih _ (by omega) further others rfl).imp_left fun ⟨behind, suffix, found⟩ => ?_
        exact ⟨behind, suffix.trans (List.suffix_append ..), found⟩

/-- Behind a symbol that ends the text nothing is found. -/
theorem mention_stopped (nonempty : word ≠ []) (apart : rules.fold mark ∉ word) (stops : rules.stop mark = true)
    (front back rest : List α) : mention rules word free (front ++ mark :: back ++ rest) =
      (mention rules word free (front ++ mark :: back)).map (· ++ rest) := by
  unfold mention
  induction size : front.length using Nat.strongRecOn generalizing front free with
  | ind length ih =>
    have begins (back : List α) : rules.startsWith word (front ++ mark :: back) = rules.startsWith word front :=
      startsWith_mark apart front back
    rw [List.append_assoc, List.cons_append]
    by_cases here : rules.startsWith word front = true
    · have cut (back : List α) : (front ++ mark :: back).drop word.length = front.drop word.length ++ mark :: back :=
        List.drop_append_of_le_length (startsWith_length here)
      have ends (back : List α) : rules.endsWord ((front ++ mark :: back).drop word.length) =
          rules.endsWord (front.drop word.length ++ [mark]) := by
        rw [cut]
        exact endsWord_mark ..
      by_cases counts : free = true ∧ rules.endsWord (front.drop word.length ++ [mark]) = true
      · obtain ⟨rfl, right⟩ := counts
        rw [scan_here nonempty ((begins _).trans here) ((ends _).trans right),
          scan_here nonempty ((begins _).trans here) ((ends _).trans right), cut, cut, Option.map_some,
          List.append_assoc, List.cons_append]
      · rw [not_and_or, Bool.not_eq_true, Bool.not_eq_true] at counts
        rw [scan_refused nonempty ((begins _).trans here) (counts.imp_right (ends _).trans),
          scan_refused nonempty ((begins _).trans here) (counts.imp_right (ends _).trans), cut, cut]
        have again := @ih _ (size ▸ shorter nonempty here) true (front.drop word.length) rfl
        rwa [List.append_assoc, List.cons_append] at again
    · rw [Bool.not_eq_true] at here
      cases front with
      | nil => rw [List.nil_append, List.nil_append, scan_stop ((begins _).trans here) stops,
          scan_stop ((begins _).trans here) stops, Option.map_none]
      | cons symbol front =>
        have other (back : List α) : rules.startsWith word (symbol :: (front ++ mark :: back)) = false :=
          (begins back).trans here
        rw [List.cons_append, List.cons_append]
        by_cases last : rules.stop symbol = true
        · rw [scan_stop (other _) last, scan_stop (other _) last, Option.map_none]
        · rw [Bool.not_eq_true] at last
          rw [scan_other (other _) last, scan_other (other _) last]
          have shorter : front.length < length := by rw [← size, List.length_cons]; exact Nat.lt_succ_self _
          have again := @ih _ shorter (rules.front symbol) front rfl
          rwa [List.append_assoc, List.cons_append] at again

/-- A search in the front of a text, up to a symbol that is neither in the word nor may stand behind it:
it finds what a search in the whole text finds there, and the latter finds nothing else there. -/
theorem mention_front (nonempty : word ≠ []) (apart : rules.fold mark ∉ word) (closed : rules.behind mark = false)
    {front : List α} (unstopped : ∀ symbol ∈ front, rules.stop symbol = false) :
    (∀ behind, mention rules word free front = some behind →
      mention rules word free (front ++ mark :: rest) = some (behind ++ mark :: rest)) ∧
      (mention rules word free front = none →
        ∀ behind, mention rules word free (front ++ mark :: rest) = some behind → behind.length ≤ rest.length) := by
  have begins (front : List α) : rules.startsWith word (front ++ mark :: rest) = rules.startsWith word front :=
    startsWith_mark apart front rest
  have cut {front : List α} (here : rules.startsWith word front = true) :
      (front ++ mark :: rest).drop word.length = front.drop word.length ++ mark :: rest :=
    List.drop_append_of_le_length (startsWith_length here)
  have ends {front : List α} (here : rules.startsWith word front = true) :
      rules.endsWord ((front ++ mark :: rest).drop word.length) = rules.endsWord (front.drop word.length) := by
    rw [cut here]
    cases front.drop word.length with
    | nil => exact closed
    | cons => rfl
  unfold mention
  induction free, front using scan_induction rules nonempty with
  | nil free =>
    refine ⟨fun behind found => by simp at found, fun _ behind found => ?_⟩
    obtain ⟨before, split, bound, _⟩ := mention_suffix nonempty found
    have positive := List.length_pos_of_ne_nil nonempty
    have lengths := congrArg List.length split
    rw [List.nil_append, List.length_append, List.length_cons] at lengths
    omega
  | here front here right =>
    rw [scan_here nonempty here right, scan_here nonempty ((begins front).trans here) ((ends here).trans right),
      cut here]
    refine ⟨fun behind found => ?_, fun none => by cases none⟩
    rw [Option.some.inj found]
  | refused free front here counts ih =>
    rw [scan_refused nonempty here counts,
      scan_refused nonempty ((begins front).trans here) (counts.imp_right (ends here).trans), cut here]
    exact ih fun symbol member => unstopped symbol (List.mem_of_mem_drop member)
  | stopped free symbol body other stops =>
    rw [unstopped symbol List.mem_cons_self] at stops
    cases stops
  | other free symbol body other goes ih =>
    have whole : rules.startsWith word (symbol :: (body ++ mark :: rest)) = false :=
      (begins (symbol :: body)).trans other
    rw [scan_other other goes, List.cons_append, scan_other whole goes]
    exact ih fun next member => unstopped next (List.mem_cons_of_mem _ member)

end Words
