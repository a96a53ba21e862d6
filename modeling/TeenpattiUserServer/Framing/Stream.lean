import Mathlib.Data.List.Basic
import Mathlib.Data.List.Infix

/-! Cutting a byte stream into frames. A decoder looks at what has arrived and
says whether it starts with a frame; the stream may arrive in any pieces. -/

namespace Framing

universe u

variable {α : Type u}

/-- What a decoder says about the front of a buffer. -/
inductive Verdict where
  | bad
  | more
  | frame (len : Nat)

/-- Frames taken from a buffer, what is left of it, and whether it turned out bad. -/
structure Outcome (α : Type u) where
  frames : List (List α)
  rest : List α
  failed : Bool

/-- Take frames from the front of a buffer until the decoder stops. -/
def drain (parse : List α → Verdict) : Nat → List α → Outcome α
  | 0, buffer => ⟨[], buffer, false⟩
  | _ + 1, [] => ⟨[], [], false⟩
  | fuel + 1, item :: items =>
    match parse (item :: items) with
    | .bad => ⟨[], item :: items, true⟩
    | .more => ⟨[], item :: items, false⟩
    | .frame len =>
      let later := drain parse fuel ((item :: items).drop len)
      ⟨(item :: items).take len :: later.frames, later.rest, later.failed⟩

/-- The decoder recognises the frame whatever follows it, and waits while it is incomplete. -/
structure Recognised (parse : List α → Verdict) (frame : List α) : Prop where
  nonempty : frame ≠ []
  complete : ∀ rest, parse (frame ++ rest) = .frame frame.length
  partially : ∀ front, front ≠ [] → front <+: frame → front ≠ frame → parse front = .more

/-- `delivered` are the first frames, and `pending` is a proper part of the next
one, or empty after the last. -/
structure Progress (frames : List (List α)) (received : List α) (delivered : List (List α))
    (pending : List α) : Prop where
  bytes : received = delivered.flatten ++ pending
  next : ∃ later, frames = delivered ++ later ∧
    (pending = [] ∨ ∃ frame rest, later = frame :: rest ∧ pending <+: frame ∧ pending ≠ frame)

private theorem drain_nil (parse : List α → Verdict) (fuel : Nat) : drain parse fuel [] = ⟨[], [], false⟩ := by
  cases fuel <;> rfl

/-- Draining the front of a stream of frames takes the complete ones. -/
theorem drain_frames {parse : List α → Verdict} {frames : List (List α)} {buffer : List α} {fuel : Nat}
    (recognised : ∀ frame ∈ frames, Recognised parse frame) (front : buffer <+: frames.flatten)
    (enough : buffer.length ≤ fuel) :
    ∃ done rest, drain parse fuel buffer = ⟨done, rest, false⟩ ∧ Progress frames buffer done rest := by
  induction frames generalizing buffer fuel with
  | nil =>
    have empty : buffer = [] := by simpa using front
    subst buffer
    exact ⟨[], [], drain_nil parse fuel, ⟨rfl, [], rfl, .inl rfl⟩⟩
  | cons frame frames ih =>
    have known := recognised frame (by simp)
    have cases : frame <+: buffer ∨ (buffer <+: frame ∧ buffer ≠ frame) := by
      rcases List.prefix_or_prefix_of_prefix front (List.prefix_append frame frames.flatten) with short | long
      · by_cases same : buffer = frame
        · exact .inl (same ▸ List.prefix_rfl)
        · exact .inr ⟨short, same⟩
      · exact .inl long
    rcases cases with ⟨later, rfl⟩ | ⟨short, different⟩
    · have tail : later <+: frames.flatten := by
        simpa [List.prefix_append_right_inj] using front
      have size := List.length_pos_iff.mpr known.nonempty
      have bound : later.length ≤ fuel - 1 := by
        simp only [List.length_append] at enough
        omega
      obtain ⟨done, rest, drained, progress⟩ := ih (fun next member => recognised next (by simp [member])) tail bound
      obtain ⟨remaining, split, pending⟩ := progress.next
      refine ⟨frame :: done, rest, ?_, ⟨by simp [progress.bytes], remaining, by simp [split], pending⟩⟩
      obtain ⟨fuel, rfl⟩ : ∃ smaller, fuel = smaller + 1 :=
        ⟨fuel - 1, by simp only [List.length_append] at enough; omega⟩
      obtain ⟨item, items, shape⟩ := List.exists_cons_of_ne_nil
        (List.append_ne_nil_of_left_ne_nil known.nonempty later)
      have verdict := known.complete later
      have taken : (frame ++ later).take frame.length = frame := List.take_left' rfl
      have dropped : (frame ++ later).drop frame.length = later := List.drop_left' rfl
      rw [shape] at verdict taken dropped ⊢
      simp only [drain, verdict, taken, dropped]
      simp only [Nat.add_sub_cancel] at drained
      rw [drained]
    · by_cases empty : buffer = []
      · subst buffer
        exact ⟨[], [], drain_nil parse fuel, ⟨rfl, frame :: frames, rfl, .inl rfl⟩⟩
      · have verdict := known.partially buffer empty short different
        obtain ⟨item, items, rfl⟩ := List.exists_cons_of_ne_nil empty
        obtain ⟨fuel, rfl⟩ : ∃ smaller, fuel = smaller + 1 :=
          ⟨fuel - 1, by simp only [List.length_cons] at enough; omega⟩
        exact ⟨[], item :: items, by simp [drain, verdict],
          ⟨rfl, frame :: frames, rfl, .inr ⟨frame, frames, rfl, short, different⟩⟩⟩

/-- A verdict other than waiting does not change when more arrives, and a frame lies in the buffer. -/
structure Settled (parse : List α → Verdict) : Prop where
  kept : ∀ front later, parse front ≠ .more → parse (front ++ later) = parse front
  inside : ∀ buffer len, parse buffer = .frame len → 0 < len ∧ len ≤ buffer.length

/-- What draining the whole buffer leaves. -/
def whole (parse : List α → Verdict) (buffer : List α) : Outcome α := drain parse buffer.length buffer

@[simp] theorem whole_nil (parse : List α → Verdict) : whole parse [] = ⟨[], [], false⟩ := rfl

namespace Settled

variable {parse : List α → Verdict}

/-- Fuel for the length of the buffer is enough. -/
theorem drain_whole (settled : Settled parse) {fuel : Nat} {buffer : List α} (enough : buffer.length ≤ fuel) :
    drain parse fuel buffer = whole parse buffer := by
  suffices same : ∀ n m (items : List α), items.length ≤ n → items.length ≤ m →
      drain parse n items = drain parse m items from same _ _ buffer enough (Nat.le_refl _)
  intro n
  induction n with
  | zero =>
    intro m items short _
    have empty : items = [] := List.length_eq_zero_iff.mp (by omega)
    subst items
    rw [drain_nil, drain_nil]
  | succ n ih =>
    intro m items short enough
    cases items with
    | nil => rw [drain_nil, drain_nil]
    | cons item items =>
      obtain ⟨m, rfl⟩ : ∃ smaller, m = smaller + 1 :=
        ⟨m - 1, by simp only [List.length_cons] at enough; omega⟩
      cases verdict : parse (item :: items) with
      | bad => simp only [drain, verdict]
      | more => simp only [drain, verdict]
      | frame len =>
        have inside := settled.inside _ len verdict
        have shorter : ((item :: items).drop len).length < (item :: items).length := by
          rw [List.length_drop]
          omega
        simp only [drain, verdict]
        rw [ih m _ (by omega) (by omega)]

private theorem whole_cons (settled : Settled parse) {buffer : List α} (nonempty : buffer ≠ []) :
    whole parse buffer = match parse buffer with
      | .bad => ⟨[], buffer, true⟩
      | .more => ⟨[], buffer, false⟩
      | .frame len => ⟨buffer.take len :: (whole parse (buffer.drop len)).frames,
          (whole parse (buffer.drop len)).rest, (whole parse (buffer.drop len)).failed⟩ := by
  obtain ⟨item, items, rfl⟩ := List.exists_cons_of_ne_nil nonempty
  cases verdict : parse (item :: items) with
  | bad => simp only [whole, List.length_cons, drain, verdict]
  | more => simp only [whole, List.length_cons, drain, verdict]
  | frame len =>
    have inside := settled.inside _ len verdict
    have shorter : ((item :: items).drop len).length ≤ items.length := by
      rw [List.length_drop, List.length_cons]
      omega
    rw [whole, List.length_cons, drain, verdict]
    simp only [settled.drain_whole shorter]

/-- A complete frame in front is taken. -/
theorem whole_frame (settled : Settled parse) {buffer : List α} {len : Nat} (front : parse buffer = .frame len) :
    whole parse buffer = ⟨buffer.take len :: (whole parse (buffer.drop len)).frames,
      (whole parse (buffer.drop len)).rest, (whole parse (buffer.drop len)).failed⟩ := by
  have nonempty : buffer ≠ [] := by
    rintro rfl
    have inside := settled.inside [] len front
    simp only [List.length_nil] at inside
    omega
  rw [settled.whole_cons nonempty, front]

/-- Draining a buffer and then what follows it is draining both at once. -/
theorem whole_append (settled : Settled parse) (front later : List α) :
    whole parse (front ++ later) =
      if (whole parse front).failed then ⟨(whole parse front).frames, (whole parse front).rest ++ later, true⟩
      else
        let next := whole parse ((whole parse front).rest ++ later)
        ⟨(whole parse front).frames ++ next.frames, next.rest, next.failed⟩ := by
  induction size : front.length using Nat.strong_induction_on generalizing front with
  | _ size ih =>
    subst size
    by_cases empty : front = []
    · subst front
      simp
    have longer : front ++ later ≠ [] := List.append_ne_nil_of_left_ne_nil empty later
    cases verdict : parse front with
    | bad =>
      have same := settled.kept front later (by simp [verdict])
      rw [settled.whole_cons empty, settled.whole_cons longer, same, verdict]
      simp
    | more =>
      have waits : whole parse front = ⟨[], front, false⟩ := by rw [settled.whole_cons empty, verdict]
      simp [waits]
    | frame len =>
      have same := settled.kept front later (by simp [verdict])
      obtain ⟨positive, inside⟩ := settled.inside _ len verdict
      have shorter : (front.drop len).length < front.length := by
        rw [List.length_drop]
        omega
      have next := ih _ shorter (front.drop len) rfl
      rw [settled.whole_cons longer, same, verdict]
      simp only [List.drop_append_of_le_length inside, List.take_append_of_le_length inside, next]
      rw [settled.whole_cons empty, verdict]
      by_cases failed : (whole parse (front.drop len)).failed <;> simp [failed]

/-- What is kept after a drain that did not fail is empty, or waits for more. -/
theorem whole_rest (settled : Settled parse) {buffer : List α} (fine : (whole parse buffer).failed = false) :
    (whole parse buffer).rest = [] ∨ parse (whole parse buffer).rest = .more := by
  induction size : buffer.length using Nat.strong_induction_on generalizing buffer with
  | _ size ih =>
    subst size
    by_cases empty : buffer = []
    · exact .inl (by simp [empty])
    cases verdict : parse buffer with
    | bad =>
      rw [settled.whole_cons empty, verdict] at fine
      simp at fine
    | more =>
      rw [settled.whole_cons empty, verdict]
      exact .inr verdict
    | frame len =>
      obtain ⟨positive, inside⟩ := settled.inside _ len verdict
      have shorter : (buffer.drop len).length < buffer.length := by
        rw [List.length_drop]
        omega
      rw [settled.whole_cons empty, verdict] at fine ⊢
      exact ih _ shorter fine rfl

end Settled

namespace Progress

variable {frames : List (List α)} {received pending : List α} {delivered : List (List α)}

theorem start (frames : List (List α)) : Progress frames [] [] [] := ⟨rfl, frames, rfl, .inl rfl⟩

/-- One more piece of the stream carries the progress on. -/
theorem feed {parse : List α → Verdict} (progress : Progress frames received delivered pending)
    (recognised : ∀ frame ∈ frames, Recognised parse frame) {piece : List α}
    (front : received ++ piece <+: frames.flatten) {fuel : Nat} (enough : (pending ++ piece).length ≤ fuel) :
    ∃ done rest, drain parse fuel (pending ++ piece) = ⟨done, rest, false⟩ ∧
      Progress frames (received ++ piece) (delivered ++ done) rest := by
  obtain ⟨later, rfl, _⟩ := progress.next
  have tail : pending ++ piece <+: later.flatten := by
    rw [progress.bytes, List.append_assoc, List.flatten_append] at front
    exact (List.prefix_append_right_inj _).mp front
  obtain ⟨done, rest, drained, more⟩ :=
    drain_frames (fun frame member => recognised frame (by simp [member])) tail enough
  obtain ⟨remaining, split, next⟩ := more.next
  refine ⟨done, rest, drained, ⟨?_, remaining, by simp [split], next⟩⟩
  rw [progress.bytes, List.append_assoc, more.bytes, List.flatten_append, List.append_assoc]

/-- What is pending is shorter than the longest frame. -/
theorem pending_length (progress : Progress frames received delivered pending) {bound : Nat}
    (positive : 0 < bound) (small : ∀ frame ∈ frames, frame.length < bound) : pending.length < bound := by
  obtain ⟨later, rfl, next⟩ := progress.next
  rcases next with rfl | ⟨frame, rest, rfl, short, _⟩
  · exact positive
  · exact Nat.lt_of_le_of_lt short.length_le (small frame (by simp))

/-- When the whole stream has arrived, all frames have been delivered. -/
theorem finish (progress : Progress frames frames.flatten delivered pending)
    (nonempty : ∀ frame ∈ frames, frame ≠ []) : delivered = frames ∧ pending = [] := by
  obtain ⟨later, rfl, next⟩ := progress.next
  have left : later.flatten = pending := by
    have bytes := progress.bytes
    rw [List.flatten_append] at bytes
    exact List.append_cancel_left bytes
  rcases next with rfl | ⟨frame, rest, rfl, short, different⟩
  · cases later with
    | nil => simp
    | cons frame rest =>
      have empty : frame = [] := by
        simp only [List.flatten_cons, List.append_eq_nil_iff] at left
        exact left.1
      exact absurd empty (nonempty frame (by simp))
  · have length := short.length_le
    have whole := congrArg List.length left
    simp only [List.flatten_cons, List.length_append] at whole
    have equal := short.eq_of_length (by omega)
    exact absurd equal different

end Progress

end Framing
