import TeenpattiUserServer.Bookkeeping.Ledger
import TeenpattiUserServer.Bookkeeping.Runs

/-! What can be seen of a machine through one key: the run of the machine is a path
of what is seen, and inputs that do not concern the key can be left out. -/

namespace Bookkeeping

universe u v w x

/-- A path of moves, one for each input. -/
inductive Path {ι : Type u} {α : Type v} (moves : ι → α → α → Prop) : List ι → α → α → Prop
  | done (view : α) : Path moves [] view view
  | step {input inputs view next last} (moved : moves input view next) (path : Path moves inputs next last) :
      Path moves (input :: inputs) view last

namespace Path

variable {ι : Type u} {α : Type v} {σ : Type w} {moves : ι → α → α → Prop} {view last : α} {inputs : List ι}

/-- Inputs that move nothing can be left out. -/
theorem filter {concerns : ι → Bool} (still : ∀ {input view next}, concerns input = false → moves input view next → next = view)
    (path : Path moves inputs view last) : Path moves (inputs.filter concerns) view last := by
  induction path with
  | done view => exact .done view
  | @step input inputs view next last moved path ih =>
    cases concerned : concerns input with
    | true =>
      rw [List.filter_cons_of_pos concerned]
      exact .step moved ih
    | false =>
      rw [List.filter_cons_of_neg (by simp [concerned])]
      exact still concerned moved ▸ ih

/-- The run of a machine, seen through a view that each lawful step moves. -/
theorem of_run {step : ι → σ → Option σ} {inv : σ → Prop} {lawful : σ → ι → Prop} {state after : σ} (seen : σ → α)
    (ran : run step inputs state = some after)
    (keeps : ∀ {state input after}, inv state → step input state = some after → inv after)
    (each : ∀ {state input after}, inv state → lawful state input → step input state = some after →
      moves input (seen state) (seen after))
    (holds : inv state) (legal : AtEachStep step inputs state fun _ input before _ => lawful before input) :
    Path moves inputs (seen state) (seen after) := by
  induction inputs generalizing state with
  | nil =>
    obtain rfl := Option.some.inj ran
    exact .done _
  | cons input inputs ih =>
    obtain ⟨middle, stepped, rest⟩ := Option.bind_eq_some_iff.mp ran
    obtain ⟨first, others⟩ := (atEachStep_cons stepped).mp legal
    exact .step (each holds first stepped) (ih rest (keeps holds stepped) others)

end Path

variable {κ : Type u} {ρ : Type v} {β : Type w} {μ : Type x} [DecidableEq κ] {mark : β → κ → μ}

/-- What the ledger has about a key: the record, and what the book says. -/
def entry (mark : β → κ → μ) (ledger : Ledger κ ρ β) (key : κ) : Option ρ × μ :=
  (ledger.store.lookup key, mark ledger.book key)

/-- What the note of an edit does to the mark of its key; it does nothing to the others. -/
structure Marked (mark : β → κ → μ) (edit : Edit κ ρ β) (remark : μ → μ) : Prop where
  own : ∀ book, mark (edit.note book) edit.key = remark (mark book edit.key)
  others : ∀ book other, other ≠ edit.key → mark (edit.note book) other = mark book other

variable {edit : Edit κ ρ β} {edits : List (Edit κ ρ β)} {before after : Ledger κ ρ β} {remark : μ → μ}

theorem Marked.entry_own (marked : Marked mark edit remark) (ledger : Ledger κ ρ β) :
    entry mark (ledger.apply edit) edit.key = (edit.new, remark (mark ledger.book edit.key)) :=
  Prod.ext (lookup_put ..) (marked.own ledger.book)

theorem Marked.entry_other (marked : Marked mark edit remark) (ledger : Ledger κ ρ β) {key : κ}
    (different : key ≠ edit.key) : entry mark (ledger.apply edit) key = entry mark ledger key :=
  Prod.ext (lookup_put_ne _ different _) (marked.others ledger.book key different)

namespace Follows

/-- Edits of other keys do not touch an entry. -/
theorem entry_other (follows : Follows before edits after) (each : ∀ edit ∈ edits, ∃ remark, Marked mark edit remark)
    {key : κ} (apart : ∀ edit ∈ edits, edit.key ≠ key) : entry mark after key = entry mark before key := by
  induction edits generalizing before with
  | nil => rw [follows.result, List.foldl_nil]
  | cons edit edits ih =>
    obtain ⟨remark, marked⟩ := each edit (by simp)
    rw [ih follows.tail (fun other member => each other (by simp [member])) fun other member => apart other (by simp [member])]
    exact marked.entry_other before (apart edit (by simp)).symm

/-- An edited entry is what its own edit makes of it. -/
theorem entry_edited (follows : Follows before edits after) (each : ∀ edit ∈ edits, ∃ remark, Marked mark edit remark)
    (member : edit ∈ edits) (marked : Marked mark edit remark) :
    entry mark after edit.key = (edit.new, remark (mark before.book edit.key)) := by
  induction edits generalizing before with
  | nil => simp at member
  | cons first edits ih =>
    have others : ∀ other ∈ edits, ∃ remark, Marked mark other remark := fun other member => each other (by simp [member])
    obtain ⟨apart, _⟩ := List.nodup_cons.mp follows.distinct
    rcases List.mem_cons.mp member with rfl | inside
    · have rest := follows.tail.entry_other others fun other inside same =>
        apart (List.mem_map.mpr ⟨other, inside, same⟩)
      rw [rest, marked.entry_own]
    · obtain ⟨_, firstMarked⟩ := each first (by simp)
      have different : edit.key ≠ first.key := fun same => apart (List.mem_map.mpr ⟨edit, inside, same⟩)
      rw [ih follows.tail others inside]
      exact congrArg (fun old => (edit.new, remark old)) (firstMarked.others before.book edit.key different)

end Follows

end Bookkeeping
