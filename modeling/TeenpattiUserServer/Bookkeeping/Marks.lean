import TeenpattiUserServer.Bookkeeping.Ledger

/-! Marks on keys: the book marks exactly the keys whose record has a property. -/

namespace Bookkeeping

universe u v w

variable {κ : Type u} {ρ : Type v} {β : Type w} [DecidableEq κ] {marked : β → κ → Prop} {p : ρ → Prop}

/-- A key is marked when a record with the property is stored under it. -/
def Marks (marked : β → κ → Prop) (p : ρ → Prop) (ledger : Ledger κ ρ β) : Prop :=
  ∀ key, marked ledger.book key ↔ ∃ record, ledger.store.lookup key = some record ∧ p record

/-- The edit sets the mark of its key right, and leaves the others. -/
structure Remarks (marked : β → κ → Prop) (p : ρ → Prop) (edit : Edit κ ρ β) : Prop where
  own : ∀ book, (marked book edit.key ↔ ∃ record, edit.old = some record ∧ p record) →
    (marked (edit.note book) edit.key ↔ ∃ record, edit.new = some record ∧ p record)
  others : ∀ book other, other ≠ edit.key → (marked (edit.note book) other ↔ marked book other)

theorem Remarks.keeps {edit : Edit κ ρ β} (remarks : Remarks marked p edit) {ledger : Ledger κ ρ β}
    (fits : edit.Fits ledger) (marks : Marks marked p ledger) : Marks marked p (ledger.apply edit) := by
  intro key
  change marked (edit.note ledger.book) key ↔
    ∃ record, (put ledger.store edit.key edit.new).lookup key = some record ∧ p record
  by_cases same : key = edit.key
  · subst key
    have before := marks edit.key
    rw [fits] at before
    rw [lookup_put]
    exact remarks.own ledger.book before
  · rw [lookup_put_ne _ same, remarks.others ledger.book key same]
    exact marks key

end Bookkeeping
