import Mathlib.Algebra.BigOperators.Group.Multiset.Basic
import Mathlib.Algebra.Ring.Nat
import Mathlib.Data.Finmap

/-! A keyed store with a book kept beside it. An edit changes the record of one
key and notes the change in the book; counters that note every change agree with
the store, whatever the order of the edits. -/

namespace Bookkeeping

universe u v w

variable {κ : Type u} {ρ : Type v} {β : Type w} [DecidableEq κ]

abbrev Store (κ : Type u) (ρ : Type v) := Finmap fun _ : κ => ρ

/-- Store a record under a key, or remove the key. -/
def put (store : Store κ ρ) (key : κ) : Option ρ → Store κ ρ
  | some record => store.insert key record
  | none => store.erase key

/-- What the entries are worth together. -/
def total (worth : κ → ρ → Nat) (store : Store κ ρ) : Nat :=
  (store.entries.map fun entry => worth entry.1 entry.2).sum

/-- The number of records with a property. -/
def tally (p : ρ → Bool) (store : Store κ ρ) : Nat := store.entries.countP fun entry => p entry.2

/-- One when there is a record with the property. -/
def hit (p : ρ → Bool) (record : Option ρ) : Nat := if record.any p then 1 else 0

@[simp] theorem hit_none (p : ρ → Bool) : hit p none = 0 := rfl

@[simp] theorem hit_some (p : ρ → Bool) (record : ρ) : hit p (some record) = if p record then 1 else 0 := rfl

@[simp] theorem lookup_put (store : Store κ ρ) (key : κ) (record : Option ρ) :
    (put store key record).lookup key = record := by
  cases record <;> simp [put]

theorem lookup_put_ne (store : Store κ ρ) {key other : κ} (different : other ≠ key) (record : Option ρ) :
    (put store key record).lookup other = store.lookup other := by
  cases record with
  | none => exact Finmap.lookup_erase_ne different
  | some record => exact Finmap.lookup_insert_of_ne store different

theorem lookup_put_eq (store : Store κ ρ) (key other : κ) (record : Option ρ) :
    (put store key record).lookup other = if other = key then record else store.lookup other := by
  by_cases same : other = key
  · rw [same, lookup_put, if_pos rfl]
  · rw [lookup_put_ne store same, if_neg same]

theorem put_same (store : Store κ ρ) {key : κ} {record : Option ρ} (known : store.lookup key = record) :
    put store key record = store := by
  refine Finmap.ext_lookup fun other => ?_
  rw [lookup_put_eq]
  split
  · rename_i same
    rw [same, known]
  · rfl

/-- What the entry of a key is worth, if there is one. -/
def share (worth : κ → ρ → Nat) (key : κ) (record : Option ρ) : Nat := record.elim 0 (worth key)

omit [DecidableEq κ] in
@[simp] theorem share_none (worth : κ → ρ → Nat) (key : κ) : share worth key none = 0 := rfl

omit [DecidableEq κ] in
@[simp] theorem share_some (worth : κ → ρ → Nat) (key : κ) (record : ρ) :
    share worth key (some record) = worth key record := rfl

omit [DecidableEq κ] in
@[simp] theorem total_empty (worth : κ → ρ → Nat) : total worth (∅ : Store κ ρ) = 0 := rfl

private theorem total_insert_new (worth : κ → ρ → Nat) {store : Store κ ρ} {key : κ} (absent : key ∉ store)
    (record : ρ) : total worth (store.insert key record) = total worth store + worth key record := by
  rw [total, Finmap.entries_insert_of_notMem absent, Multiset.map_cons, Multiset.sum_cons, Nat.add_comm, total]

theorem total_erase (worth : κ → ρ → Nat) (store : Store κ ρ) (key : κ) :
    total worth (store.erase key) + share worth key (store.lookup key) = total worth store := by
  cases found : store.lookup key with
  | none =>
    have same : store.erase key = store := by
      refine Finmap.ext_lookup fun other => ?_
      by_cases equal : other = key
      · rw [equal, Finmap.lookup_erase, found]
      · rw [Finmap.lookup_erase_ne equal]
    rw [same, share_none, Nat.add_zero]
  | some record =>
    have back : (store.erase key).insert key record = store := by
      refine Finmap.ext_lookup fun other => ?_
      by_cases equal : other = key
      · rw [equal, Finmap.lookup_insert, found]
      · rw [Finmap.lookup_insert_of_ne _ equal, Finmap.lookup_erase_ne equal]
    rw [share_some, ← total_insert_new worth Finmap.notMem_erase_self record, back]

/-- A change of one record changes the total by that record only. -/
theorem total_put (worth : κ → ρ → Nat) (store : Store κ ρ) (key : κ) (record : Option ρ) :
    total worth (put store key record) + share worth key (store.lookup key) =
      total worth store + share worth key record := by
  have erased := total_erase worth store key
  cases record with
  | none =>
    rw [share_none, Nat.add_zero]
    exact erased
  | some record =>
    have afresh : store.insert key record = (store.erase key).insert key record := by
      refine Finmap.ext_lookup fun other => ?_
      by_cases equal : other = key
      · rw [equal, Finmap.lookup_insert, Finmap.lookup_insert]
      · rw [Finmap.lookup_insert_of_ne _ equal, Finmap.lookup_insert_of_ne _ equal, Finmap.lookup_erase_ne equal]
    rw [put, afresh, total_insert_new worth Finmap.notMem_erase_self, share_some]
    omega

theorem share_le_total (worth : κ → ρ → Nat) (store : Store κ ρ) (key : κ) :
    share worth key (store.lookup key) ≤ total worth store := by
  rw [← total_erase worth store key]
  exact Nat.le_add_left ..

omit [DecidableEq κ] in
@[simp] theorem tally_empty (p : ρ → Bool) : tally p (∅ : Store κ ρ) = 0 := rfl

omit [DecidableEq κ] in
private theorem tally_eq_total (p : ρ → Bool) (store : Store κ ρ) :
    tally p store = total (fun _ record => hit p (some record)) store := by
  rw [tally, total]
  induction store.entries using Multiset.induction with
  | empty => rfl
  | cons entry rest ih => rw [Multiset.countP_cons, ih, Multiset.map_cons, Multiset.sum_cons, hit_some, Nat.add_comm]

omit [DecidableEq κ] in
private theorem share_eq_hit (p : ρ → Bool) (key : κ) (record : Option ρ) :
    share (fun _ record => hit p (some record)) key record = hit p record := by
  cases record <;> rfl

theorem tally_erase (p : ρ → Bool) (store : Store κ ρ) (key : κ) :
    tally p (store.erase key) + hit p (store.lookup key) = tally p store := by
  simpa only [tally_eq_total, share_eq_hit] using total_erase (fun _ record => hit p (some record)) store key

/-- A change of one record changes the count by that record only. -/
theorem tally_put (p : ρ → Bool) (store : Store κ ρ) (key : κ) (record : Option ρ) :
    tally p (put store key record) + hit p (store.lookup key) = tally p store + hit p record := by
  simpa only [tally_eq_total, share_eq_hit] using total_put (fun _ record => hit p (some record)) store key record

/-- Properties that say the same of every stored record count the same. -/
theorem tally_congr {p q : ρ → Bool} {store : Store κ ρ}
    (same : ∀ key record, store.lookup key = some record → p record = q record) : tally p store = tally q store := by
  rw [tally, tally]
  refine Multiset.countP_congr rfl fun entry member => ?_
  rw [same entry.1 entry.2 (Finmap.mem_lookup_iff.mpr member)]

/-- Properties that differ on the record of one key only. -/
theorem tally_except {p q : ρ → Bool} {store : Store κ ρ} {key : κ}
    (same : ∀ other record, other ≠ key → store.lookup other = some record → p record = q record) :
    tally p store + hit q (store.lookup key) = tally q store + hit p (store.lookup key) := by
  have rest : tally p (store.erase key) = tally q (store.erase key) := by
    refine tally_congr fun other record found => ?_
    have different : other ≠ key := by
      rintro rfl
      simp at found
    rw [Finmap.lookup_erase_ne different] at found
    exact same other record different found
  rw [← tally_erase p store key, ← tally_erase q store key, rest]
  omega

theorem hit_le_tally (p : ρ → Bool) (store : Store κ ρ) (key : κ) : hit p (store.lookup key) ≤ tally p store := by
  rw [← tally_erase p store key]
  exact Nat.le_add_left ..

/-- The change of one key, from one record to another, and its note in the book. -/
structure Edit (κ : Type u) (ρ : Type v) (β : Type w) where
  key : κ
  old : Option ρ
  new : Option ρ
  note : β → β

/-- The store and its book. -/
@[ext] structure Ledger (κ : Type u) (ρ : Type v) (β : Type w) where
  store : Store κ ρ
  book : β

variable {before after : Ledger κ ρ β} {edits : List (Edit κ ρ β)}

def Ledger.apply (ledger : Ledger κ ρ β) (edit : Edit κ ρ β) : Ledger κ ρ β :=
  ⟨put ledger.store edit.key edit.new, edit.note ledger.book⟩

/-- Edits act on the store and on the book by themselves. -/
theorem foldl_apply (edits : List (Edit κ ρ β)) (ledger : Ledger κ ρ β) :
    edits.foldl Ledger.apply ledger =
      ⟨edits.foldl (fun store edit => put store edit.key edit.new) ledger.store,
        edits.foldl (fun book edit => edit.note book) ledger.book⟩ := by
  induction edits generalizing ledger with
  | nil => rfl
  | cons edit edits ih => exact ih (ledger.apply edit)

/-- The edit starts from the record that is stored. -/
def Edit.Fits (edit : Edit κ ρ β) (ledger : Ledger κ ρ β) : Prop := ledger.store.lookup edit.key = edit.old

/-- Some edits of different keys, all of stored records, lead from one ledger to another. -/
structure Follows (before : Ledger κ ρ β) (edits : List (Edit κ ρ β)) (after : Ledger κ ρ β) : Prop where
  distinct : (edits.map (·.key)).Nodup
  fits : ∀ edit ∈ edits, edit.Fits before
  result : after = edits.foldl Ledger.apply before

namespace Follows

theorem refl (ledger : Ledger κ ρ β) : Follows ledger [] ledger := ⟨List.nodup_nil, nofun, rfl⟩

theorem single {edit : Edit κ ρ β} (fits : edit.Fits before) (result : after = before.apply edit) :
    Follows before [edit] after := ⟨by simp, by simpa using fits, result⟩

/-- After the first edit the others still start from what is stored. -/
theorem tail {edit : Edit κ ρ β} (follows : Follows before (edit :: edits) after) :
    Follows (before.apply edit) edits after := by
  obtain ⟨distinct, fits, result⟩ := follows
  obtain ⟨apart, distinct⟩ := List.nodup_cons.mp distinct
  refine ⟨distinct, fun later member => ?_, result⟩
  have different : later.key ≠ edit.key := fun same => apart (List.mem_map.mpr ⟨later, member, same⟩)
  exact (lookup_put_ne before.store different edit.new).trans (fits later (by simp [member]))

/-- A key that is not edited keeps its record. -/
theorem lookup_other (follows : Follows before edits after) {key : κ} (apart : ∀ edit ∈ edits, edit.key ≠ key) :
    after.store.lookup key = before.store.lookup key := by
  induction edits generalizing before with
  | nil => rw [follows.result, List.foldl_nil]
  | cons edit edits ih =>
    have later := ih follows.tail fun other member => apart other (by simp [member])
    have different : key ≠ edit.key := fun same => apart edit (by simp) same.symm
    rw [later]
    exact lookup_put_ne before.store different edit.new

/-- An edited key has the record of its edit. -/
theorem lookup_edited (follows : Follows before edits after) {edit : Edit κ ρ β} (member : edit ∈ edits) :
    after.store.lookup edit.key = edit.new := by
  induction edits generalizing before with
  | nil => simp at member
  | cons first edits ih =>
    rcases List.mem_cons.mp member with rfl | inside
    · obtain ⟨apart, _⟩ := List.nodup_cons.mp follows.distinct
      have others : ∀ other ∈ edits, other.key ≠ edit.key :=
        fun other inside same => apart (List.mem_map.mpr ⟨other, inside, same⟩)
      rw [follows.tail.lookup_other others]
      exact lookup_put before.store edit.key edit.new
    · exact ih follows.tail inside

/-- The numbers change by the records that go and come. -/
theorem tally_eq (p : ρ → Bool) (follows : Follows before edits after) :
    tally p after.store + (edits.map fun edit => hit p edit.old).sum =
      tally p before.store + (edits.map fun edit => hit p edit.new).sum := by
  induction edits generalizing before with
  | nil =>
    rw [follows.result]
    rfl
  | cons edit edits ih =>
    have later := ih follows.tail
    have fits : before.store.lookup edit.key = edit.old := follows.fits edit (by simp)
    have first := tally_put p before.store edit.key edit.new
    rw [fits] at first
    have applied : (before.apply edit).store = put before.store edit.key edit.new := rfl
    rw [applied] at later
    simp only [List.map_cons, List.sum_cons]
    omega

theorem tally_same_iff (p : ρ → Bool) (follows : Follows before edits after) :
    tally p before.store = tally p after.store ↔
      (edits.map fun edit => hit p edit.old).sum = (edits.map fun edit => hit p edit.new).sum := by
  have counted := follows.tally_eq p
  omega

/-- What each edit keeps is kept by all of them together. -/
theorem keeps {inv : Ledger κ ρ β → Prop} (follows : Follows before edits after)
    (step : ∀ edit ∈ edits, ∀ ledger, edit.Fits ledger → inv ledger → inv (ledger.apply edit))
    (holds : inv before) : inv after := by
  induction edits generalizing before with
  | nil =>
    rw [follows.result]
    exact holds
  | cons edit edits ih =>
    refine ih follows.tail (fun later member => step later (by simp [member])) ?_
    exact step edit (by simp) before (follows.fits edit (by simp)) holds

/-- What each edit keeps holds when each edit is made. -/
theorem holds_before {inv : Ledger κ ρ β → Prop} {done rest : List (Edit κ ρ β)} {edit : Edit κ ρ β}
    (follows : Follows before (done ++ edit :: rest) after)
    (step : ∀ edit ∈ done, ∀ ledger, edit.Fits ledger → inv ledger → inv (ledger.apply edit))
    (holds : inv before) :
    edit.Fits (done.foldl Ledger.apply before) ∧ inv (done.foldl Ledger.apply before) := by
  induction done generalizing before with
  | nil => exact ⟨follows.fits edit (by simp), holds⟩
  | cons first done ih =>
    refine ih follows.tail (fun later member => step later (by simp [member])) ?_
    exact step first (by simp) before (follows.fits first (by simp)) holds

end Follows

/-- A property of every stored record. -/
def AllStored (p : κ → ρ → Prop) (ledger : Ledger κ ρ β) : Prop :=
  ∀ key record, ledger.store.lookup key = some record → p key record

theorem AllStored.apply {p : κ → ρ → Prop} {ledger : Ledger κ ρ β} (all : AllStored p ledger) {edit : Edit κ ρ β}
    (new : ∀ record, edit.new = some record → p edit.key record) : AllStored p (ledger.apply edit) := by
  intro key record stored
  change (put ledger.store edit.key edit.new).lookup key = some record at stored
  rw [lookup_put_eq] at stored
  split at stored
  · next same => exact same ▸ new record stored
  · exact all key record stored

variable {τ : Type*} {count : β → τ → Int} {p : τ → ρ → Bool}

/-- Each counter in the book is the number of stored records it counts. -/
def Agrees (count : β → τ → Int) (p : τ → ρ → Bool) (ledger : Ledger κ ρ β) : Prop :=
  ∀ t, count ledger.book t = tally (p t) ledger.store

/-- The edit changes each counter as it changes the records counted. -/
def Balanced (count : β → τ → Int) (p : τ → ρ → Bool) (edit : Edit κ ρ β) : Prop :=
  ∀ book, (∀ t, (hit (p t) edit.old : Int) ≤ count book t) →
    ∀ t, count (edit.note book) t + hit (p t) edit.old = count book t + hit (p t) edit.new

theorem Agrees.bound {edit : Edit κ ρ β} {ledger : Ledger κ ρ β} (agrees : Agrees count p ledger)
    (fits : edit.Fits ledger) (t : τ) : (hit (p t) edit.old : Int) ≤ count ledger.book t := by
  have bound := hit_le_tally (p t) ledger.store edit.key
  rw [fits] at bound
  rw [agrees t]
  exact_mod_cast bound

/-- Balanced counters go on agreeing with the store. -/
theorem Balanced.keeps {edit : Edit κ ρ β} (balanced : Balanced count p edit) {ledger : Ledger κ ρ β}
    (fits : edit.Fits ledger) (agrees : Agrees count p ledger) : Agrees count p (ledger.apply edit) := by
  intro t
  have counted := tally_put (p t) ledger.store edit.key edit.new
  rw [fits] at counted
  have noted := balanced ledger.book (agrees.bound fits) t
  have before := agrees t
  change count (edit.note ledger.book) t = (tally (p t) (put ledger.store edit.key edit.new) : Int)
  omega

end Bookkeeping
