import Mathlib.Data.List.Basic

/-!
# Process tables

Processes that are spawned in order and never removed are a list, a process is its index, and
a step of one process replaces its entry. Invariants of such systems say something of all
entries or of some entry; the rules here carry both through the two ways a table changes.
-/

namespace Table

variable {α : Type}

/-- Every entry of the table satisfies the predicate. -/
def All (table : List α) (P : Nat → α → Prop) : Prop := ∀ i a, table[i]? = some a → P i a

/-- Some entry of the table satisfies the predicate. -/
def Any (table : List α) (P : Nat → α → Prop) : Prop := ∃ i a, table[i]? = some a ∧ P i a

instance (table : List α) (P : Nat → α → Prop) [∀ i a, Decidable (P i a)] :
    Decidable (All table P) :=
  decidable_of_iff (∀ i : Fin table.length, P i (table.get i))
    ⟨fun all i a found => by
      obtain ⟨inside, rfl⟩ := List.getElem?_eq_some_iff.mp found
      exact all ⟨i, inside⟩,
    fun all i => all i _ (List.getElem?_eq_some_iff.mpr ⟨i.isLt, rfl⟩)⟩

instance (table : List α) (P : Nat → α → Prop) [∀ i a, Decidable (P i a)] :
    Decidable (Any table P) :=
  decidable_of_iff (∃ i : Fin table.length, P i (table.get i))
    ⟨fun ⟨i, holds⟩ => ⟨i, _, List.getElem?_eq_some_iff.mpr ⟨i.isLt, rfl⟩, holds⟩,
    fun ⟨i, a, found, holds⟩ => by
      obtain ⟨inside, rfl⟩ := List.getElem?_eq_some_iff.mp found
      exact ⟨⟨i, inside⟩, holds⟩⟩

/-- At most one entry of the table has the property. -/
def AtMostOne (table : List α) (p : α → Prop) : Prop :=
  ∀ (i j : Nat) (a b : α), table[i]? = some a → table[j]? = some b → p a → p b → i = j

variable {table : List α} {p : α → Prop} {P Q : Nat → α → Prop} {i j : Nat} {a b : α}

/-- Reading the entry just replaced. -/
theorem get_set_self (here : table[i]? = some a) : (table.set i b)[i]? = some b := by
  have inside : i < table.length := (List.getElem?_eq_some_iff.mp here).1
  simp [inside]

/-- Reading any other entry. -/
theorem get_set_other (other : j ≠ i) : (table.set i b)[j]? = table[j]? := by
  rw [List.getElem?_set, if_neg (Ne.symm other)]

/-- An entry of a changed table is the new one or an old one elsewhere. -/
theorem get_set (found : (table.set i b)[j]? = some a) :
    (j = i ∧ a = b) ∨ (j ≠ i ∧ table[j]? = some a) := by
  rw [List.getElem?_set] at found
  split at found
  · rename_i same
    split at found
    · exact .inl ⟨same.symm, (Option.some.inj found).symm⟩
    · contradiction
  · rename_i other
    exact .inr ⟨Ne.symm other, found⟩

/-- Replacing an entry by itself changes nothing. -/
theorem set_same (here : table[i]? = some a) : table.set i a = table := by
  obtain ⟨inside, rfl⟩ := List.getElem?_eq_some_iff.mp here
  exact List.set_getElem_self inside

/-- An entry of an extended table is an old one or the new last one. -/
theorem get_spawn (found : (table ++ [b])[j]? = some a) :
    table[j]? = some a ∨ (j = table.length ∧ a = b) := by
  by_cases inside : j < table.length
  · rw [List.getElem?_append_left inside] at found
    exact .inl found
  · rw [List.getElem?_append_right (by omega)] at found
    by_cases last : j = table.length
    · subst last
      simp only [Nat.sub_self, List.getElem?_cons_zero, Option.some.injEq] at found
      exact .inr ⟨rfl, found.symm⟩
    · have beyond : [b][j - table.length]? = none := by simp; omega
      rw [beyond] at found
      contradiction

/-- Spawning keeps every old entry. -/
theorem get_spawn_old (found : table[j]? = some a) : (table ++ [b])[j]? = some a := by
  have inside : j < table.length := (List.getElem?_eq_some_iff.mp found).1
  rw [List.getElem?_append_left inside]
  exact found

/-- The spawned entry is the last. -/
@[simp] theorem get_spawn_last : (table ++ [b])[table.length]? = some b := by
  simp

/-- An index that holds an entry lies inside the table. -/
theorem lt_length (found : table[i]? = some a) : i < table.length :=
  (List.getElem?_eq_some_iff.mp found).1

/-- Every entry of the empty table satisfies anything. -/
@[simp] theorem all_nil : All ([] : List α) P := by
  intro i a found
  simp at found

/-- The predicate may be weakened entry by entry. -/
theorem All.mono (all : All table P) (weaken : ∀ i a, table[i]? = some a → P i a → Q i a) :
    All table Q := fun i a found => weaken i a found (all i a found)

/-- A replaced entry has to satisfy the predicate itself. -/
theorem All.set (all : All table P) (fresh : P i b) : All (table.set i b) P := by
  intro j c found
  obtain ⟨rfl, rfl⟩ | ⟨-, old⟩ := get_set found
  · exact fresh
  · exact all j c old

/-- So does a spawned one. -/
theorem All.spawn (all : All table P) (fresh : P table.length b) : All (table ++ [b]) P := by
  intro j c found
  obtain old | ⟨rfl, rfl⟩ := get_spawn found
  · exact all j c old
  · exact fresh

/-- The predicate may be weakened on the entry that satisfies it. -/
theorem Any.mono (any : Any table P) (weaken : ∀ i a, table[i]? = some a → P i a → Q i a) :
    Any table Q := by
  obtain ⟨i, a, found, holds⟩ := any
  exact ⟨i, a, found, weaken i a found holds⟩

/-- Replacing an entry keeps a witness, provided the new entry inherits the old one's. -/
theorem Any.set (any : Any table P) (here : table[i]? = some a) (inherit : P i a → P i b) :
    Any (table.set i b) P := by
  obtain ⟨j, c, found, holds⟩ := any
  by_cases same : j = i
  · subst same
    obtain rfl := Option.some.inj (found.symm.trans here)
    exact ⟨j, b, get_set_self here, inherit holds⟩
  · exact ⟨j, c, (get_set_other same).trans found, holds⟩

/-- A witness in a changed table was there before, unless it is the new entry. -/
theorem Any.of_set (any : Any (table.set i b) P) (here : table[i]? = some a)
    (back : P i b → P i a) : Any table P := by
  obtain ⟨j, c, found, holds⟩ := any
  obtain ⟨rfl, rfl⟩ | ⟨-, old⟩ := get_set found
  · exact ⟨j, a, here, back holds⟩
  · exact ⟨j, c, old, holds⟩

/-- A witness in an extended table was there before, unless it is the new entry. -/
theorem Any.of_spawn (any : Any (table ++ [b]) P) : Any table P ∨ P table.length b := by
  obtain ⟨j, c, found, holds⟩ := any
  obtain old | ⟨rfl, rfl⟩ := get_spawn found
  · exact .inl ⟨j, c, old, holds⟩
  · exact .inr holds

/-- Spawning keeps a witness. -/
theorem Any.spawn (any : Any table P) : Any (table ++ [b]) P := by
  obtain ⟨j, c, found, holds⟩ := any
  exact ⟨j, c, get_spawn_old found, holds⟩

/-- An entry that gains nothing keeps the property unique. -/
theorem AtMostOne.set (one : AtMostOne table p) (here : table[i]? = some a) (back : p b → p a) :
    AtMostOne (table.set i b) p := by
  -- an entry of the new table stands for an old one at the same place
  have old : ∀ {k : Nat} {c : α}, (table.set i b)[k]? = some c → p c →
      ∃ d, table[k]? = some d ∧ p d := by
    intro k c found holds
    obtain ⟨rfl, rfl⟩ | ⟨-, was⟩ := get_set found
    · exact ⟨a, here, back holds⟩
    · exact ⟨c, was, holds⟩
  intro k l c d left right first second
  obtain ⟨c', was, its⟩ := old left first
  obtain ⟨d', was', its'⟩ := old right second
  exact one k l c' d' was was' its its'

/-- The first entry with the property is the only one. -/
theorem AtMostOne.set_first (absent : ¬ Any table fun _ a => p a) :
    AtMostOne (table.set i b) p := by
  intro k l c d left right first second
  obtain ⟨rfl, -⟩ | ⟨-, was⟩ := get_set left
  · obtain ⟨rfl, -⟩ | ⟨-, was⟩ := get_set right
    · rfl
    · exact absurd ⟨l, d, was, second⟩ absent
  · exact absurd ⟨k, c, was, first⟩ absent

/-- A spawned entry keeps the property unique if it lacks it or nobody else has it. -/
theorem AtMostOne.spawn (one : AtMostOne table p) (fresh : p b → ¬ Any table fun _ a => p a) :
    AtMostOne (table ++ [b]) p := by
  intro k l c d left right first second
  obtain was | ⟨rfl, rfl⟩ := get_spawn left
  · obtain was' | ⟨rfl, rfl⟩ := get_spawn right
    · exact one k l c d was was' first second
    · exact absurd ⟨k, c, was, first⟩ (fresh second)
  · obtain was' | ⟨rfl, -⟩ := get_spawn right
    · exact absurd ⟨l, d, was', second⟩ (fresh first)
    · rfl

/-- A spawned entry that lacks a property is seen by nobody who looks for it at a place. -/
theorem get_spawn_any {q : α → Bool} (fresh : q b = false) :
    (table ++ [b])[j]?.any q = table[j]?.any q := by
  by_cases inside : j < table.length
  · rw [List.getElem?_append_left inside]
  · have beyond : table[j]? = none := List.getElem?_eq_none (by omega)
    rw [beyond, List.getElem?_append_right (by omega)]
    cases j - table.length <;> simp [fresh]

/-- The weights of all entries together. -/
def total (weight : α → Nat) : List α → Nat
  | [] => 0
  | a :: rest => weight a + total weight rest

/-- A replaced entry trades its weight. -/
theorem total_set (weight : α → Nat) (b : α) (here : table[i]? = some a) :
    total weight (table.set i b) + weight a = total weight table + weight b := by
  induction table generalizing i with
  | nil => simp at here
  | cons first rest ih =>
    cases i with
    | zero =>
      obtain rfl : first = a := by simpa using here
      simp only [List.set_cons_zero, total]
      omega
    | succ i =>
      have later := ih (by simpa using here)
      simp only [List.set_cons_succ, total]
      omega

/-- A spawned entry adds its weight. -/
theorem total_spawn (weight : α → Nat) :
    total weight (table ++ [b]) = total weight table + weight b := by
  induction table with
  | nil => simp [total]
  | cons first rest ih =>
    simp only [List.cons_append, total, ih]
    omega

/-- Entries weighed one each are counted. -/
theorem total_eq_count (q : α → Bool) (table : List α) :
    total (fun a => (q a).toNat) table = (table.filter q).length := by
  induction table with
  | nil => rfl
  | cons first rest ih =>
    cases holds : q first with
    | false => simp [total, ih, holds]
    | true =>
      simp [total, ih, holds]
      omega

end Table
