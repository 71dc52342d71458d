/-
  The circular buffer in which a session keeps its last events.

  The items lie in an array of fixed size that is written at `head`, round and round.  Which cells are
  written, and where the oldest item is, are fields of the structure: while the array fills up, `head`
  is the number of items and the oldest is cell 0; from then on the oldest is the cell that is written
  next.

  Read from the outside (`items`) none of this shows: `items_addAll` says that after any additions
  the buffer holds the last `capacity` of all items it ever got, the oldest first.


  The proof goes through the cells: with the structure's fields, the `i`-th item is the `i`-th cell
  from the oldest on (`map_some_items`), and an addition to a buffer with room, or to a full one, can
  be read off that.
-/
import Mathlib.Data.List.Basic
import Mathlib.Data.List.DropRight
import Mathlib.Data.Option.Basic

namespace HexWar

/-- A buffer of fixed size in which a new item takes the place of the oldest. -/
structure CircularBuffer (α : Type) where
  /-- The cells; one that was never written holds nothing. -/
  buffer : Array (Option α)
  /-- The cell that is written next. -/
  head : Nat
  /-- How many cells are written. -/
  count : Nat
  head_lt : head < buffer.size
  count_le : count ≤ buffer.size
  /-- While there is room the cells are written from the first on. -/
  filling : count < buffer.size → head = count
  /-- And those are all written. -/
  written : ∀ i, i < count → (buffer[i]?).join.isSome

namespace CircularBuffer

variable {α : Type}

/-! ## The operations

Add, read everything, read what satisfies a predicate. -/

/-- An empty buffer; the capacity is positive. -/
def new (capacity : Nat) (h : 0 < capacity) : CircularBuffer α where
  buffer := Array.replicate capacity none
  head := 0
  count := 0
  head_lt := by rw [Array.size_replicate]; exact h
  count_le := Nat.zero_le _
  filling := fun _ => rfl
  written := fun _ hi => absurd hi (Nat.not_lt_zero _)

/-- The number of cells. -/
def capacity (b : CircularBuffer α) : Nat := b.buffer.size

/-- The item of a cell, if it was written. -/
def cell (b : CircularBuffer α) (i : Nat) : Option α := (b.buffer[i]?).join

/-- The cell of the oldest item. -/
def start (b : CircularBuffer α) : Nat := if b.count < b.capacity then 0 else b.head

/-- A cell after a write: the new item in its own cell, the old one in the others. -/
theorem join_set {buffer : Array (Option α)} {i j : Nat} (hi : i < buffer.size) (x : α) :
    ((buffer.set i (some x))[j]?).join = if j = i then some x else (buffer[j]?).join := by
  rw [Array.getElem?_set]
  by_cases hj : i = j
  · rw [if_pos hj, if_pos hj.symm]
    rfl
  · rw [if_neg hj, if_neg fun h => hj h.symm]

/-- A new item is written at `head`, which moves on, round the end; a full buffer stays full. -/
def add (b : CircularBuffer α) (item : α) : CircularBuffer α where
  buffer := b.buffer.set b.head (some item) b.head_lt
  head := (b.head + 1) % b.buffer.size
  count := if b.count < b.buffer.size then b.count + 1 else b.count
  head_lt := by
    rw [Array.size_set]
    exact Nat.mod_lt _ (Nat.lt_of_le_of_lt (Nat.zero_le _) b.head_lt)
  count_le := by
    rw [Array.size_set]
    have hle := b.count_le
    split <;> omega
  filling := by
    rw [Array.size_set]
    have hle := b.count_le
    have hfill := b.filling
    intro h
    split at h
    -- There is still room afterwards, so the head has not come round.
    · rw [if_pos ‹_›, hfill ‹_›, Nat.mod_eq_of_lt h]
    · omega
  written := by
    intro i hi
    rw [join_set b.head_lt]
    have hfill := b.filling
    split
    · rfl
    · rename_i hne
      refine b.written i ?_
      split at hi
      · have hhead := hfill ‹_›
        omega
      · exact hi

/-- The items, the oldest first. -/
def items (b : CircularBuffer α) : List α :=
  (List.range b.count).filterMap fun i => b.cell ((b.start + i) % b.capacity)

/-- The items that satisfy a predicate, the oldest first. -/
def where_ (b : CircularBuffer α) (predicate : α → Bool) : List α := b.items.filter predicate

/-! ## The buffer holds the last items

What is known of `items`, one addition at a time and then any number of them. -/

@[simp] theorem capacity_new (capacity : Nat) (h : 0 < capacity) :
    (new capacity h : CircularBuffer α).capacity = capacity := Array.size_replicate

@[simp] theorem capacity_add (b : CircularBuffer α) (x : α) : (b.add x).capacity = b.capacity :=
  Array.size_set b.head_lt

@[simp] theorem items_new (capacity : Nat) (h : 0 < capacity) :
    (new capacity h : CircularBuffer α).items = [] := rfl

/-- There is at least one cell. -/
theorem capacity_pos (b : CircularBuffer α) : 0 < b.capacity :=
  Nat.lt_of_le_of_lt (Nat.zero_le _) b.head_lt

/-- A cell after an addition. -/
theorem cell_add (b : CircularBuffer α) (x : α) (i : Nat) :
    (b.add x).cell i = if i = b.head then some x else b.cell i := join_set b.head_lt x

/-- A cell that is counted was written. -/
theorem isSome_cell (b : CircularBuffer α) {i : Nat} (hi : i < b.count) :
    (b.cell ((b.start + i) % b.capacity)).isSome := by
  have hle : b.count ≤ b.capacity := b.count_le
  refine b.written _ ?_
  -- While it fills up the cells are the first ones; once it is full they are all the cells.
  by_cases hfill : b.count < b.capacity
  · rw [start, if_pos hfill, Nat.zero_add, Nat.mod_eq_of_lt (Nat.lt_trans hi hfill)]
    exact hi
  · have hfull : b.count = b.capacity := by omega
    rw [hfull]
    exact Nat.mod_lt _ b.capacity_pos

/-- No cell is skipped: the `i`-th item is the `i`-th cell from the oldest on. -/
theorem map_some_items (b : CircularBuffer α) :
    b.items.map some = (List.range b.count).map fun i => b.cell ((b.start + i) % b.capacity) := by
  have hall : ∀ l : List Nat, (∀ i ∈ l, i < b.count) →
      (l.filterMap fun i => b.cell ((b.start + i) % b.capacity)).map some =
        l.map fun i => b.cell ((b.start + i) % b.capacity) := by
    intro l
    induction l with
    | nil => exact fun _ => rfl
    | cons i l ih =>
      intro hl
      obtain ⟨x, hx⟩ := Option.isSome_iff_exists.mp (b.isSome_cell (hl i List.mem_cons_self))
      have hrest := ih fun j hj => hl j (List.mem_cons_of_mem _ hj)
      simp only [List.filterMap_cons, hx, List.map_cons, hrest]
  exact hall _ fun i hi => List.mem_range.mp hi

/-- The items are as many as are counted. -/
theorem length_items (b : CircularBuffer α) : b.items.length = b.count := by
  have h := congrArg List.length b.map_some_items
  rwa [List.length_map, List.length_map, List.length_range] at h

/-- A buffer with room left keeps everything. -/
theorem items_add_of_room {b : CircularBuffer α} (h : b.count < b.capacity) (x : α) :
    (b.add x).items = b.items ++ [x] := by
  have hhead : b.head = b.count := b.filling h
  have hcount : (b.add x).count = b.count + 1 := if_pos h
  have hstart : (b.add x).start = 0 := by
    rw [start]
    split
    · rfl
    · rename_i hfull
      rw [hcount, capacity_add] at hfull
      have heq : b.count + 1 = b.capacity := by omega
      show (b.head + 1) % b.buffer.size = 0
      rw [hhead, heq]
      exact Nat.mod_self _
  have hold : b.start = 0 := if_pos h
  refine List.map_injective_iff.mpr (Option.some_injective α) ?_
  rw [List.map_append, map_some_items, map_some_items, hcount, hstart, hold, capacity_add,
    List.range_succ, List.map_append]
  congr 1
  · refine List.map_congr_left fun i hi => ?_
    have hi' : i < b.count := List.mem_range.mp hi
    rw [cell_add, if_neg]
    rw [Nat.zero_add, Nat.mod_eq_of_lt (by omega)]
    omega
  · rw [List.map_singleton, List.map_singleton, cell_add, Nat.zero_add,
      Nat.mod_eq_of_lt (by omega), if_pos hhead.symm]

/-- A full buffer gives up its oldest item. -/
theorem items_add_of_full {b : CircularBuffer α} (h : b.count = b.capacity) (x : α) :
    (b.add x).items = b.items.tail ++ [x] := by
  have hpos := b.capacity_pos
  have hhead : b.head < b.capacity := b.head_lt
  have hcount : (b.add x).count = b.count := if_neg (by rw [h]; exact Nat.lt_irrefl _)
  have hstart : (b.add x).start = (b.head + 1) % b.capacity := by
    rw [start, if_neg]
    · rfl
    · rw [hcount, capacity_add, h]
      exact Nat.lt_irrefl _
  have hold : b.start = b.head := if_neg (by rw [h]; exact Nat.lt_irrefl _)
  obtain ⟨n, hn⟩ : ∃ n, b.capacity = n + 1 := ⟨b.capacity - 1, by omega⟩
  have htail : ((List.range (n + 1)).map fun i => b.cell ((b.head + i) % (n + 1))).tail =
      (List.range n).map fun i => b.cell ((b.head + (i + 1)) % (n + 1)) := by
    rw [List.range_succ_eq_map, List.map_cons, List.tail_cons, List.map_map]
    rfl
  refine List.map_injective_iff.mpr (Option.some_injective α) ?_
  rw [List.map_append, List.map_tail, map_some_items, map_some_items, hcount, hstart, hold,
    capacity_add, h, hn, htail, List.range_succ, List.map_append]
  -- the cells from the new start on are the old ones after the oldest, and the one just written
  congr 1
  · refine List.map_congr_left fun i hi => ?_
    have hi' : i < n := List.mem_range.mp hi
    rw [Nat.mod_add_mod, cell_add, if_neg]
    · rw [Nat.add_assoc, Nat.add_comm 1 i]
    · intro heq
      rcases Nat.lt_or_ge (b.head + 1 + i) (n + 1) with hlt | hge
      · rw [Nat.mod_eq_of_lt hlt] at heq
        omega
      · rw [Nat.mod_eq_sub_mod hge, Nat.mod_eq_of_lt (by omega)] at heq
        omega
  · rw [List.map_singleton, List.map_singleton, Nat.mod_add_mod, cell_add, if_pos]
    -- One full turn from the cell just written.
    rw [Nat.add_assoc, Nat.add_comm 1 n, Nat.add_mod_right, Nat.mod_eq_of_lt (by omega)]

/-- An addition to a buffer leaves the last `capacity` of the items it had and the new one. -/
theorem items_add (b : CircularBuffer α) (x : α) :
    (b.add x).items = (b.items ++ [x]).rtake b.capacity := by
  have hle : b.count ≤ b.capacity := b.count_le
  have hlen : (b.items ++ [x]).length = b.count + 1 := by
    rw [List.length_append, length_items]
    rfl
  rw [List.rtake, hlen]
  rcases Nat.lt_or_eq_of_le hle with hroom | hfull
  · rw [items_add_of_room hroom, show b.count + 1 - b.capacity = 0 by omega, List.drop_zero]
  · rw [items_add_of_full hfull, show b.count + 1 - b.capacity = 1 by omega, List.drop_one]
    have hne : b.items ≠ [] := by
      intro hnil
      have hzero := b.length_items
      rw [hnil, List.length_nil] at hzero
      have hpos := b.capacity_pos
      omega
    rw [List.tail_append_of_ne_nil hne]

/-- A buffer is never more than full. -/
theorem items_eq_rtake (b : CircularBuffer α) : b.items = b.items.rtake b.capacity := by
  have hle : b.count ≤ b.capacity := b.count_le
  rw [List.rtake, length_items, show b.count - b.capacity = 0 by omega, List.drop_zero]

/-- What was dropped before stays dropped. -/
theorem rtake_rtake_append (n : Nat) (xs ys : List α) :
    (xs.rtake n ++ ys).rtake n = (xs ++ ys).rtake n := by
  rw [List.rtake, List.rtake, List.rtake, List.length_append, List.length_append, List.length_drop]
  rcases Nat.le_total xs.length n with hle | hge
  · rw [show xs.length - n = 0 by omega, List.drop_zero, Nat.sub_zero]
  · rw [← List.drop_append_of_le_length (by omega), List.drop_drop]
    congr 1
    omega

/-- Additions one after the other. -/
def addAll (b : CircularBuffer α) (xs : List α) : CircularBuffer α := xs.foldl add b

/-- They leave the capacity alone. -/
@[simp] theorem capacity_addAll (b : CircularBuffer α) (xs : List α) :
    (b.addAll xs).capacity = b.capacity := by
  induction xs generalizing b with
  | nil => rfl
  | cons x xs ih => exact (ih (b.add x)).trans (b.capacity_add x)

/-- **After any additions the buffer holds the last `capacity` of all items**, the oldest first. -/
theorem items_addAll (b : CircularBuffer α) (xs : List α) :
    (b.addAll xs).items = (b.items ++ xs).rtake b.capacity := by
  induction xs generalizing b with
  | nil =>
    rw [List.append_nil]
    exact b.items_eq_rtake
  | cons x xs ih =>
    show ((b.add x).addAll xs).items = _
    rw [ih, items_add, capacity_add, rtake_rtake_append, List.append_assoc]
    rfl

/-- Two lots of additions are one. -/
theorem addAll_append (b : CircularBuffer α) (xs ys : List α) :
    b.addAll (xs ++ ys) = (b.addAll xs).addAll ys := List.foldl_append

/-- Nothing is in the buffer that it did not get. -/
theorem mem_of_mem_items_addAll {b : CircularBuffer α} {xs : List α} {x : α}
    (h : x ∈ (b.addAll xs).items) : x ∈ b.items ++ xs := by
  rw [items_addAll] at h
  exact List.mem_of_mem_drop h

/-- What was added last is still there, as long as it is not more than the capacity. -/
theorem mem_items_addAll {b : CircularBuffer α} {xs : List α} (h : xs.length ≤ b.capacity) {x : α}
    (hx : x ∈ xs) : x ∈ (b.addAll xs).items := by
  rw [items_addAll, List.rtake, List.drop_append, List.length_append]
  refine List.mem_append_right _ ?_
  rwa [show b.items.length + xs.length - b.capacity - b.items.length = 0 by omega, List.drop_zero]

end CircularBuffer
end HexWar
