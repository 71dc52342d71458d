/-
  The two read paths of the circular buffer, index by index.

  `GetEnumerator` and `Where` each walk over `count` cells from `start` on and take the index modulo the
  length.  The sum `start + i` is an `int`: it is taken in 32 bits here (`int32`), and a read outside
  the array is a read that throws (`none`).  A cell that was never written holds `none`.

  `items` is what the buffer means.  The loops agree with it as long as no index overflows
  (`getEnumerator_eq`, `readWhere_eq`), and throw as soon as one does (`getEnumerator_overflow`).
  `held_run` says which cells a buffer reads after any additions and resets.
-/
import HexWar.Session.GameSession

namespace HexWar

/-- The value of a sum in an `int`: 32 bits, two's complement. -/
def int32 (z : Int) : Int := z.bmod (2 ^ 32)

theorem int32_of_fits {z : Int} (hlo : -(2 ^ 31) ≤ z) (hhi : z < 2 ^ 31) : int32 z = z := by
  rw [int32]
  exact Int.bmod_eq_of_le_mul_two (by omega) (by omega)

/-- Just past the largest `int`, the smallest. -/
theorem int32_overflow : int32 (2 ^ 31) = -(2 ^ 31) := by decide

namespace CircularBuffer

variable {α : Type}

/-! ## The operations -/

/-- Forget everything: the cells are cleared. -/
def dispose (b : CircularBuffer α) : CircularBuffer α where
  buffer := Array.replicate b.buffer.size none
  head := 0
  count := 0
  head_lt := by
    rw [Array.size_replicate]
    exact b.capacity_pos
  count_le := Nat.zero_le _
  filling := fun _ => rfl
  written := fun _ hi => absurd hi (Nat.not_lt_zero _)

/-- `(start + i) % _buffer.Length` -/
def index (b : CircularBuffer α) (i : Nat) : Int := (int32 (b.start + i)).tmod b.capacity

/-- `_buffer[index]`; the read throws outside the array. -/
def slot (b : CircularBuffer α) (index : Int) : Option (Option α) :=
  if 0 ≤ index then b.buffer[index.toNat]? else none

/-- All that the enumerator yields, unless a read throws. -/
def getEnumerator (b : CircularBuffer α) : Option (List (Option α)) :=
  (List.range b.count).mapM fun i => b.slot (b.index i)

/-- The loop of `Where`: the cells that satisfy the predicate, unless a read throws. -/
def readWhere (b : CircularBuffer α) (predicate : Option α → Bool) : Option (List (Option α)) :=
  (List.range b.count).foldlM (fun list i => do
    let item ← b.slot (b.index i)
    some (if predicate item then list ++ [item] else list)) []

/-! ## Both loops read the same cells -/

/-- A loop that collects what satisfies a predicate collects a filtered walk. -/
theorem foldlM_filter {β γ : Type} (f : β → Option γ) (p : γ → Bool) :
    ∀ (l : List β) (acc : List γ),
      l.foldlM (fun list i => do
        let item ← f i
        some (if p item then list ++ [item] else list)) acc =
      (l.mapM f).map fun xs => acc ++ xs.filter p
  | [], acc => by simp
  | i :: l, acc => by
    rw [List.foldlM_cons, List.mapM_cons]
    cases hi : f i with
    | none => rfl
    | some x =>
      have ih := foldlM_filter f p l (if p x then acc ++ [x] else acc)
      refine ih.trans ?_
      cases l.mapM f with
      | none => rfl
      | some xs =>
        cases hp : p x with
        | false => simp [hp]
        | true => simp [hp]

/-- `Where` filters what the enumerator yields. -/
theorem readWhere_eq_filter (b : CircularBuffer α) (predicate : Option α → Bool) :
    b.readWhere predicate = b.getEnumerator.map (List.filter predicate) := by
  rw [readWhere, foldlM_filter, getEnumerator]
  simp

theorem mapM_eq_map {β γ : Type} {f : β → Option γ} {g : β → γ} :
    ∀ {l : List β}, (∀ x ∈ l, f x = some (g x)) → l.mapM f = some (l.map g)
  | [], _ => rfl
  | x :: l, h => by
    have hx := h x List.mem_cons_self
    have hl := mapM_eq_map fun y hy => h y (List.mem_cons_of_mem _ hy)
    rw [List.mapM_cons, hx, hl]
    rfl

theorem mapM_eq_none {β γ : Type} {f : β → Option γ} {x : β} (hx : f x = none) :
    ∀ {l : List β}, x ∈ l → l.mapM f = none
  | y :: l, h => by
    rw [List.mapM_cons]
    rcases List.mem_cons.mp h with rfl | hmem
    · rw [hx]
      rfl
    · rw [mapM_eq_none hx hmem]
      cases f y <;> rfl

/-! ## What a read returns -/

/-- Every cell of the array before `count` of the walk is read where `items` reads it, if the sum
    fits. -/
theorem slot_index {b : CircularBuffer α} {i : Nat} (h : b.start + i < 2 ^ 31) :
    b.slot (b.index i) = some (b.cell ((b.start + i) % b.capacity)) := by
  have hindex : b.index i = ((b.start + i) % b.capacity : Nat) := by
    rw [index, int32_of_fits (by omega) (by omega), Int.tmod_eq_emod_of_nonneg (by omega)]
    rw [Int.natCast_emod, Int.natCast_add]
  have hlt : (b.start + i) % b.capacity < b.buffer.size := Nat.mod_lt _ b.capacity_pos
  rw [hindex, slot, if_pos (Int.natCast_nonneg _), Int.toNat_natCast, cell,
    Array.getElem?_eq_getElem hlt]
  rfl

/-- **Without an overflow the enumerator yields the items**, each from a cell that was written. -/
theorem getEnumerator_eq {b : CircularBuffer α} (h : b.start + b.count ≤ 2 ^ 31) :
    b.getEnumerator = some (b.items.map some) := by
  rw [map_some_items]
  refine mapM_eq_map fun i hi => slot_index ?_
  have hlt : i < b.count := List.mem_range.mp hi
  omega

theorem readWhere_eq {b : CircularBuffer α} (h : b.start + b.count ≤ 2 ^ 31)
    (predicate : Option α → Bool) :
    b.readWhere predicate = some ((b.items.map some).filter predicate) := by
  rw [readWhere_eq_filter, getEnumerator_eq h]
  rfl

/-- The first sum that does not fit gives an index below zero. -/
theorem slot_overflow {b : CircularBuffer α} {i : Nat} (hcap : b.capacity < 2 ^ 31)
    (hlarge : 2 ^ 30 < b.capacity) (h : b.start + i = 2 ^ 31) : b.slot (b.index i) = none := by
  have hsum : ((b.start : Int) + i) = 2 ^ 31 := by omega
  have hmod : (2 ^ 31 : Int) % b.capacity = 2 ^ 31 - b.capacity := by
    rw [Int.emod_eq_sub_self_emod, Int.emod_eq_of_lt (by omega) (by omega)]
  have hindex : b.index i < 0 := by
    rw [index, hsum, int32_overflow, Int.neg_tmod, Int.tmod_eq_emod_of_nonneg (by omega), hmod]
    omega
  rw [slot, if_neg (by omega)]

/-- **An overflow ends the walk with an exception.** -/
theorem getEnumerator_overflow {b : CircularBuffer α} (hcap : b.capacity < 2 ^ 31)
    (h : 2 ^ 31 < b.start + b.count) : b.getEnumerator = none := by
  have hle : b.count ≤ b.capacity := b.count_le
  have hstart : b.start < b.capacity := by
    rw [start]
    split
    · exact b.capacity_pos
    · exact b.head_lt
  obtain ⟨i, hi⟩ : ∃ i : Nat, b.start + i = 2 ^ 31 := ⟨2 ^ 31 - b.start, by omega⟩
  have hlarge : 2 ^ 30 < b.capacity := by omega
  rw [getEnumerator]
  refine mapM_eq_none (x := i) ?_ (List.mem_range.mpr (by omega))
  exact slot_overflow hcap hlarge hi

/-! ## Runs of additions and resets -/

/-- What is done to a buffer between two reads. -/
inductive BufferCall (α : Type) where
  | add (item : α)
  | dispose

def perform (b : CircularBuffer α) : BufferCall α → CircularBuffer α
  | .add item => b.add item
  | .dispose => b.dispose

def run (b : CircularBuffer α) (calls : List (BufferCall α)) : CircularBuffer α :=
  calls.foldl perform b

/-- The items that were added since the last reset, the first of them first. -/
def addedSinceDispose (calls : List (BufferCall α)) : List α :=
  calls.foldl (fun added call => match call with
    | .add item => added ++ [item]
    | .dispose => []) []

/-- The buffer holds the last of the items it was given, and writes where their number says. -/
structure Holds (c : Nat) (added : List α) (b : CircularBuffer α) : Prop where
  capacity : b.capacity = c
  items : b.items = added.rtake c
  head : b.head = added.length % c
  count : b.count = min added.length c

theorem holds_empty {b : CircularBuffer α} {c : Nat} (hcap : b.capacity = c) (hhead : b.head = 0)
    (hcount : b.count = 0) : Holds c [] b where
  capacity := hcap
  items := by
    have hnone : b.items.length = 0 := b.length_items.trans hcount
    rw [List.length_eq_zero_iff.mp hnone, List.rtake_nil]
  head := hhead.trans (Nat.zero_mod c).symm
  count := hcount.trans (Nat.zero_min c).symm

theorem Holds.add {c : Nat} {added : List α} {b : CircularBuffer α} (h : Holds c added b) (x : α) :
    Holds c (added ++ [x]) (b.add x) where
  capacity := (b.capacity_add x).trans h.capacity
  items := by rw [items_add, h.capacity, h.items, rtake_rtake_append]
  head := by
    show (b.head + 1) % b.capacity = _
    rw [h.capacity, h.head, List.length_append, Nat.mod_add_mod]
    rfl
  count := by
    show (if b.count < b.capacity then b.count + 1 else b.count) = _
    rw [h.capacity, h.count, List.length_append]
    show _ = min (added.length + 1) c
    split <;> omega

theorem holds_run {c : Nat} (hc : 0 < c) (calls : List (BufferCall α)) :
    Holds c (addedSinceDispose calls) (run (new c hc) calls) := by
  have hall : ∀ (calls : List (BufferCall α)) (added : List α) (b : CircularBuffer α),
      Holds c added b → Holds c (calls.foldl (fun added call => match call with
        | .add item => added ++ [item]
        | .dispose => []) added) (run b calls) := by
    intro calls
    induction calls with
    | nil => exact fun _ _ h => h
    | cons call calls ih =>
      intro added b h
      cases call with
      | add item => exact ih _ _ (h.add item)
      | dispose =>
        have hcap : b.dispose.capacity = c := Array.size_replicate.trans h.capacity
        exact ih _ _ (holds_empty hcap rfl rfl)
  exact hall calls [] _ (holds_empty (capacity_new c hc) rfl rfl)

/-- Where the walk over the cells ends: it fits an `int` exactly for few items, or if the write
    position is low enough. -/
theorem Holds.fits_iff {c : Nat} {added : List α} {b : CircularBuffer α} (h : Holds c added b)
    (hint : c < 2 ^ 31) : b.start + b.count ≤ 2 ^ 31 ↔
      added.length < c ∨ added.length % c + c ≤ 2 ^ 31 := by
  have hcount := h.count
  rw [start, h.capacity]
  by_cases hfew : added.length < c
  · rw [if_pos (by omega)]
    omega
  · rw [if_neg (by omega), h.head]
    omega

/-- The two read paths, each run to its end, yield these items. -/
def Yields (b : CircularBuffer α) (items : List α) : Prop :=
  b.getEnumerator = some (items.map some) ∧
    ∀ predicate, b.readWhere predicate = some ((items.map some).filter predicate)

/-- The walk of a buffer without a reset, in terms of what it was given. -/
theorem Holds.yields_iff {c : Nat} {added : List α} {b : CircularBuffer α} (h : Holds c added b)
    (hint : c < 2 ^ 31) : b.Yields (added.rtake c) ↔
      added.length < c ∨ added.length % c + c ≤ 2 ^ 31 := by
  rw [← h.fits_iff hint, ← h.items]
  constructor
  · rintro ⟨hyield, -⟩
    by_contra hover
    rw [getEnumerator_overflow (h.capacity ▸ hint) (by omega)] at hyield
    cases hyield
  · intro hfits
    exact ⟨getEnumerator_eq hfits, readWhere_eq hfits⟩

theorem addedSinceDispose_adds (items : List α) :
    addedSinceDispose (items.map BufferCall.add) = items := by
  have hall : ∀ (items added : List α), (items.map BufferCall.add).foldl
      (fun added call => match call with
        | .add item => added ++ [item]
        | .dispose => []) added = added ++ items := by
    intro items
    induction items with
    | nil => exact fun added => (List.append_nil added).symm
    | cons x items ih => exact fun added => (ih (added ++ [x])).trans (List.append_assoc ..)
  exact hall items []

/-! ## What a reconnecting client is sent -/

/-- The session's buffer is small enough: its loop reads the events that are sorted and sent. -/
theorem readWhere_events {added : List BufferedEvent} {b : CircularBuffer BufferedEvent}
    (h : Holds GameSession.eventBufferSize added b) (k : Int) :
    b.readWhere (Option.any fun e => e.sequenceNumber > k) =
      some ((b.where_ fun e => e.sequenceNumber > k).map some) := by
  have hfits : b.start + b.count ≤ 2 ^ 31 := by
    refine (h.fits_iff (by decide)).mpr (.inr ?_)
    have hlt : added.length % GameSession.eventBufferSize < GameSession.eventBufferSize :=
      Nat.mod_lt _ (by decide)
    have hsize : GameSession.eventBufferSize = 200 := rfl
    omega
  rw [readWhere_eq hfits, where_, List.filter_map]
  rfl

/-- **The buffer is a sliding window as long as its indices fit an `int`**: both read paths yield the
    last `c` of the items added since the last reset exactly if fewer than `c` were added, or the write
    position and the length together stay within the range.  A session's buffer is far below it, so
    a reconnecting client gets the buffered events after its number, in order. -/
theorem yields_run_iff {c : Nat} (hc : 0 < c) (hint : c < 2 ^ 31) (calls : List (BufferCall α)) :
    ((run (new c hc) calls).Yields ((addedSinceDispose calls).rtake c) ↔
      (addedSinceDispose calls).length < c ∨ (addedSinceDispose calls).length % c + c ≤ 2 ^ 31) ∧
    ∀ (s : GameSession) (events : List (BufferCall BufferedEvent)) (k : Int),
      let buffer := run (new GameSession.eventBufferSize (by decide)) events
      let sent := ({ s with eventBuffer := buffer } : GameSession).getEventsAfter k
      buffer.readWhere (Option.any fun e => e.sequenceNumber > k) =
        some ((buffer.where_ fun e => e.sequenceNumber > k).map some) ∧
      sent.Perm (((addedSinceDispose events).rtake GameSession.eventBufferSize).filter
        fun e => e.sequenceNumber > k) ∧
      sent.Pairwise fun e e' => e.sequenceNumber ≤ e'.sequenceNumber := by
  refine ⟨(holds_run hc calls).yields_iff hint, fun s events k => ?_⟩
  have hholds := holds_run (show 0 < GameSession.eventBufferSize by decide) events
  refine ⟨readWhere_events hholds k, ?_, ?_⟩
  · show (List.insertionSort _ _).Perm _
    rw [← hholds.items]
    exact List.perm_insertionSort _ _
  · exact List.pairwise_insertionSort _ _

/-- A third item pushes the first out of two cells. -/
theorem yields_run_three :
    (run (new 2 (by decide)) [.add 1, .add 2, .add 3]).Yields [2, 3] :=
  (yields_run_iff (by decide) (by decide) [.add 1, .add 2, .add 3]).1.mpr (.inr (by decide))

/-- A buffer of 1.5 billion cells that has wrapped around by a billion: the sum overflows. -/
theorem not_yields_large :
    ¬ (run (new 1500000000 (by decide)) ((List.replicate 2500000000 true).map .add)).Yields
      ((addedSinceDispose ((List.replicate 2500000000 true).map .add)).rtake 1500000000) := by
  have hholds := holds_run (show 0 < 1500000000 by decide)
    ((List.replicate 2500000000 true).map .add)
  rw [hholds.yields_iff (by decide), addedSinceDispose_adds, List.length_replicate]
  omega

end CircularBuffer
end HexWar
