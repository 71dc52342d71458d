/-
  A cell that several parties read, change and write back.

  A party reads the value, works on its copy, and writes the copy over whatever the cell holds by then.
  A `Write` records on how many earlier writes the copy rests (`base`) and what was done to it.  The
  writes are `Chained` when each rests on the one immediately before it; then nothing is overwritten
  unseen, and the cell holds what all the changes in turn make of the first value (`replay`).

  `chained_iff` says it from the side of the writer that comes too late: no write rests on a value that
  is older than a write before it.

  `Lease` is a lock that runs out, so that a party that dies does not keep it.
-/
import Mathlib.Algebra.Order.Ring.Int
import Mathlib.Data.List.Nodup

namespace HexWar.Lib

variable {ι ν : Type}

/-! ## The writes to a cell -/

structure Write (ι ν : Type) where
  writer : ι
  /-- How many writes the value had seen that was read. -/
  base : Nat
  change : ν → ν

/-- Every write rests on the one immediately before it. -/
def Chained (ws : List (Write ι ν)) : Prop :=
  ∀ (k : Nat) (w : Write ι ν), ws[k]? = some w → w.base = k

/-- What the changes, one after the other, make of a value. -/
def replay (first : ν) (ws : List (Write ι ν)) : ν := ws.foldl (fun v w => w.change v) first

/-- No write rests on one that comes after it. -/
def Grounded (ws : List (Write ι ν)) : Prop :=
  ∀ (k : Nat) (w : Write ι ν), ws[k]? = some w → w.base ≤ k

/-- An element of a list with one more at its end is an old one or the new one. -/
theorem getElem?_concat_eq_some {α : Type} {l : List α} {a b : α} {k : Nat}
    (h : (l ++ [a])[k]? = some b) : l[k]? = some b ∨ k = l.length ∧ b = a := by
  rcases Nat.lt_or_ge k l.length with hlt | hge
  · rw [List.getElem?_append_left hlt] at h
    exact Or.inl h
  · rw [List.getElem?_append_right hge] at h
    obtain ⟨hk, hb⟩ := List.getElem?_eq_some_iff.mp h
    have hlen : k - l.length < 1 := hk
    have hkl : k = l.length := by omega
    subst hkl
    simp only [Nat.sub_self, List.getElem_cons_zero] at hb
    exact Or.inr ⟨rfl, hb.symm⟩

theorem getElem?_concat_of_some {α : Type} {l : List α} {a b : α} {k : Nat} (h : l[k]? = some b) :
    (l ++ [a])[k]? = some b := by
  obtain ⟨hk, -⟩ := List.getElem?_eq_some_iff.mp h
  rw [List.getElem?_append_left hk]
  exact h

theorem chained_nil : Chained ([] : List (Write ι ν)) := by
  intro k w h
  cases h

theorem grounded_nil : Grounded ([] : List (Write ι ν)) := by
  intro k w h
  cases h

/-- One more write keeps the chain exactly if it has seen all the others. -/
theorem chained_concat {ws : List (Write ι ν)} {w : Write ι ν} :
    Chained (ws ++ [w]) ↔ Chained ws ∧ w.base = ws.length := by
  constructor
  · intro h
    refine ⟨fun k v hv => h k v (getElem?_concat_of_some hv), h ws.length w ?_⟩
    exact List.getElem?_concat_length
  · rintro ⟨h, hbase⟩ k v hv
    rcases getElem?_concat_eq_some hv with hold | ⟨rfl, rfl⟩
    · exact h k v hold
    · exact hbase

theorem Grounded.concat {ws : List (Write ι ν)} {w : Write ι ν} (h : Grounded ws)
    (hbase : w.base ≤ ws.length) : Grounded (ws ++ [w]) := by
  intro k v hv
  rcases getElem?_concat_eq_some hv with hold | ⟨rfl, rfl⟩
  · exact h k v hold
  · exact hbase

@[simp] theorem replay_concat (first : ν) (ws : List (Write ι ν)) (w : Write ι ν) :
    replay first (ws ++ [w]) = w.change (replay first ws) := by
  rw [replay, List.foldl_append]
  rfl

/-- **Writes are chained exactly if none rests on a value older than a write before it.** -/
theorem chained_iff {ws : List (Write ι ν)} (hg : Grounded ws) :
    Chained ws ↔ ∀ (j k : Nat) (w : Write ι ν), j < k → ws[k]? = some w → j < w.base := by
  constructor
  · intro h j k w hjk hw
    rw [h k w hw]
    exact hjk
  · intro h k w hw
    have hle : w.base ≤ k := hg k w hw
    by_contra hne
    -- the write just before would have been missed
    have hlt : k - 1 < w.base := h (k - 1) k w (by omega) hw
    omega

/-- Where nobody writes twice, a writer has one write. -/
theorem index_eq_of_writer {ws : List (Write ι ν)} (hnodup : (ws.map (·.writer)).Nodup) {j k : Nat}
    {v w : Write ι ν} (hv : ws[j]? = some v) (hw : ws[k]? = some w) (h : v.writer = w.writer) :
    j = k := by
  have hj : (ws.map (·.writer))[j]? = some v.writer := by rw [List.getElem?_map, hv]; rfl
  have hk : (ws.map (·.writer))[k]? = some w.writer := by rw [List.getElem?_map, hw]; rfl
  refine (List.getElem?_inj ?_ hnodup).mp (hj.trans ((congrArg some h).trans hk.symm))
  exact (List.getElem?_eq_some_iff.mp hj).1

/-! ## A lock that runs out -/

structure Lease (ι : Type) where
  owner : ι
  expiresAt : Int
deriving DecidableEq, Repr

/-- The lease that is in force. -/
def Lease.live (lease : Option (Lease ι)) (now : Int) : Option (Lease ι) :=
  lease.filter fun l => decide (now < l.expiresAt)

/-- Take the lock unless somebody has it. -/
def Lease.acquire (lease : Option (Lease ι)) (now ttl : Int) (owner : ι) : Option (Lease ι) :=
  match Lease.live lease now with
  | some _ => none
  | none => some ⟨owner, now + ttl⟩

/-- Give the lock back, if it is still one's own. -/
def Lease.release [DecidableEq ι] (lease : Option (Lease ι)) (now : Int) (owner : ι) :
    Option (Lease ι) :=
  if (Lease.live lease now).any (·.owner = owner) then none else lease

theorem Lease.of_live {lease : Option (Lease ι)} {now : Int} {l : Lease ι}
    (h : Lease.live lease now = some l) : lease = some l :=
  (Option.filter_eq_some_iff.mp h).1

theorem Lease.owner_of_acquire {lease : Option (Lease ι)} {now ttl : Int} {owner : ι} {l : Lease ι}
    (h : Lease.acquire lease now ttl owner = some l) : l.owner = owner := by
  rw [Lease.acquire] at h
  split at h
  · cases h
  · cases h
    rfl

/-- Giving a lock back gives it to nobody else. -/
theorem Lease.of_release [DecidableEq ι] {lease : Option (Lease ι)} {now : Int} {owner : ι}
    {l : Lease ι} (h : Lease.release lease now owner = some l) : lease = some l := by
  rw [Lease.release] at h
  split at h
  · cases h
  · exact h

end HexWar.Lib
