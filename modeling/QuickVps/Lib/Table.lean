import Mathlib.Data.List.Basic
import Mathlib.Tactic.Common

/-!
# Tables with issued ids

The rows of a table whose ids are issued in order: each new row takes the next number of a sequence,
and rows that are deleted leave their ids unused.
-/

/-- The rows in the order of their ids, none of them above the sequence. -/
structure Table (Row : Type*) (id : Row → Int) where
  rows : List Row
  seq : Int
  ascending : rows.Pairwise fun r r' => id r < id r'
  issued : ∀ r ∈ rows, 0 < id r ∧ id r ≤ seq
  seq_nonneg : 0 ≤ seq

namespace Table

variable {Row : Type*} {id : Row → Int} (t : Table Row id)

def empty : Table Row id where
  rows := []
  seq := 0
  ascending := .nil
  issued := by simp
  seq_nonneg := Int.le_refl 0

/-- A new row with the next id. -/
def insert (row : Int → Row) (hrow : ∀ n, id (row n) = n) : Table Row id where
  rows := t.rows ++ [row (t.seq + 1)]
  seq := t.seq + 1
  ascending := by
    refine List.pairwise_append.2 ⟨t.ascending, by simp, fun r hr r' hr' => ?_⟩
    have hle := (t.issued r hr).2
    rw [List.mem_singleton.1 hr', hrow]
    omega
  issued := by
    have hseq := t.seq_nonneg
    intro r hr
    rcases List.mem_append.1 hr with hr | hr
    · have hissued := t.issued r hr
      omega
    · rw [List.mem_singleton.1 hr, hrow]
      omega
  seq_nonneg := by
    have hseq := t.seq_nonneg
    omega

/-- Change rows, but not their ids. -/
def modify (f : Row → Row) (hf : ∀ r, id (f r) = id r) : Table Row id where
  rows := t.rows.map f
  seq := t.seq
  ascending := by
    rw [List.pairwise_map]
    exact t.ascending.imp fun {r r'} hlt => by rwa [hf, hf]
  issued := by
    intro r hr
    obtain ⟨r', hr', rfl⟩ := List.mem_map.1 hr
    rw [hf]
    exact t.issued r' hr'
  seq_nonneg := t.seq_nonneg

def filter (p : Row → Bool) : Table Row id where
  rows := t.rows.filter p
  seq := t.seq
  ascending := t.ascending.filter _
  issued := fun r hr => t.issued r (List.mem_filter.1 hr).1
  seq_nonneg := t.seq_nonneg

end Table
