import Mathlib.Data.List.Perm.Subperm
import Mathlib.Order.Lattice
import QuickVps.Lib.Table

/-!
# Paging through a table that changes

A reader takes the newest rows of a table, page by page, each page below the last id of the one
before, while rows are inserted and deleted.

* `page` — the newest rows below an id, or the newest of all;
* `Descends` — a table after insertions and deletions: its old rows were there, and its new ones
  have new ids;
* `Paged` — what has been read of the rows of the first table: in descending order, and nothing
  else (`Paged.next`); `passed_of_page`: a row that is there when the reader comes to it is read.
-/

namespace Table

variable {Row : Type*} {id : Row → Int}

/-- The newest rows below `before`, or the newest of all. -/
def page (t : Table Row id) (limit : Nat) (before : Int) : List Row :=
  ((t.rows.filter fun r => before ≤ 0 ∨ id r < before).reverse).take limit

/-! ## One page -/

section Page

variable {t : Table Row id} {limit : Nat} {before : Int}

theorem page_desc : (t.page limit before).Pairwise fun r r' => id r' < id r := by
  refine List.Pairwise.sublist (List.take_sublist _ _) ?_
  rw [List.pairwise_reverse]
  exact t.ascending.filter _

theorem mem_of_mem_page {r : Row} (h : r ∈ t.page limit before) :
    r ∈ t.rows ∧ (before ≤ 0 ∨ id r < before) := by
  have hmem := List.mem_of_mem_take h
  rw [List.mem_reverse, List.mem_filter] at hmem
  exact ⟨hmem.1, of_decide_eq_true hmem.2⟩

/-- A row below the cursor is on the page, or the page is full of rows above it. -/
theorem mem_page_or {r : Row} (hlimit : 0 < limit) (hr : r ∈ t.rows)
    (hbefore : before ≤ 0 ∨ id r < before) :
    r ∈ t.page limit before ∨
      t.page limit before ≠ [] ∧ ∀ r' ∈ t.page limit before, id r < id r' := by
  let below := (t.rows.filter fun r => before ≤ 0 ∨ id r < before).reverse
  have hbelow : r ∈ below.take limit ++ below.drop limit := by
    rw [List.take_append_drop, List.mem_reverse, List.mem_filter]
    exact ⟨hr, decide_eq_true hbefore⟩
  have hdesc : below.Pairwise fun r r' => id r' < id r := by
    rw [List.pairwise_reverse]
    exact t.ascending.filter _
  rcases List.mem_append.1 hbelow with hpage | hrest
  · exact .inl hpage
  · rw [← List.take_append_drop limit below] at hdesc
    refine .inr ⟨fun hnil => ?_, fun r' hr' => (List.pairwise_append.1 hdesc).2.2 r' hr' r hrest⟩
    have hnone : below = [] := (List.take_eq_nil_iff.1 hnil).resolve_left hlimit.ne'
    rw [hnone, List.drop_nil] at hrest
    cases hrest

end Page

/-! ## Tables that descend from a first one -/

/-- Insertions and deletions lead from `first` to `t`. -/
structure Descends (first t : Table Row id) : Prop where
  rows : ∀ r ∈ t.rows, r ∈ first.rows ∨ first.seq < id r
  seq : first.seq ≤ t.seq

theorem Descends.refl (t : Table Row id) : Descends t t := ⟨fun _ => .inl, le_refl _⟩

theorem Descends.insert {first t : Table Row id} (h : Descends first t) {row : Int → Row}
    {hrow : ∀ n, id (row n) = n} : Descends first (t.insert row hrow) where
  rows := by
    intro r hr
    rcases List.mem_append.1 hr with hr | hr
    · exact h.rows r hr
    · have hseq := h.seq
      rw [List.mem_singleton.1 hr, hrow]
      exact .inr (by omega)
  seq := by
    have hseq := h.seq
    show first.seq ≤ t.seq + 1
    omega

theorem Descends.filter {first t : Table Row id} (h : Descends first t) {p : Row → Bool} :
    Descends first (t.filter p) where
  rows := fun r hr => h.rows r (List.mem_filter.1 hr).1
  seq := h.seq

/-! ## Many pages -/

/-- The last id that was read, or zero. -/
def cursor (id : Row → Int) (read : List Row) : Int := (read.getLast?.map id).getD 0

/-- The reader has read these rows of the first table. -/
structure Paged (first : Table Row id) (read : List Row) : Prop where
  desc : read.Pairwise fun r r' => id r' < id r
  mem : ∀ r ∈ read, r ∈ first.rows

/-- The reader is past a row: it was at that row or above it. -/
def Passed (id : Row → Int) (read : List Row) (r : Row) : Prop :=
  read ≠ [] ∧ cursor id read ≤ id r

theorem cursor_of_ne_nil {read : List Row} (h : read ≠ []) :
    cursor id read = id (read.getLast h) := by
  rw [cursor, List.getLast?_eq_some_getLast h]
  rfl

/-- The last page that is not empty ends what was read. -/
theorem cursor_append {read page : List Row} (h : page ≠ []) :
    cursor id (read ++ page) = cursor id page := by
  rw [cursor_of_ne_nil (List.append_ne_nil_of_right_ne_nil read h), cursor_of_ne_nil h,
    List.getLast_append_of_ne_nil _ h]

section Paged

variable {first t : Table Row id} {read : List Row} {limit : Nat}

theorem paged_nil : Paged first [] := ⟨.nil, by simp⟩

theorem Paged.cursor_pos (h : Paged first read) (hne : read ≠ []) : 0 < cursor id read := by
  rw [cursor_of_ne_nil hne]
  exact (first.issued _ (h.mem _ (List.getLast_mem hne))).1

theorem Paged.cursor_le (h : Paged first read) : ∀ r ∈ read, cursor id read ≤ id r := by
  intro r hr
  have hne := List.ne_nil_of_mem hr
  rw [cursor_of_ne_nil hne]
  have hdesc := h.desc
  rw [← List.dropLast_append_getLast hne] at hr hdesc
  rcases List.mem_append.1 hr with hr | hr
  · exact ((List.pairwise_append.1 hdesc).2.2 r hr _ List.mem_cons_self).le
  · rw [List.mem_singleton.1 hr]

theorem Paged.nodup (h : Paged first read) : read.Nodup :=
  h.desc.imp fun hlt heq => by
    subst heq
    exact lt_irrefl _ hlt

/-- There are no more rows than the first table has. -/
theorem Paged.length_le (h : Paged first read) : read.length ≤ first.rows.length :=
  (List.subperm_of_subset h.nodup h.mem).length_le

/-- **One page further.** What is read below the cursor are rows of the first table again. -/
theorem Paged.next (h : Paged first read) (hdesc : Descends first t)
    (hfirst : read = [] → t = first) : Paged first (read ++ t.page limit (cursor id read)) where
  desc := by
    refine List.pairwise_append.2 ⟨h.desc, page_desc, fun r hr r' hr' => ?_⟩
    have hpos := h.cursor_pos (List.ne_nil_of_mem hr)
    have hlt : id r' < cursor id read := (mem_of_mem_page hr').2.resolve_left hpos.not_ge
    exact hlt.trans_le (h.cursor_le r hr)
  mem := by
    intro r hr
    rcases List.mem_append.1 hr with hr | hr
    · exact h.mem r hr
    · obtain ⟨hrow, hbefore⟩ := mem_of_mem_page hr
      by_cases hread : read = []
      · exact hfirst hread ▸ hrow
      · -- a row below the cursor is older than the first page
        have hlt : id r < cursor id read := hbefore.resolve_left (h.cursor_pos hread).not_ge
        have hlast := first.issued _ (h.mem _ (List.getLast_mem hread))
        rw [cursor_of_ne_nil hread] at hlt
        exact (hdesc.rows r hrow).resolve_right (by omega)

/-- A row that is there when the reader comes to it is read, or it is still to come. -/
theorem mem_of_page (hlimit : 0 < limit) {r : Row} (hr : r ∈ t.rows)
    (hpassed : ¬ Passed id read r) :
    r ∈ t.page limit (cursor id read) ∨
      t.page limit (cursor id read) ≠ [] ∧
        ¬ Passed id (read ++ t.page limit (cursor id read)) r := by
  have hbefore : cursor id read ≤ 0 ∨ id r < cursor id read := by
    by_cases hread : read = []
    · subst hread
      exact .inl (le_refl 0)
    · exact .inr (not_le.1 fun hle => hpassed ⟨hread, hle⟩)
  refine (mem_page_or hlimit hr hbefore).imp_right fun ⟨hne, habove⟩ => ⟨hne, fun hnow => ?_⟩
  have hcursor := hnow.2
  rw [cursor_append hne, cursor_of_ne_nil hne] at hcursor
  exact hcursor.not_gt (habove _ (List.getLast_mem hne))

end Paged

end Table
