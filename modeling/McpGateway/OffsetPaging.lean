import Mathlib

/-!
# Paging by offset

A reader asks a sorted collection for one page after another, by offset, until
a page is short. Rows that are added between two pages push others towards
later pages, never towards earlier ones. So a row that was there when the walk
began, and that the order tells apart, is on the way until it is read.
-/

namespace McpGateway.OffsetPaging

variable {α κ : Type*} [LinearOrder κ]

/-- Rows in descending order of their keys. -/
def Descending (key : α→κ) (rows : List α) : Prop := rows.Pairwise (fun a b => key b≤key a)

/-- Number of rows with a greater key. -/
def rank (key : α→κ) (rows : List α) (x : α) : ℕ := rows.countP (fun y => decide (key x<key y))

/-- No other row has the key of `x`. -/
def Alone (key : α→κ) (rows : List α) (x : α) : Prop := ∀ y∈rows, key y=key x→y=x

/-- At most `limit` rows from an offset on. -/
def page (rows : List α) (offset limit : ℕ) : List α := (rows.drop offset).take limit

section Ranks

variable {key : α→κ} {rows : List α} {x : α}

/-- More rows give no row a smaller rank. -/
theorem rank_mono {more : List α} (h : rows.Subperm more) (x : α) :
    rank key rows x≤ rank key more x := h.countP_le _

/-- Rows that a row is not below have rank zero. -/
theorem rank_eq_zero (h : ∀ y∈rows, key y≤key x) : rank key rows x=0 := by
  refine List.countP_eq_zero.mpr ?_
  intro y hy
  rw [decide_eq_true_iff]
  exact not_lt.mpr (h y hy)

/-- The row at the rank of `x` has the key of `x`. -/
theorem getElem?_rank (h : Descending key rows) (hx : x∈rows) :
    ∃ y, rows[rank key rows x]?=some y ∧ key y=key x := by
  induction rows with
  | nil => cases hx
  | cons a rest ih =>
    have hrest := List.pairwise_cons.mp h
    by_cases ha : key x<key a
    · have hne : x≠a := by
        rintro rfl
        exact lt_irrefl _ ha
      have hxr : x∈rest := (List.mem_cons.mp hx).resolve_left hne
      have hrank : rank key (a::rest) x=rank key rest x+1 :=
        List.countP_cons_of_pos (decide_eq_true ha)
      rw [hrank,List.getElem?_cons_succ]
      exact ih hrest.2 hxr
    · have htop : ∀ y∈a::rest, key y≤key x := by
        intro y hy
        rcases List.mem_cons.mp hy with rfl | hy
        · exact not_lt.mp ha
        · exact (hrest.1 y hy).trans (not_lt.mp ha)
      have hax : key x≤key a := by
        rcases List.mem_cons.mp hx with rfl | hx
        · exact le_rfl
        · exact hrest.1 x hx
      rw [rank_eq_zero htop]
      exact ⟨a,rfl,le_antisymm (not_lt.mp ha) hax⟩

/-- The rank of a row is one of its positions. -/
theorem rank_lt (h : Descending key rows) (hx : x∈rows) : rank key rows x<rows.length := by
  obtain ⟨y,hy,-⟩ := getElem?_rank h hx
  exact (List.getElem?_eq_some_iff.mp hy).1

/-- A row that the order tells apart is on the page that covers its rank. -/
theorem mem_page (h : Descending key rows) (hx : x∈rows) (ha : Alone key rows x)
    {offset limit : ℕ} (hfrom : offset≤rank key rows x)
    (hto : rank key rows x<offset+limit) : x∈page rows offset limit := by
  obtain ⟨y,hy,hkey⟩ := getElem?_rank h hx
  have hsame : y=x := ha y (List.mem_of_getElem? hy) hkey
  rw [hsame] at hy
  refine List.mem_of_getElem? (i:=rank key rows x-offset) ?_
  have hroom : rank key rows x-offset<limit := by omega
  have hback : offset+(rank key rows x-offset)=rank key rows x := by omega
  rw [page,List.getElem?_take,if_pos hroom,List.getElem?_drop,hback]
  exact hy

/-- Rows of a page are rows. -/
theorem mem_of_mem_page {offset limit : ℕ} (h : x∈page rows offset limit) : x∈rows :=
  List.mem_of_mem_drop (List.mem_of_mem_take h)

/-- Rows in descending order with pairwise different keys have one order. -/
theorem descending_unique {others : List α} (hp : rows.Perm others) (hr : Descending key rows)
    (ho : Descending key others) (ha : ∀ y∈rows, Alone key rows y) : rows=others := by
  refine hp.eq_of_pairwise ?_ hr ho
  intro a b hmem hmem' hle hle'
  exact (ha a hmem b (hp.mem_iff.mpr hmem') (le_antisymm hle' hle).symm).symm

end Ranks

/-- A reader on its way. -/
structure Walk (α : Type*) where
  /-- Offset of the next page. -/
  offset : ℕ := 0
  /-- Rows of the pages so far. -/
  seen : List α := []
  /-- A page was short. -/
  ended : Bool := false

/-- The reader after one more page. -/
def Walk.turn (limit : ℕ) (w : Walk α) (rows : List α) : Walk α where
  offset := w.offset+limit
  seen := w.seen++rows
  ended := decide (rows.length<limit)

/-- The row was read, or the walk goes on at or before its rank. -/
def Covers (key : α→κ) (rows : List α) (x : α) (w : Walk α) : Prop :=
  x∈w.seen ∨ w.ended=false ∧ w.offset≤rank key rows x

section Walks

variable {key : α→κ} {rows : List α} {x : α} {w : Walk α}

/-- A walk that begins covers every row. -/
theorem covers_start : Covers key rows x {} := Or.inr ⟨rfl,Nat.zero_le _⟩

/-- Added rows leave a row covered. -/
theorem Covers.grow {more : List α} (h : Covers key rows x w) (hg : rows.Subperm more) :
    Covers key more x w := h.imp_right (fun hw => ⟨hw.1,hw.2.trans (rank_mono hg x)⟩)

/-- A page leaves a row covered that the order tells apart. -/
theorem Covers.turn (h : Covers key rows x w) (hd : Descending key rows) (hx : x∈rows)
    (ha : Alone key rows x) (limit : ℕ) :
    Covers key rows x (w.turn limit (page rows w.offset limit)) := by
  rcases h with hseen | ⟨-,hoffset⟩
  · exact Or.inl (List.mem_append_left _ hseen)
  · by_cases hnear : rank key rows x<w.offset+limit
    · exact Or.inl (List.mem_append_right _ (mem_page hd hx ha hoffset hnear))
    · have hrank := rank_lt hd hx
      have hfull : ¬(page rows w.offset limit).length<limit := by
        rw [page,List.length_take,List.length_drop]
        omega
      exact Or.inr ⟨decide_eq_false hfull,not_lt.mp hnear⟩

/-- A walk that ended has read what it covers. -/
theorem Covers.read (h : Covers key rows x w) (he : w.ended=true) : x∈w.seen := by
  rcases h with hseen | ⟨hended,-⟩
  · exact hseen
  · rw [he] at hended
    cases hended

/-- The walk has read a beginning of the rows; all of them, when it ended. -/
def Reads (rows : List α) (w : Walk α) : Prop :=
  w.seen=rows.take w.offset ∧ (w.ended=true→ rows.length≤w.offset)

/-- A walk that begins has read nothing. -/
theorem reads_start : Reads rows {} := ⟨rfl,fun h => (by cases h)⟩

/-- A page of unchanged rows continues the beginning. -/
theorem Reads.turn (h : Reads rows w) (limit : ℕ) :
    Reads rows (w.turn limit (page rows w.offset limit)) := by
  refine ⟨?_,?_⟩
  · rw [Walk.turn,h.1,page,List.take_add]
  · intro he
    have hshort := of_decide_eq_true he
    rw [page,List.length_take,List.length_drop] at hshort
    have hend : rows.length≤w.offset+limit := by omega
    exact hend

/-- A walk over unchanged rows has read them all when it ends. -/
theorem Reads.complete (h : Reads rows w) (he : w.ended=true) : w.seen=rows := by
  rw [h.1]
  exact List.take_of_length_le (h.2 he)

end Walks

end McpGateway.OffsetPaging
