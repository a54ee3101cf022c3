import Gubbi.Library.Fallible
import Mathlib.Data.List.Dedup
import Mathlib.Data.List.Sort
import Mathlib.Algebra.GroupWithZero.Nat

/-!
# Ordered queries and their pages

`ORDER BY` promises an arrangement of the selected rows and no more: rows that tie
may come in any order, and in another one at the next call. When ties only happen
between equal rows there is one arrangement, so the pages at the offsets
0, L, 2L, ... of separate calls are slices of one list.
-/

namespace Queries

universe u v w

/-- A three-way comparison with the laws of a total preorder. -/
structure Comparison (K : Type u) where
  cmp : K → K → Ordering
  lawful : Std.TransCmp cmp

namespace Comparison
variable {K : Type u} {R : Type v}

def nat : Comparison Nat := ⟨@compare Nat instOrdNat, inferInstance⟩

def int : Comparison Int := ⟨@compare Int instOrdInt, inferInstance⟩

/-- `ORDER BY key ASC`. -/
def asc (c : Comparison K) (key : R → K) : Comparison R where
  cmp a b := c.cmp (key a) (key b)
  lawful :=
    have := c.lawful
    { eq_swap := fun {_ _} => @Std.OrientedCmp.eq_swap K c.cmp _ _ _
      isLE_trans := fun first second => @Std.TransCmp.isLE_trans K c.cmp _ _ _ _ first second }

/-- `ORDER BY key DESC`. -/
def desc (c : Comparison K) (key : R → K) : Comparison R where
  cmp a b := c.cmp (key b) (key a)
  lawful :=
    have := c.lawful
    { eq_swap := fun {_ _} => @Std.OrientedCmp.eq_swap K c.cmp _ _ _
      isLE_trans := fun first second => @Std.TransCmp.isLE_trans K c.cmp _ _ _ _ second first }

/-- A later key of the `ORDER BY`, which decides the ties of the earlier ones. -/
def andThen (c d : Comparison R) : Comparison R where
  cmp := compareLex c.cmp d.cmp
  lawful :=
    have := c.lawful
    have := d.lawful
    inferInstance

/-- `ASC` or `DESC`, as a query takes it from an argument. -/
def directed (ascending : Bool) (c : Comparison K) (key : R → K) : Comparison R :=
  if ascending then c.asc key else c.desc key

def Tied (c : Comparison R) (a b : R) : Prop := c.cmp a b = .eq

@[simp] theorem tied_asc {c : Comparison K} {key : R → K} {a b : R} :
    (c.asc key).Tied a b ↔ c.Tied (key a) (key b) := Iff.rfl

@[simp] theorem tied_desc {c : Comparison K} {key : R → K} {a b : R} :
    (c.desc key).Tied a b ↔ c.Tied (key b) (key a) := Iff.rfl

@[simp] theorem tied_andThen {c d : Comparison R} {a b : R} :
    (c.andThen d).Tied a b ↔ c.Tied a b ∧ d.Tied a b :=
  Ordering.then_eq_eq

/-- The lexicographic order of lists, a collation by code points. -/
def lists (c : Comparison K) : Comparison (List K) where
  cmp := List.compareLex c.cmp
  lawful :=
    have := c.lawful
    inferInstance

theorem tied_lists {c : Comparison K} (exact : ∀ a b, c.Tied a b ↔ a = b) (as bs : List K) :
    c.lists.Tied as bs ↔ as = bs := by
  have : Std.LawfulEqCmp c.cmp :=
    { compare_self := (exact _ _).mpr rfl
      eq_of_compare := (exact _ _).mp }
  exact @Std.LawfulEqCmp.compare_eq_iff_eq (List K) (List.compareLex c.cmp) inferInstance as bs

theorem tied_comm {c : Comparison R} {a b : R} : c.Tied a b ↔ c.Tied b a := by
  have := c.lawful
  rw [Tied, Tied, @Std.OrientedCmp.eq_swap R c.cmp _ a b, Ordering.swap_eq_eq]

@[simp] theorem tied_directed {ascending : Bool} {c : Comparison K} {key : R → K} {a b : R} :
    (directed ascending c key).Tied a b ↔ c.Tied (key a) (key b) := by
  cases ascending with
  | true => exact Iff.rfl
  | false => exact tied_comm

@[simp] theorem tied_nat {a b : Nat} : nat.Tied a b ↔ a = b :=
  Nat.compare_eq_eq

theorem tied_of_isLE {c : Comparison R} {a b : R} (le : (c.cmp a b).isLE = true)
    (ge : (c.cmp b a).isLE = true) : c.Tied a b := by
  have := c.lawful
  rw [@Std.OrientedCmp.eq_swap R c.cmp _ b a, Ordering.isLE_swap] at ge
  cases h : c.cmp a b with
  | eq => exact h
  | lt => rw [h] at ge; cases ge
  | gt => rw [h] at le; cases le

end Comparison

/-- What a planner may use for an `ORDER BY`. -/
structure Sorter {R : Type u} (c : Comparison R) where
  sort : List R → List R
  perm : ∀ rows, (sort rows).Perm rows
  sorted : ∀ rows, (sort rows).Pairwise (fun a b => (c.cmp a b).isLE = true)

section Sorting
variable {R : Type u} {c : Comparison R}

/-- A planner for every order. -/
def Comparison.sorter (c : Comparison R) : Sorter c where
  sort rows := rows.insertionSort (fun a b => (c.cmp a b).isLE = true)
  perm rows := List.perm_insertionSort _ rows
  sorted rows := by
    have := c.lawful
    have : Std.Total (fun a b => (c.cmp a b).isLE = true) := by
      constructor
      intro a b
      rw [@Std.OrientedCmp.eq_swap R c.cmp _ b a]
      cases c.cmp a b with
      | lt => exact Or.inl rfl
      | eq => exact Or.inl rfl
      | gt => exact Or.inr rfl
    have : IsTrans R (fun a b => (c.cmp a b).isLE = true) :=
      ⟨fun _ _ _ first second => @Std.TransCmp.isLE_trans R c.cmp _ _ _ _ first second⟩
    exact List.pairwise_insertionSort _ rows

/-- Rows of the list tie with themselves only. -/
def Separates (c : Comparison R) (rows : List R) : Prop :=
  ∀ a ∈ rows, ∀ b ∈ rows, c.Tied a b → a = b

theorem Sorter.length_sort (s : Sorter c) (rows : List R) : (s.sort rows).length = rows.length :=
  (s.perm rows).length_eq

/-- Rows with keys of their own come in a strict order. -/
theorem Sorter.strict {K : Type v} {d : Comparison K} {key : R → K} (s : Sorter (d.asc key))
    (exact : ∀ a b, d.Tied a b → a = b) {rows : List R} (nodup : (rows.map key).Nodup) :
    (s.sort rows).Pairwise (fun a b => d.cmp (key a) (key b) = .lt) := by
  have keys : ((s.sort rows).map key).Nodup := ((s.perm rows).map key).nodup_iff.mpr nodup
  refine ((s.sorted rows).and (List.pairwise_map.mp keys)).imp ?_
  rintro a b ⟨le, ne⟩
  cases h : d.cmp (key a) (key b) with
  | lt => rfl
  | eq => exact absurd (exact _ _ h) ne
  | gt =>
    have gt : ((d.asc key).cmp a b).isLE = false := congrArg Ordering.isLE h
    rw [gt] at le
    cases le

theorem Separates.filter {rows : List R} (separates : Separates c rows) (p : R → Bool) :
    Separates c (rows.filter p) := by
  intro a ha b hb tied
  exact separates a (List.mem_of_mem_filter ha) b (List.mem_of_mem_filter hb) tied

/-- An order without ties does not depend on how the rows were found. -/
theorem sort_of_perm {rows others : List R} (separates : Separates c rows)
    (perm : rows.Perm others) (s t : Sorter c) : s.sort rows = t.sort others := by
  refine List.Perm.eq_of_pairwise ?_ (s.sorted rows) (t.sorted others)
    ((s.perm rows).trans (perm.trans (t.perm others).symm))
  intro a b inS inT le ge
  exact separates a ((s.perm rows).mem_iff.mp inS) b
    (perm.mem_iff.mpr ((t.perm others).mem_iff.mp inT)) (Comparison.tied_of_isLE le ge)

/-- An order without ties leaves the planner no choice. -/
theorem sort_unique {rows : List R} (separates : Separates c rows) (s t : Sorter c) :
    s.sort rows = t.sort rows := sort_of_perm separates (List.Perm.refl rows) s t

/-- Rows that are in order already stay where they are. -/
theorem sort_of_sorted {rows : List R} (separates : Separates c rows)
    (sorted : rows.Pairwise (fun a b => (c.cmp a b).isLE = true)) (s : Sorter c) :
    s.sort rows = rows := by
  refine List.Perm.eq_of_pairwise ?_ (s.sorted rows) sorted (s.perm rows)
  intro a b inS inRows le ge
  exact separates a ((s.perm rows).mem_iff.mp inS) b inRows (Comparison.tied_of_isLE le ge)

/-- A row that is the only one to meet a condition is the one found. -/
theorem find_of_only {rows : List R} {p : R → Bool} {row : R} (mem : row ∈ rows)
    (meets : p row = true) (only : ∀ other ∈ rows, p other = true → other = row) :
    rows.find? p = some row := by
  cases found : rows.find? p with
  | none => exact absurd meets (List.find?_eq_none.mp found row mem)
  | some other =>
    rw [only other (List.mem_of_find?_eq_some found) (List.find?_some found)]

end Sorting

section Groups
variable {R : Type u} {K : Type v} {B : Type w} [DecidableEq K]

/-- `GROUP BY key`, with a summary of each group. -/
def groupBy (key : R → K) (summary : K → List R → B) (rows : List R) : List B :=
  (rows.map key).dedup.map (fun k => summary k (rows.filter (fun row => key row = k)))

theorem mem_groupBy {key : R → K} {summary : K → List R → B} {rows : List R} {b : B} :
    b ∈ groupBy key summary rows ↔
      ∃ k ∈ rows.map key, summary k (rows.filter (fun row => key row = k)) = b := by
  simp only [groupBy, List.mem_map, List.mem_dedup]

/-- One group for each key. -/
theorem map_groupBy {key : R → K} {summary : K → List R → B} {label : B → K}
    (labelled : ∀ k rows, label (summary k rows) = k) (rows : List R) :
    (groupBy key summary rows).map label = (rows.map key).dedup := by
  rw [groupBy, List.map_map]
  exact (List.map_congr_left fun k _ => labelled k _).trans (List.map_id _)

/-- The groups are those of the known keys that occur. -/
theorem groupBy_perm {key : R → K} {summary : K → List R → B} {rows : List R} {keys : List K}
    (nodup : keys.Nodup) (known : ∀ row ∈ rows, key row ∈ keys) :
    (groupBy key summary rows).Perm
      ((keys.filter (fun k => 0 < rows.countP (fun row => key row = k))).map
        (fun k => summary k (rows.filter (fun row => key row = k)))) := by
  refine List.Perm.map _ ?_
  rw [List.perm_ext_iff_of_nodup (List.nodup_dedup _) (nodup.filter _)]
  intro k
  simp only [List.mem_dedup, List.mem_map, List.mem_filter, decide_eq_true_eq, List.countP_pos_iff]
  constructor
  · rintro ⟨row, mem, rfl⟩
    exact ⟨known row mem, row, mem, rfl⟩
  · exact fun both => both.2

omit [DecidableEq K] in
/-- A sum of indicators is a count. -/
theorem sum_indicator (p q : R → Bool) (rows : List R) :
    ((rows.filter q).map (fun row => (p row).toNat)).sum =
      rows.countP (fun row => p row && q row) := by
  induction rows with
  | nil => rfl
  | cons row rest ih =>
    cases hq : q row with
    | false => simp [hq, ih]
    | true =>
      cases hp : p row with
      | false => simp [hq, hp, ih]
      | true => simp [hq, hp, ih, Nat.add_comm]

end Groups

section Joins
variable {R : Type u} {B : Type v} {C : Type w} {joined : Option R} {p : R → Bool} {f : R → B}

/-- A row of a join with a filter. -/
theorem join_eq_some {b : B} :
    (joined.bind fun row => if p row then some (f row) else none) = some b ↔
      ∃ row, joined = some row ∧ p row = true ∧ f row = b := by
  rw [Option.bind_eq_some_iff]
  refine exists_congr fun row => and_congr_right fun _ => ?_
  cases p row with
  | false => simp
  | true => simp

theorem map_join (g : B → C) :
    (joined.bind fun row => if p row then some (f row) else none).map g =
      joined.bind fun row => if p row then some (g (f row)) else none := by
  cases joined with
  | none => rfl
  | some row => exact apply_ite (Option.map g) _ _ _

end Joins

/-- `LIMIT limit OFFSET offset`; `NULL` is no limit. -/
def page {R : Type u} (limit : Option Nat) (offset : Nat) (rows : List R) : List R :=
  match limit with
  | none => rows.drop offset
  | some size => (rows.drop offset).take size

/-- Each row with the number of all rows, `COUNT(*) OVER()`. -/
def window {R : Type u} (rows : List R) : List (R × Nat) := rows.map (fun row => (row, rows.length))

/-- A page of counted rows as a call returns it: the total is that of the first row,
or the result of a count of its own. -/
def countedPage {R : Type u} {B : Type v} {ε : Type w} (counted : List (R × Nat))
    (fallback : Except ε Nat) (decode : R → Except ε B) : Except ε (List B × Nat) :=
  match (match counted with | [] => fallback | (_, total) :: _ => .ok total) with
  | .error e => .error e
  | .ok total => ((counted.map Prod.fst).mapM decode).map (fun items => (items, total))

section Pages
variable {R : Type u} {B : Type v} {ε : Type w}

theorem map_page {S : Type v} (f : R → S) (limit : Option Nat) (offset : Nat) (rows : List R) :
    (page limit offset rows).map f = page limit offset (rows.map f) := by
  cases limit with
  | none => exact List.map_drop
  | some size => simp only [page, List.map_take, List.map_drop]

theorem window_rows (limit : Option Nat) (offset : Nat) (rows : List R) :
    (page limit offset (window rows)).map Prod.fst = page limit offset rows := by
  rw [map_page, window, List.map_map]
  exact congrArg _ (List.map_id rows)

theorem mem_of_mem_page {limit : Option Nat} {offset : Nat} {rows : List R} {row : R}
    (mem : row ∈ page limit offset rows) : row ∈ rows := by
  cases limit with
  | none => exact List.mem_of_mem_drop mem
  | some size => exact List.mem_of_mem_drop (List.mem_of_mem_take mem)

/-- The window and a fallback that counts the same rows give the same total. -/
theorem countedPage_window {rows : List R} {total : Nat} {fallback : Except ε Nat}
    (length : rows.length = total) (counts : fallback = .ok total) (limit : Option Nat)
    (offset : Nat) (decode : R → Except ε B) :
    countedPage (page limit offset (window rows)) fallback decode =
      ((page limit offset rows).mapM decode).map (fun items => (items, total)) := by
  have first : (match page limit offset (window rows) with
      | [] => fallback
      | (_, total) :: _ => .ok total) = .ok total := by
    cases h : page limit offset (window rows) with
    | nil => exact counts
    | cons first rest =>
      have mem : first ∈ window rows := mem_of_mem_page (h ▸ List.mem_cons_self)
      obtain ⟨row, _, rfl⟩ := List.mem_map.mp mem
      exact congrArg Except.ok length
  simp only [countedPage, first, window_rows]

/-- An item of a counted page is made from one of its rows. -/
theorem mem_countedPage {counted : List (R × Nat)} {fallback : Except ε Nat}
    {decode : R → Except ε B} {items : List B} {total : Nat}
    (returned : countedPage counted fallback decode = .ok (items, total)) {item : B}
    (mem : item ∈ items) : ∃ row ∈ counted, decode row.1 = .ok item := by
  unfold countedPage at returned
  split at returned
  · cases returned
  · obtain ⟨decoded, rows, same⟩ := Fallible.map_eq_ok.mp returned
    cases same
    obtain ⟨row, listed, made⟩ := Fallible.exists_of_mem_mapM rows mem
    obtain ⟨pair, inside, rfl⟩ := List.mem_map.mp listed
    exact ⟨pair, inside, made⟩

/-- The pages from an offset on, until one is empty; `none` when the fuel runs out. -/
def collect (fetch : Nat → Except ε (List B)) (size : Nat) : Nat → Nat → Except ε (Option (List B))
  | 0, _ => .ok none
  | fuel + 1, offset =>
    match fetch offset with
    | .error e => .error e
    | .ok [] => .ok (some [])
    | .ok (item :: items) =>
      match collect fetch size fuel (offset + size) with
      | .error e => .error e
      | .ok rest => .ok (rest.map (fun rest => item :: items ++ rest))

theorem drop_eq_page_append (size offset : Nat) (rows : List R) :
    rows.drop offset = page (some size) offset rows ++ rows.drop (offset + size) := by
  rw [page, ← List.drop_drop, List.take_append_drop]

theorem page_eq_nil {size offset : Nat} (positive : 0 < size) {rows : List R}
    (empty : page (some size) offset rows = []) : rows.drop offset = [] := by
  rcases List.take_eq_nil_iff.mp empty with zero | none
  · omega
  · exact none

/-- Pages of one list, collected to the first empty one, are the list; an element
that fails does so once its page is reached. -/
theorem collect_pages (decode : R → Except ε B) (rows : List R) {size : Nat} (positive : 0 < size)
    {fetch : Nat → Except ε (List B)}
    (fetches : ∀ offset, fetch offset = (page (some size) offset rows).mapM decode)
    {fuel offset : Nat} (enough : rows.length - offset < fuel) :
    collect fetch size fuel offset = ((rows.drop offset).mapM decode).map some := by
  induction fuel generalizing offset with
  | zero => omega
  | succ fuel ih =>
    have split := drop_eq_page_append size offset rows
    rw [collect, fetches]
    cases first : (page (some size) offset rows).mapM decode with
    | error e => rw [split, Fallible.mapM_append, first]; rfl
    | ok items =>
      have length := Fallible.length_of_mapM first
      cases items with
      | nil =>
        have none := page_eq_nil positive (List.length_eq_zero_iff.mp length.symm)
        rw [none]
        rfl
      | cons item items =>
        have inside : offset < rows.length := by
          refine Nat.lt_of_not_le fun past => ?_
          rw [page, List.drop_eq_nil_of_le past, List.take_nil] at length
          cases length
        have rest := @ih (offset + size) (by omega)
        simp only [rest]
        rw [split, Fallible.mapM_append, first]
        cases (rows.drop (offset + size)).mapM decode with
        | error e => rfl
        | ok others => rfl

end Pages

section Calls
variable {R : Type u} {B : Type v} {ε : Type w} {c : Comparison R}

/-- The results of a query, without a limit. -/
def listing (s : Sorter c) (selected : Except ε (List R)) (decode : R → Except ε B) :
    Except ε (List B) :=
  match selected with
  | .error e => .error e
  | .ok rows => (s.sort rows).mapM decode

/-- Whichever planner answers which call, the pages up to the first empty one make
up the listing: all of it, once, in its order. -/
def Partitions (fetch : Sorter c → Nat → Nat → Except ε (List B)) (selected : Except ε (List R))
    (decode : R → Except ε B) : Prop :=
  ∀ size, 0 < size → ∀ (planner : Nat → Sorter c) (s : Sorter c), ∃ enough, ∀ fuel, enough ≤ fuel →
    collect (fun offset => fetch (planner offset) size offset) size fuel 0 =
      (listing s selected decode).map some

/-- Every page that is returned comes with the number of the selected rows. -/
def CountsAll {L : Type} (call : Sorter c → L → Nat → Except ε (List B × Nat))
    (selected : Except ε (List R)) : Prop :=
  ∀ s limit offset items total, call s limit offset = .ok (items, total) →
    ∃ rows, selected = .ok rows ∧ total = rows.length

/-- A function that returns a page and the total. -/
structure Paginates (call : Sorter c → Option Nat → Nat → Except ε (List B × Nat))
    (selected : Except ε (List R)) (decode : R → Except ε B) : Prop where
  partitions : Partitions (fun s size offset => (call s (some size) offset).map Prod.fst) selected
    decode
  total : CountsAll call selected

variable {decode : R → Except ε B}

/-- Pages of rows that the order tells apart. -/
theorem partitions_of_pages {fetch : Sorter c → Nat → Nat → Except ε (List B)} {rows : List R}
    (separates : Separates c rows)
    (pages : ∀ s size offset, 0 < size →
      fetch s size offset = (page (some size) offset (s.sort rows)).mapM decode) :
    Partitions fetch (.ok rows) decode := by
  intro size positive planner s
  refine ⟨rows.length + 1, fun fuel enough => ?_⟩
  have one : ∀ offset, fetch (planner offset) size offset =
      (page (some size) offset (s.sort rows)).mapM decode := by
    intro offset
    rw [pages _ _ _ positive, sort_unique separates (planner offset) s]
  have length := s.length_sort rows
  exact collect_pages decode (s.sort rows) positive one (by omega)

theorem partitions_of_error {fetch : Sorter c → Nat → Nat → Except ε (List B)} {e : ε}
    (fails : ∀ s size offset, fetch s size offset = .error e) :
    Partitions fetch (.error e) decode := by
  intro size _ planner s
  refine ⟨1, fun fuel enough => ?_⟩
  obtain ⟨fuel, rfl⟩ := Nat.exists_eq_add_of_le enough
  rw [Nat.add_comm, collect, fails]
  rfl

/-- The limit may be changed on the way, but not one that is positive. -/
theorem paginates_of_pages {call : Sorter c → Option Nat → Nat → Except ε (List B × Nat)}
    {rows : List R} (separates : Separates c rows) (effective : Option Nat → Option Nat)
    (kept : ∀ size, 0 < size → effective (some size) = some size)
    (calls : ∀ s limit offset, call s limit offset =
      ((page (effective limit) offset (s.sort rows)).mapM decode).map
        (fun items => (items, rows.length))) :
    Paginates call (.ok rows) decode where
  partitions := by
    refine partitions_of_pages separates fun s size offset positive => ?_
    rw [calls, kept size positive]
    cases (page (some size) offset (s.sort rows)).mapM decode with
    | error e => rfl
    | ok items => rfl
  total := by
    intro s limit offset items total returned
    rw [calls] at returned
    cases h : (page (effective limit) offset (s.sort rows)).mapM decode with
    | error e =>
      rw [h] at returned
      cases returned
    | ok found =>
      rw [h] at returned
      cases returned
      exact ⟨rows, rfl, rfl⟩

theorem paginates_of_error {call : Sorter c → Option Nat → Nat → Except ε (List B × Nat)} {e : ε}
    (fails : ∀ s limit offset, call s limit offset = .error e) :
    Paginates call (.error e) decode where
  partitions := partitions_of_error fun s size offset => by rw [fails]; rfl
  total := by
    intro s limit offset items total returned
    rw [fails] at returned
    cases returned

end Calls

end Queries
