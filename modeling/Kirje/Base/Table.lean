import Mathlib.Data.List.Nodup
import Mathlib.Data.List.Perm.Subperm
import Kirje.Base.Check

/-
  File:      Kirje/Base/Table.lean
  Subject:   Tables as lists of rows in insertion order: selection by key,
             conditional update, insertion.

  * `mem_update`, `map_update`: what a conditional update does to the rows and to
    the columns it leaves alone; `mem_upsert`: an insertion that may be an update.
  * `filterMap_take_iff`: when a limit may be applied before a selection.
  * `find_key_iff`: in a table with distinct keys, the row found under a key is
    the row that has it.
-/

namespace Kirje.Base

variable {α κ : Type}

/-- `UPDATE … SET f WHERE p`. -/
def update (p : α → Bool) (f : α → α) (rows : List α) : List α :=
  rows.map fun r => if p r then f r else r

theorem update_cons {p : α → Bool} {f : α → α} {a : α} {rows : List α} :
    update p f (a :: rows) = (if p a then f a else a) :: update p f rows := rfl

theorem mem_update {p : α → Bool} {f : α → α} {rows : List α} {x : α} :
    x ∈ update p f rows ↔ ∃ r ∈ rows, (if p r then f r else r) = x := by
  simp only [update, List.mem_map]

/-- A column that `f` does not write is unchanged. -/
theorem map_update {p : α → Bool} {f : α → α} {rows : List α} {β : Type} {g : α → β}
    (h : ∀ r, g (f r) = g r) : (update p f rows).map g = rows.map g := by
  simp only [update, List.map_map]
  apply List.map_congr_left
  intro r _
  simp only [Function.comp]
  split
  · exact h r
  · rfl

@[simp] theorem length_update {p : α → Bool} {f : α → α} {rows : List α} :
    (update p f rows).length = rows.length := by simp [update]

/-- Where no row satisfies the condition, nothing is updated. -/
theorem update_eq_self {p : α → Bool} {f : α → α} {rows : List α} (h : rows.filter p = []) :
    update p f rows = rows := by
  rw [List.filter_eq_nil_iff] at h
  unfold update
  conv_rhs => rw [← List.map_id rows]
  exact List.map_congr_left fun r hr => if_neg (h r hr)

/-- **The rows after an update of one row.** -/
theorem mem_update_one {p : α → Bool} {f : α → α} {rows : List α} {r x : α}
    (h : rows.filter p = [r]) : x ∈ update p f rows ↔ (x ∈ rows ∧ p x = false) ∨ x = f r := by
  have hr : r ∈ rows ∧ p r = true := List.mem_filter.mp (h ▸ List.mem_singleton_self r)
  rw [mem_update]
  constructor
  · rintro ⟨y, hy, rfl⟩
    cases hp : p y with
    | false => exact Or.inl ⟨by simpa [hp] using hy, by simp [hp]⟩
    | true =>
        have : y ∈ rows.filter p := List.mem_filter.mpr ⟨hy, hp⟩
        rw [h, List.mem_singleton] at this
        exact Or.inr (by rw [if_pos rfl, this])
  · rintro (⟨hx, hp⟩ | rfl)
    · exact ⟨x, hx, by simp [hp]⟩
    · exact ⟨r, hr.1, by simp [hr.2]⟩

theorem length_filter_cons (q : α → Bool) (a : α) (rows : List α) :
    ((a :: rows).filter q).length = (rows.filter q).length + (if q a then 1 else 0) := by
  rw [List.filter_cons]
  split <;> simp

/-- **How an update of one row changes a count.** -/
theorem length_filter_update {p : α → Bool} {f : α → α} {rows : List α} {r : α}
    (h : rows.filter p = [r]) (q : α → Bool) :
    ((update p f rows).filter q).length + (if q r then 1 else 0) =
      (rows.filter q).length + (if q (f r) then 1 else 0) := by
  induction rows with
  | nil => simp at h
  | cons a rows ih =>
      rw [List.filter_cons] at h
      rw [update_cons, length_filter_cons, length_filter_cons]
      cases hp : p a with
      | false =>
          simp only [hp, Bool.false_eq_true, if_false] at h ⊢
          have := ih h
          omega
      | true =>
          simp only [hp, if_true, List.cons.injEq] at h ⊢
          rw [update_eq_self h.2, h.1]
          omega

/-- An update that does not change what a filter reads keeps the count of what it finds. -/
theorem length_filter_update_same {p q : α → Bool} {f : α → α}
    (h : ∀ x, p x = true → q (f x) = q x) (rows : List α) :
    ((update p f rows).filter q).length = (rows.filter q).length := by
  induction rows with
  | nil => rfl
  | cons a rows ih =>
      rw [update_cons, length_filter_cons, length_filter_cons, ih]
      split
      · next hp => rw [h a hp]
      · rfl

theorem filter_eq_singleton {p : α → Bool} {rows : List α} (h : (rows.filter p).length = 1) :
    ∃ r, rows.filter p = [r] := List.length_eq_one_iff.mp h

/-- **Under distinct keys, the row found under a key is the row of the table that has it.** -/
theorem find_key_iff [DecidableEq κ] {key : α → κ} {rows : List α} (h : (rows.map key).Nodup)
    {k : κ} {r : α} : rows.find? (fun x => decide (key x = k)) = some r ↔ r ∈ rows ∧ key r = k := by
  constructor
  · intro hf
    exact ⟨List.mem_of_find?_eq_some hf, by simpa using List.find?_some hf⟩
  · rintro ⟨hr, rfl⟩
    induction rows with
    | nil => simp at hr
    | cons a rows ih =>
        rw [List.map_cons, List.nodup_cons] at h
        rw [List.find?_cons]
        by_cases hk : key a = key r
        · simp only [hk, decide_true]
          rcases List.mem_cons.mp hr with rfl | hr
          · rfl
          · exact absurd (List.mem_map.mpr ⟨r, hr, hk.symm⟩) h.1
        · simp only [hk, decide_false]
          rcases List.mem_cons.mp hr with rfl | hr
          · exact absurd rfl hk
          · exact ih h.2 hr

/-- **As many rows as descriptions, and a row for each description: each row is described.** -/
theorem described_of_length_eq {δ : Type} {rows : List α} {descriptions : List δ} {row : α → κ}
    {described : δ → κ} (hn : (descriptions.map described).Nodup)
    (hlen : rows.length = descriptions.length)
    (h : ∀ d ∈ descriptions, ∃ r ∈ rows, row r = described d) :
    ∀ r ∈ rows, ∃ d ∈ descriptions, described d = row r := by
  have hsub : descriptions.map described ⊆ rows.map row := by
    intro k hk
    obtain ⟨d, hd, rfl⟩ := List.mem_map.mp hk
    obtain ⟨r, hr, hrd⟩ := h d hd
    exact List.mem_map.mpr ⟨r, hr, hrd⟩
  have hperm : (descriptions.map described).Perm (rows.map row) :=
    (List.subperm_of_subset hn hsub).perm_of_length_le (by simp [hlen])
  intro r hr
  exact List.mem_map.mp (hperm.mem_iff.mpr (List.mem_map_of_mem hr))

/-- Two rows of a table with the same key are one row. -/
theorem eq_of_key_eq {key : α → κ} {rows : List α} (h : (rows.map key).Nodup) {r s : α}
    (hr : r ∈ rows) (hs : s ∈ rows) (hk : key r = key s) : r = s :=
  List.inj_on_of_nodup_map h hr hs hk

/-- The same for a column that may be empty. -/
theorem eq_of_some_key {key : α → Option κ} {rows : List α} (h : (rows.filterMap key).Nodup)
    {r s : α} {k : κ} (hr : r ∈ rows) (hs : s ∈ rows) (hrk : key r = some k)
    (hsk : key s = some k) : r = s := by
  induction rows with
  | nil => simp at hr
  | cons a rows ih =>
      have hmem : ∀ x ∈ rows, key x = some k → k ∈ rows.filterMap key :=
        fun x hx hk => List.mem_filterMap.mpr ⟨x, hx, hk⟩
      cases ha : key a with
      | none =>
          rw [List.filterMap_cons_none ha] at h
          rcases List.mem_cons.mp hr with rfl | hr
          · simp [ha] at hrk
          rcases List.mem_cons.mp hs with rfl | hs
          · simp [ha] at hsk
          exact ih h hr hs
      | some j =>
          rw [List.filterMap_cons_some ha, List.nodup_cons] at h
          rcases List.mem_cons.mp hr with hra | hr' <;> rcases List.mem_cons.mp hs with hsa | hs'
          · rw [hra, hsa]
          · rw [hra, ha] at hrk
            exact absurd (hmem s hs' hsk) (Option.some.inj hrk ▸ h.1)
          · rw [hsa, ha] at hsk
            exact absurd (hmem r hr' hrk) (Option.some.inj hsk ▸ h.1)
          · exact ih h.2 hr' hs'

/-- A condition that one row meets, and no row with another key, is met once. -/
theorem length_filter_eq_one {key : α → κ} {p : α → Bool} {rows : List α} {r : α}
    (h : (rows.map key).Nodup) (hr : r ∈ rows) (hp : p r = true)
    (hk : ∀ a ∈ rows, p a = true → key a = key r) : (rows.filter p).length = 1 := by
  have hnodup : (rows.filter p).Nodup := (List.Nodup.of_map _ h).filter p
  have hmem : ∀ a, a ∈ rows.filter p ↔ a ∈ [r] := by
    intro a
    rw [List.mem_filter, List.mem_singleton]
    constructor
    · rintro ⟨ha, hpa⟩
      exact eq_of_key_eq h ha hr (hk a ha hpa)
    · rintro rfl
      exact ⟨hr, hp⟩
  exact ((List.perm_ext_iff_of_nodup hnodup (List.nodup_singleton r)).mpr hmem).length_eq

/-- The same, with the row. -/
theorem filter_eq_of_key {key : α → κ} {p : α → Bool} {rows : List α} {r : α}
    (h : (rows.map key).Nodup) (hr : r ∈ rows) (hp : p r = true)
    (hk : ∀ a ∈ rows, p a = true → key a = key r) : rows.filter p = [r] := by
  obtain ⟨a, ha⟩ := filter_eq_singleton (length_filter_eq_one h hr hp hk)
  have hm : r ∈ rows.filter p := List.mem_filter.mpr ⟨hr, hp⟩
  rw [ha, List.mem_singleton] at hm
  rw [ha, hm]

/-- **The rows after an update of one row, by key.** -/
theorem mem_update_key {key : α → κ} {p : α → Bool} {f : α → α} {rows : List α} {r : α}
    (h : (rows.map key).Nodup) (hr : rows.filter p = [r])
    (hk : ∀ a ∈ rows, p a = true → key a = key r) (x : α) :
    x ∈ update p f rows ↔ (x ∈ rows ∧ key x ≠ key r) ∨ x = f r := by
  have hrm := List.mem_filter.mp (hr ▸ List.mem_singleton_self r)
  rw [mem_update_one hr]
  refine or_congr_left (and_congr_right fun hx => ?_)
  constructor
  · intro hp he
    rw [eq_of_key_eq h hx hrm.1 he, hrm.2] at hp
    cases hp
  · intro hne
    cases hp : p x with
    | false => rfl
    | true => exact absurd (hk x hx hp) hne

/-- **Where at most one row satisfies a condition, it is the row found.** -/
theorem find_iff_of_unique {p : α → Bool} {rows : List α} {r : α}
    (h : ∀ a ∈ rows, ∀ b ∈ rows, p a → p b → a = b) :
    rows.find? p = some r ↔ r ∈ rows ∧ p r := by
  constructor
  · intro hf
    exact ⟨List.mem_of_find?_eq_some hf, List.find?_some hf⟩
  · rintro ⟨hr, hp⟩
    cases hf : rows.find? p with
    | none => exact absurd hp (by simpa using List.find?_eq_none.mp hf r hr)
    | some a =>
        rw [h a (List.mem_of_find?_eq_some hf) r hr (List.find?_some hf) hp]

/-- **A limit before a selection.**  What is selected among the first `n` rows is the first `n`
    selected just if every one of these rows is selected or no row after them is. -/
theorem filterMap_take_iff {β : Type} {f : α → Option β} {rows : List α} {n : Nat} :
    (rows.take n).filterMap f = (rows.filterMap f).take n ↔
      (∀ r ∈ rows.take n, (f r).isSome) ∨ ∀ r ∈ rows.drop n, f r = none := by
  have hsplit : rows.filterMap f = (rows.take n).filterMap f ++ (rows.drop n).filterMap f := by
    rw [← List.filterMap_append, List.take_append_drop]
  have hle : ((rows.take n).filterMap f).length ≤ (rows.take n).length :=
    List.length_filterMap_le f _
  have htake : (rows.take n).length ≤ n := List.length_take_le n rows
  have hall : ((rows.take n).filterMap f).length = (rows.take n).length ↔
      ∀ r ∈ rows.take n, (f r).isSome := List.filterMap_length_eq_length
  have hnone : (rows.drop n).filterMap f = [] ↔ ∀ r ∈ rows.drop n, f r = none :=
    List.filterMap_eq_nil_iff
  rw [hsplit, List.take_append, List.take_of_length_le (Nat.le_trans hle htake), eq_comm,
    List.append_right_eq_self, List.take_eq_nil_iff, ← hall, ← hnone]
  constructor
  · rintro (h | h)
    · exact Or.inl (by omega)
    · exact Or.inr h
  · rintro (h | h)
    · by_cases hlen : n ≤ rows.length
      · rw [List.length_take, Nat.min_eq_left hlen] at h
        exact Or.inl (by omega)
      · exact Or.inr (by rw [List.drop_eq_nil_of_le (by omega), List.filterMap_nil])
    · exact Or.inr h

/-- `INSERT … ON CONFLICT(key) DO UPDATE`, where the update sets every other column. -/
def upsert [DecidableEq κ] (key : α → κ) (row : α) (rows : List α) : List α :=
  if rows.any (fun r => key r = key row) then update (fun r => key r = key row) (fun _ => row) rows
  else rows ++ [row]

/-- **The rows after an upsert.** -/
theorem mem_upsert [DecidableEq κ] {key : α → κ} {row x : α} {rows : List α} :
    x ∈ upsert key row rows ↔ x = row ∨ (x ∈ rows ∧ key x ≠ key row) := by
  unfold upsert
  split
  · rename_i h
    obtain ⟨r, hr, hk⟩ := List.any_eq_true.mp h
    rw [mem_update]
    constructor
    · rintro ⟨y, hy, rfl⟩
      by_cases hyk : key y = key row
      · simp [hyk]
      · exact Or.inr (by simpa [hyk] using hy)
    · rintro (rfl | ⟨hx, hxk⟩)
      · exact ⟨r, hr, by rw [if_pos hk]⟩
      · exact ⟨x, hx, by simp [hxk]⟩
  · rename_i h
    have hfresh : ∀ r ∈ rows, key r ≠ key row := by
      intro r hr hk
      exact h (List.any_eq_true.mpr ⟨r, hr, by simpa using hk⟩)
    rw [List.mem_append, List.mem_singleton]
    constructor
    · rintro (hx | rfl)
      · exact Or.inr ⟨hx, hfresh x hx⟩
      · exact Or.inl rfl
    · rintro (rfl | ⟨hx, -⟩)
      · exact Or.inr rfl
      · exact Or.inl hx

/-- An upsert of a row that a selection leaves out leaves the selection. -/
theorem filter_upsert [DecidableEq κ] {key : α → κ} {p : α → Bool} {row : α}
    {rows : List α} (h : ∀ r, key r = key row → p r = false) :
    (upsert key row rows).filter p = rows.filter p := by
  have hrow : p row = false := h row rfl
  have hupdate : (update (fun r => key r = key row) (fun _ => row) rows).filter p = rows.filter p := by
    induction rows with
    | nil => rfl
    | cons r rows ih =>
        rw [update_cons, List.filter_cons, List.filter_cons, ih]
        by_cases hk : key r = key row
        · simp [hk, hrow, h r hk]
        · simp [hk]
  unfold upsert
  split
  · exact hupdate
  · simp [List.filter_append, hrow]

theorem mem_keys_upsert [DecidableEq κ] {key : α → κ} {row : α} {rows : List α} {k : κ} :
    k ∈ (upsert key row rows).map key ↔ k = key row ∨ k ∈ rows.map key := by
  simp only [List.mem_map, mem_upsert]
  constructor
  · rintro ⟨r, rfl | ⟨hr, -⟩, rfl⟩
    · exact Or.inl rfl
    · exact Or.inr ⟨r, hr, rfl⟩
  · rintro (rfl | ⟨r, hr, rfl⟩)
    · exact ⟨row, Or.inl rfl, rfl⟩
    · by_cases hk : key r = key row
      · exact ⟨row, Or.inl rfl, hk.symm⟩
      · exact ⟨r, Or.inr ⟨hr, hk⟩, rfl⟩

/-- **What is found under a key after an upsert.** -/
theorem find_upsert [DecidableEq κ] {key : α → κ} {row : α} {rows : List α} {k : κ} :
    (upsert key row rows).find? (fun r => key r = k) =
      if key row = k then some row else rows.find? (fun r => key r = k) := by
  have hupdate : (update (fun r => key r = key row) (fun _ => row) rows).find? (fun r => key r = k) =
      if key row = k then (rows.find? (fun r => key r = k)).map (fun _ => row)
      else rows.find? (fun r => key r = k) := by
    induction rows with
    | nil => simp [update]
    | cons r rows ih =>
        rw [update_cons, List.find?_cons, List.find?_cons, ih]
        by_cases hr : key r = key row
        · by_cases hk : key row = k <;> simp [hr, hk]
        · by_cases hk : key row = k
          · have hrk : key r ≠ k := fun h => hr (h.trans hk.symm)
            simp [hk, hrk]
          · simp [hr, hk]
  unfold upsert
  split
  · rename_i hany
    obtain ⟨r, hr, hrk⟩ := List.any_eq_true.mp hany
    rw [hupdate]
    by_cases hk : key row = k
    · have hsome : (rows.find? (fun r => key r = k)).isSome :=
        List.find?_isSome.mpr ⟨r, hr, by simpa [hk] using hrk⟩
      obtain ⟨x, hx⟩ := Option.isSome_iff_exists.mp hsome
      simp [hk, hx]
    · simp [hk]
  · rename_i hany
    rw [List.find?_append]
    by_cases hk : key row = k
    · have hnone : rows.find? (fun r => key r = k) = none := by
        refine List.find?_eq_none.mpr fun r hr hrk => ?_
        exact hany (List.any_eq_true.mpr ⟨r, hr, by simpa [hk] using hrk⟩)
      simp [hk, hnone]
    · simp [hk]

/-- An upsert keeps keys distinct. -/
theorem nodup_upsert [DecidableEq κ] {key : α → κ} {row : α} {rows : List α}
    (h : (rows.map key).Nodup) : ((upsert key row rows).map key).Nodup := by
  unfold upsert
  split
  · have hkeys : (update (fun r => key r = key row) (fun _ => row) rows).map key = rows.map key := by
      unfold update
      rw [List.map_map]
      refine List.map_congr_left fun r _ => ?_
      by_cases hk : key r = key row <;> simp [hk]
    rwa [hkeys]
  · rename_i hany
    rw [List.map_append, List.nodup_append]
    refine ⟨h, by simp, ?_⟩
    intro a ha b hb hab
    obtain ⟨r, hr, rfl⟩ := List.mem_map.mp ha
    simp only [List.map_cons, List.map_nil, List.mem_singleton] at hb
    exact hany (List.any_eq_true.mpr ⟨r, hr, by simp [hab, hb]⟩)

/-- Where one row is exchanged, the rows of other keys stay. -/
theorem mem_other (key : α → κ) {rows rows' : List α} {x : α} {k : κ}
    (h : ∀ y, y ∈ rows' ↔ (y ∈ rows ∧ key y ≠ k) ∨ y = x) (hx : key x = k) {y : α}
    (hy : key y ≠ k) : y ∈ rows' ↔ y ∈ rows := by
  rw [h y]
  constructor
  · rintro (⟨hm, -⟩ | rfl)
    · exact hm
    · exact absurd hx hy
  · exact fun hm => Or.inl ⟨hm, hy⟩

end Kirje.Base
