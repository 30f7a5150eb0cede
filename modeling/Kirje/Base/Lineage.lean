import Mathlib.Data.List.Nodup

/-
  File:      Kirje/Base/Lineage.lean
  Subject:   What was copied from what, and what is left of it.

  A log holds births, the newest first; each names what it was copied from, if anything.
  The log never names an item twice, so the items form a forest.

  * `heirs`: an item with its copies, their copies, and so on.
  * `heirs_trans`, `heirs_antisymm`: the forest is ordered.
  * **`Kept.retire`**: an item may be given up once it has been copied: every item that had an
    heir which is safe still has one.
-/

namespace Kirje.Base

variable {B α : Type} [DecidableEq α] (item : B → α) (source : B → Option α)

/-! ## 1. The log -/

/-- No item is born twice, and a copy is younger than what it was copied from. -/
def Lineage : List B → Prop
  | [] => True
  | b :: bs => item b ∉ bs.map item ∧ (∀ x, source b = some x → x ∈ bs.map item) ∧ Lineage bs

/-- The item `x` with everything that descends from it. -/
def heirs (x : α) : List B → List α
  | [] => []
  | b :: bs =>
      if item b = x ∨ ∃ y ∈ heirs x bs, source b = some y then item b :: heirs x bs
      else heirs x bs

variable {item source} {b c : B} {bs : List B} {x y z : α}

theorem mem_heirs_cons : z ∈ heirs item source x (b :: bs) ↔ z ∈ heirs item source x bs ∨
    z = item b ∧ (item b = x ∨ ∃ y ∈ heirs item source x bs, source b = some y) := by
  rw [heirs]
  split
  · rename_i h
    rw [List.mem_cons, or_comm, and_iff_left h]
  · rename_i h
    exact ⟨.inl, fun hz => hz.resolve_right fun hb => h hb.2⟩

omit [DecidableEq α] in
theorem Lineage.nodup (h : Lineage item source bs) : (bs.map item).Nodup := by
  induction bs with
  | nil => exact List.nodup_nil
  | cons b bs ih => exact List.nodup_cons.mpr ⟨h.1, ih h.2.2⟩

omit [DecidableEq α] in
theorem Lineage.item_inj (h : Lineage item source bs) (hb : b ∈ bs) (hc : c ∈ bs)
    (he : item b = item c) : b = c :=
  List.inj_on_of_nodup_map h.nodup hb hc he

omit [DecidableEq α] in
theorem lineage_of_nodup (h : (bs.map item).Nodup) (hs : ∀ b ∈ bs, source b = none) :
    Lineage item source bs := by
  induction bs with
  | nil => trivial
  | cons b bs ih =>
      obtain ⟨hnew, hrest⟩ := List.nodup_cons.mp h
      refine ⟨hnew, fun x hx => ?_, ih hrest fun c hc => hs c (.tail _ hc)⟩
      rw [hs b (.head _)] at hx
      cases hx

/-! ## 2. The forest -/

/-- An heir is an item of the log, and so is what it descends from. -/
theorem heirs_born (h : z ∈ heirs item source x bs) : z ∈ bs.map item ∧ x ∈ bs.map item := by
  induction bs generalizing z with
  | nil => cases h
  | cons b bs ih =>
      rw [List.map_cons]
      rcases mem_heirs_cons.mp h with h | ⟨rfl, rfl | ⟨y, hy, -⟩⟩
      · exact ⟨.tail _ (ih h).1, .tail _ (ih h).2⟩
      · exact ⟨.head _, .head _⟩
      · exact ⟨.head _, .tail _ (ih hy).2⟩

theorem heirs_self (h : x ∈ bs.map item) : x ∈ heirs item source x bs := by
  induction bs with
  | nil => cases h
  | cons b bs ih =>
      rw [List.map_cons] at h
      rcases List.mem_cons.mp h with rfl | h
      · exact mem_heirs_cons.mpr (.inr ⟨rfl, .inl rfl⟩)
      · exact mem_heirs_cons.mpr (.inl (ih h))

theorem Lineage.heirs_child (h : Lineage item source bs) (hb : b ∈ bs) (hx : source b = some x) :
    item b ∈ heirs item source x bs := by
  induction bs with
  | nil => cases hb
  | cons c bs ih =>
      obtain ⟨-, hold, hrest⟩ := h
      rcases List.mem_cons.mp hb with rfl | hb
      · exact mem_heirs_cons.mpr (.inr ⟨rfl, .inr ⟨x, heirs_self (hold x hx), hx⟩⟩)
      · exact mem_heirs_cons.mpr (.inl (ih hrest hb))

/-- **An heir of an heir is an heir.** -/
theorem Lineage.heirs_trans (h : Lineage item source bs) (hy : y ∈ heirs item source x bs)
    (hz : z ∈ heirs item source y bs) : z ∈ heirs item source x bs := by
  induction bs generalizing y z with
  | nil => cases hy
  | cons b bs ih =>
      obtain ⟨hnew, -, hrest⟩ := h
      -- Whatever has an heir in the rest of the log is not the newest item.
      have hold : ∀ w ∈ heirs item source y bs, y ∈ heirs item source x bs := by
        intro w hw
        rcases mem_heirs_cons.mp hy with hy | ⟨rfl, -⟩
        · exact hy
        · exact absurd (heirs_born hw).2 hnew
      rcases mem_heirs_cons.mp hz with hz | ⟨rfl, rfl | ⟨w, hw, hs⟩⟩
      · exact mem_heirs_cons.mpr (.inl (ih hrest (hold z hz) hz))
      · exact hy
      · exact mem_heirs_cons.mpr (.inr ⟨rfl, .inr ⟨w, ih hrest (hold w hw) hw, hs⟩⟩)

/-- **Two items that descend from each other are one.** -/
theorem Lineage.heirs_antisymm (h : Lineage item source bs) (hy : y ∈ heirs item source x bs)
    (hx : x ∈ heirs item source y bs) : x = y := by
  induction bs with
  | nil => cases hy
  | cons b bs ih =>
      obtain ⟨hnew, -, hrest⟩ := h
      rcases mem_heirs_cons.mp hy with hy | ⟨rfl, -⟩
      · rcases mem_heirs_cons.mp hx with hx | ⟨rfl, -⟩
        · exact ih hrest hy hx
        · exact absurd (heirs_born hy).2 hnew
      · rcases mem_heirs_cons.mp hx with hx | ⟨hx, -⟩
        · exact absurd (heirs_born hx).2 hnew
        · exact hx

/-- What passes from an item to its copies holds of every heir. -/
theorem heirs_inherit {P : α → Prop} (hP : ∀ b ∈ bs, ∀ y, source b = some y → P y → P (item b))
    (hx : P x) (h : z ∈ heirs item source x bs) : P z := by
  induction bs generalizing z with
  | nil => cases h
  | cons b bs ih =>
      have hrest := fun {y} => ih (z := y) fun c hc => hP c (.tail _ hc)
      rcases mem_heirs_cons.mp h with h | ⟨rfl, rfl | ⟨y, hy, hs⟩⟩
      · exact hrest h
      · exact hx
      · exact hP b (.head _) y hs (hrest hy)

/-! ## 3. What is kept -/

/-- Every birth of a kind has an heir of that kind which is safe. -/
def Kept (item : B → α) (source : B → Option α) (kind : B → Prop) (safe : α → Prop) (bs : List B) :
    Prop :=
  ∀ b ∈ bs, kind b → ∃ c ∈ bs, kind c ∧ item c ∈ heirs item source (item b) bs ∧ safe (item c)

variable {kind : B → Prop} {safe safe' : α → Prop}

theorem Kept.mono (h : Kept item source kind safe bs)
    (hsafe : ∀ c ∈ bs, kind c → safe (item c) → safe' (item c)) :
    Kept item source kind safe' bs := by
  intro b hb hk
  obtain ⟨c, hc, hkc, hheir, hs⟩ := h b hb hk
  exact ⟨c, hc, hkc, hheir, hsafe c hc hkc hs⟩

theorem Kept.birth (h : Kept item source kind safe bs) (hb : kind b → safe (item b)) :
    Kept item source kind safe (b :: bs) := by
  intro a ha hk
  rcases List.mem_cons.mp ha with rfl | ha
  · exact ⟨a, .head _, hk, heirs_self (.head _), hb hk⟩
  · obtain ⟨c, hc, hkc, hheir, hs⟩ := h a ha hk
    exact ⟨c, .tail _ hc, hkc, mem_heirs_cons.mpr (.inl hheir), hs⟩

/-- **Copy, then give up.**  An item that has a copy of the kind need not be safe any more. -/
theorem Kept.retire (hl : Lineage item source bs) (h : Kept item source kind safe bs)
    (hb : b ∈ bs) (hk : kind b) (hs : source b = some x)
    (hsafe : ∀ c ∈ bs, kind c → item c ≠ x → safe (item c) → safe' (item c)) :
    Kept item source kind safe' bs := by
  have hchild := hl.heirs_child hb hs
  have hne : item b ≠ x := by
    intro he
    clear h hsafe hchild
    induction bs with
    | nil => cases hb
    | cons d bs ih =>
        obtain ⟨hnew, hold, hrest⟩ := hl
        rcases List.mem_cons.mp hb with rfl | hb
        · exact hnew (he ▸ hold x hs)
        · exact ih hrest hb
  -- The copy has an heir that is safe, and the item given up is not among its heirs.
  obtain ⟨d, hd, hkd, hheir, hsd⟩ := h b hb hk
  have hdx : item d ≠ x := by
    intro he
    rw [he] at hheir
    exact hne (hl.heirs_antisymm hheir hchild)
  intro a ha hka
  obtain ⟨c, hc, hkc, hac, hsc⟩ := h a ha hka
  by_cases hcx : item c = x
  · rw [hcx] at hac
    exact ⟨d, hd, hkd, hl.heirs_trans hac (hl.heirs_trans hchild hheir), hsafe d hd hkd hdx hsd⟩
  · exact ⟨c, hc, hkc, hac, hsafe c hc hkc hcx hsc⟩

end Kirje.Base
