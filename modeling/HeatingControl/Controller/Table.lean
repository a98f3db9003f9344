/-!
# Keyed records

Small tables as lists of pairs, and changes to the first record that fits.
-/
namespace HeatingControl.Table

variable {κ ν α β : Type} [DecidableEq κ]

def keys (t : List (κ × ν)) : List κ := t.map Prod.fst

def get? (key : κ) (t : List (κ × ν)) : Option ν := (t.find? fun e => e.1 = key).map (·.2)

/-- Replaces the entry under a key, or adds one at the end. -/
def insert (key : κ) (value : ν) (t : List (κ × ν)) : List (κ × ν) :=
  if t.any fun e => e.1 = key then t.map fun e => if e.1 = key then (key, value) else e
  else t ++ [(key, value)]

def erase (key : κ) (t : List (κ × ν)) : List (κ × ν) := t.filter fun e => e.1 ≠ key

def adjust (key : κ) (f : ν → ν) (t : List (κ × ν)) : List (κ × ν) :=
  t.map fun e => if e.1 = key then (e.1, f e.2) else e

def updateFirst (fits : α → Bool) (f : α → α) : List α → List α
  | [] => []
  | a :: rest => if fits a then f a :: rest else a :: updateFirst fits f rest

theorem mem_of_get? {key : κ} {value : ν} {t : List (κ × ν)} (h : get? key t = some value) :
    (key, value) ∈ t := by
  obtain ⟨e, he, rfl⟩ := Option.map_eq_some_iff.mp h
  have hk : e.1 = key := by simpa using List.find?_some he
  exact hk ▸ List.mem_of_find?_eq_some he

theorem get?_isSome_iff {key : κ} {t : List (κ × ν)} :
    (get? key t).isSome = true ↔ key ∈ keys t := by
  simp [get?, keys]

/-- Under distinct keys a record is the one that is found under its key. -/
theorem find?_of_mem {f : α → κ} {l : List α} {a : α} (hn : (l.map f).Nodup) (h : a ∈ l) :
    l.find? (fun b => f b = f a) = some a := by
  induction l with
  | nil => simp at h
  | cons b l ih =>
    simp only [List.map_cons, List.nodup_cons] at hn
    rcases List.mem_cons.mp h with rfl | h
    · simp
    · have hne : f b ≠ f a := by
        intro hkey
        exact hn.1 (hkey ▸ List.mem_map_of_mem h)
      simp [hne, ih hn.2 h]

theorem get?_of_mem {key : κ} {value : ν} {t : List (κ × ν)} (hn : (keys t).Nodup)
    (h : (key, value) ∈ t) : get? key t = some value := by
  have hfound := find?_of_mem hn h
  rw [get?, hfound]
  rfl

theorem mem_insert {key : κ} {value : ν} {t : List (κ × ν)} {e : κ × ν}
    (h : e ∈ insert key value t) : e ∈ t ∨ e = (key, value) := by
  unfold insert at h
  split at h
  · obtain ⟨a, ha, rfl⟩ := List.mem_map.mp h
    split
    · exact Or.inr rfl
    · exact Or.inl ha
  · simpa using h

theorem keys_insert (key : κ) (value : ν) (t : List (κ × ν)) :
    keys (insert key value t) = if key ∈ keys t then keys t else keys t ++ [key] := by
  have hany : (t.any fun e => e.1 = key) = true ↔ key ∈ keys t := by simp [keys]
  by_cases hk : key ∈ keys t
  · rw [insert, if_pos (hany.mpr hk), if_pos hk, keys, keys, List.map_map]
    refine List.map_congr_left fun e _ => ?_
    by_cases he : e.1 = key <;> simp [he]
  · rw [insert, if_neg (fun h => hk (hany.mp h)), if_neg hk]
    simp [keys]

@[simp] theorem get?_insert (key : κ) (value : ν) (t : List (κ × ν)) :
    get? key (insert key value t) = some value := by
  unfold insert
  split
  · rename_i hold
    obtain ⟨e, he, hkey⟩ := List.any_eq_true.mp hold
    have hfound : ∃ e, t.find? (fun e => e.1 = key) = some e := by
      apply Option.isSome_iff_exists.mp
      exact List.find?_isSome.mpr ⟨e, he, hkey⟩
    obtain ⟨e, he⟩ := hfound
    have hreplaced : ((fun e : κ × ν => decide (e.1 = key)) ∘
        fun e => if e.1 = key then (key, value) else e) = fun e => decide (e.1 = key) := by
      funext e
      by_cases hk : e.1 = key <;> simp [hk]
    have hk : e.1 = key := by simpa using List.find?_some he
    rw [get?, List.find?_map, hreplaced, he]
    simp [hk]
  · rename_i hnew
    have hnone : t.find? (fun e => e.1 = key) = none := by
      rw [List.find?_eq_none]
      intro e he hk
      exact hnew (List.any_eq_true.mpr ⟨e, he, hk⟩)
    simp [get?, List.find?_append, hnone]

theorem keys_erase (key : κ) (t : List (κ × ν)) :
    keys (erase key t) = (keys t).filter fun k => k ≠ key := by
  simp [keys, erase, List.filter_map, Function.comp_def]

theorem nodup_append_new {l : List α} {a : α} (hl : l.Nodup) (ha : a ∉ l) : (l ++ [a]).Nodup := by
  rw [List.nodup_append]
  refine ⟨hl, by simp, ?_⟩
  intro x hx y hy hxy
  rw [hxy, List.mem_singleton.mp hy] at hx
  exact ha hx

theorem nodup_map_filter {g : α → β} {l : List α} (hl : (l.map g).Nodup) (p : α → Bool) :
    ((l.filter p).map g).Nodup :=
  hl.sublist (List.filter_sublist.map g)

theorem mem_keys_insert {key k : κ} {value : ν} {t : List (κ × ν)} :
    k ∈ keys (insert key value t) ↔ k ∈ keys t ∨ k = key := by
  rw [keys_insert]
  split
  · rename_i hold
    constructor
    · exact Or.inl
    · rintro (hk | rfl)
      · exact hk
      · exact hold
  · simp

theorem nodup_keys_insert {key : κ} {value : ν} {t : List (κ × ν)} (h : (keys t).Nodup) :
    (keys (insert key value t)).Nodup := by
  rw [keys_insert]
  split
  · exact h
  · rename_i hnew
    exact nodup_append_new h hnew

theorem mem_keys_erase {key k : κ} {t : List (κ × ν)} :
    k ∈ keys (erase key t) ↔ k ∈ keys t ∧ k ≠ key := by
  rw [keys_erase]
  simp

theorem nodup_keys_erase {key : κ} {t : List (κ × ν)} (h : (keys t).Nodup) :
    (keys (erase key t)).Nodup := by
  rw [keys_erase]
  exact h.filter _

theorem mem_adjust {key : κ} {f : ν → ν} {t : List (κ × ν)} {e : κ × ν}
    (h : e ∈ adjust key f t) : e ∈ t ∨ ∃ value, (key, value) ∈ t ∧ e = (key, f value) := by
  obtain ⟨a, ha, rfl⟩ := List.mem_map.mp h
  by_cases hk : a.1 = key
  · exact Or.inr ⟨a.2, hk ▸ ha, by simp [hk]⟩
  · exact Or.inl (by simpa [hk] using ha)

@[simp] theorem keys_adjust (key : κ) (f : ν → ν) (t : List (κ × ν)) :
    keys (adjust key f t) = keys t := by
  rw [keys, keys, adjust, List.map_map]
  refine List.map_congr_left fun e _ => ?_
  by_cases he : e.1 = key <;> simp [he]

theorem get?_adjust (key : κ) (f : ν → ν) (t : List (κ × ν)) :
    get? key (adjust key f t) = (get? key t).map f := by
  induction t with
  | nil => rfl
  | cons e t ih =>
    by_cases he : e.1 = key
    · simp [get?, adjust, he]
    · simpa [get?, adjust, he] using ih

theorem get?_cons (key : κ) (e : κ × ν) (t : List (κ × ν)) :
    get? key (e :: t) = if e.1 = key then some e.2 else get? key t := by
  by_cases he : e.1 = key <;> simp [get?, he]

theorem get?_adjust_of_ne {key other : κ} (h : other ≠ key) (f : ν → ν) (t : List (κ × ν)) :
    get? other (adjust key f t) = get? other t := by
  induction t with
  | nil => rfl
  | cons e t ih =>
    have hcons : adjust key f (e :: t) =
        (if e.1 = key then (e.1, f e.2) else e) :: adjust key f t := rfl
    rw [hcons, get?_cons, get?_cons, ih]
    by_cases he : e.1 = key
    · have hother : ¬ e.1 = other := fun heq => h (heq.symm.trans he)
      rw [if_pos he, if_neg hother, if_neg hother]
    · rw [if_neg he]

@[simp] theorem get?_erase (key : κ) (t : List (κ × ν)) : get? key (erase key t) = none := by
  simp [get?, erase]

theorem get?_erase_of_ne {key other : κ} (h : other ≠ key) (t : List (κ × ν)) :
    get? other (erase key t) = get? other t := by
  induction t with
  | nil => rfl
  | cons e t ih =>
    by_cases he : e.1 = key
    · have hother : ¬ e.1 = other := fun heq => h (heq.symm.trans he)
      rw [erase, List.filter_cons_of_neg (by simpa using he), get?_cons, if_neg hother]
      exact ih
    · rw [erase, List.filter_cons_of_pos (by simpa using he), get?_cons, get?_cons, ← erase, ih]

theorem adjust_adjust (key : κ) (f g : ν → ν) (t : List (κ × ν)) :
    adjust key f (adjust key g t) = adjust key (fun v => f (g v)) t := by
  rw [adjust, adjust, adjust, List.map_map]
  refine List.map_congr_left fun e _ => ?_
  by_cases he : e.1 = key <;> simp [he]

theorem adjust_congr {key : κ} {f g : ν → ν} {t : List (κ × ν)}
    (h : ∀ value, (key, value) ∈ t → f value = g value) : adjust key f t = adjust key g t := by
  refine List.map_congr_left fun e he => ?_
  by_cases hk : e.1 = key
  · simp only [hk, if_true, h e.2 (hk ▸ he)]
  · simp only [hk, if_false]

/-- Under distinct keys the one value under a key is adjusted. -/
theorem adjust_of_get? {key : κ} {value : ν} {t : List (κ × ν)} (hn : (keys t).Nodup)
    (h : get? key t = some value) (f : ν → ν) :
    adjust key f t = adjust key (fun _ => f value) t := by
  refine adjust_congr fun v hv => ?_
  have hentry := get?_of_mem hn hv
  rw [h, Option.some.injEq] at hentry
  rw [hentry]

/-- Putting back what is there changes nothing. -/
theorem adjust_const_of_get? {key : κ} {value : ν} {t : List (κ × ν)} (hn : (keys t).Nodup)
    (h : get? key t = some value) : adjust key (fun _ => value) t = t := by
  have hfix : ∀ e ∈ t, (if e.1 = key then (e.1, value) else e) = e := by
    intro e he
    by_cases hk : e.1 = key
    · have := get?_of_mem hn (show (key, e.2) ∈ t from hk ▸ he)
      rw [h, Option.some.injEq] at this
      simp [hk, this, Prod.ext_iff]
    · simp [hk]
  simpa [adjust] using List.map_congr_left hfix

theorem mem_updateFirst {fits : α → Bool} {f : α → α} {l : List α} {b : α}
    (h : b ∈ updateFirst fits f l) : b ∈ l ∨ ∃ a ∈ l, fits a = true ∧ b = f a := by
  induction l with
  | nil => simp [updateFirst] at h
  | cons a l ih =>
    by_cases ha : fits a = true
    · simp only [updateFirst, ha, if_true, List.mem_cons] at h
      rcases h with rfl | h
      · exact Or.inr ⟨a, by simp, ha, rfl⟩
      · exact Or.inl (List.mem_cons_of_mem _ h)
    · simp only [updateFirst, ha, Bool.false_eq_true, if_false, List.mem_cons] at h
      rcases h with rfl | h
      · exact Or.inl (by simp)
      · rcases ih h with h | ⟨c, hc, h⟩
        · exact Or.inl (List.mem_cons_of_mem _ h)
        · exact Or.inr ⟨c, List.mem_cons_of_mem _ hc, h⟩

/-- A change that keeps a feature of the records it fits keeps the list of the features. -/
theorem map_updateFirst {fits : α → Bool} {f : α → α} {g : α → β}
    (hg : ∀ a, fits a = true → g (f a) = g a) (l : List α) :
    (updateFirst fits f l).map g = l.map g := by
  induction l with
  | nil => rfl
  | cons a l ih =>
    by_cases ha : fits a = true
    · simp [updateFirst, ha, hg a ha]
    · simp [updateFirst, ha, ih]

/-- Under distinct keys the first record of a key is the only one. -/
theorem updateFirst_eq_map {g : α → κ} {key : κ} (f : α → α) {l : List α} (hn : (l.map g).Nodup) :
    updateFirst (fun a => g a = key) f l = l.map fun a => if g a = key then f a else a := by
  induction l with
  | nil => rfl
  | cons a l ih =>
    simp only [List.map_cons, List.nodup_cons] at hn
    by_cases ha : g a = key
    · have hrest : ∀ b ∈ l, (if g b = key then f b else b) = b := by
        intro b hb
        have hne : g b ≠ key := by
          intro hkey
          exact hn.1 (List.mem_map.mpr ⟨b, hb, hkey.trans ha.symm⟩)
        rw [if_neg hne]
      rw [updateFirst, if_pos (decide_eq_true ha), List.map_cons, if_pos ha,
        List.map_congr_left hrest, List.map_id']
    · simp [updateFirst, ha, ih hn.2]

/-- The record that is found is replaced where it stands. -/
theorem updateFirst_of_find? {fits : α → Bool} (f : α → α) {l : List α} {a : α}
    (h : l.find? fits = some a) : ∃ front back, l = front ++ a :: back ∧
      (∀ b ∈ front, fits b = false) ∧ updateFirst fits f l = front ++ f a :: back := by
  induction l with
  | nil => cases h
  | cons b l ih =>
    by_cases hb : fits b = true
    · obtain rfl : b = a := by simpa [hb] using h
      exact ⟨[], l, rfl, by simp, by simp [updateFirst, hb]⟩
    · obtain ⟨front, back, hl, hfront, hupdate⟩ := ih (by simpa [hb] using h)
      refine ⟨b :: front, back, by simp [hl], ?_, by simp [updateFirst, hb, hupdate]⟩
      intro x hx
      rcases List.mem_cons.mp hx with rfl | hx
      · simpa using hb
      · exact hfront x hx

theorem length_updateFirst (fits : α → Bool) (f : α → α) (l : List α) :
    (updateFirst fits f l).length = l.length := by
  induction l with
  | nil => rfl
  | cons a l ih =>
    by_cases ha : fits a = true
    · simp [updateFirst, ha]
    · simp [updateFirst, ha, ih]

theorem find?_updateFirst {fits : α → Bool} {f : α → α} (h : ∀ a, fits a = true → fits (f a) = true)
    (l : List α) : (updateFirst fits f l).find? fits = (l.find? fits).map f := by
  induction l with
  | nil => rfl
  | cons a l ih =>
    by_cases ha : fits a = true
    · simp [updateFirst, ha, h a ha]
    · simp [updateFirst, ha, ih]

/-- A change of a record that is left out, before and after it, does not show. -/
theorem filter_updateFirst {fits p : α → Bool} {f : α → α}
    (h : ∀ a, fits a = true → p a = false ∧ p (f a) = false) (l : List α) :
    (updateFirst fits f l).filter p = l.filter p := by
  induction l with
  | nil => rfl
  | cons a l ih =>
    by_cases ha : fits a = true
    · obtain ⟨hbefore, hafter⟩ := h a ha
      simp [updateFirst, ha, hbefore, hafter]
    · simp [updateFirst, ha, List.filter_cons, ih]

end HeatingControl.Table
