import HeatingControl.Proofs.Json.Roundtrip
import HeatingControl.Wire.Codec

/-!
# Written records read back

A record is read again from the object that holds its fields, whichever of them are left out. The
types it is made of only have to be read back themselves.
-/
namespace HeatingControl.Wire

/-- The value is read again from what is written for it. -/
structure Faithful {α : Type} [Wire α] (v : α) : Prop where
  plain : (encode v).Plain
  reads : decode (encode v) = .ok v

attribute [simp] Faithful.reads

theorem ofText_toText {α : Type} [Wire α] {v : α} (h : Faithful v) : ofText (toText v) = .ok v := by
  rw [ofText, toText, Json.read_write h.plain, ofDocument, h.reads]
  rfl

theorem ofBytes_encode {α : Type} [Wire α] (s : String) :
    (ofBytes (Utf8.encode s) : Except Misfit α) = ofText s := by
  rw [ofBytes, Json.readBytes_encode, ofText]

theorem ofBytes_toText {α : Type} [Wire α] {v : α} (h : Faithful v) :
    ofBytes (Utf8.encode (toText v)) = .ok v := by
  rw [ofBytes_encode, ofText_toText h]

structure Cell where
  field : Field
  entry : Option (String × Json)

/-- What is written goes under a name of the field and is accepted there. -/
def Cell.Fits (c : Cell) : Prop :=
  ∀ key j, c.entry = some (key, j) →
    key ∈ c.field.names ∧ j.Plain ∧ c.field.accept j = .ok ()

theorem plain_object {cells : List Cell} (h : ∀ c ∈ cells, c.Fits) :
    (Json.object (cells.filterMap Cell.entry)).Plain := by
  induction cells with
  | nil => trivial
  | cons c cells ih =>
    obtain ⟨hc, hcells⟩ := List.forall_mem_cons.mp h
    have hrest := ih hcells
    cases hentry : c.entry with
    | none => rwa [List.filterMap_cons_none hentry]
    | some e =>
      rw [List.filterMap_cons_some hentry]
      exact ⟨(hc e.1 e.2 hentry).2.1, hrest⟩

/-- A key that no field has is skipped with its value. -/
theorem place_unknown {fields : List Field} {key : String} {j : Json}
    (hkey : ∀ f ∈ fields, key ∉ f.names) (hj : j.Plain) (places : List (Option Json))
    (entries : List (String × Json)) :
    place fields places ((key, j) :: entries) = place fields places entries := by
  have hindex : fields.findIdx? (fun f => f.names.contains key) = none :=
    List.findIdx?_eq_none_iff.mpr fun f hf => by simpa using hkey f hf
  rw [place]
  · simp only [hindex, hj.isWhole, if_true]
  · rintro value rfl
    exact hj

/-- A plain value under a name of the next field goes to its place. -/
theorem place_next (front : List Field) (done : List (Option Json)) {back : List Field}
    {f : Field} {rest : List (Option Json)} {key : String} {j : Json}
    (hlength : done.length = front.length) (hfront : ∀ g ∈ front, key ∉ g.names)
    (hkey : key ∈ f.names) (hj : j.Plain) (haccept : f.accept j = .ok ())
    (entries : List (String × Json)) :
    place (front ++ f :: back) (done ++ none :: rest) ((key, j) :: entries) =
      place (front ++ f :: back) (done ++ some j :: rest) entries := by
  have hindex : (front ++ f :: back).findIdx? (fun g => g.names.contains key) =
      some front.length := by
    rw [List.findIdx?_append, List.findIdx?_eq_none_iff.mpr fun g hg => by simpa using hfront g hg]
    simp [List.findIdx?_cons, hkey]
  have hplace : (done ++ none :: rest)[front.length]? = some (none : Option Json) := by
    rw [← hlength]
    simp
  have hfield : (front ++ f :: back)[front.length]? = some f := by simp
  have hset : (done ++ none :: rest).set front.length (some j) = done ++ some j :: rest := by
    rw [← hlength]
    simp
  rw [place]
  · simp only [hindex, hplace, hfield, Field.fits, haccept, hset]
  · rintro value rfl
    exact hj

/-- Every field finds its entry or stays empty. -/
theorem places_object {cells : List Cell} (hn : (cells.flatMap fun c => c.field.names).Nodup)
    (h : ∀ c ∈ cells, c.Fits) :
    places (cells.map Cell.field) (.object (cells.filterMap Cell.entry)) =
      .ok (cells.map fun c => c.entry.map Prod.snd) := by
  -- The cells before those that are left have their places filled already.
  have hrun : ∀ done left : List Cell, ((done ++ left).flatMap fun c => c.field.names).Nodup →
      (∀ c ∈ left, c.Fits) →
      place ((done ++ left).map Cell.field)
          ((done.map fun c => c.entry.map Prod.snd) ++ left.map fun _ => none)
          (left.filterMap Cell.entry) =
        .ok ((done ++ left).map fun c => c.entry.map Prod.snd) := by
    intro done left
    induction left generalizing done with
    | nil => simp [place]
    | cons c left ih =>
      intro hn hfits
      obtain ⟨hc, hleft⟩ := List.forall_mem_cons.mp hfits
      have hnext := ih (done ++ [c]) (by simpa using hn) hleft
      simp only [List.map_append, List.map_cons, List.map_nil, List.append_assoc,
        List.singleton_append] at hnext ⊢
      cases hentry : c.entry with
      | none =>
        rw [hentry] at hnext
        rwa [List.filterMap_cons_none hentry]
      | some e =>
        obtain ⟨hkey, hj, haccept⟩ := hc e.1 e.2 hentry
        have hfront : ∀ g ∈ done.map Cell.field, e.1 ∉ g.names := by
          intro g hg hmem
          obtain ⟨d, hd, rfl⟩ := List.mem_map.mp hg
          rw [List.flatMap_append, List.nodup_append] at hn
          exact hn.2.2 e.1 (List.mem_flatMap.mpr ⟨d, hd, hmem⟩) e.1
            (List.mem_flatMap.mpr ⟨c, List.mem_cons_self .., hkey⟩) rfl
        rw [hentry] at hnext
        rw [List.filterMap_cons_some hentry, place_next _ _ (by simp) hfront hkey hj haccept]
        exact hnext
  simpa [places, Function.comp_def] using hrun [] cells hn h

/-- A record whose cells fit and whose values are put together from their places. -/
theorem faithful_record {α : Type} [Wire α] {v : α} (cells : List Cell)
    {build : List (Option Json) → Except Misfit α}
    (hencode : encode v = .object (cells.filterMap Cell.entry))
    (hdecode : ∀ j, decode j = places (cells.map Cell.field) j >>= build)
    (hn : (cells.flatMap fun c => c.field.names).Nodup) (h : ∀ c ∈ cells, c.Fits)
    (hbuild : build (cells.map fun c => c.entry.map Prod.snd) = .ok v) : Faithful v := by
  constructor
  · rw [hencode]
    exact plain_object h
  · rw [hencode, hdecode, places_object hn h]
    exact hbuild

section Cells

variable {α : Type} [Wire α]

def cell (names : List String) (key : String) (v : α) : Cell :=
  ⟨field α names, some (key, encode v)⟩

def optionalCell (name : String) (v : Option α) : Cell :=
  ⟨field (Option α) [name], v.map fun v => (name, encode v)⟩

@[simp] theorem optionalCell_value (name : String) (v : Option α) :
    (optionalCell name v).entry.map Prod.snd = v.map encode := by
  cases v <;> rfl

theorem cell_fits {names : List String} {key : String} {v : α} (hkey : key ∈ names)
    (h : Faithful v) : (cell names key v).Fits := by
  intro k j hentry
  obtain ⟨rfl, rfl⟩ : key = k ∧ encode v = j := by simpa [cell] using hentry
  exact ⟨hkey, h.plain, by simp [cell, field, h.reads, Except.map]⟩

theorem optionalCell_fits {name : String} {v : Option α} (h : Faithful v) :
    (optionalCell name v).Fits := by
  intro k j hentry
  cases v with
  | none => simp [optionalCell] at hentry
  | some w =>
    obtain ⟨rfl, rfl⟩ : name = k ∧ encode w = j := by simpa [optionalCell] using hentry
    have hread : decode (encode w) = .ok (some w) := h.reads
    exact ⟨List.mem_singleton_self _, h.plain, by simp [optionalCell, field, hread, Except.map]⟩

theorem optional_of {places : List (Option Json)} {i : Nat} {v : Option α}
    (h : Faithful v) (hi : places[i]? = some (v.map encode)) :
    optional places i = .ok v := by
  cases v with
  | none => simp [optional, hi]
  | some w =>
    have hread : decodeNullable (encode w) = .ok (some w) := h.reads
    simp [optional, hi, hread]

end Cells
end HeatingControl.Wire
