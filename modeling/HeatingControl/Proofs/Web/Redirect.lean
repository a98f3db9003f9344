import HeatingControl.Proofs.Http.Form
import HeatingControl.Proofs.Web.Administration
import HeatingControl.Proofs.Web.ShownForm

/-!
# Back to what was selected

After a form the browser is sent back to the main page with the planning or the board that the form
was about. The id stands in the address as it is, which is safe for the characters it is made of,
and the address selects the same record again. Only what waits for a reboot leads elsewhere.
-/
namespace HeatingControl.Web

open Dashboard (Action Behaviour Memory Outcome Selection Task)
open Percent (octetOf)

section Chars

variable {c : Char}

theorem isQuerySafe_iff : isQuerySafe c = true ↔ Target.isIdChar c = true ∨ c = '_' ∨ c = '.' := by
  simp only [isQuerySafe, Target.isIdChar, Bool.or_eq_true, decide_eq_true_eq, or_assoc]

theorem isQuerySafe_ascii (h : isQuerySafe c = true) : c.toNat < 128 := by
  rcases isQuerySafe_iff.mp h with h | rfl | rfl
  · exact Target.isIdChar_ascii h
  · decide
  · decide

theorem isQuerySafe_not_blank (h : isQuerySafe c = true) : Text.isBlank c = false := by
  rcases isQuerySafe_iff.mp h with h | rfl | rfl
  · exact Target.isIdChar_not_blank h
  · decide
  · decide

theorem isQuerySafe_admitted (h : isQuerySafe c = true) : Form.admits (octetOf c) = true := by
  rcases isQuerySafe_iff.mp h with h | rfl | rfl
  · refine Target.of_isIdChar (P := fun c => Form.admits (octetOf c) = true) ?_ h
    decide +kernel
  · decide
  · decide

theorem writeOctet_of_isQuerySafe (h : isQuerySafe c = true) :
    Form.writeOctet (octetOf c) = [c] := by
  have hadmits := isQuerySafe_admitted h
  have hspace : octetOf c ≠ 0x20 :=
    Text.ne_of_kind hadmits (show Form.admits 0x20 = false by decide)
  rw [Form.writeOctet_admitted hspace hadmits, Percent.charOf_octetOf (isQuerySafe_ascii h)]

end Chars

def QuerySafe (s : String) : Prop := s ≠ "" ∧ s.toList.all isQuerySafe = true

instance (s : String) : Decidable (QuerySafe s) := inferInstanceAs (Decidable (_ ∧ _))

namespace QuerySafe

variable {s : String}

theorem chars (h : QuerySafe s) : ∀ c ∈ s.toList, isQuerySafe c = true := List.all_eq_true.mp h.2

theorem of_isWord (h : IsWord s) : QuerySafe s :=
  ⟨h.1, List.all_eq_true.mpr fun c hc => isQuerySafe_iff.mpr (Or.inl (h.chars c hc))⟩

theorem trim_eq (h : QuerySafe s) : Text.trim s = s :=
  Text.trim_of_no_blank fun c hc => isQuerySafe_not_blank (h.chars c hc)

theorem writePart_eq (h : QuerySafe s) : Form.writePart s = s.toList := by
  have hascii : ∀ c ∈ s.toList, c.toNat < 128 := fun c hc => isQuerySafe_ascii (h.chars c hc)
  have hoctets : Utf8.encode s = s.toList.map octetOf := by
    have hencode := Utf8.encode_ascii hascii
    rwa [String.ofList_toList] at hencode
  rw [Form.writePart_eq, hoctets, List.flatMap_map]
  refine (List.flatMap_congr fun c hc => writeOctet_of_isQuerySafe (h.chars c hc)).trans ?_
  exact List.flatMap_singleton' s.toList

end QuerySafe

def isAddressChar (c : Char) : Bool :=
  c.isAlphanum || ['/', '?', '=', '-', '_', '.'].contains c

theorem isAddressChar_of_isQuerySafe {c : Char} (h : isQuerySafe c = true) :
    isAddressChar c = true := by
  rw [isQuerySafe, Text.isWordChar_eq] at h
  simp only [Bool.or_eq_true, decide_eq_true_eq] at h
  rcases h with ((h | rfl) | rfl) | rfl
  · rw [isAddressChar, h]
    rfl
  · decide
  · decide
  · decide

/-- The main page under a selection. A board is selected only by a text that stands in a query as
it is. -/
inductive AddressOf : Selection → String → Prop
  | main : AddressOf ⟨none, none⟩ "/"
  | planning (id : PlanningId) : AddressOf ⟨some id, none⟩ ("/?planning=" ++ id.display)
  | board {text : String} (h : QuerySafe text) :
    AddressOf ⟨none, some ⟨text⟩⟩ ("/?hardware=" ++ text)

theorem querySafe_display (id : PlanningId) : QuerySafe id.display :=
  QuerySafe.of_isWord (isWord_natText id.number.toNat)

theorem asksHome_of_query {r : Request} {name value : String} (hmethod : r.method = "GET")
    (htarget : r.target.toList = '/' :: '?' :: (name.toList ++ '=' :: value.toList))
    (hname : QuerySafe name) (hvalue : QuerySafe value) :
    AsksHome r ∧ r.query = [(name, value)] := by
  have hfragment : r.target.toList.takeWhile (fun c => decide (c ≠ '#')) = r.target.toList := by
    refine List.takeWhile_eq_self_iff.mpr fun c hc => decide_eq_true ?_
    have hsafe : ∀ d, isQuerySafe d = true → d ≠ '#' :=
      fun d hd => Text.ne_of_kind hd (show isQuerySafe '#' = false by decide)
    simp only [htarget, List.mem_cons, List.mem_append] at hc
    rcases hc with rfl | rfl | hc | rfl | hc
    · decide
    · decide
    · exact hsafe c (hname.chars c hc)
    · decide
    · exact hsafe c (hvalue.chars c hc)
  have hcut : Text.cutFirst '?' r.target.toList =
      some (['/'], name.toList ++ '=' :: value.toList) := by
    rw [htarget]
    exact Text.cutFirst_append (l := ['/']) (by decide) _
  have hparts : r.parts = (['/'], name.toList ++ '=' :: value.toList) := by
    simp only [Request.parts, hfragment, hcut, Option.getD_some]
  have hwritten : String.ofList (name.toList ++ '=' :: value.toList) =
      Form.write [(name, value)] := by
    simp [Form.write, Form.writeField, hname.writePart_eq, hvalue.writePart_eq]
  have hquery : r.query = [(name, value)] := by
    rw [Request.query, hparts, hwritten, Form.read_write]
  refine ⟨⟨hmethod, ?_, ?_⟩, hquery⟩
  · rw [Request.segments, hparts]
    rfl
  · rw [hquery, Form.unrepeated, List.all_eq_true]
    exact fun _ _ => decide_eq_true (List.length_filter_le _ [(name, value)])

namespace AddressOf

variable {selection : Selection} {address : String}

theorem chars (h : AddressOf selection address) : address.toList.all isAddressChar = true := by
  have hsafe : ∀ {s : String}, QuerySafe s → s.toList.all isAddressChar = true := fun h =>
    List.all_eq_true.mpr fun c hc => isAddressChar_of_isQuerySafe (h.chars c hc)
  cases h with
  | main => decide
  | planning id =>
    rw [String.toList_append, List.all_append, hsafe (querySafe_display id)]
    decide
  | board h =>
    rw [String.toList_append, List.all_append, hsafe h]
    decide

theorem ne_reboot (h : AddressOf selection address) : address ≠ "/reboot" := by
  intro heq
  have hchars := congrArg String.toList heq
  cases h <;> simp at hchars

theorem shows (h : AddressOf selection address) (type : Option String) (body : Bytes) :
    visit ⟨"GET", address, type, body⟩ = .ok (.home selection) := by
  cases h with
  | main =>
    have hparts : Request.parts ⟨"GET", "/", type, body⟩ = (['/'], []) := by
      simp only [Request.parts]
      decide
    have hquery : Request.query ⟨"GET", "/", type, body⟩ = [] := by
      rw [Request.query, hparts]
      decide +kernel
    have hhome : AsksHome ⟨"GET", "/", type, body⟩ := by
      refine ⟨rfl, ?_, ?_⟩
      · rw [Request.segments, hparts]
        rfl
      · rw [hquery]
        rfl
    rw [visit_of_asksHome hhome, hquery]
    rfl
  | planning id =>
    have hsafe := querySafe_display id
    obtain ⟨hhome, hquery⟩ := asksHome_of_query
      (r := ⟨"GET", "/?planning=" ++ id.display, type, body⟩) rfl (by simp)
      (show QuerySafe "planning" by decide) hsafe
    have hparse : PlanningId.parse id.display = .ok id := by
      rw [PlanningId.parse, hsafe.trim_eq, PlanningId.display, Text.readUInt32_natText]
      rfl
    rw [visit_of_asksHome hhome, hquery]
    simp [selectionOf, hparse, Except.toOption]
  | @board text hsafe =>
    obtain ⟨hhome, hquery⟩ := asksHome_of_query
      (r := ⟨"GET", "/?hardware=" ++ text, type, body⟩) rfl (by simp)
      (show QuerySafe "hardware" by decide) hsafe
    rw [visit_of_asksHome hhome, hquery]
    simp [selectionOf, hsafe.trim_eq, hsafe.1]

end AddressOf

namespace Place

def fieldNames? : Place → Option (List String)
  | .override => some ["value"]
  | .zoneDescription _ => some ["description"]
  | .zoneMode _ => some ["mode"]
  | .plannings | .planningName _ => some ["name"]
  | .slots _ => some slotFields
  | .slot _ _ => some (slotFields ++ shownFields)
  | .accounts => some ["id", "password"]
  | .accountPassword _ => some ["password"]
  | .planningRemoval _ | .slotRemoval _ _ | .accountRemoval _ | .hardware => some []
  | .health | .home | .zones | .firmware | .certificate | .reboot => none

/-- The ids in the path can be read. -/
def Readable : Place → Prop
  | .zoneDescription id | .zoneMode id | .accountPassword id | .accountRemoval id =>
    ∃ text, Request.textSegment id = .ok text
  | .planningName id | .planningRemoval id | .slots id => ∃ n, Request.numberSegment id = .ok n
  | .slot owner id | .slotRemoval owner id =>
    (∃ n, Request.numberSegment owner = .ok n) ∧ ∃ n, Request.numberSegment id = .ok n
  | _ => True

/-- What is selected after a form: the planning that was changed and is still there, or the board
that was sent. -/
def kept (fields : List (String × String)) : Place → Selection
  | .planningName id | .slots id | .slot id _ | .slotRemoval id _ =>
    ⟨(Request.numberSegment id).toOption.map PlanningId.mk, none⟩
  | .hardware =>
    let board := Text.trim (Form.value HardwareSettings.boardField fields)
    if QuerySafe board then ⟨none, some ⟨board⟩⟩ else ⟨none, none⟩
  | _ => ⟨none, none⟩

end Place

/-- A form is posted to a place, and what the place reads of the path and of the body is there. -/
structure Arrives (r : Request) (place : Place) (fields : List (String × String)) : Prop where
  method : r.method = "POST"
  path : place? r.segments = some place
  ids : place.Readable
  body : r.formBody = .ok fields
  once : ∃ names, place.fieldNames? = some names ∧ Form.unrepeated names fields = true

theorem address_boardHome (hardware : String) :
    AddressOf (if QuerySafe (Text.trim hardware) then ⟨none, some ⟨Text.trim hardware⟩⟩
      else ⟨none, none⟩) (boardHome hardware) := by
  by_cases hsafe : QuerySafe (Text.trim hardware)
  · have hhome : boardHome hardware = "/?hardware=" ++ Text.trim hardware :=
      if_pos (by simpa [QuerySafe] using hsafe)
    rw [if_pos hsafe, hhome]
    exact AddressOf.board hsafe
  · have hhome : boardHome hardware = "/" := if_neg (by simpa [QuerySafe] using hsafe)
    rw [if_neg hsafe, hhome]
    exact AddressOf.main

namespace Arrives

variable {r : Request} {place : Place} {fields : List (String × String)}

theorem visit_eq (h : Arrives r place fields) :
    visit r = (place.form r).getD (.error .methodNotAllowed) := by
  have hverb : r.verb? = some .post := by
    rw [Request.verb?, h.method]
    decide
  simp only [visit, h.path, hverb, Option.bind_some, Place.visit?]

theorem visit_act (h : Arrives r place fields) :
    ∃ action back, visit r = .ok (.act action back) ∧ AddressOf (place.kept fields) back := by
  obtain ⟨names, hnames, honce⟩ := h.once
  have hids := h.ids
  have hform := onForm_of_body h.body honce
  rw [h.visit_eq]
  cases place <;> cases hnames
  case override | plannings | accounts =>
    simp only [Place.form, hform, Option.getD_some]
    exact ⟨_, _, rfl, .main⟩
  case zoneDescription id | zoneMode id | accountPassword id | accountRemoval id =>
    obtain ⟨text, hid⟩ := hids
    simp only [Place.form, hid, hform, bind, Except.bind, Option.getD_some]
    exact ⟨_, _, rfl, .main⟩
  case planningRemoval id =>
    obtain ⟨n, hid⟩ := hids
    simp only [Place.form, hid, bind, Except.bind, Option.getD_some]
    exact ⟨_, _, rfl, .main⟩
  case planningName id | slots id =>
    obtain ⟨n, hid⟩ := hids
    simp only [Place.form, Place.kept, hid, hform, bind, Except.bind, Option.getD_some]
    exact ⟨_, _, rfl, .planning ⟨n⟩⟩
  case slot owner id | slotRemoval owner id =>
    obtain ⟨⟨n, howner⟩, m, hid⟩ := hids
    simp only [Place.form, Place.kept, howner, hid, hform, bind, Except.bind, Option.getD_some]
    exact ⟨_, _, rfl, .planning ⟨n⟩⟩
  case hardware =>
    rw [Place.form, h.body]
    exact ⟨_, _, rfl, address_boardHome _⟩

end Arrives

theorem destination_eq_reboot {back : String} (h : back ≠ "/reboot") {outcome : Outcome} :
    destination back outcome = "/reboot" ↔ outcome = .reboot := by
  cases outcome <;> simp [destination, h]

theorem destination_of_ne {back : String} {outcome : Outcome} (h : outcome ≠ .reboot) :
    destination back outcome = back := by
  cases outcome with
  | reboot => exact absurd rfl h
  | applied | skipped | failed => rfl

theorem respond_act {σ : Type} (api : Behaviour σ) (w : σ × Memory) (refreshSeconds : Nat)
    {r : Request} {action : Action} {back : String} (hvisit : visit r = .ok (.act action back))
    (hmethod : r.method ≠ "HEAD") :
    (respond refreshSeconds r).runWith api w =
      (.seeOther (destination back (action.run.runWith api w).1),
        (action.run.runWith api w).2) := by
  have haction : Task.Runs api action.run w (Task.asked api action.run w)
      (action.run.runWith api w).1 (action.run.runWith api w).2 := ⟨rfl, rfl⟩
  have hvisited : Task.Runs api (Visit.respond refreshSeconds (.act action back)) w
      (Task.asked api action.run w ++ [])
      (.seeOther (destination back (action.run.runWith api w).1)) (action.run.runWith api w).2 :=
    haction.bind (Task.runs_pure _ _)
  have hanswer := hvisited.bind (Task.runs_pure _ _)
  unfold respond
  simpa only [hvisit, if_neg hmethod] using hanswer.run

/-- A form that arrives is answered with a redirect, whatever the controller does. It leads to the
wait for a reboot exactly when that is the outcome, and else to the main page, which is shown under
the selection that the form keeps. -/
theorem redirect_keeps_selection {r : Request} {place : Place} {fields : List (String × String)}
    (h : Arrives r place fields) :
    (∃ action back, visit r = .ok (.act action back) ∧ AddressOf (place.kept fields) back ∧
      ∀ {σ : Type} (api : Behaviour σ) (w : σ × Memory) (refreshSeconds : Nat),
        ∃ location, (respond refreshSeconds r).runWith api w =
            (.seeOther location, (action.run.runWith api w).2) ∧
          (location = "/reboot" ↔ (action.run.runWith api w).1 = .reboot) ∧
          ((action.run.runWith api w).1 ≠ .reboot → location = back) ∧
          location.toList.all isAddressChar = true) ∧
    ∀ {selection : Selection} {address : String}, AddressOf selection address →
      ∀ type body, visit ⟨"GET", address, type, body⟩ = .ok (.home selection) := by
  refine ⟨?_, fun haddress => haddress.shows⟩
  obtain ⟨action, back, hvisit, haddress⟩ := h.visit_act
  refine ⟨action, back, hvisit, haddress, fun api w refreshSeconds => ?_⟩
  have hmethod : r.method ≠ "HEAD" := by
    rw [h.method]
    decide
  refine ⟨_, respond_act api w refreshSeconds hvisit hmethod,
    destination_eq_reboot haddress.ne_reboot, destination_of_ne, ?_⟩
  by_cases hreboot : (action.run.runWith api w).1 = .reboot
  · rw [hreboot]
    exact (by decide : "/reboot".toList.all isAddressChar = true)
  · rw [destination_of_ne hreboot]
    exact haddress.chars

def storing : Behaviour Unit
  | .getHardwareParameters _, s => (.ok [], s)
  | .applyHardware _, s => (.ok (), s)
  | _, s => (.error (.notFound "" ""), s)

theorem redirect_of_board :
    let r : Request := ⟨"POST", "/hardware", some MediaType.form,
      Utf8.encode "hardware=M1&confirm=on&hardware=+M1.E_1-b%20"⟩
    let w := ((), Memory.new 10)
    Arrives r .hardware [("hardware", "M1"), ("confirm", "on"), ("hardware", " M1.E_1-b ")] ∧
    ((respond 5 r).runWith storing w).1 = .seeOther "/reboot" ∧
    ((respond 5 r).runWith hostile w).1 = .seeOther "/?hardware=M1.E_1-b" ∧
    visit ⟨"GET", "/?hardware=M1.E_1-b", none, []⟩ = .ok (.home ⟨none, some ⟨"M1.E_1-b"⟩⟩) := by
  intro r w
  have hr : Arrives r .hardware
      [("hardware", "M1"), ("confirm", "on"), ("hardware", " M1.E_1-b ")] := by
    refine ⟨rfl, by decide +kernel, trivial, by decide +kernel, [], rfl, by decide⟩
  obtain ⟨⟨action, back, hvisit, haddress, hanswer⟩, hshows⟩ := redirect_keeps_selection hr
  have hact : visit r = .ok (.act (.applyHardware " M1.E_1-b " [] true) "/?hardware=M1.E_1-b") := by
    decide +kernel
  obtain ⟨rfl, rfl⟩ := Visit.act.inj (Except.ok.inj (hvisit.symm.trans hact))
  refine ⟨hr, ?_, ?_, ?_⟩
  · obtain ⟨location, hresponse, hreboot, -⟩ := hanswer storing w 5
    rw [hresponse, hreboot.mpr (by decide +kernel)]
  · obtain ⟨location, hresponse, -, hback, -⟩ := hanswer hostile w 5
    rw [hresponse, hback (by decide +kernel)]
  · have hkept : Place.hardware.kept
        [("hardware", "M1"), ("confirm", "on"), ("hardware", " M1.E_1-b ")] =
          ⟨none, some ⟨"M1.E_1-b"⟩⟩ := by
      decide +kernel
    rw [hkept] at haddress
    exact hshows haddress none []

end HeatingControl.Web
