import HeatingControl.Proofs.Client.Regular
import Mathlib

/-!
# Calls over the web come to what the controller does

The request for an operation, answered by the interface of a controller and read again, leaves the
state that the operation leaves and tells what the operation comes to. What is too large for a url
or for a body does not get through, and leaves the state as it is.
-/
namespace HeatingControl

open Rest (answered failure failureStatus success planningView)

namespace State

variable {grace : Nat} {t : Moment} {s : State}

/-- A call that fails is refused, misses a record, or comes during a reboot. -/
theorem step_error (hs : Integrity s) {c : Call} {e : Error}
    (he : (step grace t c s).1 = .error e) :
    (∃ v, e = .validation v) ∨ (∃ entity id, e = .notFound entity id) ∨
      ¬ s.OnlineAt t.now ∧ e = unavailable c := by
  by_cases honline : s.OnlineAt t.now
  · have hsettles : Settles (s.boot t.now) (step grace t c s) :=
      step_settles honline hs.slot_keys_distinct c
    generalize step grace t c s = r at hsettles he
    cases hsettles with
    | refused v => exact Or.inl ⟨v, (Except.error.inj he).symm⟩
    | missed entity id => exact Or.inr (Or.inl ⟨entity, id, (Except.error.inj he).symm⟩)
    | accepted => cases he
  · rw [step_of_offline honline] at he
    exact Or.inr (Or.inr ⟨honline, (Except.error.inj he).symm⟩)

theorem step_failure_status (hs : Integrity s) {c : Call} {e : Error}
    (he : (step grace t c s).1 = .error e) : Client.isSuccess (failureStatus e) = false := by
  rcases step_error hs he with ⟨v, rfl⟩ | ⟨entity, id, rfl⟩ | ⟨-, rfl⟩
  · rfl
  · rfl
  · rfl

theorem step_getHardwareParameters (grace : Nat) (honline : s.OnlineAt t.now) (id : HardwareId) :
    (step grace t (.operation (.getHardwareParameters id)) s).1 =
      match Table.get? id s.parameters with
      | none => .error (.notFound "Hardware" id.text)
      | some parameters => .ok parameters := by
  rw [step_of_online honline]
  change (hardwareParameters id (s.boot t.now)).1 = _
  rw [hardwareParameters, boot_parameters]
  cases Table.get? id s.parameters <;> rfl

theorem step_applyHardware_of_none (honline : s.OnlineAt t.now) {settings : HardwareSettings}
    (h : Table.get? settings.hardware s.parameters = none) :
    step grace t (.operation (.applyHardware settings)) s =
      (.error (.notFound "Hardware" settings.hardware.text), s.boot t.now) := by
  rw [step_of_online honline]
  change applyHardware settings (s.boot t.now) = _
  rw [applyHardware, boot_parameters, h]
  rfl

end State

namespace Rest

theorem run_respond {r : Request} {d : Demand} (hdemand : demand r = .ok d)
    (hmethod : r.method ≠ "HEAD") (answer : (c : Call) → State → c.Result × State) (s : State) :
    (respond r).run answer s =
      (answered (Program.run answer d.load.run s).1, (Program.run answer d.load.run s).2) := by
  rw [respond_of_demand hdemand hmethod, Program.run_bind]
  rfl

end Rest

namespace Client

variable {c : Client} {grace : Nat} {t : Moment} {s : State}

/-- What a client is told of what an operation came to: the answer, or the status that stands for
the failure. -/
def told (c : Client) (op : Operation) : op.Result → op.Result
  | .ok v => .ok v
  | .error e => .error (.http op.verb (c.path op.endpoint) (failureStatus e))

theorem told_error (hroot : c.root = Operation.root) (op : Operation) (e : Error) :
    c.told op (.error e) =
      .error (.http op.verb (Operation.root ++ op.endpoint) (failureStatus e)) := by
  rw [← hroot]
  rfl

theorem read_answered {op : Operation} {α : Type} {r : Except Error α} {f : α → Response}
    {g : α → op.Answer} (hanswer : ∀ v, r = .ok v → c.read op (f v).reply = .ok (g v))
    (hfailure : ∀ e, r = .error e → isSuccess (failureStatus e) = false) :
    c.read op (answered (r.map f)).reply = c.told op (r.map g) := by
  cases hr : r with
  | ok v => exact hanswer v hr
  | error e => exact c.read_failure op (hfailure e hr)

/-- What comes of the request for an operation: the interface answers it, the client reads the
answer. -/
def served (c : Client) (op : Operation) (grace : Nat) (t : Moment) (s : State) :
    op.Result × State :=
  let interface (r : Request) := (Rest.respond r).run (State.step grace t) s
  (c.exchange (fun r => (interface r).1.reply) op,
    ((c.request? op).map fun r => (interface r).2).getD s)

/-- What comes of the operation itself, as a client is told. -/
def direct (c : Client) (op : Operation) (grace : Nat) (t : Moment) (s : State) :
    op.Result × State :=
  let r := State.step grace t (.operation op) s
  (c.told op r.1, r.2)

theorem request_method (c : Client) (op : Operation) : (c.request op).method ≠ "HEAD" := by
  have htext : ∀ v : Verb, v.text ≠ "HEAD" := by
    intro v
    cases v <;> decide
  exact htext op.verb

/-- The operation fits into a url and a body. -/
structure Fits (c : Client) (op : Operation) : Prop where
  url : (c.url op.endpoint).length ≤ Url.limit
  body : (bodyOf op).2.length ≤ Request.bodyLimit

theorem request?_of_url (hc : c.AtOrigin) {op : Operation} (hop : s.Regular op)
    (h : (c.url op.endpoint).length ≤ Url.limit) : c.request? op = some (c.request op) := by
  rw [request?, hc.chars hop.addressed]
  exact if_pos h

theorem served_of_url (hc : c.AtOrigin) {op : Operation} (hop : s.Regular op)
    (h : (c.url op.endpoint).length ≤ Url.limit) : c.served op grace t s =
      (c.read op ((Rest.respond (c.request op)).run (State.step grace t) s).1.reply,
        ((Rest.respond (c.request op)).run (State.step grace t) s).2) := by
  simp only [served, exchange, request?_of_url hc hop h, Option.map_some, Option.getD_some]

theorem served_eq (hc : c.AtOrigin) {op : Operation} (hop : s.Regular op) (hfits : c.Fits op) :
    c.served op grace t s =
      (c.read op (answered (op.demand.load.run.run (State.step grace t) s).1).reply,
        (op.demand.load.run.run (State.step grace t) s).2) := by
  have hdemand := demand_request hc hop.addressed hop.legible
  rw [Request.sized_of_le hfits.body] at hdemand
  rw [served_of_url hc hop hfits.url, Rest.run_respond hdemand (c.request_method op)]

/-- Under a url that is too long nothing is sent, and the state stays. -/
theorem served_of_long_url (hc : c.AtOrigin) {op : Operation} (hop : s.Regular op)
    (h : Url.limit < (c.url op.endpoint).length) : ∃ cause, c.served op grace t s =
      (.error (.network op.verb (Operation.root ++ op.endpoint) cause), s) := by
  have hlength : Url.limit < (c.urlOf op).chars.length := by
    rw [hc.chars hop.addressed]
    exact h
  obtain ⟨cause, hcause⟩ := c.exchange_of_lt hc.root hlength
  have hnone : c.request? op = none := if_neg (Nat.not_le.mpr hlength)
  refine ⟨cause, ?_⟩
  simp only [served, hcause, hnone, Option.map_none, Option.getD_none]

/-- A body that is too large is refused before the controller is asked for anything. -/
theorem served_of_large_body (hc : c.AtOrigin) {op : Operation} (hop : s.Regular op)
    (hurl : (c.url op.endpoint).length ≤ Url.limit)
    (h : Request.bodyLimit < (bodyOf op).2.length) : c.served op grace t s =
      (.error (.http op.verb (Operation.root ++ op.endpoint) 413), s) := by
  have hdemand := demand_request hc hop.addressed hop.legible
  rw [Request.sized_of_lt h] at hdemand
  have hrespond : Rest.respond (c.request op) = .done Refusal.tooLarge.response := by
    simp only [Rest.respond, hdemand, if_neg (c.request_method op)]
    rfl
  rw [served_of_url hc hop hurl, hrespond, ← hc.root]
  rfl

/-- A demand of one call, of which the operation keeps all or a part of the answer. -/
theorem served_one_call (hc : c.AtOrigin) (hs : State.Integrity s) {op : Operation}
    (hop : s.Regular op) (hfits : c.Fits op) {call : Call} {f : call.Answer → Response}
    {g : call.Answer → op.Answer}
    (hload : op.demand.load.run = .ask call fun r => .done (r.map f))
    (hread : ∀ v, (State.step grace t call s).1 = .ok v → c.read op (f v).reply = .ok (g v))
    (hstep : State.step grace t (.operation op) s =
      ((State.step grace t call s).1.map g, (State.step grace t call s).2)) :
    c.served op grace t s = c.direct op grace t s := by
  rw [served_eq hc hop hfits, hload, direct, hstep]
  exact congrArg (·, _) (read_answered hread fun e he => State.step_failure_status hs he)

theorem step_eq_of_perform (grace : Nat) (t : Moment) (op : Operation) (call : Call)
    (g : call.Answer → op.Answer) (hperform : ∀ u, State.perform grace t op u =
      ((State.performCall grace t call u).1.map g, (State.performCall grace t call u).2))
    (hfail : State.unavailable (.operation op) = State.unavailable call) (s : State) :
    State.step grace t (.operation op) s =
      ((State.step grace t call s).1.map g, (State.step grace t call s).2) := by
  by_cases honline : s.OnlineAt t.now
  · rw [State.step_of_online honline, State.step_of_online honline]
    exact hperform (s.boot t.now)
  · rw [State.step_of_offline honline, State.step_of_offline honline, hfail]
    rfl

theorem served_operation (hc : c.AtOrigin) (hs : State.Integrity s) {op : Operation}
    (hop : s.Regular op) (hfits : c.Fits op) (hdemand : op.demand = .operation op) :
    c.served op grace t s = c.direct op grace t s := by
  have hload : op.demand.load.run =
      .ask (.operation op) fun r => .done (r.map (success op)) := by
    rw [hdemand]
    exact Rest.load_operation op
  have hread : ∀ v, (State.step grace t (.operation op) s).1 = .ok v →
      c.read op (success op v).reply = .ok (id v) := by
    intro v hv
    apply c.read_success op
    by_cases honline : s.OnlineAt t.now
    · rw [State.step_of_online honline] at hv
      exact (hs.boot t.now).answer_legible t op hv
    · rw [State.step_of_offline honline] at hv
      cases hv
  have hid : ∀ r : op.Result, r = r.map id := by
    intro r
    cases r <;> rfl
  exact served_one_call hc hs hop hfits hload hread (Prod.ext (hid _) rfl)

/-- The name is asked for after the slots, of the same records. -/
theorem served_getPlanningSlots (hc : c.AtOrigin) (hs : State.Integrity s) (id : PlanningId)
    (hfits : c.Fits (.getPlanningSlots id)) :
    c.served (.getPlanningSlots id) grace t s = c.direct (.getPlanningSlots id) grace t s := by
  have hregular : s.Regular (.getPlanningSlots id) := trivial
  have hload : (Operation.getPlanningSlots id).demand.load.run = _ := Rest.load_planning id
  have hquiet := Rest.quiet_planningSlots id grace t s
  rw [served_eq hc hregular hfits, hload, Program.run, direct, hquiet]
  by_cases honline : s.OnlineAt t.now
  · have hsecond : State.step grace t (.operation .getPlannings) (s.boot t.now) =
        (.ok (s.boot t.now).plannings, s.boot t.now) := by
      rw [State.step_boot, State.step_of_online honline]
      rfl
    cases hslots : (State.step grace t (.operation (.getPlanningSlots id)) s).1 with
    | error e =>
      exact congrArg (·, _) (c.read_failure _ (State.step_failure_status hs hslots))
    | ok slots =>
      simp only [Program.run, hsecond]
      exact congrArg (·, _) (c.read_planningView id _ slots)
  · rw [State.step_of_offline honline]
    exact congrArg (·, _) (c.read_failure _ rfl)

theorem boardOf_formFields {settings : HardwareSettings} (h : IsWord settings.hardware.text) :
    Rest.boardOf settings.formFields = .ok settings.hardware := by
  have htrim : Text.trim settings.hardware.text = settings.hardware.text :=
    Text.trim_of_no_blank fun d hd => Target.isIdChar_not_blank (h.chars d hd)
  rw [Rest.boardOf_formFields, htrim]

/-- The form comes to the same settings over the parameters that it is completed with. -/
theorem ofForm_sent (hrun : State.RegularRun grace s) {settings : HardwareSettings}
    (hop : s.Regular (.applyHardware settings)) {parameters : List HardwareParameter}
    (found : Table.get? settings.hardware s.parameters = some parameters) :
    HardwareSettings.ofForm settings.hardware settings.formFields parameters = .ok settings := by
  have hboards := hrun.reachable.boards
  have hmem := Table.mem_of_get? found
  obtain ⟨-, fields, hform⟩ := hop
  rw [State.parametersOf, found, Option.getD_some] at hform
  exact HardwareSettings.ofForm_formFields (hboards.ids_distinct hmem)
    (hboards.no_boardField hmem) (hrun.valuesKept _ hmem) hform

theorem served_applyHardware (hc : c.AtOrigin) (hrun : State.RegularRun grace s)
    {settings : HardwareSettings} (hop : s.Regular (.applyHardware settings))
    (hfits : c.Fits (.applyHardware settings)) :
    c.served (.applyHardware settings) grace t s =
      c.direct (.applyHardware settings) grace t s := by
  have hs := hrun.reachable.integrity
  have hload : (Operation.applyHardware settings).demand.load.run = _ :=
    Rest.load_hardwareForm settings.formFields
  rw [boardOf_formFields hop.1] at hload
  have hquiet := Rest.quiet_hardwareParameters settings.hardware grace t s
  rw [served_eq hc hop hfits, hload, Program.run, direct, hquiet]
  by_cases honline : s.OnlineAt t.now
  · have hfirst := State.step_getHardwareParameters grace honline settings.hardware
    cases found : Table.get? settings.hardware s.parameters with
    | none =>
      -- The form fails at its first call, and the operation itself in the same way.
      rw [found] at hfirst
      rw [hfirst, State.step_applyHardware_of_none honline found]
      exact congrArg (·, _) (c.read_failure _ rfl)
    | some parameters =>
      rw [found] at hfirst
      simp only [hfirst, Rest.applyForm, ofForm_sent hrun hop found, Program.run, State.step_boot]
      cases hdirect : (State.step grace t (.operation (.applyHardware settings)) s).1 with
      | ok v => rfl
      | error e =>
        exact congrArg (·, _) (c.read_failure _ (State.step_failure_status hs hdirect))
  · rw [State.step_of_offline honline, State.step_of_offline honline]
    exact congrArg (·, _) (c.read_failure _ rfl)

/-- Whatever the operation, the client is told of what the call comes to. -/
theorem served_told (hc : c.AtOrigin) (hrun : State.RegularRun grace s) {op : Operation}
    (hop : s.Regular op) (hfits : c.Fits op) :
    c.served op grace t s = c.direct op grace t s := by
  have hs := hrun.reachable.integrity
  cases op with
  | createPlanning name =>
    have hstep := step_eq_of_perform grace t (.createPlanning name) (.addPlanning name)
      (fun _ => ()) (fun _ => rfl) rfl s
    exact served_one_call hc hs hop hfits (Rest.load_addPlanning name) (fun _ _ => rfl) hstep
  | createSlot planning slot =>
    have hstep := step_eq_of_perform grace t (.createSlot planning slot)
      (.addSlot planning slot) (fun _ => ()) (fun _ => rfl) rfl s
    exact served_one_call hc hs hop hfits (Rest.load_addSlot planning slot) (fun _ _ => rfl) hstep
  | getPlanningSlots id => exact served_getPlanningSlots hc hs id hfits
  | applyHardware settings => exact served_applyHardware hc hrun hop hfits
  | _ => exact served_operation hc hs hop hfits rfl

/-- An operation over the web leaves the state that the operation itself leaves, succeeds with the
same answer if and only if it does, and fails with the status of its failure otherwise. -/
structure Refines (s : State) (now : Nat) (op : Operation) (direct served : op.Result × State) :
    Prop where
  state : served.2 = direct.2
  answer : ∀ v, served.1 = .ok v ↔ direct.1 = .ok v
  refused : ∀ e, direct.1 = .error (.validation e) →
    served.1 = .error (.http op.verb (Operation.root ++ op.endpoint) 400)
  missed : ∀ entity id, direct.1 = .error (.notFound entity id) →
    served.1 = .error (.http op.verb (Operation.root ++ op.endpoint) 404)
  rebooting : ¬ s.OnlineAt now →
    direct.1 = .error (.http op.verb (Operation.root ++ op.endpoint) 503) ∧ served.1 = direct.1
  online : s.OnlineAt now → ∀ e, direct.1 = .error e →
    (∃ v, e = .validation v) ∨ ∃ entity id, e = .notFound entity id
  statuses : ∀ e, served.1 = .error e →
    ∃ status ∈ [400, 404, 503], e = .http op.verb (Operation.root ++ op.endpoint) status

theorem refines_of_told (hroot : c.root = Operation.root) (hs : State.Integrity s)
    (op : Operation) : Refines s t.now op (State.step grace t (.operation op) s)
      (c.direct op grace t s) := by
  generalize hdirect : State.step grace t (.operation op) s = direct
  have htold : c.direct op grace t s = (c.told op direct.1, direct.2) := by
    rw [Client.direct, hdirect]
  have hfailed : ∀ e, direct.1 = .error e → (∃ v, e = .validation v) ∨
      (∃ entity id, e = .notFound entity id) ∨
      ¬ s.OnlineAt t.now ∧ e = State.unavailable (.operation op) := by
    intro e he
    rw [← hdirect] at he
    exact State.step_error hs he
  have hoffline : ¬ s.OnlineAt t.now → direct.1 =
      .error (.http op.verb (Operation.root ++ op.endpoint) 503) := by
    intro hoffline
    rw [← hdirect, State.step_of_offline hoffline]
    rfl
  have hstatus : ∀ e, direct.1 = .error e → c.told op direct.1 =
      .error (.http op.verb (Operation.root ++ op.endpoint) (failureStatus e)) := by
    intro e he
    rw [he, told_error hroot]
  rw [htold]
  refine
    { state := rfl
      answer := fun v => ?_
      refused := fun e he => hstatus _ he
      missed := fun entity id he => hstatus _ he
      rebooting := fun h => ⟨hoffline h, (hstatus _ (hoffline h)).trans (hoffline h).symm⟩
      online := fun honline e he => ?_
      statuses := fun e he => ?_ }
  · cases direct.1 with
    | ok w => exact Iff.rfl
    | error e => exact ⟨nofun, nofun⟩
  · rcases hfailed e he with hrefused | hmissed | ⟨hoffline, -⟩
    · exact Or.inl hrefused
    · exact Or.inr hmissed
    · exact absurd honline hoffline
  · cases hresult : direct.1 with
    | ok w =>
      rw [hresult] at he
      cases he
    | error d =>
      have htold := (hstatus d hresult).symm.trans he
      obtain rfl := Except.error.inj htold
      rcases hfailed d hresult with ⟨v, rfl⟩ | ⟨entity, id, rfl⟩ | ⟨-, rfl⟩
      · exact ⟨400, by simp, rfl⟩
      · exact ⟨404, by simp, rfl⟩
      · exact ⟨503, by simp, rfl⟩

/-- A regular operation that fits into a url and a body comes to the same over the web. Where the
url is too long there is no reply; where the body is too large it is refused with a status of its
own. Either way the state stays. -/
theorem web_refines_direct {base : String} (hbuild : build base Operation.root = .ok c)
    (horigin : Url.IsOrigin c.base) (hrun : State.RegularRun grace s) (t : Moment)
    {op : Operation} (hop : s.Regular op) :
    (c.Fits op → Refines s t.now op (State.step grace t (.operation op) s)
      (c.served op grace t s)) ∧
    (Url.limit < (c.url op.endpoint).length → ∃ cause, c.served op grace t s =
      (.error (.network op.verb (Operation.root ++ op.endpoint) cause), s)) ∧
    ((c.url op.endpoint).length ≤ Url.limit → Request.bodyLimit < (bodyOf op).2.length →
      c.served op grace t s =
        (.error (.http op.verb (Operation.root ++ op.endpoint) 413), s)) := by
  have hc := atOrigin_of_build hbuild horigin
  refine ⟨fun hfits => ?_, served_of_long_url hc hop, served_of_large_body hc hop⟩
  rw [served_told hc hrun hop hfits]
  exact refines_of_told hc.root hrun.reachable.integrity op

theorem build_heating : build "http://heating:8080/" Operation.root =
    .ok ⟨"http://heating:8080", Operation.root⟩ := by rfl

theorem heating_isOrigin : Url.IsOrigin "http://heating:8080" :=
  ⟨("http", 80), by simp, "heating".toList, ":8080".toList,
    .name (by decide +kernel) (by decide +kernel),
    .inr ⟨8080, by decide, by decide, by decide +kernel⟩, by decide⟩

def textSettings (text : String) : HardwareSettings :=
  ⟨⟨"OFP-10Z"⟩, [("dummy1", .integer 69), ("dummy2", .text text)]⟩

theorem textSettings_stored (text : String) :
    (State.seeded 0).Regular (.applyHardware (textSettings text)) ∧
      (State.step 10 ⟨0, ⟨.monday, 8, 0⟩⟩ (.operation (.applyHardware (textSettings text)))
        (.seeded 0)).1 = .ok () := by
  have hword : IsWord "OFP-10Z" := by decide
  exact ⟨⟨hword, [("dummy2", text)], by rfl⟩, by cbv⟩

theorem length_text_le (text : String) : (Form.writePart text).length ≤
    (bodyOf (.applyHardware (textSettings text))).2.length := by
  have hbody : ∀ settings, (bodyOf (.applyHardware settings)).2 =
      Utf8.encode (Form.write settings.formFields) := fun _ => rfl
  have hfield : ("dummy2", text) ∈ (textSettings text).formFields := by
    simp [textSettings, HardwareSettings.formFields, ParameterValue.display]
  have hlength := Form.length_value_le hfield
  rw [hbody]
  exact hlength

/-- A text of too many ampersands is stored when the controller is asked directly; over the web the
form is too large, and nothing is stored. -/
theorem large_text_refused :
    let text := String.ofList (List.replicate 700000 '&')
    let op : Operation := .applyHardware (textSettings text)
    let t : Moment := ⟨0, ⟨.monday, 8, 0⟩⟩
    ∃ c, build "http://heating:8080/" Operation.root = .ok c ∧ Url.IsOrigin c.base ∧
      State.RegularRun 10 (.seeded 0) ∧ (State.seeded 0).Regular op ∧
      (State.step 10 t (.operation op) (.seeded 0)).1 = .ok () ∧
      (c.served op 10 t (.seeded 0)).1 = .error (.http .post "/ofp-api/v1/hardware" 413) ∧
      ¬ Refines (.seeded 0) t.now op (State.step 10 t (.operation op) (.seeded 0))
        (c.served op 10 t (.seeded 0)) := by
  intro text op t
  have hc := atOrigin_of_build build_heating heating_isOrigin
  obtain ⟨hregular, hdirect⟩ := textSettings_stored text
  have hlength : Request.bodyLimit < (bodyOf op).2.length := by
    refine Nat.lt_of_lt_of_le ?_ (length_text_le text)
    rw [Form.length_writePart_replicate (by decide) (by decide) (by decide)]
    decide
  have hserved : Client.served _ op 10 t (.seeded 0) = _ :=
    served_of_large_body hc hregular (by decide +kernel) hlength
  -- What is served is a failure, where the operation itself has succeeded.
  refine ⟨_, build_heating, heating_isOrigin, .seeded 0, hregular, hdirect, ?_, ?_⟩
  · rw [hserved]
    rfl
  · intro hrefines
    have hok := (hrefines.answer ()).mpr hdirect
    rw [hserved] at hok
    cases hok

/-- A number is set through the form of a board with ten zones: the text that the board holds too
is sent along and comes to the same. During a reboot both ways fail alike. -/
theorem tenZones_over_the_web :
    let t : Moment := ⟨0, ⟨.monday, 8, 0⟩⟩
    let settings : HardwareSettings :=
      ⟨⟨"OFP-10Z"⟩, [("dummy1", .integer 12), ("dummy2", .text "blah")]⟩
    let rebooting := (State.step 10 t (.operation .reboot) (.seeded 0)).2
    ∃ c, build "http://heating:8080/" Operation.root = .ok c ∧ Url.IsOrigin c.base ∧
      State.RegularRun 10 (.seeded 0) ∧
      (State.seeded 0).Regular (.applyHardware settings) ∧ c.Fits (.applyHardware settings) ∧
      (c.served (.applyHardware settings) 10 t (.seeded 0)).1 = .ok () ∧
      (c.served (.applyHardware settings) 10 t (.seeded 0)).2 =
        (State.step 10 t (.operation (.applyHardware settings)) (.seeded 0)).2 ∧
      (c.served .getZones 10 t rebooting).1 =
        .error (.http .get "/ofp-api/v1/zones" 503) := by
  intro t settings rebooting
  have hrun : State.RegularRun 10 (.seeded 0) := .seeded 0
  have hrebooting : State.RegularRun 10 rebooting := .step t .reboot trivial hrun
  have hregular : (State.seeded 0).Regular (.applyHardware settings) :=
    ⟨by decide, [("dummy1", "12")], by rfl⟩
  have hfits : Fits ⟨"http://heating:8080", Operation.root⟩ (.applyHardware settings) :=
    ⟨by decide +kernel, by decide +kernel⟩
  refine ⟨_, build_heating, heating_isOrigin, hrun, hregular, hfits, ?_⟩
  have happlied := (web_refines_direct build_heating heating_isOrigin hrun t hregular).1 hfits
  have hoffline : ¬ rebooting.OnlineAt t.now := by decide +kernel
  have hzones : rebooting.Regular .getZones := trivial
  have hunavailable := (web_refines_direct build_heating heating_isOrigin hrebooting t hzones).1
    ⟨by decide +kernel, by decide⟩
  obtain ⟨hdirect, hsame⟩ := hunavailable.rebooting hoffline
  exact ⟨(happlied.answer ()).mpr (by cbv), happlied.state, hsame.trans hdirect⟩

end Client
end HeatingControl
