import HeatingControl.Proofs.Controller.Run
import HeatingControl.Rest.Respond

/-!
# The calls of a request

Each demand is a short program of calls. All but two make one call; a form is first completed
with the parameters of the board, and a planning is put together from its slots and its name.
-/
namespace HeatingControl.Rest

def answered : Except Error Response → Response
  | .ok response => response
  | .error e => failure e

def zoneIn (id : ZoneId) (zones : List Zone) : Except Error Response :=
  match zones.find? fun z => z.id = id with
  | some z => .ok (.json 200 (Wire.encode z))
  | none => .error (.notFound "Zone" id.text)

def nameIn (id : PlanningId) (plannings : List Planning) : String :=
  ((plannings.find? fun p => p.id = id).map (·.name)).getD ""

def planningView (id : PlanningId) (name : String) (slots : List Slot) : Response :=
  .json 200 (.object [("id", Wire.encode id), ("name", .text name), ("slots", Wire.encode slots)])

def applyForm (board : HardwareId) (fields : List (String × String))
    (parameters : List HardwareParameter) : Task (Except Error Response) :=
  match HardwareSettings.ofForm board fields parameters with
  | .error e => .done (.error (.validation e))
  | .ok settings =>
    .ask (.operation (.applyHardware settings)) fun r => .done (r.map fun _ => .empty 204)

theorem load_operation (op : Operation) :
    (Demand.operation op).load.run =
      .ask (.operation op) fun r => .done (r.map (success op)) := by
  refine congrArg (Program.ask _) (funext fun r => ?_)
  cases r <;> rfl

theorem load_addPlanning (name : PlanningName) :
    (Demand.addPlanning name).load.run =
      .ask (.addPlanning name) fun r => .done (r.map fun p => .json 201 (Wire.encode p)) := by
  refine congrArg (Program.ask _) (funext fun r => ?_)
  cases r <;> rfl

theorem load_addSlot (planning : PlanningId) (slot : NewSlot) :
    (Demand.addSlot planning slot).load.run =
      .ask (.addSlot planning slot) fun r => .done (r.map fun x => .json 201 (Wire.encode x)) := by
  refine congrArg (Program.ask _) (funext fun r => ?_)
  cases r <;> rfl

theorem load_zone (id : ZoneId) :
    (Demand.zone id).load.run =
      .ask (.operation .getZones) fun r => .done (r.bind (zoneIn id)) := by
  refine congrArg (Program.ask _) (funext fun r => ?_)
  cases r with
  | error e => rfl
  | ok zones =>
    simp only [Except.bind, zoneIn]
    cases hfind : List.find? (fun z => decide (z.id = id)) zones with
    | none =>
      simp only [Program.bind, ExceptT.bindCont, hfind]
      rfl
    | some z =>
      simp only [Program.bind, ExceptT.bindCont, hfind]
      rfl

theorem load_planning (id : PlanningId) :
    (Demand.planning id).load.run =
      .ask (.operation (.getPlanningSlots id)) fun
        | .error e => .done (.error e)
        | .ok slots => .ask (.operation .getPlannings) fun r =>
          .done (r.map fun plannings => planningView id (nameIn id plannings) slots) := by
  refine congrArg (Program.ask _) (funext fun r => ?_)
  cases r with
  | error e => rfl
  | ok slots =>
    refine congrArg (Program.ask _) (funext fun r => ?_)
    cases r <;> rfl

theorem boardOf_formFields (settings : HardwareSettings) :
    boardOf settings.formFields = .ok ⟨Text.trim settings.hardware.text⟩ := by
  simp only [boardOf, HardwareSettings.formFields]
  rw [List.find?_cons_of_pos (by simp)]

theorem load_hardwareForm (fields : List (String × String)) :
    (Demand.hardwareForm fields).load.run =
      match boardOf fields with
      | .error e => .done (.error e)
      | .ok board => .ask (.operation (.getHardwareParameters board)) fun
        | .error e => .done (.error e)
        | .ok parameters => applyForm board fields parameters := by
  simp only [Demand.load]
  cases boardOf fields with
  | error e => rfl
  | ok board =>
    refine congrArg (Program.ask _) (funext fun r => ?_)
    cases r with
    | error e => rfl
    | ok parameters =>
      simp only [applyForm]
      cases hform : HardwareSettings.ofForm board fields parameters with
      | error e =>
        simp only [Program.bind, ExceptT.bindCont, hform]
        rfl
      | ok settings =>
        simp only [Program.bind, ExceptT.bindCont, hform]
        refine congrArg (Program.ask _) (funext fun r => ?_)
        cases r <;> rfl

theorem demand_respond (d : Demand) :
    d.respond = d.load.run.bind fun result => .done (answered result) := by
  refine congrArg (d.load.run.bind ·) (funext fun result => ?_)
  cases result <;> rfl

theorem respond_eq (r : Request) :
    respond r = Program.bind
      (match demand r with
        | .error refusal => .done refusal.response
        | .ok d => d.load.run.bind fun result => .done (answered result))
      fun response => .done (if r.method = "HEAD" then response.bodiless else response) := by
  unfold respond
  cases demand r with
  | error refusal => rfl
  | ok d => exact congrArg (Program.bind · _) (demand_respond d)

theorem respond_of_demand {r : Request} {d : Demand} (h : demand r = .ok d)
    (hmethod : r.method ≠ "HEAD") :
    respond r = d.load.run.bind fun result => .done (answered result) := by
  rw [respond_eq, h]
  simp only [if_neg hmethod]
  exact Program.bind_done _

/-- A call that leaves the records alone, also when it succeeds. -/
def Quiet (c : Call) : Prop :=
  ∀ (grace : Nat) (t : Moment) (s : State), (State.step grace t c s).2 = s.boot t.now

theorem quiet_of_perform {c : Call}
    (h : ∀ grace t s, (State.performCall grace t c s).2 = s) : Quiet c := by
  intro grace t s
  by_cases honline : s.OnlineAt t.now
  · rw [State.step_of_online honline, h]
  · rw [State.step_of_offline honline]

theorem quiet_planningSlots (id : PlanningId) : Quiet (.operation (.getPlanningSlots id)) := by
  refine quiet_of_perform fun grace t s => ?_
  change (State.planningSlots id s).2 = s
  unfold State.planningSlots
  split
  · rfl
  · rfl

theorem quiet_hardwareParameters (id : HardwareId) :
    Quiet (.operation (.getHardwareParameters id)) := by
  refine quiet_of_perform fun grace t s => ?_
  change (State.hardwareParameters id s).2 = s
  unfold State.hardwareParameters
  split
  · rfl
  · rfl

end HeatingControl.Rest
