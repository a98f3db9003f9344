import HeatingControl.Proofs.Controller.Reboot
import HeatingControl.Proofs.Slot.InForce
import Mathlib.Tactic.SplitIfs

/-!
# The override as an overlay

An override is laid over the zones and looked at by no change. Two runs of the same calls that
differ in the override stay apart by the override alone, and answer alike but for the override
itself and the orders in effect; once it is cleared, nothing tells that there was one.
-/
namespace HeatingControl

structure Answered where
  call : Call
  result : call.Result

namespace Call

def setsOverride : Call → Bool
  | .operation (.putOverride _) => true
  | _ => false

/-- What a result tells beside the override and the orders in effect. -/
def besideOverride : (c : Call) → c.Result → c.Result
  | .operation .getOverride, r => r.map fun _ => .none
  | .operation .getZones, r => r.map fun zones =>
    zones.map fun z => { z with current := Order.fallback }
  | _, r => r

end Call

def Answered.besideOverride (x : Answered) : Answered := ⟨x.call, x.call.besideOverride x.result⟩

/-- Zones that are answered have this order in effect. -/
def Answered.Forced (o : OrderId) (x : Answered) : Prop :=
  ∀ zones, x = ⟨.operation .getZones, .ok zones⟩ → ∀ z ∈ zones, z.current = o

namespace State

abbrev withOverride (value : Override) (s : State) : State := { s with override := value }

def after (grace : Nat) (s : State) (calls : List TimedCall) : State :=
  calls.foldl (fun s e => (step grace e.moment e.call s).2) s

def answers (grace : Nat) : State → List TimedCall → List Answered
  | _, [] => []
  | s, e :: rest =>
    let r := step grace e.moment e.call s
    ⟨e.call, r.1⟩ :: answers grace r.2 rest

section Reads

variable (value : Override) (s : State)

theorem checkOrder_withOverride : (s.withOverride value).checkOrder = s.checkOrder := rfl

theorem checkMode_withOverride : (s.withOverride value).checkMode = s.checkMode := rfl

theorem hasPlanning_withOverride : (s.withOverride value).hasPlanning = s.hasPlanning := rfl

theorem account?_withOverride : (s.withOverride value).account? = s.account? := rfl

end Reads

/-- Comes to the same whatever the override is, and leaves it as it is. -/
def Overlooks {α : Type} (c : Change α) : Prop :=
  ∀ value s, c (s.withOverride value) = ((c s).1, (c s).2.withOverride value)

section Changes

theorem Overlooks.drop {α : Type} {c : Change α} (h : Overlooks c) : Overlooks (State.drop c) := by
  intro value s
  simp only [State.drop, h value s]

theorem patchZone_overlooks (id : ZoneId) (patch : ZonePatch) : Overlooks (patchZone id patch) := by
  intro value s
  simp only [patchZone, checkMode_withOverride]
  split
  · rfl
  · split
    · rfl
    · split_ifs <;> rfl

theorem createPlanning_overlooks (name : PlanningName) : Overlooks (createPlanning name) := by
  intro value s
  simp only [createPlanning]
  split
  · rfl
  · split_ifs <;> rfl

theorem renamePlanning_overlooks (id : PlanningId) (name : PlanningName) :
    Overlooks (renamePlanning id name) := by
  intro value s
  unfold renamePlanning
  rw [hasPlanning_withOverride]
  split
  · rfl
  · split_ifs <;> rfl

theorem deletePlanning_overlooks (id : PlanningId) : Overlooks (deletePlanning id) := by
  intro value s
  simp only [deletePlanning]
  split_ifs <;> rfl

theorem planningSlots_overlooks (id : PlanningId) : Overlooks (planningSlots id) := by
  intro value s
  simp only [planningSlots]
  split <;> rfl

theorem createSlot_overlooks (planning : PlanningId) (slot : NewSlot) :
    Overlooks (createSlot planning slot) := by
  intro value s
  simp only [createSlot, checkOrder_withOverride]
  split
  · rfl
  · split
    · rfl
    · split
      · rfl
      · split_ifs <;> rfl

theorem patchSlot_overlooks (planning : PlanningId) (slot : SlotId) (patch : SlotPatch) :
    Overlooks (patchSlot planning slot patch) := by
  intro value s
  simp only [patchSlot, checkOrder_withOverride]
  split
  · rfl
  · split
    · rfl
    · split
      · rfl
      · split <;> rfl

theorem deleteSlot_overlooks (planning : PlanningId) (slot : SlotId) :
    Overlooks (deleteSlot planning slot) := by
  intro value s
  simp only [deleteSlot]
  split
  · rfl
  · split_ifs <;> rfl

theorem createAccount_overlooks (account : NewAccount) : Overlooks (createAccount account) := by
  intro value s
  unfold createAccount
  rw [account?_withOverride]
  split
  · rfl
  · split_ifs <;> rfl

theorem deleteAccount_overlooks (id : AccountId) : Overlooks (deleteAccount id) := by
  intro value s
  unfold deleteAccount
  rw [account?_withOverride]
  split
  · rfl
  · split_ifs <;> rfl

theorem resetPassword_overlooks (id : AccountId) (reset : PasswordReset) :
    Overlooks (resetPassword id reset) := by
  intro value s
  unfold resetPassword
  rw [account?_withOverride]
  split
  · rfl
  · split_ifs <;> rfl

theorem uploadFirmware_overlooks (image : Bytes) : Overlooks (uploadFirmware image) := by
  intro value s
  unfold uploadFirmware
  split <;> rfl

theorem uploadCertificate_overlooks (bundle : Bytes) : Overlooks (uploadCertificate bundle) := by
  intro value s
  unfold uploadCertificate
  split
  · rfl
  · split <;> rfl

theorem hardwareParameters_overlooks (id : HardwareId) : Overlooks (hardwareParameters id) := by
  intro value s
  simp only [hardwareParameters]
  split <;> rfl

theorem applyHardware_overlooks (settings : HardwareSettings) :
    Overlooks (applyHardware settings) := by
  intro value s
  simp only [applyHardware]
  split
  · rfl
  · split <;> rfl

/-- Only the override and the zones are read through it, and only one operation writes it. -/
theorem perform_overlooks (grace : Nat) (t : Moment) {op : Operation}
    (hput : ∀ value, op ≠ .putOverride value) (hget : op ≠ .getOverride)
    (hzones : op ≠ .getZones) : Overlooks (perform grace t op) := by
  cases op with
  | putOverride value => exact absurd rfl (hput value)
  | getOverride => exact absurd rfl hget
  | getZones => exact absurd rfl hzones
  | getStatus | getOrders | getPlannings | getAccounts | getHardware | reboot =>
    exact fun _ _ => rfl
  | patchZone id patch => exact patchZone_overlooks id patch
  | createPlanning name => exact (createPlanning_overlooks name).drop
  | renamePlanning id name => exact renamePlanning_overlooks id name
  | deletePlanning id => exact deletePlanning_overlooks id
  | getPlanningSlots id => exact planningSlots_overlooks id
  | createSlot planning slot => exact (createSlot_overlooks planning slot).drop
  | patchSlot planning slot patch => exact patchSlot_overlooks planning slot patch
  | deleteSlot planning slot => exact deleteSlot_overlooks planning slot
  | createAccount account => exact createAccount_overlooks account
  | deleteAccount id => exact deleteAccount_overlooks id
  | resetPassword id reset => exact resetPassword_overlooks id reset
  | uploadFirmware image => exact uploadFirmware_overlooks image
  | uploadCertificate bundle => exact uploadCertificate_overlooks bundle
  | getHardwareParameters id => exact hardwareParameters_overlooks id
  | applyHardware settings => exact applyHardware_overlooks settings

end Changes

section Runs

variable {grace : Nat} {t : Moment} {s : State} {c : Call} {calls : List TimedCall}

theorem boot_withOverride (value : Override) (now : Nat) (s : State) :
    (s.withOverride value).boot now = (s.boot now).withOverride value := by
  simp only [boot]
  split
  · rfl
  · split <;> rfl

theorem onlineAt_withOverride (value : Override) {now : Nat} (s : State) :
    (s.withOverride value).OnlineAt now ↔ s.OnlineAt now := by
  rw [OnlineAt, OnlineAt, boot_withOverride]

/-- The other state differs in the override alone, and what is answered in what shows it. -/
theorem performCall_withOverride (h : c.setsOverride = false) (value : Override) (s : State) :
    (performCall grace t c (s.withOverride value)).2 =
        (performCall grace t c s).2.withOverride value ∧
      c.besideOverride (performCall grace t c (s.withOverride value)).1 =
        c.besideOverride (performCall grace t c s).1 := by
  have overlooked {c : Call} (hc : Overlooks (performCall grace t c)) :
      (performCall grace t c (s.withOverride value)).2 =
          (performCall grace t c s).2.withOverride value ∧
        c.besideOverride (performCall grace t c (s.withOverride value)).1 =
          c.besideOverride (performCall grace t c s).1 := by
    rw [hc value s]
    exact ⟨rfl, rfl⟩
  cases c with
  | addPlanning name => exact overlooked (createPlanning_overlooks name)
  | addSlot planning slot => exact overlooked (createSlot_overlooks planning slot)
  | operation op =>
    by_cases hget : op = .getOverride
    · subst hget
      exact ⟨rfl, rfl⟩
    by_cases hzones : op = .getZones
    · subst hzones
      refine ⟨rfl, congrArg Except.ok ?_⟩
      simp only [currentZones, List.map_map]
      rfl
    refine overlooked (c := .operation op) (perform_overlooks grace t ?_ hget hzones)
    rintro value rfl
    cases h

theorem step_withOverride (grace : Nat) (t : Moment) (h : c.setsOverride = false)
    (value : Override) (s : State) :
    (step grace t c (s.withOverride value)).2 = (step grace t c s).2.withOverride value ∧
      c.besideOverride (step grace t c (s.withOverride value)).1 =
        c.besideOverride (step grace t c s).1 := by
  by_cases honline : s.OnlineAt t.now
  · rw [step_of_online ((onlineAt_withOverride value s).mpr honline), step_of_online honline,
      boot_withOverride]
    exact performCall_withOverride h value _
  · rw [step_of_offline (mt (onlineAt_withOverride value s).mp honline), step_of_offline honline,
      boot_withOverride]
    exact ⟨rfl, rfl⟩

theorem run_withOverride (grace : Nat) (hcalls : ∀ e ∈ calls, e.call.setsOverride = false)
    (value : Override) (s : State) :
    after grace (s.withOverride value) calls = (after grace s calls).withOverride value ∧
      (answers grace (s.withOverride value) calls).map Answered.besideOverride =
        (answers grace s calls).map Answered.besideOverride := by
  induction calls generalizing s with
  | nil => exact ⟨rfl, rfl⟩
  | cons e rest ih =>
    obtain ⟨he, hrest⟩ := List.forall_mem_cons.mp hcalls
    obtain ⟨hstate, hresult⟩ := step_withOverride grace e.moment he value s
    obtain ⟨hend, hanswers⟩ := ih hrest (step grace e.moment e.call s).2
    constructor
    · simp only [after, List.foldl_cons, hstate]
      exact hend
    · simp only [answers, List.map_cons, hstate, hanswers, Answered.besideOverride, hresult]

theorem after_override (grace : Nat) (hcalls : ∀ e ∈ calls, e.call.setsOverride = false) :
    (after grace s calls).override = s.override := by
  rw [(run_withOverride grace hcalls s.override s).1]

theorem boot_override (now : Nat) (s : State) : (s.boot now).override = s.override := by
  obtain ⟨_, _, _, _, _, hrecords⟩ := boot_records now s
  rw [hrecords]

theorem zones_answered {zones : List Zone}
    (h : (step grace t (.operation .getZones) s).1 = .ok zones) :
    zones = (s.boot t.now).currentZones t.week := by
  rw [step_of_online (onlineAt_of_ok h)] at h
  exact (Except.ok.inj h).symm

theorem currentOrder_of_forced {o : OrderId} (h : s.override = .order o) (week : WeekTime)
    (z : Zone) : s.currentOrder week z = o := by
  simp only [currentOrder, h]

theorem answers_forced {o : OrderId} (hcalls : ∀ e ∈ calls, e.call.setsOverride = false)
    (hforced : s.override = .order o) : ∀ x ∈ answers grace s calls, x.Forced o := by
  induction calls generalizing s with
  | nil => simp [answers]
  | cons e rest ih =>
    obtain ⟨he, hrest⟩ := List.forall_mem_cons.mp hcalls
    refine List.forall_mem_cons.mpr ⟨?_, ih hrest ?_⟩
    · obtain ⟨moment, call⟩ := e
      rintro zones hx z hz
      obtain ⟨rfl, hresult⟩ := Answered.mk.inj hx
      rw [zones_answered (eq_of_heq hresult)] at hz
      obtain ⟨w, -, rfl⟩ := List.mem_map.mp hz
      exact currentOrder_of_forced ((boot_override ..).trans hforced) moment.week w
    · have hfirst : ∀ x ∈ [e], x.call.setsOverride = false := by simpa using he
      exact (after_override grace hfirst).trans hforced

/-- With no override, the order in effect is what the mode of the zone gives at the moment: the
fixed order, or that of the planning, whose slots are answered at the same moment. -/
def FollowsMode (grace : Nat) (t : Moment) (s : State) (z : Zone) : Prop :=
  match z.mode with
  | .fixed order => z.current = order
  | .planning id => ∃ slots, (step grace t (.operation (.getPlanningSlots id)) s).1 = .ok slots ∧
    (slots = [] → z.current = ⟨"cozy"⟩) ∧
    (slots ≠ [] → activeOrder? slots t.week = some z.current)

theorem followsMode_of_none (hs : Integrity s) (hnone : s.override = .none) {zones : List Zone}
    (h : (step grace t (.operation .getZones) s).1 = .ok zones) :
    ∀ z ∈ zones, FollowsMode grace t s z := by
  intro z hz
  have honline := onlineAt_of_ok h
  have hs := hs.boot t.now
  have hnone := (boot_override t.now s).trans hnone
  rw [zones_answered h] at hz
  obtain ⟨w, hw, rfl⟩ := List.mem_map.mp hz
  have hmode := hs.modes_known w hw
  simp only [FollowsMode, currentOrder, hnone]
  cases hw : w.mode with
  | fixed order => rfl
  | planning id =>
    rw [hw] at hmode
    obtain ⟨slots, hread⟩ := (hs.planningSlots_ok_iff id).mpr hmode
    have hfound : Table.get? id (s.boot t.now).slots = some slots := by
      simp only [planningSlots] at hread
      split at hread
      · rename_i found hfound
        rw [hfound, Except.ok.inj hread]
      · cases hread
    refine ⟨slots, ?_, ?_, ?_⟩
    · rw [step_of_online honline]
      exact hread
    · rintro rfl
      simp only [hfound]
      rfl
    · intro hslots
      obtain ⟨o, ho⟩ := Option.ne_none_iff_exists'.mp
        (mt (activeOrder?_eq_none_iff (t := t.week)).mp hslots)
      simp only [hfound, Option.bind_some, ho, Option.getD_some]

theorem step_boot_of_le {now : Nat} (h : s.BootDue now → now ≤ t.now) (c : Call) :
    step grace t c (s.boot now) = step grace t c s := by
  by_cases hdue : s.BootDue now
  · exact step_congr (boot_boot (h hdue) s) c
  · rw [boot_of_not_due hdue]

theorem run_boot {now : Nat} {last : Moment}
    (h : s.BootDue now → ∀ u ∈ calls.map (·.moment) ++ [last], now ≤ u.now) (c : Call) :
    answers grace (s.boot now) calls = answers grace s calls ∧
      step grace last c (after grace (s.boot now) calls) =
        step grace last c (after grace s calls) := by
  cases calls with
  | nil => exact ⟨rfl, step_boot_of_le (fun hdue => h hdue last (by simp)) c⟩
  | cons e rest =>
    have hfirst : step grace e.moment e.call (s.boot now) = step grace e.moment e.call s :=
      step_boot_of_le (fun hdue => h hdue e.moment (by simp)) e.call
    simp only [answers, after, List.foldl_cons, hfirst, and_self]

end Runs

theorem Reachable.after {grace : Nat} {s : State} (h : Reachable grace s)
    (calls : List TimedCall) : Reachable grace (s.after grace calls) := by
  induction calls generalizing s with
  | nil => exact h
  | cons e rest ih => exact ih (.step e.moment e.call h)

/-- An override is put on a controller that is online, calls of any other kind are made, and it is
cleared. That comes to what the calls and the clearing come to by themselves, at the same moments:
the same state, and the same answers beside the override and the orders in effect. In between every
zone has the order of the override in effect, and afterwards, until there is an override again,
what its mode gives. (Where a reboot is over that no call has finished yet, the instants do not go
back behind the one at which the override is put.) -/
theorem override_is_overlay {grace : Nat} {s : State} (h : Reachable grace s) {t clear : Moment}
    (honline : s.OnlineAt t.now) {o : OrderId} (hknown : s.hasOrder o = true)
    {calls : List TimedCall} (hcalls : ∀ e ∈ calls, e.call.setsOverride = false)
    (hclock : s.BootDue t.now → ∀ u ∈ calls.map (·.moment) ++ [clear], t.now ≤ u.now) :
    let forced := step grace t (.operation (.putOverride (.order o))) s
    let cleared := step grace clear (.operation (.putOverride .none)) (after grace forced.2 calls)
    forced.1 = .ok () ∧
    (answers grace forced.2 calls).map Answered.besideOverride =
      (answers grace s calls).map Answered.besideOverride ∧
    (∀ x ∈ answers grace forced.2 calls, x.Forced o) ∧
    (cleared.1 = .ok () →
      step grace clear (.operation (.putOverride .none)) (after grace s calls) = cleared ∧
      ∀ later, (∀ e ∈ later, e.call.setsOverride = false) → ∀ u zones,
        (step grace u (.operation .getZones) (after grace cleared.2 later)).1 = .ok zones →
        ∀ z ∈ zones, FollowsMode grace u (after grace cleared.2 later) z) := by
  intro forced cleared
  have hforced : forced = (.ok (), (s.boot t.now).withOverride (.order o)) := by
    refine (step_of_online honline _).trans (putOverride_of_known ?_)
    rintro id ⟨⟩
    obtain ⟨_, _, _, _, _, hrecords⟩ := boot_records t.now s
    rw [hrecords]
    exact hknown
  obtain ⟨hanswers, hclear⟩ := run_boot hclock (.operation (.putOverride .none))
  obtain ⟨hstate, hbeside⟩ :=
    run_withOverride grace hcalls (.order o) (s.boot t.now)
  have hafter : after grace forced.2 calls =
      (after grace (s.boot t.now) calls).withOverride (.order o) := by
    rw [hforced]
    exact hstate
  refine ⟨by rw [hforced], ?_, ?_, fun haccepted => ?_⟩
  · rw [hforced, ← hanswers]
    exact hbeside
  · rw [hforced]
    exact answers_forced hcalls rfl
  · have hcleared : cleared = (.ok (),
        ((after grace forced.2 calls).boot clear.now).withOverride .none) :=
      step_of_online (onlineAt_of_ok haccepted) _
    refine ⟨?_, fun later hlater u zones hzones => ?_⟩
    · have honlinePlain : (after grace (s.boot t.now) calls).OnlineAt clear.now := by
        rw [← onlineAt_withOverride (.order o), ← hafter]
        exact onlineAt_of_ok haccepted
      rw [← hclear, hcleared, hafter, boot_withOverride (.order o) clear.now]
      exact step_of_online honlinePlain _
    · have hrun : Reachable grace (after grace cleared.2 later) :=
        .after (.step clear _ (.after (.step t _ h) calls)) later
      have hnone : (after grace cleared.2 later).override = .none := by
        rw [after_override grace hlater, hcleared]
      exact followsMode_of_none hrun.integrity hnone hzones

/-- Under the override a planning in use is deleted, a zone is refused a planning, and the
controller reboots, turning one call away. -/
theorem override_through_reboot :
    let week : WeekTime := ⟨.monday, 8, 0⟩
    let t : Moment := ⟨1, week⟩
    let clear : Moment := ⟨20001, week⟩
    let s := seeded 0
    let calls : List TimedCall :=
      [⟨⟨2, week⟩, .operation (.deletePlanning ⟨1⟩)⟩,
       ⟨⟨3, week⟩, .operation (.patchZone ⟨"e1z1"⟩ ⟨none, some (.planning ⟨1⟩)⟩)⟩,
       ⟨⟨4, week⟩, .operation .reboot⟩, ⟨⟨5, week⟩, .operation .getZones⟩,
       ⟨⟨20000, week⟩, .operation .getZones⟩]
    let forced := step 10 t (.operation (.putOverride (.order ⟨"economy"⟩))) s
    let cleared := step 10 clear (.operation (.putOverride .none)) (after 10 forced.2 calls)
    (Reachable 10 s ∧ s.OnlineAt t.now ∧ s.hasOrder ⟨"economy"⟩ = true ∧
      (∀ e ∈ calls, e.call.setsOverride = false) ∧
      (s.BootDue t.now → ∀ u ∈ calls.map (·.moment) ++ [clear], t.now ≤ u.now)) ∧
    cleared.1 = .ok () ∧
    step 10 clear (.operation (.putOverride .none)) (after 10 s calls) = cleared ∧
    (∀ x ∈ answers 10 forced.2 calls, x.Forced ⟨"economy"⟩) ∧
    ∀ zones, (step 10 clear (.operation .getZones) cleared.2).1 = .ok zones →
      ∀ z ∈ zones, FollowsMode 10 clear cleared.2 z := by
  intro week t clear s calls forced cleared
  have hrun : Reachable 10 s := .seeded 0
  have honline : s.OnlineAt t.now := by decide +kernel
  have hknown : s.hasOrder ⟨"economy"⟩ = true := by decide +kernel
  have hcalls : ∀ e ∈ calls, e.call.setsOverride = false := by decide
  have hclock : s.BootDue t.now → ∀ u ∈ calls.map (·.moment) ++ [clear], t.now ≤ u.now := by
    decide +kernel
  have haccepted : cleared.1 = .ok () := by decide +kernel
  obtain ⟨-, -, hforced, hclear⟩ := override_is_overlay hrun honline hknown hcalls hclock
  obtain ⟨hsame, hmodes⟩ := hclear haccepted
  exact ⟨⟨hrun, honline, hknown, hcalls, hclock⟩, haccepted, hsame, hforced,
    fun zones => hmodes [] (by simp) clear zones⟩

end State
end HeatingControl
