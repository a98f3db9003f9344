import HeatingControl.Proofs.Controller.Atomicity
import HeatingControl.Proofs.Controller.Frame

/-!
# Reboots during a run

A reboot is finished by the first call that is made when its time is over. Until then every call is
turned away; that call finds the records as they were, and runs the image of the last upload that
was accepted since the start before. Nothing is assumed of the order of the instants.
-/
namespace HeatingControl

structure TimedCall where
  moment : Moment
  call : Call
  deriving DecidableEq, Repr

namespace State

instance (s : State) (now : Nat) : Decidable (s.BootDue now) :=
  decidable_of_iff (s.rebootingUntil.any (· ≤ now) = true) (by simp [BootDue, Option.any_eq_true])

def uploaded? (grace : Nat) (t : Moment) (s : State) : Call → Option FirmwareImage
  | .operation (.uploadFirmware image) =>
    match (step grace t (.operation (.uploadFirmware image)) s).1 with
    | .ok _ => (FirmwareImage.inspect image).toOption
    | .error _ => none
  | _ => none

/-- A run with what was uploaded and what was started in it. -/
structure Watch where
  state : State
  /-- The image of the last upload that was accepted since the last start. -/
  upload : Option FirmwareImage
  /-- The applications that were started, the latest at the end. -/
  started : List AppDescriptor
  deriving DecidableEq, Repr

namespace Watch

def seeded (now : Nat) : Watch := ⟨.seeded now, none, []⟩

/-- The application that the next start runs; none where it is the one that runs already. -/
def pending (w : Watch) : Option AppDescriptor := w.upload.bind (·.descriptor)

/-- Where a reboot is over, what was uploaded is started and is no longer an upload. -/
def boot (now : Nat) (w : Watch) : Watch :=
  if w.state.BootDue now then ⟨w.state.boot now, none, w.started ++ w.pending.toList⟩ else w

def next (grace : Nat) (w : Watch) (e : TimedCall) : Watch :=
  let w := w.boot e.moment.now
  { w with
    state := (step grace e.moment e.call w.state).2
    upload := (uploaded? grace e.moment w.state e.call).or w.upload }

def play (grace : Nat) (w : Watch) (calls : List TimedCall) : Watch := calls.foldl (next grace) w

end Watch

def failure? {α : Type} : Except Error α → Option Error
  | .ok _ => none
  | .error e => some e

def failures (grace : Nat) : State → List TimedCall → List (Option Error)
  | _, [] => []
  | s, e :: rest =>
    let r := step grace e.moment e.call s
    failure? r.1 :: failures grace r.2 rest

section Staging

variable {grace : Nat} {t : Moment} {s u : State}

theorem uploadFirmware_eq (image : Bytes) :
    uploadFirmware image s =
      match FirmwareImage.inspect image with
      | .ok i => (.ok (), { s with staged := i.descriptor })
      | .error e => (.error (.validation e), s) := by
  unfold uploadFirmware
  cases FirmwareImage.inspect image with
  | ok i => rfl
  | error e => rfl

theorem perform_staged {op : Operation} (h : ∀ image, op ≠ .uploadFirmware image) :
    (perform grace t op s).2.staged = s.staged := by
  obtain ⟨u, hframe⟩ := perform_frame grace t op s
  rw [hframe]
  cases op with
  | uploadFirmware image => exact absurd rfl (h image)
  | _ => rfl

theorem performCall_staged {c : Call} (h : ∀ image, c ≠ .operation (.uploadFirmware image)) :
    (performCall grace t c s).2.staged = s.staged := by
  cases c with
  | operation op => exact perform_staged fun image hop => h image (congrArg Call.operation hop)
  | addPlanning name =>
    have hsame : (performCall grace t (.addPlanning name) s).2 =
        (perform grace t (.createPlanning name) s).2 := rfl
    rw [hsame]
    exact perform_staged fun image => by rintro ⟨⟩
  | addSlot planning slot =>
    have hsame : (performCall grace t (.addSlot planning slot) s).2 =
        (perform grace t (.createSlot planning slot) s).2 := rfl
    rw [hsame]
    exact perform_staged fun image => by rintro ⟨⟩

theorem Transition.firmware (h : Transition s u) : u.firmware = s.firmware := by
  cases h <;> rfl

theorem performCall_firmware (hs : Integrity s) (c : Call) :
    (performCall grace t c s).2.firmware = s.firmware := by
  have hsettles := performCall_settles s hs.slot_keys_distinct grace t c
  generalize performCall grace t c s = r at hsettles
  cases hsettles with
  | refused e => rfl
  | missed entity id => rfl
  | accepted a h => exact h.firmware

theorem boot_of_offline {now : Nat} (h : ¬ s.OnlineAt now) : s.boot now = s :=
  boot_of_not_due fun hdue => h (boot_of_due hdue)

theorem boot_staged_of_due {now : Nat} (h : s.BootDue now) : (s.boot now).staged = none := by
  obtain ⟨ending, hpending, hle⟩ := h
  simp [boot, hpending, Nat.not_lt.mpr hle]

theorem boot_firmware_of_due {now : Nat} (h : s.BootDue now) :
    (s.boot now).firmware = s.staged.toList.foldl flashed s.firmware := by
  obtain ⟨ending, hpending, hle⟩ := h
  cases hstaged : s.staged <;> simp [boot, hpending, Nat.not_lt.mpr hle, hstaged]

end Staging

namespace Watch

/-- What is staged and what runs is told by the uploads and the starts. -/
structure Kept (w : Watch) : Prop where
  staged : w.state.staged = w.pending
  firmware : w.state.firmware = w.started.foldl flashed Seed.firmware

section Keeping

variable {grace : Nat} {w : Watch}

theorem boot_state (now : Nat) (w : Watch) : (w.boot now).state = w.state.boot now := by
  unfold boot
  by_cases hdue : w.state.BootDue now
  · rw [if_pos hdue]
  · rw [if_neg hdue, boot_of_not_due hdue]

theorem next_state (w : Watch) (e : TimedCall) :
    (w.next grace e).state = (step grace e.moment e.call w.state).2 := by
  rw [next, boot_state, step_boot]

theorem Kept.boot (h : w.Kept) (now : Nat) : (w.boot now).Kept := by
  unfold Watch.boot
  by_cases hdue : w.state.BootDue now
  · rw [if_pos hdue]
    constructor
    · exact boot_staged_of_due hdue
    · rw [boot_firmware_of_due hdue, h.staged, h.firmware, ← List.foldl_append]
  · rw [if_neg hdue]
    exact h

/-- An accepted upload takes the place of the one before, also when it carries no application. -/
theorem Kept.perform (h : w.Kept) (hs : Integrity w.state) (t : Moment) (c : Call)
    (honline : w.state.rebootingUntil = none) :
    Kept { w with
      state := (performCall grace t c w.state).2
      upload := (uploaded? grace t w.state c).or w.upload } := by
  have hstep : ∀ c, step grace t c w.state = performCall grace t c w.state := by
    intro c
    rw [step_of_online (onlineAt_of_idle t.now honline), boot_of_idle honline]
  refine ⟨?_, (performCall_firmware hs c).trans h.firmware⟩
  by_cases hupload : ∃ image, c = .operation (.uploadFirmware image)
  · obtain ⟨image, rfl⟩ := hupload
    simp only [uploaded?, hstep, pending]
    simp only [performCall, State.perform, uploadFirmware_eq]
    cases FirmwareImage.inspect image with
    | ok i => rfl
    | error e => exact h.staged
  · have hother : ∀ image, c ≠ .operation (.uploadFirmware image) :=
      fun image hc => hupload ⟨image, hc⟩
    have hnone : uploaded? grace t w.state c = none := by
      unfold uploaded?
      split
      · exact absurd rfl (hother _)
      · rfl
    rw [performCall_staged hother, hnone]
    exact h.staged

theorem next_of_offline {e : TimedCall} (h : ¬ w.state.OnlineAt e.moment.now) :
    w.next grace e = w := by
  have hboot : w.boot e.moment.now = w := if_neg fun hdue => h (boot_of_due hdue)
  have hnone : uploaded? grace e.moment w.state e.call = none := by
    unfold uploaded?
    split
    · rw [step_of_offline h]
    · rfl
  rw [Watch.next, hboot, hnone, step_of_offline h, boot_of_offline h]
  rfl

theorem Kept.next (h : w.Kept) (hs : Integrity w.state) (e : TimedCall) :
    (w.next grace e).Kept := by
  by_cases honline : w.state.OnlineAt e.moment.now
  · have hi := hs.boot e.moment.now
    have hidle : (w.boot e.moment.now).state.rebootingUntil = none := by
      rw [boot_state]
      exact honline
    rw [← boot_state] at hi
    rw [Watch.next, step_of_online (onlineAt_of_idle _ hidle), boot_of_idle hidle]
    exact (h.boot e.moment.now).perform hi e.moment e.call hidle
  · rw [next_of_offline honline]
    exact h

theorem Kept.play (h : w.Kept) (hrun : Reachable grace w.state) (calls : List TimedCall) :
    (w.play grace calls).Kept ∧ Reachable grace (w.play grace calls).state := by
  induction calls generalizing w with
  | nil => exact ⟨h, hrun⟩
  | cons e calls ih =>
    apply ih (h.next hrun.integrity e)
    rw [next_state]
    exact .step e.moment e.call hrun

theorem play_seeded (grace now : Nat) (calls : List TimedCall) :
    ((seeded now).play grace calls).Kept ∧
      Reachable grace ((seeded now).play grace calls).state :=
  Kept.play ⟨rfl, rfl⟩ (.seeded now) calls

theorem play_of_offline {calls : List TimedCall}
    (h : ∀ e ∈ calls, ¬ w.state.OnlineAt e.moment.now) :
    w.play grace calls = w ∧
      failures grace w.state calls = calls.map fun e => some (unavailable e.call) := by
  induction calls with
  | nil => exact ⟨rfl, rfl⟩
  | cons e calls ih =>
    have hoffline := h e (List.mem_cons_self ..)
    have hnext : w.next grace e = w := next_of_offline hoffline
    obtain ⟨hplay, hfail⟩ := ih fun e he => h e (List.mem_cons_of_mem _ he)
    constructor
    · rw [play, List.foldl_cons, hnext]
      exact hplay
    · rw [failures, step_of_offline hoffline, boot_of_offline hoffline, hfail]
      rfl

end Keeping
end Watch

/-- The records, which a start does not touch. -/
structure SameRecords (s u : State) : Prop where
  orders : u.orders = s.orders
  override : u.override = s.override
  zones : u.zones = s.zones
  plannings : u.plannings = s.plannings
  slots : u.slots = s.slots
  accounts : u.accounts = s.accounts
  hardware : u.hardware = s.hardware
  parameters : u.parameters = s.parameters
  certificates : u.certificates = s.certificates

/-- The identity of an application on the other partition. -/
structure Flashed (app : AppDescriptor) (before after : RunningFirmware) : Prop where
  name : after.name = app.projectName
  version : after.version = app.version
  compiledDate : after.compiledDate = app.date
  compiledTime : after.compiledTime = app.time
  frameworkVersion : after.frameworkVersion = app.frameworkVersion
  toggled : (before.partition = "ota_0" ∧ after.partition = "ota_1") ∨
    (before.partition = "ota_1" ∧ after.partition = "ota_0")
  partitionSize : after.partitionSize = before.partitionSize

/-- A state after a start, with the records of another one and nothing left to start. -/
structure Restarted (upload : Option FirmwareImage) (s u : State) : Prop where
  idle : u.rebootingUntil = none
  records : SameRecords s u
  consumed : u.staged = none
  flashed : ∀ app, upload.bind (·.descriptor) = some app → Flashed app s.firmware u.firmware
  kept : upload.bind (·.descriptor) = none → u.firmware = s.firmware

theorem flashed_partition (apps : List AppDescriptor) {f : RunningFirmware}
    (h : f.partition = "ota_0" ∨ f.partition = "ota_1") :
    (apps.foldl flashed f).partition = "ota_0" ∨ (apps.foldl flashed f).partition = "ota_1" := by
  induction apps generalizing f with
  | nil => exact h
  | cons app apps ih =>
    apply ih
    rcases h with h | h
    · exact Or.inr (if_pos h)
    · refine Or.inl (if_neg ?_)
      rw [h]
      decide

theorem flashed_spec (app : AppDescriptor) {f : RunningFirmware}
    (h : f.partition = "ota_0" ∨ f.partition = "ota_1") : Flashed app f (flashed f app) := by
  refine ⟨rfl, rfl, rfl, rfl, rfl, ?_, rfl⟩
  rcases h with h | h
  · exact Or.inl ⟨h, if_pos h⟩
  · refine Or.inr ⟨h, if_neg ?_⟩
    rw [h]
    decide

theorem reboot_ok {grace : Nat} {t : Moment} {s : State} {page : String}
    (h : (step grace t (.operation .reboot) s).1 = .ok page) :
    (step grace t (.operation .reboot) s).2 =
      { s.boot t.now with rebootingUntil := some (t.now + grace * 1000) } := by
  rw [step_of_online (onlineAt_of_ok h)]
  rfl

theorem not_onlineAt_of_pending {s : State} {ending now : Nat}
    (hpending : s.rebootingUntil = some ending) (hlt : now < ending) : ¬ s.OnlineAt now := by
  have hnotDue : ¬ s.BootDue now := by
    rintro ⟨due, hdue, hle⟩
    rw [hpending, Option.some.injEq] at hdue
    omega
  intro honline
  rw [OnlineAt, boot_of_not_due hnotDue, hpending] at honline
  cases honline

theorem boot_sameRecords (now : Nat) (s : State) : SameRecords s (s.boot now) := by
  obtain ⟨_, _, _, _, _, hboot⟩ := boot_records now s
  rw [hboot]
  constructor <;> rfl

/-- The start that ends a reboot, in a run whose uploads are known. -/
theorem Watch.Kept.restarted {w : Watch} {s : State} {ending now : Nat} (h : w.Kept)
    (hstate : w.state = { s with rebootingUntil := some ending }) (hle : ending ≤ now) :
    Restarted w.upload s (w.state.boot now) := by
  have hdue : w.state.BootDue now := ⟨ending, by rw [hstate], hle⟩
  have hfirmware : w.state.firmware = s.firmware := by rw [hstate]
  have hpartition : s.firmware.partition = "ota_0" ∨ s.firmware.partition = "ota_1" := by
    rw [← hfirmware, h.firmware]
    exact flashed_partition _ (Or.inl rfl)
  have hruns : (w.state.boot now).firmware = w.pending.toList.foldl State.flashed s.firmware := by
    rw [boot_firmware_of_due hdue, h.staged, hfirmware]
  constructor
  · exact boot_of_due hdue
  · have hsame := boot_sameRecords now w.state
    rw [hstate] at hsame ⊢
    exact ⟨hsame.orders, hsame.override, hsame.zones, hsame.plannings, hsame.slots,
      hsame.accounts, hsame.hardware, hsame.parameters, hsame.certificates⟩
  · exact boot_staged_of_due hdue
  · intro app happ
    rw [hruns, show w.pending = some app from happ]
    exact flashed_spec app hpartition
  · intro hnone
    rw [hruns, show w.pending = none from hnone]
    rfl

/-- In every run a reboot that is accepted turns every call away until its time is over, another
reboot too, and nothing changes meanwhile. The first call after that finds the records of the
moment of the reboot, runs the application of the last upload that was accepted since the start
before, on the other partition, or what ran before where that upload carries none, and leaves
nothing to start. So what runs is at any time told by the applications started so far, each of
them once. -/
theorem reboot_cycle {grace : Nat} (start : Nat) (calls : List TimedCall) (t : Moment)
    {page : String} :
    let before := (Watch.seeded start).play grace calls
    let w := before.next grace ⟨t, .operation .reboot⟩
    let ending := t.now + grace * 1000
    (step grace t (.operation .reboot) before.state).1 = .ok page →
    w.state.firmware = w.started.foldl flashed Seed.firmware ∧
    ∀ waiting : List TimedCall, (∀ e ∈ waiting, e.moment.now < ending) →
      failures grace w.state waiting = waiting.map (fun e =>
        some (.http e.call.verb (Operation.root ++ e.call.endpoint) 503)) ∧
      w.play grace waiting = w ∧
      ∀ first : TimedCall, ending ≤ first.moment.now →
        ∃ s, Restarted w.upload (before.state.boot t.now) s ∧
          step grace first.moment first.call w.state =
            performCall grace first.moment first.call s := by
  intro before w ending hok
  obtain ⟨hkept, hrun⟩ := Watch.play_seeded grace start calls
  have hstate : w.state = { before.state.boot t.now with rebootingUntil := some ending } := by
    rw [Watch.next_state]
    exact reboot_ok hok
  have hw : w.Kept := hkept.next hrun.integrity _
  refine ⟨hw.firmware, ?_⟩
  intro waiting hwaiting
  have hoffline : ∀ e ∈ waiting, ¬ w.state.OnlineAt e.moment.now := by
    intro e he
    exact not_onlineAt_of_pending (by rw [hstate]) (hwaiting e he)
  obtain ⟨hplay, hfail⟩ :
      w.play grace waiting = w ∧
        failures grace w.state waiting = waiting.map fun e => some (unavailable e.call) :=
    Watch.play_of_offline hoffline
  refine ⟨hfail, hplay, ?_⟩
  intro first hfirst
  have hdue : w.state.BootDue first.moment.now := ⟨ending, by rw [hstate], hfirst⟩
  refine ⟨w.state.boot first.moment.now, ?_, step_of_online (boot_of_due hdue) _⟩
  exact hw.restarted hstate hfirst

def bareImage : Bytes :=
  FirmwareImage.imageMagic :: List.replicate 31 0 ++ FirmwareImage.descriptorMagic ++
    List.replicate 12 0 ++ [0x32, 0x2E, 0x30] ++ List.replicate 237 0

/-- The reboot comes between two calls that are turned away and one that is not. -/
theorem bareImage_runs_after_reboot :
    let clock := fun now : Nat => Moment.mk now ⟨.monday, 8, 0⟩
    let before := (Watch.seeded 0).play 10 [⟨clock 5, .operation (.uploadFirmware bareImage)⟩]
    let w := before.next 10 ⟨clock 7, .operation .reboot⟩
    let waiting : List TimedCall :=
      [⟨clock 7, .operation .reboot⟩, ⟨clock 10006, .operation (.deletePlanning ⟨0⟩)⟩]
    (step 10 (clock 7) (.operation .reboot) before.state).1 = .ok (waitPage 10) ∧
      (∀ e ∈ waiting, e.moment.now < (clock 7).now + 10 * 1000) ∧
      failures 10 w.state waiting =
        [some (.http .get "/ofp-api/v1/reboot" 503),
          some (.http .delete "/ofp-api/v1/plannings/0" 503)] ∧
      w.play 10 waiting = w ∧
      ∃ s, Restarted (some ⟨288, some ⟨"2.0", "", "", "", ""⟩⟩) (before.state.boot 7) s ∧
        step 10 (clock 10007) (.operation (.deletePlanning ⟨0⟩)) w.state =
          performCall 10 (clock 10007) (.operation (.deletePlanning ⟨0⟩)) s := by
  intro clock before w waiting
  have hok : (step 10 (clock 7) (.operation .reboot) before.state).1 = .ok (waitPage 10) := by
    rw [step_of_online (by decide +kernel)]
    rfl
  have hwaiting : ∀ e ∈ waiting, e.moment.now < (clock 7).now + 10 * 1000 := by decide
  have hupload : w.upload = some ⟨288, some ⟨"2.0", "", "", "", ""⟩⟩ := by decide +kernel
  obtain ⟨-, hcycle⟩ := reboot_cycle 0
    [⟨clock 5, .operation (.uploadFirmware bareImage)⟩] (clock 7) hok
  obtain ⟨hfail, hplay, hfirst⟩ := hcycle waiting hwaiting
  obtain ⟨s, hs, hstep⟩ := hfirst ⟨clock 10007, .operation (.deletePlanning ⟨0⟩)⟩ (by decide)
  refine ⟨hok, hwaiting, hfail.trans ?_, hplay, s, ?_, hstep⟩
  · decide +kernel
  · rw [← hupload]
    exact hs

end State
end HeatingControl
